import AuditGateway.Go.Strings
import Mathlib.Data.List.Forall2

/-!
# Routes

The registry of routes matches the path of a request with patterns. A pattern is a sequence of segments, some
of which stand for any segment, perhaps with `*` at the end for those that are left; or it is a text with `*` at
its end, for the text itself and what is below it. `matchPath` tells the forms apart by the characters
of the pattern, and matches segments one by one.
-/

namespace AuditGateway.Gateway

open AuditGateway.Framework AuditGateway.Go

/-! ## Matching -/

def splitPath (path : GoString) : List GoString :=
  let withoutLeadingSlash := if [47].isPrefixOf path then path.drop 1 else path
  if withoutLeadingSlash = [] then [] else withoutLeadingSlash.splitOn 47

/-- The end of `matchSegmentPath`: the segments are compared one by one. -/
def compareSegments (pattern path : GoString) (patternSegments pathSegments : List GoString) : Bool :=
  if [47].isSuffixOf pattern ≠ [47].isSuffixOf path then false
  else if patternSegments.length ≠ pathSegments.length then false
  else (patternSegments.zip pathSegments).all fun segment =>
    segment.2 ≠ [] && ([58].isPrefixOf segment.1 || segment.1 = segment.2)

def matchSegmentPath (pattern path : GoString) : Bool :=
  let patternSegments := splitPath pattern
  let pathSegments := splitPath path
  if patternSegments = [] ∨ pathSegments = [] then false
  else if patternSegments.getLast? = some [42] then
    let fixed := patternSegments.length - 1
    if pathSegments.length ≤ fixed then false
    else if (pathSegments.drop fixed).any (· = []) then false
    else compareSegments pattern path (patternSegments.take fixed) (pathSegments.take fixed)
  else if patternSegments.length ≠ pathSegments.length then false
  else compareSegments pattern path patternSegments pathSegments

def matchPath (pattern path : GoString) : Bool :=
  if pattern = path then true
  else if 58 ∈ pattern then matchSegmentPath pattern path
  else if [42].isSuffixOf pattern then
    let stem := pattern.dropLast
    if [47].isSuffixOf stem then matchSegmentPath pattern path
    else path = stem || (stem ++ [47]).isPrefixOf path
  else false

structure RouteEntry where
  method : GoString
  pathPattern : GoString

/-- `Registry.Match`. -/
def registryMatch (entries : List RouteEntry) (method path : GoString) : Option RouteEntry :=
  entries.find? fun entry => entry.method = method && matchPath entry.pathPattern path

/-! ## What patterns describe -/

inductive RouteSegment
  | literal (text : GoString) (segment : IsSegment 47 text) (fixed : ¬ [58] <+: text)
  | param (name : GoString) (segment : 47 ∉ name)

def RouteSegment.text : RouteSegment → GoString
  | .literal text _ _ => text
  | .param name _ => 58 :: name

/-- A segment of a path that a segment of a pattern stands for. -/
def RouteSegment.Fits : RouteSegment → GoString → Prop
  | .literal text _ _, value => value = text
  | .param _ _, value => IsSegment 47 value

/-- Segments, with `*` at the end if there may be others. -/
structure SegmentPattern where
  segments : List RouteSegment
  rest : Bool
  last : rest = false → ∀ segment ∈ segments.getLast?, segment.text ≠ [42]

def SegmentPattern.texts (p : SegmentPattern) : List GoString :=
  p.segments.map RouteSegment.text ++ if p.rest then [[42]] else []

def SegmentPattern.text (p : SegmentPattern) : GoString := 47 :: [47].intercalate p.texts

/-- The path has a segment for each of the pattern, and one or more others for `*`. -/
def SegmentPattern.Describes (p : SegmentPattern) (path : GoString) : Prop :=
  ∃ values others : List GoString, List.Forall₂ RouteSegment.Fits p.segments values ∧
    (∀ other ∈ others, IsSegment 47 other) ∧ (others ≠ [] ↔ p.rest = true) ∧
    path = 47 :: [47].intercalate (values ++ others)

/-- A text with `*` at its end. -/
structure TextPattern where
  stem : GoString
  slash : [47] <+: stem
  plain : 58 ∉ stem
  segment : ¬ [47] <:+ stem

def TextPattern.text (p : TextPattern) : GoString := p.stem ++ [42]

def TextPattern.Describes (p : TextPattern) (path : GoString) : Prop := path = p.stem ∨ p.stem ++ [47] <+: path

/-- A pattern of one of the two forms. -/
def IsPattern (pattern : GoString) : Prop :=
  (∃ p : SegmentPattern, p.text = pattern) ∨ ∃ p : TextPattern, p.text = pattern

/-- The paths that a pattern describes, in the forms that it has. -/
def PatternDescribes (pattern path : GoString) : Prop :=
  path = pattern ∨ (∃ p : SegmentPattern, p.text = pattern ∧ p.Describes path) ∨
    ∃ p : TextPattern, p.text = pattern ∧ p.Describes path

/-! ## Segments -/

section

variable {p : SegmentPattern} {segment : RouteSegment} {path s value : GoString}

theorem splitPath_slash (s : GoString) : splitPath (47 :: s) = if s = [] then [] else s.splitOn 47 := rfl

theorem splitPath_intercalate {segments : List GoString} (h : ∀ segment ∈ segments, IsSegment 47 segment)
    (hne : segments ≠ []) : splitPath (47 :: [47].intercalate segments) = segments := by
  rw [splitPath_slash, if_neg (intercalate_ne_nil 47 (fun segment hsegment => (h segment hsegment).1) hne)]
  exact List.splitOn_intercalate 47 (fun segment hsegment => (h segment hsegment).2) hne

theorem isSegment_text (segment : RouteSegment) : IsSegment 47 segment.text := by
  cases segment with
  | literal text segment fixed => exact segment
  | param name segment => exact ⟨List.cons_ne_nil 58 name, by simpa [RouteSegment.text] using segment⟩

theorem isSegment_texts : ∀ text ∈ p.texts, IsSegment 47 text := by
  refine List.forall_mem_append.2 ⟨List.forall_mem_map.2 fun segment _ => isSegment_text segment, ?_⟩
  cases p.rest with
  | false => exact List.forall_mem_nil _
  | true => exact List.forall_mem_singleton.2 (by decide)

theorem not_slash_suffix {segments : List GoString} (h : ∀ segment ∈ segments, IsSegment 47 segment)
    (hne : segments ≠ []) : [47].isSuffixOf (47 :: [47].intercalate segments) = false := by
  refine Bool.eq_false_iff.2 fun hsuffix => getLast?_intercalate_ne h ?_
  obtain ⟨t, ht⟩ := List.isSuffixOf_iff_suffix.1 hsuffix
  change t ++ [47] = [47] ++ [47].intercalate segments at ht
  have hnil := intercalate_ne_nil 47 (fun segment hsegment => (h segment hsegment).1) hne
  rw [← List.getLast?_append_of_ne_nil [47] hnil, ← ht]
  exact List.getLast?_concat

theorem fits_iff (hvalue : 47 ∉ value) :
    segment.Fits value ↔ value ≠ [] ∧ ([58] <+: segment.text ∨ segment.text = value) := by
  cases segment with
  | literal text segment fixed =>
    constructor
    · intro h
      exact ⟨h.symm ▸ segment.1, .inr h.symm⟩
    · rintro ⟨-, h | h⟩
      · exact absurd h fixed
      · exact h.symm
  | param name segment => exact ⟨fun h => ⟨h.1, .inl (List.prefix_append [58] name)⟩, fun h => ⟨h.1, hvalue⟩⟩

variable {segments : List RouteSegment} {values : List GoString}

theorem zip_all_iff (hvalues : ∀ value ∈ values, 47 ∉ value) :
    segments.length = values.length ∧ (((segments.map RouteSegment.text).zip values).all fun segment =>
        segment.2 ≠ [] && ([58].isPrefixOf segment.1 || segment.1 = segment.2)) = true ↔
      List.Forall₂ RouteSegment.Fits segments values := by
  induction segments generalizing values with
  | nil =>
    cases values with
    | nil => simp
    | cons value values => exact iff_of_false (by simp) nofun
  | cons segment segments ih =>
    cases values with
    | nil => exact iff_of_false (by simp) nofun
    | cons value values =>
      obtain ⟨hvalue, hvalues⟩ := List.forall_mem_cons.1 hvalues
      rw [List.forall₂_cons, ← ih hvalues, fits_iff hvalue]
      simp only [List.length_cons, Nat.add_right_cancel_iff, List.map_cons, List.zip_cons_cons, List.all_cons,
        Bool.and_eq_true, Bool.or_eq_true, decide_eq_true_eq, List.isPrefixOf_iff_prefix]
      exact and_left_comm

variable {pattern : GoString}

theorem compareSegments_iff
    (hvalues : ∀ value ∈ values, 47 ∉ value) :
    compareSegments pattern path (segments.map RouteSegment.text) values = true ↔
      [47].isSuffixOf pattern = [47].isSuffixOf path ∧ List.Forall₂ RouteSegment.Fits segments values := by
  unfold compareSegments
  rw [← zip_all_iff hvalues, List.length_map]
  by_cases hslash : [47].isSuffixOf pattern = [47].isSuffixOf path
  · by_cases hlength : segments.length = values.length
    · simp [hslash, hlength]
    · simp [hlength]
  · simp [hslash]

theorem isSegment_of_fits
    (h : List.Forall₂ RouteSegment.Fits segments values) : ∀ value ∈ values, IsSegment 47 value := by
  induction h with
  | nil => exact List.forall_mem_nil _
  | @cons segment value segments values hfits _ ih =>
    refine List.forall_mem_cons.2 ⟨?_, ih⟩
    cases segment with
    | literal text segment fixed => exact hfits.symm ▸ segment
    | param name segment => exact hfits

theorem describes_iff (hne : p.texts ≠ []) (s : GoString) :
    p.Describes (47 :: s) ↔ ∃ values others : List GoString, List.Forall₂ RouteSegment.Fits p.segments values ∧
      (∀ other ∈ others, IsSegment 47 other) ∧ (others ≠ [] ↔ p.rest = true) ∧
      splitPath (47 :: s) = values ++ others := by
  refine exists_congr fun values => exists_congr fun others => and_congr_right fun hfits =>
    and_congr_right fun hothers => and_congr_right fun hrest => ?_
  have hall := List.forall_mem_append.2 ⟨isSegment_of_fits hfits, hothers⟩
  -- There is a segment for each of the pattern.
  have hsome : values ++ others ≠ [] := by
    intro hnil
    obtain ⟨rfl, rfl⟩ := List.append_eq_nil_iff.1 hnil
    have hsegments : p.segments = [] := List.length_eq_zero_iff.1 hfits.length_eq
    have hrest' : p.rest = false := Bool.eq_false_iff.2 fun h => hrest.2 h rfl
    exact hne (by rw [SegmentPattern.texts, hsegments, hrest']; rfl)
  constructor
  · intro h
    rw [h]
    exact splitPath_intercalate hall hsome
  · intro h
    rw [splitPath_slash] at h
    split at h
    · exact absurd h.symm hsome
    · rw [← h, List.intercalate_splitOn]

theorem notMem_of_mem_splitPath {segment : GoString} (h : segment ∈ splitPath (47 :: s)) : 47 ∉ segment := by
  rw [splitPath_slash] at h
  split at h
  · exact absurd h List.not_mem_nil
  · exact notMem_of_mem_splitOn s segment h

theorem path_not_slash_suffix (hne : splitPath (47 :: s) ≠ [])
    (h : ∀ segment ∈ splitPath (47 :: s), IsSegment 47 segment) : [47].isSuffixOf (47 :: s) = false := by
  have hs : s = [47].intercalate (splitPath (47 :: s)) := by
    rw [splitPath_slash] at hne ⊢
    split at hne
    · exact absurd rfl hne
    · rename_i hs
      rw [if_neg hs, List.intercalate_splitOn]
  have hsuffix := not_slash_suffix h hne
  rwa [← hs] at hsuffix

theorem same_slash_suffix (hne : p.texts ≠ []) (hpath : splitPath (47 :: s) ≠ [])
    (h : ∀ segment ∈ splitPath (47 :: s), IsSegment 47 segment) :
    [47].isSuffixOf p.text = [47].isSuffixOf (47 :: s) := by
  rw [path_not_slash_suffix hpath h]
  exact not_slash_suffix isSegment_texts hne

theorem splitPath_text (hne : p.texts ≠ []) : splitPath p.text = p.texts :=
  splitPath_intercalate isSegment_texts hne

theorem matchSegmentPath_of_fixed (hne : p.texts ≠ []) (hrest : p.rest = false) (s : GoString) :
    matchSegmentPath p.text (47 :: s) = true ↔ List.Forall₂ RouteSegment.Fits p.segments (splitPath (47 :: s)) := by
  have htexts : p.texts = p.segments.map RouteSegment.text := by simp [SegmentPattern.texts, hrest]
  have hlast : p.texts.getLast? ≠ some [42] := by
    intro h
    rw [htexts, List.getLast?_map] at h
    obtain ⟨segment, hsegment, htext⟩ := Option.map_eq_some_iff.1 h
    exact p.last hrest segment hsegment htext
  have hplain : ∀ segment ∈ splitPath (47 :: s), 47 ∉ segment := fun _ => notMem_of_mem_splitPath
  unfold matchSegmentPath
  rw [splitPath_text hne]
  simp only [hlast, if_false]
  constructor
  · intro h
    split at h
    · cases h
    split at h
    · cases h
    rw [htexts] at h
    exact ((compareSegments_iff hplain).1 h).2
  · intro h
    have hpath : splitPath (47 :: s) ≠ [] := by
      intro hnil
      rw [hnil] at h
      exact hne (by rw [htexts, List.length_eq_zero_iff.1 h.length_eq]; rfl)
    rw [if_neg (not_or.2 ⟨hne, hpath⟩), if_neg (by rw [htexts, List.length_map, h.length_eq]; exact not_not.2 rfl)]
    rw [htexts]
    exact (compareSegments_iff hplain).2 ⟨same_slash_suffix hne hpath (isSegment_of_fits h), h⟩

theorem matchSegmentPath_of_rest (hrest : p.rest = true) (s : GoString) :
    matchSegmentPath p.text (47 :: s) = true ↔
      List.Forall₂ RouteSegment.Fits p.segments ((splitPath (47 :: s)).take p.segments.length) ∧
        (splitPath (47 :: s)).drop p.segments.length ≠ [] ∧
        ∀ other ∈ (splitPath (47 :: s)).drop p.segments.length, IsSegment 47 other := by
  have htexts : p.texts = p.segments.map RouteSegment.text ++ [[42]] := by simp [SegmentPattern.texts, hrest]
  have hne : p.texts ≠ [] := by simp [htexts]
  have hfixed : p.texts.length - 1 = p.segments.length := by simp [htexts]
  have htake : p.texts.take p.segments.length = p.segments.map RouteSegment.text := by
    rw [htexts]
    exact List.take_left' (List.length_map _)
  have hplain : ∀ segment ∈ splitPath (47 :: s), 47 ∉ segment := fun _ => notMem_of_mem_splitPath
  have hvalues : ∀ value ∈ (splitPath (47 :: s)).take p.segments.length, 47 ∉ value :=
    fun value hvalue => hplain value (List.mem_of_mem_take hvalue)
  unfold matchSegmentPath
  rw [splitPath_text hne]
  simp only [hfixed, htake, show p.texts.getLast? = some [42] by simp [htexts], if_true]
  rw [ne_eq, List.drop_eq_nil_iff, not_le]
  constructor
  · intro h
    split at h
    · cases h
    split at h
    · cases h
    split at h
    · cases h
    rename_i hlength hempty
    refine ⟨((compareSegments_iff hvalues).1 h).2, by omega, fun other hother => ⟨?_, ?_⟩⟩
    · rintro rfl
      exact hempty (List.any_eq_true.2 ⟨[], hother, decide_eq_true rfl⟩)
    · exact hplain other (List.mem_of_mem_drop hother)
  · rintro ⟨hfits, hlength, hothers⟩
    have hall : ∀ segment ∈ splitPath (47 :: s), IsSegment 47 segment := by
      rw [← List.take_append_drop p.segments.length (splitPath (47 :: s))]
      exact List.forall_mem_append.2 ⟨isSegment_of_fits hfits, hothers⟩
    have hpath : splitPath (47 :: s) ≠ [] := List.ne_nil_of_length_pos (Nat.zero_lt_of_lt hlength)
    rw [if_neg (not_or.2 ⟨hne, hpath⟩), if_neg (by omega), if_neg ?_]
    · exact (compareSegments_iff hvalues).2 ⟨same_slash_suffix hne hpath hall, hfits⟩
    · intro h
      obtain ⟨other, hother, hnil⟩ := List.any_eq_true.1 h
      exact (hothers other hother).1 (of_decide_eq_true hnil)

theorem matchSegmentPath_iff (hne : p.texts ≠ []) (s : GoString) :
    matchSegmentPath p.text (47 :: s) = true ↔ p.Describes (47 :: s) := by
  rw [describes_iff hne]
  cases hrest : p.rest with
  | false =>
    rw [matchSegmentPath_of_fixed hne hrest]
    constructor
    · exact fun h => ⟨_, [], h, List.forall_mem_nil _, by simp, (List.append_nil _).symm⟩
    · rintro ⟨values, others, h, -, hothers, hsplit⟩
      obtain rfl : others = [] := by simpa using hothers
      rwa [hsplit, List.append_nil]
  | true =>
    rw [matchSegmentPath_of_rest hrest]
    constructor
    · rintro ⟨hfits, hdrop, hothers⟩
      exact ⟨_, _, hfits, hothers, by simpa using hdrop, (List.take_append_drop _ _).symm⟩
    · rintro ⟨values, others, hfits, hothers, hsome, hsplit⟩
      have hlength := hfits.length_eq
      rw [hsplit, hlength, List.take_left, List.drop_left]
      exact ⟨hfits, hsome.2 rfl, hothers⟩

/-! ## Patterns -/

theorem rest_suffix (hrest : p.rest = true) : [47, 42] <:+ p.text := by
  have htexts : p.texts = p.segments.map RouteSegment.text ++ [[42]] := by simp [SegmentPattern.texts, hrest]
  rw [SegmentPattern.text, htexts]
  cases hsegments : p.segments.map RouteSegment.text with
  | nil => exact List.suffix_refl _
  | cons first segments =>
    rw [intercalate_append 47 (List.cons_ne_nil _ _) (List.cons_ne_nil _ _), ← List.cons_append]
    exact List.suffix_append _ _

theorem values_of_fits
    (h : List.Forall₂ RouteSegment.Fits segments values) (hplain : ∀ segment ∈ segments, 58 ∉ segment.text) :
    values = segments.map RouteSegment.text := by
  induction h with
  | nil => rfl
  | @cons segment value segments values hfits _ ih =>
    obtain ⟨hsegment, hsegments⟩ := List.forall_mem_cons.1 hplain
    rw [ih hsegments, List.map_cons]
    cases segment with
    | literal text segment fixed => rw [show value = text from hfits]; rfl
    | param name segment => exact absurd List.mem_cons_self hsegment

theorem eq_text_of_describes (hplain : 58 ∉ p.text) (hrest : p.rest = false) (h : p.Describes path) :
    path = p.text := by
  obtain ⟨values, others, hfits, -, hothers, rfl⟩ := h
  have hnil : others = [] := by simpa [hrest] using hothers
  have htexts : p.texts = p.segments.map RouteSegment.text := by simp [SegmentPattern.texts, hrest]
  have hsegments : ∀ segment ∈ p.segments, 58 ∉ segment.text := fun segment hsegment hcolon =>
    hplain (List.mem_cons_of_mem 47 ((infix_intercalate (htexts ▸ List.mem_map_of_mem hsegment)).subset hcolon))
  rw [hnil, List.append_nil, SegmentPattern.text, htexts, values_of_fits hfits hsegments]

theorem matchSegmentPath_describes (hpattern : IsPattern pattern)
    (hplain : ∀ p : TextPattern, p.text ≠ pattern) (hslash : pattern ≠ [47]) (hpath : 47 :: s ≠ pattern) :
    matchSegmentPath pattern (47 :: s) = true ↔ PatternDescribes pattern (47 :: s) := by
  have hne {p : SegmentPattern} (h : p.text = pattern) : p.texts ≠ [] := by
    intro hnil
    rw [SegmentPattern.text, hnil] at h
    exact hslash h.symm
  obtain ⟨p, rfl⟩ | ⟨p, hp⟩ := hpattern
  · rw [matchSegmentPath_iff (hne rfl)]
    constructor
    · exact fun h => .inr (.inl ⟨p, rfl, h⟩)
    · rintro (h | ⟨q, hq, h⟩ | ⟨q, hq, -⟩)
      · exact absurd h hpath
      · -- The text of another pattern is matched in the same way.
        rwa [← matchSegmentPath_iff (hne hq), hq, matchSegmentPath_iff (hne rfl)] at h
      · exact absurd hq (hplain q)
  · exact absurd hp (hplain p)

theorem TextPattern.plain_text (p : TextPattern) : 58 ∉ p.text := by
  intro h
  obtain h | h := List.mem_append.1 h
  · exact p.plain h
  · exact absurd h (by decide)

theorem matchStem_describes {stem : GoString} (hplain : 58 ∉ stem ++ [42]) (hslash : ¬ [47] <:+ stem)
    (hstem : [47] <+: stem) (hpath : path ≠ stem ++ [42]) :
    path = stem ∨ stem ++ [47] <+: path ↔ PatternDescribes (stem ++ [42]) path := by
  constructor
  · exact fun h => .inr (.inr ⟨⟨stem, hstem, fun hcolon => hplain (List.mem_append_left _ hcolon), hslash⟩, rfl, h⟩)
  · rintro (h | ⟨p, hp, h⟩ | ⟨p, hp, h⟩)
    · exact absurd h hpath
    · -- A pattern of segments describes its text only.
      have hrest : p.rest = false := by
        refine Bool.eq_false_iff.2 fun hrest => hslash ?_
        obtain ⟨t, ht⟩ := rest_suffix hrest
        refine ⟨t, List.append_cancel_right (?_ : t ++ [47] ++ [42] = stem ++ [42])⟩
        rw [← hp, ← ht, List.append_assoc]
        rfl
      exact absurd ((eq_text_of_describes (hp ▸ hplain) hrest h).trans hp) hpath
    · obtain rfl : p.stem = stem := List.append_cancel_right hp
      exact h

theorem not_describes_of_plain (hplain : 58 ∉ pattern) (hstar : ¬ [42] <:+ pattern)
    (hpath : path ≠ pattern) : ¬ PatternDescribes pattern path := by
  rintro (h | ⟨p, rfl, h⟩ | ⟨p, rfl, -⟩)
  · exact hpath h
  · have hrest : p.rest = false := by
      refine Bool.eq_false_iff.2 fun hrest => hstar ?_
      exact List.IsSuffix.trans ⟨[47], rfl⟩ (rest_suffix hrest)
    exact hpath (eq_text_of_describes hplain hrest h)
  · exact hstar (List.suffix_append _ _)

theorem IsPattern.slash (h : IsPattern pattern) : [47] <+: pattern := by
  obtain ⟨p, rfl⟩ | ⟨p, rfl⟩ := h
  · exact List.prefix_append [47] _
  · exact p.slash.trans (List.prefix_append _ _)

theorem ne_nil_of_describes (h : p.Describes path) : ∀ segment ∈ splitPath path, segment ≠ [] := by
  obtain ⟨values, others, hfits, hothers, -, rfl⟩ := h
  have hall := List.forall_mem_append.2 ⟨isSegment_of_fits hfits, hothers⟩
  by_cases hne : values ++ others = []
  · rw [hne]
    exact List.forall_mem_nil _
  · rw [splitPath_intercalate hall hne]
    exact fun segment hsegment => (hall segment hsegment).1

theorem matchPath_iff (hpattern : IsPattern pattern) (s : GoString) :
    matchPath pattern (47 :: s) = true ↔ PatternDescribes pattern (47 :: s) := by
  unfold matchPath
  by_cases heq : pattern = 47 :: s
  · rw [if_pos heq]
    exact iff_of_true rfl (.inl heq.symm)
  rw [if_neg heq]
  by_cases hcolon : 58 ∈ pattern
  · rw [if_pos hcolon]
    refine matchSegmentPath_describes hpattern (fun p hp => p.plain_text (hp ▸ hcolon)) ?_ (Ne.symm heq)
    rintro rfl
    exact absurd hcolon (by decide)
  rw [if_neg hcolon]
  by_cases hstar : [42] <:+ pattern
  · rw [if_pos (List.isSuffixOf_iff_suffix.2 hstar)]
    obtain ⟨stem, rfl⟩ := hstar
    rw [List.dropLast_concat]
    dsimp only
    by_cases hslash : [47] <:+ stem
    · rw [if_pos (List.isSuffixOf_iff_suffix.2 hslash)]
      refine matchSegmentPath_describes hpattern (fun p hp => p.segment ?_) ?_ (Ne.symm heq)
      · exact List.append_cancel_right hp ▸ hslash
      · intro h
        have hlength := congrArg List.getLast? h
        simp at hlength
    · have hstem : [47] <+: stem := by
        cases stem with
        | nil => exact absurd hpattern.slash (by decide)
        | cons b stem =>
          obtain ⟨t, ht⟩ := hpattern.slash
          exact ⟨stem, by rw [← (List.cons.inj ht).1]; rfl⟩
      rw [if_neg (List.isSuffixOf_iff_suffix.not.2 hslash), Bool.or_eq_true, decide_eq_true_eq,
        List.isPrefixOf_iff_prefix]
      exact matchStem_describes hcolon hslash hstem (Ne.symm heq)
  · rw [if_neg (List.isSuffixOf_iff_suffix.not.2 hstar)]
    exact iff_of_false Bool.false_ne_true (not_describes_of_plain hcolon hstar (Ne.symm heq))

theorem registryMatch_eq_some {entries : List RouteEntry} (h : ∀ entry ∈ entries, IsPattern entry.pathPattern)
    {method : GoString} {entry : RouteEntry} (hmatch : registryMatch entries method (47 :: s) = some entry) :
    entry.method = method ∧ PatternDescribes entry.pathPattern (47 :: s) ∧
      ∃ before after, entries = before ++ entry :: after ∧
        ∀ other ∈ before, other.method = method → ¬ PatternDescribes other.pathPattern (47 :: s) := by
  obtain ⟨hfits, before, after, rfl, hbefore⟩ := List.find?_eq_some_iff_append.1 hmatch
  obtain ⟨hentries, hentry, -⟩ := List.forall_mem_append.1 h |>.imp_right List.forall_mem_cons.1
  rw [Bool.and_eq_true, decide_eq_true_eq, matchPath_iff hentry] at hfits
  refine ⟨hfits.1, hfits.2, before, after, rfl, fun other hother hmethod hdescribes => ?_⟩
  have hother' := hbefore other hother
  rw [hmethod, (matchPath_iff (hentries other hother) s).2 hdescribes] at hother'
  simp at hother'

/-- A pattern matches the paths that it describes, and no empty segment stands for a name or for the rest. -/
theorem route_pattern_language (pattern path : GoString) (hpattern : IsPattern pattern) (hpath : [47] <+: path) :
    (matchPath pattern path = true ↔ PatternDescribes pattern path) ∧
      ∀ p : SegmentPattern, p.text = pattern → p.Describes path → ∀ segment ∈ splitPath path, segment ≠ [] := by
  refine ⟨?_, fun p _ h => ne_nil_of_describes h⟩
  obtain ⟨s, rfl⟩ := hpath
  exact matchPath_iff hpattern s

end

/-- The pattern `/v1/:id/*`. -/
def nestedPattern : SegmentPattern where
  segments := [.literal (ascii "v1") (by decide) (by decide), .param (ascii "id") (by decide)]
  rest := true
  last := nofun

/-- A path below a name. -/
theorem route_pattern_language_nested :
    matchPath nestedPattern.text (ascii "/v1/a/b/c") = true ∧
      PatternDescribes nestedPattern.text (ascii "/v1/a/b/c") := by
  have hmatch : matchPath nestedPattern.text (ascii "/v1/a/b/c") = true := by decide
  exact ⟨hmatch, (route_pattern_language _ _ (.inl ⟨nestedPattern, rfl⟩) (by decide)).1.1 hmatch⟩

end AuditGateway.Gateway
