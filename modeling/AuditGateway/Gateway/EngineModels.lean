import AuditGateway.Gateway.Routes
import AuditGateway.Gateway.Usage

/-!
# Models in paths

A request for embeddings may name its model in the path. The gateway cuts the model out of the text of the path,
between a fixed beginning and a fixed end; the registry matches the same path segment by segment.

* `modelFromEngineEmbeddingPathBytes_eq_iff`: the paths that a model is read from. The beginning and the end share a
  slash, so they may overlap.
* `matchPath_engine_iff`: the paths that the route matches. The slash in front may be missing.
* `engine_model_agrees_iff`: the two agree on all other paths.
-/

namespace AuditGateway.Gateway

open AuditGateway.Framework AuditGateway.Go

section

variable {α : Type} [DecidableEq α]

/-- `strings.TrimPrefix`. -/
def trimFront (front s : List α) : List α := if front.isPrefixOf s then s.drop front.length else s

/-- `strings.TrimSuffix`. -/
def trimEnd (tail s : List α) : List α := if tail.isSuffixOf s then s.take (s.length - tail.length) else s

/-- What is between the beginning and the end of a path, if it is one segment. -/
def modelBetween (front tail : List α) (slash : α) (path : List α) : List α :=
  if front.isPrefixOf path && tail.isSuffixOf path then
    let model := trimEnd tail (trimFront front path)
    if model = [] ∨ slash ∈ model then [] else model
  else []

end

/-- The beginning of the path, a constant of `modelFromEngineEmbeddingPath`. -/
def engines : GoString := ascii "/v1/engines/"

/-- The end of the path, a constant of `modelFromEngineEmbeddingPath`. -/
def embeddings : GoString := ascii "/embeddings"

/-- `modelFromEngineEmbeddingPath` of a path that need not be UTF-8. -/
def modelFromEngineEmbeddingPathBytes (path : GoString) : GoString := modelBetween engines embeddings 47 path

/-- The pattern of the route. -/
def enginePattern : GoString := ascii "/v1/engines/:model/embeddings"

/-- The segment of a path in the place of a segment of a pattern. -/
def boundSegment (name pattern path : GoString) : Option GoString :=
  ((splitPath pattern).zip (splitPath path)).lookup name

/-- A model is read from the path if and only if the route matches it, and it is the segment for `:model`. -/
def EngineModelAgrees (path : GoString) : Prop :=
  (modelFromEngineEmbeddingPathBytes path ≠ [] ↔ matchPath enginePattern path = true) ∧
    (modelFromEngineEmbeddingPathBytes path ≠ [] →
      boundSegment (ascii ":model") enginePattern path = some (modelFromEngineEmbeddingPathBytes path))

/-! ## The text of the path -/

section

variable {path model s t : GoString}

theorem trimFront_append (front s : GoString) : trimFront front (front ++ s) = s := by
  rw [trimFront, if_pos (List.isPrefixOf_iff_prefix.2 (List.prefix_append front s)), List.drop_left]

theorem trimEnd_append (s tail : GoString) : trimEnd tail (s ++ tail) = s := by
  rw [trimEnd, if_pos (List.isSuffixOf_iff_suffix.2 (List.suffix_append s tail)), List.length_append,
    Nat.add_sub_cancel, List.take_left]

theorem eq_of_last_slash (before before' : GoString) (hs : 47 ∉ s) (ht : 47 ∉ t)
    (h : before ++ 47 :: s = before' ++ 47 :: t) : s = t := by
  obtain ⟨between, -, hrest⟩ | ⟨between, -, hrest⟩ := List.append_eq_append_iff.1 h
  · cases between with
    | nil => exact (List.cons.inj hrest).2
    | cons b between =>
      obtain ⟨-, rfl⟩ := List.cons.inj hrest
      exact absurd (List.mem_append_right between List.mem_cons_self) hs
  · cases between with
    | nil => exact (List.cons.inj hrest).2.symm
    | cons b between =>
      obtain ⟨-, rfl⟩ := List.cons.inj hrest
      exact absurd (List.mem_append_right between List.mem_cons_self) ht

/-- The path `/v1/engines/embeddings`, where the beginning and the end overlap. -/
def overlappingPath : GoString := ascii "/v1/engines/embeddings"

theorem modelFromEngineEmbeddingPathBytes_eq_iff (hmodel : model ≠ []) :
    modelFromEngineEmbeddingPathBytes path = model ↔
      IsSegment 47 model ∧ path = engines ++ (model ++ embeddings) ∨
        model = ascii "embeddings" ∧ path = overlappingPath := by
  constructor
  · intro h
    unfold modelFromEngineEmbeddingPathBytes modelBetween at h
    split at h
    case isFalse => exact absurd h.symm hmodel
    rename_i hboth
    rw [Bool.and_eq_true, List.isPrefixOf_iff_prefix, List.isSuffixOf_iff_suffix] at hboth
    obtain ⟨⟨rest, rfl⟩, hend⟩ := hboth
    rw [trimFront_append] at h
    dsimp only at h
    split at h
    · exact absurd h.symm hmodel
    rename_i hsegment
    rw [not_or] at hsegment
    by_cases hrest : embeddings <:+ rest
    · obtain ⟨m, rfl⟩ := hrest
      rw [trimEnd_append] at h hsegment
      rw [h] at hsegment ⊢
      exact .inl ⟨hsegment, rfl⟩
    · -- The end is not after the beginning, so the last slash belongs to both.
      rw [trimEnd, if_neg (List.isSuffixOf_iff_suffix.not.2 hrest)] at h hsegment
      obtain ⟨before, hbefore⟩ := hend
      have hlast : ascii "embeddings" = rest :=
        eq_of_last_slash before (ascii "/v1/engines") (by decide) hsegment.2 hbefore
      rw [← h, ← hlast]
      exact .inr ⟨rfl, rfl⟩
  · rintro (⟨hsegment, rfl⟩ | ⟨rfl, rfl⟩)
    · have hend : embeddings <:+ engines ++ (model ++ embeddings) := ⟨engines ++ model, List.append_assoc _ _ _⟩
      rw [modelFromEngineEmbeddingPathBytes, modelBetween, List.isPrefixOf_iff_prefix.2 (List.prefix_append _ _),
        List.isSuffixOf_iff_suffix.2 hend, trimFront_append, trimEnd_append]
      exact if_neg (not_or.2 hsegment)
    · decide

/-! ## The route -/

theorem version_isSegment : IsSegment 47 (ascii "v1") := by decide

theorem version_fixed : ¬ [58] <+: ascii "v1" := by decide

def engineRoute : SegmentPattern where
  segments := [.literal (ascii "v1") version_isSegment version_fixed,
    .literal (ascii "engines") (by decide) (by decide),
    .param (ascii "model") (by decide), .literal (ascii "embeddings") (by decide) (by decide)]
  rest := false
  last := by decide

theorem engineRoute_text : engineRoute.text = enginePattern := by decide

theorem engineRoute_describes_iff (s : GoString) :
    engineRoute.Describes (47 :: s) ↔ ∃ model, IsSegment 47 model ∧ 47 :: s = engines ++ (model ++ embeddings) := by
  constructor
  · rintro ⟨values, others, hfits, -, hothers, hpath⟩
    obtain rfl : others = [] := by simpa [engineRoute] using hothers
    simp only [engineRoute, List.forall₂_cons_left_iff, List.forall₂_nil_left_iff] at hfits
    obtain ⟨_, _, rfl, ⟨_, _, rfl, ⟨model, _, hmodel, ⟨_, _, rfl, rfl, rfl⟩, rfl⟩, rfl⟩, rfl⟩ := hfits
    exact ⟨model, hmodel, hpath⟩
  · rintro ⟨model, hmodel, hpath⟩
    refine ⟨[ascii "v1", ascii "engines", model, ascii "embeddings"], [], ?_, List.forall_mem_nil _, by decide, hpath⟩
    exact .cons rfl (.cons rfl (.cons hmodel (.cons rfl .nil)))

theorem matchSegmentPath_without_slash (pattern : GoString) (h : ¬ [47] <+: path) :
    matchSegmentPath pattern path = matchSegmentPath pattern (47 :: path) := by
  have hsplit : splitPath path = splitPath (47 :: path) := by
    rw [splitPath, if_neg (List.isPrefixOf_iff_prefix.not.2 h)]
    rfl
  by_cases hnil : path = []
  · have hempty : splitPath (47 :: path) = [] := by rw [hnil]; rfl
    rw [matchSegmentPath, matchSegmentPath, hsplit, hempty]
    simp
  · have hslash : [47].isSuffixOf path = [47].isSuffixOf (47 :: path) := by
      rw [Bool.eq_iff_iff, List.isSuffixOf_iff_suffix, List.isSuffixOf_iff_suffix, List.suffix_cons_iff]
      simp [Ne.symm hnil]
    simp only [matchSegmentPath, compareSegments, hsplit, hslash]

theorem matchPath_engine_iff (path : GoString) :
    matchPath enginePattern path = true ↔ ∃ model, IsSegment 47 model ∧
      (path = engines ++ (model ++ embeddings) ∨ 47 :: path = engines ++ (model ++ embeddings)) := by
  have hroute (s : GoString) : matchSegmentPath enginePattern (47 :: s) = true ↔
      ∃ model, IsSegment 47 model ∧ 47 :: s = engines ++ (model ++ embeddings) := by
    rw [← engineRoute_text, matchSegmentPath_iff (by decide), engineRoute_describes_iff]
  by_cases hself : enginePattern = path
  · rw [matchPath, if_pos hself, ← hself]
    exact iff_of_true rfl ⟨ascii ":model", by decide, .inl (by decide)⟩
  rw [matchPath, if_neg hself, if_pos (by decide)]
  by_cases hslash : [47] <+: path
  · obtain ⟨s, rfl⟩ := hslash
    rw [List.singleton_append, hroute]
    refine exists_congr fun model => and_congr_right fun _ => (or_iff_left ?_).symm
    intro h
    have hsecond := (List.cons.inj (List.cons.inj h).2).1
    exact absurd hsecond (by decide)
  · rw [matchSegmentPath_without_slash _ hslash, hroute]
    refine exists_congr fun model => and_congr_right fun _ => (or_iff_right ?_).symm
    rintro rfl
    exact hslash (List.prefix_append [47] _)

theorem boundSegment_engine (hmodel : IsSegment 47 model) :
    boundSegment (ascii ":model") enginePattern (engines ++ (model ++ embeddings)) = some model := by
  have hsegments : ∀ segment ∈ [ascii "v1", ascii "engines", model, ascii "embeddings"], IsSegment 47 segment := by
    simp only [List.forall_mem_cons]
    exact ⟨by decide, by decide, hmodel, by decide, List.forall_mem_nil _⟩
  have hsplit : splitPath (engines ++ (model ++ embeddings)) =
      [ascii "v1", ascii "engines", model, ascii "embeddings"] :=
    splitPath_intercalate hsegments (List.cons_ne_nil _ _)
  rw [boundSegment, hsplit]
  rfl

/-! ## Agreement -/

theorem engineModelAgrees_of_route (hmodel : IsSegment 47 model) :
    EngineModelAgrees (engines ++ (model ++ embeddings)) := by
  have hread : modelFromEngineEmbeddingPathBytes (engines ++ (model ++ embeddings)) = model :=
    (modelFromEngineEmbeddingPathBytes_eq_iff hmodel.1).2 (.inl ⟨hmodel, rfl⟩)
  have hmatch : matchPath enginePattern (engines ++ (model ++ embeddings)) = true :=
    (matchPath_engine_iff _).2 ⟨model, hmodel, .inl rfl⟩
  rw [EngineModelAgrees, hread]
  exact ⟨iff_of_true hmodel.1 hmatch, fun _ => boundSegment_engine hmodel⟩

theorem overlappingPath_model :
    modelFromEngineEmbeddingPathBytes overlappingPath = ascii "embeddings" ∧
      matchPath enginePattern overlappingPath = false := by
  decide

theorem not_agrees_overlapping : ¬ EngineModelAgrees overlappingPath := by
  intro h
  have hmatch := h.1.1 (by rw [overlappingPath_model.1]; decide)
  cases hmatch.symm.trans overlappingPath_model.2

theorem without_slash_model (hmodel : IsSegment 47 model) (hpath : 47 :: path = engines ++ (model ++ embeddings)) :
    modelFromEngineEmbeddingPathBytes path = [] ∧ matchPath enginePattern path = true := by
  refine ⟨?_, (matchPath_engine_iff _).2 ⟨model, hmodel, .inr hpath⟩⟩
  obtain rfl : path = ascii "v1/engines/" ++ (model ++ embeddings) := (List.cons.inj hpath).2
  rfl

/-- The model in a path and the route of the path agree, unless the beginning and the end of the path overlap
or the slash in front of it is missing. -/
theorem engine_model_agrees_iff (path : GoString) :
    EngineModelAgrees path ↔ path ≠ overlappingPath ∧
      ¬ ∃ model, IsSegment 47 model ∧ 47 :: path = engines ++ (model ++ embeddings) := by
  constructor
  · intro h
    constructor
    · rintro rfl
      exact not_agrees_overlapping h
    · rintro ⟨model, hmodel, hpath⟩
      obtain ⟨hread, hmatch⟩ := without_slash_model hmodel hpath
      exact h.1.2 hmatch hread
  · rintro ⟨hoverlap, hslash⟩
    by_cases hmatch : matchPath enginePattern path = true
    · obtain ⟨model, hmodel, rfl | hpath⟩ := (matchPath_engine_iff path).1 hmatch
      · exact engineModelAgrees_of_route hmodel
      · exact absurd ⟨model, hmodel, hpath⟩ hslash
    · -- A model that is read belongs to the route or to the overlapping path.
      have hread : modelFromEngineEmbeddingPathBytes path = [] := by
        by_contra hmodel
        obtain ⟨hsegment, hpath⟩ | ⟨-, hpath⟩ := (modelFromEngineEmbeddingPathBytes_eq_iff hmodel).1 rfl
        · exact hmatch ((matchPath_engine_iff path).2 ⟨_, hsegment, .inl hpath⟩)
        · exact hoverlap hpath
      exact ⟨iff_of_false (not_not.2 hread) hmatch, fun hmodel => absurd hread hmodel⟩

/-- From `/v1/engines/embeddings` the model `embeddings` is read, and the route does not match; the route matches
`v1/engines/a/embeddings`, and no model is read. -/
theorem engine_model_disagrees :
    (modelFromEngineEmbeddingPathBytes (ascii "/v1/engines/embeddings") = ascii "embeddings" ∧
        matchPath enginePattern (ascii "/v1/engines/embeddings") = false) ∧
      (modelFromEngineEmbeddingPathBytes (ascii "v1/engines/a/embeddings") = [] ∧
        matchPath enginePattern (ascii "v1/engines/a/embeddings") = true) ∧
      ¬ EngineModelAgrees (ascii "/v1/engines/embeddings") ∧ ¬ EngineModelAgrees (ascii "v1/engines/a/embeddings") := by
  have hwithout : modelFromEngineEmbeddingPathBytes (ascii "v1/engines/a/embeddings") = [] ∧
      matchPath enginePattern (ascii "v1/engines/a/embeddings") = true :=
    without_slash_model (show IsSegment 47 (ascii "a") by decide) rfl
  exact ⟨overlappingPath_model, hwithout, not_agrees_overlapping, fun h => h.1.2 hwithout.2 hwithout.1⟩

end

end AuditGateway.Gateway
