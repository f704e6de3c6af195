import AuditGateway.Go.Strings
import Mathlib.Data.List.TakeWhile

/-!
# URLs

This is the part of `net/url` that the gateway uses on URLs with a scheme and a host. A path is kept twice: decoded, and
as it was written if that is not how `escape` would write it. `EscapedPath` prefers the latter as long as
it is an encoding of the former.

What the package does with user names, hosts and fragments is a parameter (`UrlParts`): only how they are printed
is kept.
-/

namespace AuditGateway.Go

/-! ## Encoding of paths -/

/-- `shouldEscape`, for a path. -/
def shouldEscape (b : UInt8) : Bool :=
  !(((97 ≤ b && b ≤ 122) || (65 ≤ b && b ≤ 90) || (48 ≤ b && b ≤ 57)) ||
    [45, 95, 46, 126].contains b || [36, 38, 43, 44, 47, 58, 59, 61, 64].contains b)

def upperHex (n : UInt8) : UInt8 := if n < 10 then 48 + n else 55 + n

def escapeByte (b : UInt8) : GoString := if shouldEscape b then [37, upperHex (b / 16), upperHex (b % 16)] else [b]

/-- `escape`, for a path. -/
def escape (s : GoString) : GoString := s.flatMap escapeByte

/-- `unescape`, for a path. -/
def unescape : GoString → Option GoString
  | 37 :: high :: low :: s => do return (16 * (← unhex high) + (← unhex low)) :: (← unescape s)
  | 37 :: _ => none
  | b :: s => (unescape s).map (b :: ·)
  | [] => some []

/-- `validEncoded`, for a path: besides what is not escaped, these characters may be written as they are. -/
def validEncoded (s : GoString) : Bool :=
  s.all fun b => [33, 36, 38, 39, 40, 41, 42, 43, 44, 59, 61, 58, 64, 91, 93, 37].contains b || !shouldEscape b

section

variable {s t x : GoString} {b : UInt8}

theorem escape_append (s t : GoString) : escape (s ++ t) = escape s ++ escape t := List.flatMap_append

theorem forall_byte {P : UInt8 → Prop} (h : ∀ n < 256, P (UInt8.ofNat n)) (b : UInt8) : P b := by
  have hb := h b.toNat b.toNat_lt
  rwa [UInt8.ofNat_toNat] at hb

theorem unhex_upperHex (b : UInt8) : unhex (upperHex (b / 16)) = some (b / 16) ∧
    unhex (upperHex (b % 16)) = some (b % 16) ∧ 16 * (b / 16) + b % 16 = b := by
  revert b
  exact forall_byte (by decide +kernel)

theorem unescape_cons (h : b ≠ 37) (s : GoString) : unescape (b :: s) = (unescape s).map (b :: ·) := by
  rw [unescape] <;> simp [h]

theorem unescape_escapeByte (b : UInt8) (s : GoString) : unescape (escapeByte b ++ s) = (unescape s).map (b :: ·) := by
  unfold escapeByte
  split
  · obtain ⟨hhigh, hlow, hb⟩ := unhex_upperHex b
    rw [List.cons_append, List.cons_append, List.cons_append, List.nil_append, unescape, hhigh, hlow]
    cases unescape s <;> simp [hb]
  · rename_i hb
    refine unescape_cons ?_ s
    rintro rfl
    exact hb (by decide)

theorem unescape_escape (s : GoString) : unescape (escape s) = some s := by
  induction s with
  | nil => rfl
  | cons b s ih =>
    show unescape (escapeByte b ++ escape s) = _
    rw [unescape_escapeByte, ih]
    rfl

theorem unescape_append (h : unescape s = some x) (t : GoString) : unescape (s ++ t) = (unescape t).map (x ++ ·) := by
  induction s using unescape.induct generalizing x with
  | case1 high low s ih =>
    rw [unescape] at h
    rw [List.cons_append, List.cons_append, List.cons_append, unescape]
    cases hhigh : unhex high with
    | none => simp [hhigh] at h
    | some u =>
      cases hlow : unhex low with
      | none => simp [hhigh, hlow] at h
      | some v =>
        cases hs : unescape s with
        | none => simp [hhigh, hlow, hs] at h
        | some y =>
          obtain rfl : (16 * u + v) :: y = x := by simpa [hhigh, hlow, hs] using h
          rw [ih hs]
          cases unescape t <;> simp
  | case2 s hs =>
    rw [unescape] at h
    · cases h
    · exact hs
  | case3 b s hlong hshort ih =>
    have hb : b ≠ 37 := fun hb => hshort hb
    rw [unescape_cons hb] at h
    obtain ⟨y, hy, rfl⟩ := Option.map_eq_some_iff.1 h
    rw [List.cons_append, unescape_cons hb, ih hy]
    cases unescape t <;> rfl
  | case4 =>
    obtain rfl := Option.some.inj h
    simp

theorem validEncoded_byte (h : validEncoded s = true) (hb : b ∈ s) :
    b ≠ 63 ∧ b ≠ 35 ∧ (b < 32 || b == 127) = false := by
  have hbyte : ∀ b : UInt8, ([33, 36, 38, 39, 40, 41, 42, 43, 44, 59, 61, 58, 64, 91, 93, 37].contains b ||
      !shouldEscape b) = true → b ≠ 63 ∧ b ≠ 35 ∧ (b < 32 || b == 127) = false :=
    forall_byte (by decide +kernel)
  exact hbyte b (List.all_eq_true.1 h b hb)

theorem validEncoded_append (s t : GoString) : validEncoded (s ++ t) = (validEncoded s && validEncoded t) :=
  List.all_append

theorem validEncoded_escape (s : GoString) : validEncoded (escape s) = true := by
  have hbyte : ∀ b : UInt8, validEncoded (escapeByte b) = true := forall_byte (by decide +kernel)
  induction s with
  | nil => rfl
  | cons b s ih =>
    show validEncoded (escapeByte b ++ escape s) = true
    rw [validEncoded_append, hbyte, ih]
    rfl

end

/-! ## URLs -/

/-- `authority` is how the user and the host are printed, `fragment` how the fragment is. -/
structure URL where
  scheme : GoString
  authority : GoString
  path : GoString
  rawPath : GoString
  forceQuery : Bool
  rawQuery : GoString
  fragment : GoString
deriving DecidableEq

/-- `stringContainsCTLByte`. -/
def containsCTLByte (s : GoString) : Bool := s.any fun b => b < 32 || b == 127

/-- How the package reads and prints an authority with a host, and a fragment. What was printed is read again. -/
structure UrlParts where
  authority : GoString → Option GoString
  fragment : GoString → Option GoString
  authority_ne : ∀ text printed, authority text = some printed → printed ≠ []
  authority_bytes : ∀ text printed, authority text = some printed →
    47 ∉ printed ∧ 63 ∉ printed ∧ 35 ∉ printed ∧ containsCTLByte printed = false
  authority_again : ∀ text printed, authority text = some printed → authority printed = some printed
  fragment_again : ∀ text printed, fragment text = some printed → (fragment printed).isSome = true

/-- `setPath`: the path, and how it was written if that is not how `escape` writes it. -/
def setPath (text : GoString) : Option (GoString × GoString) :=
  (unescape text).map fun path => (path, if text = escape path then [] else text)

/-- `EscapedPath`. -/
def URL.escapedPath (u : URL) : GoString :=
  if u.rawPath ≠ [] ∧ validEncoded u.rawPath = true ∧ unescape u.rawPath = some u.path then u.rawPath
  else if u.path = [42] then [42]
  else escape u.path

/-- The query with its mark, and the path as it follows a host. -/
def URL.query (u : URL) : GoString := if u.forceQuery ∨ u.rawQuery ≠ [] then 63 :: u.rawQuery else []

def URL.hostPath (u : URL) : GoString :=
  if u.escapedPath ≠ [] ∧ ¬ [47] <+: u.escapedPath then 47 :: u.escapedPath else u.escapedPath

/-- `String`, for a URL with a scheme and a host. -/
def URL.text (u : URL) : GoString :=
  u.scheme ++ 58 :: 47 :: 47 :: (u.authority ++ u.hostPath ++ u.query) ++
    if u.fragment ≠ [] then 35 :: u.fragment else []

def isLetter (b : UInt8) : Bool := (97 ≤ b && b ≤ 122) || (65 ≤ b && b ≤ 90)

def isSchemeByte (b : UInt8) : Bool := isLetter b || (48 ≤ b && b ≤ 57) || [43, 45, 46].contains b

/-- `getScheme`, or `none` if there is no scheme. -/
def getScheme (text : GoString) : Option (GoString × GoString) :=
  let scheme := text.takeWhile isSchemeByte
  match scheme, text.dropWhile isSchemeByte with
  | first :: _, 58 :: rest => if isLetter first then some (scheme, rest) else none
  | _, _ => none

/-- The path, whether there is an empty query, and the query. -/
def splitQuery (rest : GoString) : GoString × Bool × GoString :=
  if [63] <:+ rest ∧ rest.count 63 = 1 then (rest.dropLast, true, [])
  else ((cut 63 rest).1, false, (cut 63 rest).2)

/-- `parse`, for a URL with a scheme and a host. -/
def parseAbsolute (parts : UrlParts) (text : GoString) : Option URL :=
  if containsCTLByte text then none
  else (getScheme text).bind fun (scheme, rest) =>
    let (rest, forceQuery, rawQuery) := splitQuery rest
    if ¬ [47, 47] <+: rest then none
    else (parts.authority ((rest.drop 2).takeWhile (· != 47))).bind fun authority =>
      (setPath ((rest.drop 2).dropWhile (· != 47))).map fun (path, rawPath) =>
        ⟨scheme.map lowerByte, authority, path, rawPath, forceQuery, rawQuery, []⟩

/-- `Parse`, for a URL with a scheme and a host. -/
def parse (parts : UrlParts) (text : GoString) : Option URL :=
  (parseAbsolute parts (cut 35 text).1).bind fun u =>
    if (cut 35 text).2 = [] then some u
    else (parts.fragment (cut 35 text).2).map fun fragment => { u with fragment := fragment }

/-- `ParseRequestURI`: a path from the root, `*`, or a URL with a scheme and a host. -/
def parseRequestURI (parts : UrlParts) (text : GoString) : Option URL :=
  if text = [] ∨ containsCTLByte text then none
  else if text = [42] then some ⟨[], [], [42], [], false, [], []⟩
  else if [47] <+: text then
    let (rest, forceQuery, rawQuery) := splitQuery text
    (setPath rest).map fun (path, rawPath) => ⟨[], [], path, rawPath, forceQuery, rawQuery, []⟩
  else parseAbsolute parts text

/-! ## Reading and writing paths -/

variable {u : URL} {written : GoString}

theorem validEncoded_escapedPath (u : URL) : validEncoded u.escapedPath = true := by
  unfold URL.escapedPath
  split
  · rename_i h
    exact h.2.1
  · split
    · decide
    · exact validEncoded_escape u.path

theorem unescape_escapedPath (u : URL) : unescape u.escapedPath = some u.path := by
  unfold URL.escapedPath
  split
  · rename_i h
    exact h.2.2
  · split
    · rename_i h
      rw [h]
      decide
    · exact unescape_escape u.path

theorem validEncoded_hostPath (u : URL) : validEncoded u.hostPath = true := by
  unfold URL.hostPath
  split
  · rw [← List.singleton_append, validEncoded_append, validEncoded_escapedPath]
    decide
  · exact validEncoded_escapedPath u

theorem hostPath_eq (u : URL) : u.hostPath = [] ∨ [47] <+: u.hostPath := by
  unfold URL.hostPath
  split
  · exact .inr ⟨u.escapedPath, rfl⟩
  · tauto

theorem escapedPath_of_setPath (hvalid : validEncoded written = true) (hrooted : written = [] ∨ [47] <+: written)
    (h : setPath written = some (u.path, u.rawPath)) : u.escapedPath = written := by
  obtain ⟨path, hpath, heq⟩ := Option.map_eq_some_iff.1 h
  obtain ⟨rfl, hraw⟩ := Prod.mk.inj heq
  have hstar : u.path ≠ [42] := by
    rintro hstar
    rw [hstar] at hpath
    obtain rfl | ⟨rest, rfl⟩ := hrooted
    · cases hpath
    · rw [List.singleton_append, unescape_cons (by decide)] at hpath
      obtain ⟨x, -, hx⟩ := Option.map_eq_some_iff.1 hpath
      cases hx
  unfold URL.escapedPath
  split at hraw
  · rename_i hsame
    rw [if_neg (by simp [← hraw]), if_neg hstar, ← hsame]
  · rename_i hdiff
    by_cases hempty : written = []
    · subst hempty
      have hnil : u.path = [] := (Option.some.inj hpath).symm
      exact absurd (by rw [hnil]; rfl) hdiff
    · rw [← hraw, if_pos ⟨hempty, hvalid, hpath⟩]

/-! ## Reading what was written -/

section

variable {s t p q : GoString} {b : UInt8}

theorem cut_of_notMem (h : b ∉ s) : cut b s = (s, []) := by
  have hbytes : ∀ c ∈ s, (c != b) = true := fun c hc => by simpa using fun heq : c = b => h (heq ▸ hc)
  rw [cut, List.takeWhile_eq_self_iff.2 hbytes, List.dropWhile_eq_nil_iff.2 hbytes]
  rfl

theorem cut_append (h : b ∉ s) (t : GoString) : cut b (s ++ b :: t) = (s, t) := by
  have hbytes : ∀ c ∈ s, (c != b) = true := fun c hc => by simpa using fun heq : c = b => h (heq ▸ hc)
  rw [cut, List.takeWhile_append_of_pos hbytes, List.dropWhile_append_of_pos hbytes]
  simp

theorem splitQuery_of_notMem (h : 63 ∉ p) : splitQuery p = (p, false, []) := by
  have hsuffix : ¬ ([63] <:+ p ∧ p.count 63 = 1) := fun hmark => h (hmark.1.subset List.mem_cons_self)
  rw [splitQuery, if_neg hsuffix, cut_of_notMem h]

theorem splitQuery_append (h : 63 ∉ p) (q : GoString) : splitQuery (p ++ 63 :: q) = (p, decide (q = []), q) := by
  have hcount : (p ++ 63 :: q).count 63 = q.count 63 + 1 := by
    rw [List.count_append, List.count_eq_zero_of_not_mem h, List.count_cons_self, Nat.zero_add]
  by_cases hq : q = []
  · subst hq
    rw [splitQuery, if_pos ⟨List.suffix_append _ _, hcount⟩, List.dropLast_concat]
    rfl
  · have hmark : ¬ ([63] <:+ p ++ 63 :: q ∧ (p ++ 63 :: q).count 63 = 1) := by
      rintro ⟨hsuffix, hone⟩
      have hlast : q.getLast? = some 63 := by
        obtain ⟨rest, hrest⟩ := hsuffix
        have hwhole : (p ++ 63 :: q).getLast? = some 63 := by rw [← hrest]; simp
        rwa [List.getLast?_append_of_ne_nil _ (List.cons_ne_nil _ _), List.getLast?_cons_of_ne_nil hq] at hwhole
      have hpos := List.count_pos_iff.2 (List.mem_of_getLast? hlast)
      omega
    rw [splitQuery, if_neg hmark, cut_append h, decide_eq_false hq]

/-- A scheme in lower case. -/
structure IsScheme (scheme : GoString) : Prop where
  first : ∃ b ∈ scheme.head?, isLetter b = true
  bytes : ∀ b ∈ scheme, isSchemeByte b = true
  lower : scheme.map lowerByte = scheme

theorem getScheme_append (h : IsScheme s) (t : GoString) : getScheme (s ++ 58 :: t) = some (s, t) := by
  obtain ⟨b, hb, hletter⟩ := h.first
  have hcolon : isSchemeByte 58 = false := by decide
  have htake : (s ++ 58 :: t).takeWhile isSchemeByte = s := by
    rw [List.takeWhile_append_of_pos h.bytes, List.takeWhile_cons, hcolon]
    simp
  have hdrop : (s ++ 58 :: t).dropWhile isSchemeByte = 58 :: t := by
    rw [List.dropWhile_append_of_pos h.bytes, List.dropWhile_cons, hcolon]
    simp
  rw [getScheme, htake, hdrop]
  cases s with
  | nil => cases hb
  | cons c s =>
    obtain rfl : c = b := Option.some.inj hb
    exact if_pos hletter

theorem containsCTLByte_append (s t : GoString) :
    containsCTLByte (s ++ t) = (containsCTLByte s || containsCTLByte t) :=
  List.any_append

theorem containsCTLByte_of_validEncoded (h : validEncoded s = true) : containsCTLByte s = false := by
  rw [containsCTLByte, List.any_eq_false]
  exact fun b hb => by simp [(validEncoded_byte h hb).2.2]

theorem IsScheme.noCTL (h : IsScheme s) : containsCTLByte s = false := by
  have hbyte : ∀ b : UInt8, isSchemeByte b = true → (b < 32 || b == 127) = false := forall_byte (by decide +kernel)
  rw [containsCTLByte, List.any_eq_false]
  exact fun b hb => by simp [hbyte b (h.bytes b hb)]

theorem IsScheme.notMem (h : IsScheme s) : 35 ∉ s := fun hmem => absurd (h.bytes 35 hmem) (by decide)

/-- The URLs that `parse` gives, but for their path and query. -/
structure URL.Absolute (parts : UrlParts) (u : URL) : Prop where
  scheme : IsScheme u.scheme
  authority : parts.authority u.authority = some u.authority
  fragment : u.fragment = [] ∨ (parts.fragment u.fragment).isSome = true

variable {parts : UrlParts}

theorem parseAbsolute_eq {authority path rawPath : GoString} (hscheme : IsScheme s)
    (hauthority : parts.authority authority = some authority) (hvalid : validEncoded p = true)
    (hrooted : p = [] ∨ [47] <+: p) (hpath : setPath p = some (path, rawPath)) (hctl : containsCTLByte q = false)
    {query : GoString} (hquery : query = [] ∧ q = [] ∨ query = 63 :: q) :
    ∃ forceQuery, parseAbsolute parts (s ++ 58 :: 47 :: 47 :: (authority ++ p ++ query)) =
      some ⟨s, authority, path, rawPath, forceQuery, q, []⟩ := by
  obtain ⟨hslash, hmark, -, hclean⟩ := parts.authority_bytes _ _ hauthority
  have hctl' : containsCTLByte (s ++ 58 :: 47 :: 47 :: (authority ++ p ++ query)) = false := by
    have hquery' : containsCTLByte query = false := by
      obtain ⟨rfl, -⟩ | rfl := hquery
      · rfl
      · exact hctl
    have hslashes : containsCTLByte [58, 47, 47] = false := by decide
    rw [show s ++ 58 :: 47 :: 47 :: (authority ++ p ++ query) = s ++ ([58, 47, 47] ++ (authority ++ p ++ query))
      from rfl]
    simp only [containsCTLByte_append, hscheme.noCTL, hslashes, hclean, containsCTLByte_of_validEncoded hvalid, hquery',
      Bool.or_false]
  have hnone : 63 ∉ 47 :: 47 :: (authority ++ p) := by
    have hp : 63 ∉ p := fun hmem => (validEncoded_byte hvalid hmem).1 rfl
    simp only [List.mem_cons, List.mem_append, not_or]
    exact ⟨by decide, by decide, hmark, hp⟩
  have hsplit : ∃ forceQuery, splitQuery (47 :: 47 :: (authority ++ p ++ query)) =
      (47 :: 47 :: (authority ++ p), forceQuery, q) := by
    obtain ⟨rfl, rfl⟩ | rfl := hquery
    · rw [List.append_nil]
      exact ⟨false, splitQuery_of_notMem hnone⟩
    · exact ⟨decide (q = []), splitQuery_append hnone q⟩
  have hbytes : ∀ b ∈ authority, (b != 47) = true := fun b hb => by simpa using fun heq : b = 47 => hslash (heq ▸ hb)
  have htake : (authority ++ p).takeWhile (· != 47) = authority := by
    rw [List.takeWhile_append_of_pos hbytes]
    obtain rfl | ⟨rest, rfl⟩ := hrooted <;> simp
  have hdrop : (authority ++ p).dropWhile (· != 47) = p := by
    rw [List.dropWhile_append_of_pos hbytes]
    obtain rfl | ⟨rest, rfl⟩ := hrooted <;> simp
  obtain ⟨forceQuery, hsplit⟩ := hsplit
  refine ⟨forceQuery, ?_⟩
  rw [parseAbsolute, if_neg (Bool.eq_false_iff.1 hctl'), getScheme_append hscheme]
  simp only [Option.bind_some, hsplit]
  rw [if_neg (by simp), List.drop_succ_cons, List.drop_succ_cons, List.drop_zero, htake, hdrop, hauthority, hpath,
    hscheme.lower]
  rfl

theorem exists_setPath_hostPath (u : URL) : ∃ path rawPath, setPath u.hostPath = some (path, rawPath) := by
  have hread : ∃ path, unescape u.hostPath = some path := by
    unfold URL.hostPath
    split
    · exact ⟨47 :: u.path, by rw [unescape_cons (by decide), unescape_escapedPath]; rfl⟩
    · exact ⟨u.path, unescape_escapedPath u⟩
  obtain ⟨path, hpath⟩ := hread
  exact ⟨_, _, by rw [setPath, hpath]; rfl⟩

theorem URL.Absolute.notMem_front (h : u.Absolute parts) :
    35 ∉ u.scheme ++ 58 :: 47 :: 47 :: (u.authority ++ u.hostPath) := by
  have hhost : 35 ∉ u.hostPath := fun hmem => (validEncoded_byte (validEncoded_hostPath u) hmem).2.1 rfl
  simp only [List.mem_append, List.mem_cons, not_or]
  exact ⟨h.scheme.notMem, by decide, by decide, by decide, (parts.authority_bytes _ _ h.authority).2.2.1, hhost⟩

theorem parse_text (h : u.Absolute parts) (hctl : containsCTLByte u.rawQuery = false)
    (hhash : 35 ∉ u.rawQuery) :
    ∃ u', parse parts u.text = some u' ∧ u'.escapedPath = u.hostPath ∧ u'.rawQuery = u.rawQuery := by
  obtain ⟨path, rawPath, hpath⟩ := exists_setPath_hostPath u
  have hvalid := validEncoded_hostPath u
  have hquery : u.query = [] ∧ u.rawQuery = [] ∨ u.query = 63 :: u.rawQuery := by
    unfold URL.query
    split
    · exact .inr rfl
    · rename_i hnone
      exact .inl ⟨rfl, not_not.1 (not_or.1 hnone).2⟩
  have hfront : 35 ∉ u.scheme ++ 58 :: 47 :: 47 :: (u.authority ++ u.hostPath ++ u.query) := by
    have hmem : 35 ∉ u.query := by
      obtain ⟨hquery, -⟩ | hquery := hquery <;> rw [hquery]
      · simp
      · simpa using hhash
    have hfront := h.notMem_front
    simp only [List.mem_append, List.mem_cons, not_or] at hfront ⊢
    exact ⟨hfront.1, hfront.2.1, hfront.2.2.1, hfront.2.2.2.1, hfront.2.2.2.2, hmem⟩
  have hcut : cut 35 u.text = (u.scheme ++ 58 :: 47 :: 47 :: (u.authority ++ u.hostPath ++ u.query), u.fragment) := by
    unfold URL.text
    split
    · exact cut_append hfront u.fragment
    · rename_i hnone
      rw [List.append_nil, cut_of_notMem hfront, not_not.1 hnone]
  obtain ⟨forceQuery, hparse⟩ := parseAbsolute_eq h.scheme h.authority hvalid (hostPath_eq u) hpath hctl hquery
  have hsame : ∀ fragment, URL.escapedPath ⟨u.scheme, u.authority, path, rawPath, forceQuery, u.rawQuery, fragment⟩ =
      u.hostPath := fun fragment => escapedPath_of_setPath hvalid (hostPath_eq u) hpath
  rw [parse, hcut]
  dsimp only
  rw [hparse, Option.bind_some]
  split
  · exact ⟨_, rfl, hsame [], rfl⟩
  · rename_i hfragment
    obtain ⟨fragment, hprinted⟩ := Option.isSome_iff_exists.1 (h.fragment.resolve_left hfragment)
    rw [hprinted]
    exact ⟨_, rfl, hsame fragment, rfl⟩

theorem rawQuery_of_hash {u' : URL} (h : u.Absolute parts)
    (hctl : containsCTLByte u.rawQuery = false)
    (hhash : 35 ∈ u.rawQuery) (hparse : parse parts u.text = some u') : u'.rawQuery ≠ u.rawQuery := by
  obtain ⟨path, rawPath, hpath⟩ := exists_setPath_hostPath u
  obtain ⟨before, after, hraw, hbefore⟩ := List.eq_append_cons_of_mem hhash
  have hctl' : containsCTLByte before = false := by
    rw [hraw, containsCTLByte_append] at hctl
    exact (Bool.or_eq_false_iff.1 hctl).1
  have hquery : u.query = 63 :: (before ++ 35 :: after) := by
    rw [URL.query, if_pos (.inr (List.ne_nil_of_mem hhash)), hraw]
  have hfront : 35 ∉ u.scheme ++ 58 :: 47 :: 47 :: (u.authority ++ u.hostPath ++ 63 :: before) := by
    have hfront := h.notMem_front
    simp only [List.mem_append, List.mem_cons, not_or] at hfront ⊢
    exact ⟨hfront.1, hfront.2.1, hfront.2.2.1, hfront.2.2.2.1, hfront.2.2.2.2, by decide, hbefore⟩
  have hcut : (cut 35 u.text).1 = u.scheme ++ 58 :: 47 :: 47 :: (u.authority ++ u.hostPath ++ 63 :: before) := by
    have htext : u.text = (u.scheme ++ 58 :: 47 :: 47 :: (u.authority ++ u.hostPath ++ 63 :: before)) ++
        35 :: (after ++ if u.fragment ≠ [] then 35 :: u.fragment else []) := by
      rw [URL.text, hquery]
      simp
    rw [htext, cut_append hfront]
  obtain ⟨forceQuery, habsolute⟩ := parseAbsolute_eq h.scheme h.authority (validEncoded_hostPath u)
    (hostPath_eq u) hpath
    hctl' (.inr rfl)
  have hread : u'.rawQuery = before := by
    rw [parse, hcut, habsolute, Option.bind_some] at hparse
    split at hparse
    · rw [← Option.some.inj hparse]
    · obtain ⟨fragment, -, rfl⟩ := Option.map_eq_some_iff.1 hparse
      rfl
  rw [hread, hraw]
  exact fun heq => absurd (congrArg List.length heq) (by simp)

/-! ## What can be read -/

/-- A path that was written from the root, or not at all. -/
def PathRead (u : URL) : Prop :=
  ∃ written, (written = [] ∨ [47] <+: written) ∧ setPath written = some (u.path, u.rawPath)

theorem of_getScheme (h : getScheme s = some (t, q)) : IsScheme (t.map lowerByte) ∧ q ⊆ s := by
  have hbyte : ∀ b : UInt8, isSchemeByte b = true → isSchemeByte (lowerByte b) = true := forall_byte (by decide +kernel)
  have hletter : ∀ b : UInt8, isLetter b = true → isLetter (lowerByte b) = true := forall_byte (by decide +kernel)
  unfold getScheme at h
  dsimp only at h
  split at h
  · rename_i first rest' rest hscheme hrest
    split at h
    · rename_i hfirst
      obtain ⟨rfl, rfl⟩ := Prod.mk.inj (Option.some.inj h)
      refine ⟨⟨⟨lowerByte first, by rw [hscheme]; rfl, hletter first hfirst⟩, fun b hb => ?_, ?_⟩, fun b hb => ?_⟩
      · obtain ⟨c, hc, rfl⟩ := List.mem_map.1 hb
        exact hbyte c (List.mem_takeWhile_imp hc)
      · rw [List.map_map]
        exact List.map_congr_left fun b _ => lowerByte_lowerByte b
      · exact List.dropWhile_subset isSchemeByte (hrest ▸ List.mem_cons_of_mem 58 hb)
    · cases h
  · cases h

theorem subset_splitQuery (s : GoString) : (splitQuery s).2.2 ⊆ s := by
  unfold splitQuery
  split
  · exact List.nil_subset s
  · exact fun b hb => List.dropWhile_subset _ (List.mem_of_mem_drop hb)

theorem splitQuery_rooted (h : [47] <+: s) : (splitQuery s).1 = [] ∨ [47] <+: (splitQuery s).1 := by
  obtain ⟨rest, rfl⟩ := h
  unfold splitQuery
  split
  · cases rest with
    | nil => exact .inl rfl
    | cons b rest => exact .inr ⟨(b :: rest).dropLast, rfl⟩
  · exact .inr ⟨rest.takeWhile (· != 63), rfl⟩

theorem containsCTLByte_of_subset (h : s ⊆ t) (ht : containsCTLByte t = false) : containsCTLByte s = false := by
  rw [containsCTLByte, List.any_eq_false] at ht ⊢
  exact fun b hb => ht b (h hb)

theorem dropWhile_slash (s : GoString) : s.dropWhile (· != 47) = [] ∨ [47] <+: s.dropWhile (· != 47) := by
  cases h : s.dropWhile (· != 47) with
  | nil => exact .inl rfl
  | cons b rest =>
    have hne : s.dropWhile (· != 47) ≠ [] := by simp [h]
    have hb := List.head_dropWhile_not (· != 47) hne
    simp only [h, List.head_cons] at hb
    obtain rfl : b = 47 := by simpa using hb
    exact .inr ⟨rest, rfl⟩

theorem of_parseAbsolute (h : parseAbsolute parts s = some u) :
    IsScheme u.scheme ∧ parts.authority u.authority = some u.authority ∧ u.fragment = [] ∧ PathRead u ∧
      containsCTLByte u.rawQuery = false := by
  unfold parseAbsolute at h
  split at h
  · cases h
  rename_i hctl
  obtain ⟨⟨scheme, rest⟩, hscheme, h⟩ := Option.bind_eq_some_iff.1 h
  dsimp only at h
  split at h
  · cases h
  obtain ⟨authority, hauthority, h⟩ := Option.bind_eq_some_iff.1 h
  obtain ⟨⟨path, rawPath⟩, hpath, rfl⟩ := Option.map_eq_some_iff.1 h
  obtain ⟨hscheme, hrest⟩ := of_getScheme hscheme
  exact ⟨hscheme, parts.authority_again _ _ hauthority, rfl, ⟨_, dropWhile_slash _, hpath⟩,
    containsCTLByte_of_subset (fun b hb => hrest (subset_splitQuery rest hb)) (Bool.eq_false_iff.2 hctl)⟩

theorem of_parse (h : parse parts s = some u) : u.Absolute parts ∧ PathRead u := by
  obtain ⟨u', hu', h⟩ := Option.bind_eq_some_iff.1 h
  obtain ⟨hscheme, hauthority, hfragment, hpath, -⟩ := of_parseAbsolute hu'
  split at h
  · obtain rfl := Option.some.inj h
    exact ⟨⟨hscheme, hauthority, .inl hfragment⟩, hpath⟩
  · obtain ⟨fragment, hprinted, rfl⟩ := Option.map_eq_some_iff.1 h
    exact ⟨⟨hscheme, hauthority, .inr (parts.fragment_again _ _ hprinted)⟩, hpath⟩

theorem of_parseRequestURI (h : parseRequestURI parts s = some u) :
    (PathRead u ∨ u.path = [42] ∧ u.rawPath = []) ∧ containsCTLByte u.rawQuery = false := by
  unfold parseRequestURI at h
  split at h
  · cases h
  rename_i hctl
  have hctl' := Bool.eq_false_iff.2 (not_or.1 hctl).2
  split at h
  · obtain rfl := Option.some.inj h
    exact ⟨.inr ⟨rfl, rfl⟩, rfl⟩
  split at h
  · rename_i hrooted
    obtain ⟨⟨path, rawPath⟩, hpath, rfl⟩ := Option.map_eq_some_iff.1 h
    exact ⟨.inl ⟨_, splitQuery_rooted hrooted, hpath⟩, containsCTLByte_of_subset (subset_splitQuery s) hctl'⟩
  · obtain ⟨-, -, -, hpath, hquery⟩ := of_parseAbsolute h
    exact ⟨.inl hpath, hquery⟩

end

end AuditGateway.Go
