import AuditGateway.Framework.Segments

/-!
# Go strings

A Go string is a list of bytes, and need not be UTF-8. This is the part of the packages `strings`,
`net/textproto` and `net/url` that the gateway uses on headers and query strings. What depends on the
tables of `unicode` beyond ASCII is a parameter (`Unicode`), white space apart: it is a list of
byte sequences, none of which begins another, so that it can be removed from the front and from the
back without decoding.
-/

namespace AuditGateway.Go

/-- The bytes of a string. -/
abbrev GoString := List UInt8

/-- The bytes of an ASCII text. -/
def ascii (s : String) : GoString := s.toList.map fun c => UInt8.ofNat c.toNat

/-! ## Letters -/

/-- What `strings` does with texts that are not ASCII. -/
structure Unicode where
  toLower : GoString → GoString
  equalFold : GoString → GoString → Bool

def lowerByte (b : UInt8) : UInt8 := if 65 ≤ b ∧ b ≤ 90 then b + 32 else b

def upperByte (b : UInt8) : UInt8 := if 97 ≤ b ∧ b ≤ 122 then b - 32 else b

def isASCII (s : GoString) : Bool := s.all (· < 0x80)

/-- `strings.ToLower`. -/
def toLower (U : Unicode) (s : GoString) : GoString := if isASCII s then s.map lowerByte else U.toLower s

/-- `strings.EqualFold`. -/
def equalFold (U : Unicode) (s t : GoString) : Bool :=
  if isASCII s && isASCII t then s.map lowerByte == t.map lowerByte else U.equalFold s t

def byteUnicode : Unicode where
  toLower s := s.map lowerByte
  equalFold s t := s.map lowerByte == t.map lowerByte

/-! ## White space -/

/-- `unicode.IsSpace`. -/
def unicodeIsSpace (c : Char) : Bool :=
  let n := c.toNat
  (9 ≤ n && n ≤ 13) || n == 32 || n == 0x85 || n == 0xA0 || n == 0x1680 || (0x2000 ≤ n && n ≤ 0x200A) ||
    n == 0x2028 || n == 0x2029 || n == 0x202F || n == 0x205F || n == 0x3000

/-- `strings.TrimSpace`, of a text that is valid UTF-8. -/
def Text.trimSpace (s : String) : String :=
  String.ofList ((s.toList.dropWhile unicodeIsSpace).reverse.dropWhile unicodeIsSpace).reverse

def spaces : List GoString :=
  [[0x09], [0x0A], [0x0B], [0x0C], [0x0D], [0x20], [0xC2, 0x85], [0xC2, 0xA0], [0xE1, 0x9A, 0x80],
    [0xE2, 0x80, 0x80], [0xE2, 0x80, 0x81], [0xE2, 0x80, 0x82], [0xE2, 0x80, 0x83], [0xE2, 0x80, 0x84],
    [0xE2, 0x80, 0x85], [0xE2, 0x80, 0x86], [0xE2, 0x80, 0x87], [0xE2, 0x80, 0x88], [0xE2, 0x80, 0x89],
    [0xE2, 0x80, 0x8A], [0xE2, 0x80, 0xA8], [0xE2, 0x80, 0xA9], [0xE2, 0x80, 0xAF], [0xE2, 0x81, 0x9F],
    [0xE3, 0x80, 0x80]]

/-- The white space that a string begins with. -/
def spaceOf (units : List GoString) (s : GoString) : Option GoString := units.find? (·.isPrefixOf s)

/-- White space is removed from the front, at most `n` characters. -/
def stripSpaces (units : List GoString) : Nat → GoString → GoString
  | 0, s => s
  | n + 1, s =>
    match spaceOf units s with
    | some unit => stripSpaces units n (s.drop unit.length)
    | none => s

def trimLeft (s : GoString) : GoString := stripSpaces spaces s.length s

def trimRight (s : GoString) : GoString := (stripSpaces (spaces.map List.reverse) s.length s.reverse).reverse

/-- `strings.TrimSpace`. -/
def trimSpace (s : GoString) : GoString := trimRight (trimLeft s)

/-- The fields from a string, with the field that has been begun. -/
def fieldsFrom (field : GoString) : Nat → GoString → List GoString
  | 0, _ => if field = [] then [] else [field]
  | _ + 1, [] => if field = [] then [] else [field]
  | n + 1, b :: s =>
    match spaceOf spaces (b :: s) with
    | some unit => (if field = [] then [] else [field]) ++ fieldsFrom [] n ((b :: s).drop unit.length)
    | none => fieldsFrom (field ++ [b]) n s

/-- `strings.Fields`. -/
def fields (s : GoString) : List GoString := fieldsFrom [] (s.length + 1) s

/-- A sequence of white space. -/
def Blank (s : GoString) : Prop := ∃ units : List GoString, (∀ unit ∈ units, unit ∈ spaces) ∧ s = units.flatten

section

variable {units us : List GoString} {s t rest lead trail unit : GoString}

theorem spaceOf_eq_some (h : spaceOf units s = some unit) : unit ∈ units ∧ unit <+: s := by
  unfold spaceOf at h
  have hfront := List.find?_some h
  exact ⟨List.mem_of_find?_eq_some h, List.isPrefixOf_iff_prefix.1 hfront⟩

theorem spaceOf_eq_none : spaceOf units s = none ↔ ∀ unit ∈ units, ¬ unit <+: s := by
  unfold spaceOf
  rw [List.find?_eq_none]
  simp only [List.isPrefixOf_iff_prefix]

theorem stripSpaces_eq (units : List GoString) (n : Nat) (s : GoString) :
    ∃ us : List GoString, (∀ unit ∈ us, unit ∈ units) ∧ s = us.flatten ++ stripSpaces units n s := by
  induction n generalizing s with
  | zero => exact ⟨[], by simp, rfl⟩
  | succ n ih =>
    rw [stripSpaces]
    cases hspace : spaceOf units s with
    | none => exact ⟨[], by simp, rfl⟩
    | some unit =>
      obtain ⟨hunit, rest, rfl⟩ := spaceOf_eq_some hspace
      obtain ⟨us, hus, heq⟩ := ih rest
      refine ⟨unit :: us, List.forall_mem_cons.2 ⟨hunit, hus⟩, ?_⟩
      simp only [List.drop_left, List.flatten_cons, List.append_assoc]
      rw [← heq]

theorem stripSpaces_append {b : UInt8} (hb : ∀ unit ∈ units, b ∉ unit) (n : Nat) (t rest : GoString) :
    ∃ t', stripSpaces units n (t ++ b :: rest) = t' ++ b :: rest := by
  induction n generalizing t with
  | zero => exact ⟨t, rfl⟩
  | succ n ih =>
    rw [stripSpaces]
    cases hspace : spaceOf units (t ++ b :: rest) with
    | none => exact ⟨t, rfl⟩
    | some unit =>
      obtain ⟨hunit, w, hw⟩ := spaceOf_eq_some hspace
      -- The white space ends before `b`.
      have ht : unit <+: t := by
        obtain ⟨t', rfl, -⟩ | ⟨c, hc, hrest⟩ := List.append_eq_append_iff.1 hw
        · exact List.prefix_append unit t'
        · cases c with
          | nil => simp [hc]
          | cons d c =>
            obtain ⟨rfl, -⟩ := List.cons.inj hrest
            exact absurd (by simp [hc]) (hb unit hunit)
      obtain ⟨t', rfl⟩ := ht
      simp only [List.append_assoc, List.drop_left]
      exact ih t'

/-- None of the byte sequences is empty or begins another. -/
structure Delimited (units : List GoString) : Prop where
  ne_nil : ∀ unit ∈ units, unit ≠ []
  free : ∀ unit ∈ units, ∀ unit' ∈ units, unit <+: unit' → unit = unit'

theorem delimited_spaces : Delimited spaces ∧ Delimited (spaces.map List.reverse) :=
  ⟨⟨by decide, by decide +kernel⟩, ⟨by decide, by decide +kernel⟩⟩

theorem spaceOf_append (h : Delimited units) (hunit : unit ∈ units) (rest : GoString) :
    spaceOf units (unit ++ rest) = some unit := by
  have hfront : unit <+: unit ++ rest := List.prefix_append unit rest
  cases hspace : spaceOf units (unit ++ rest) with
  | none => exact absurd hfront (spaceOf_eq_none.1 hspace unit hunit)
  | some unit' =>
    obtain ⟨hunit', hfront'⟩ := spaceOf_eq_some hspace
    obtain hle | hle := List.prefix_or_prefix_of_prefix hfront' hfront
    · rw [h.free unit' hunit' unit hunit hle]
    · rw [h.free unit hunit unit' hunit' hle]

theorem stripSpaces_of_none (h : spaceOf units s = none) (n : Nat) : stripSpaces units n s = s := by
  cases n with
  | zero => rfl
  | succ n => rw [stripSpaces, h]

theorem stripSpaces_flatten (h : Delimited units) (hus : ∀ unit ∈ us, unit ∈ units) (hrest : spaceOf units rest = none)
    {n : Nat} (hn : (us.flatten ++ rest).length ≤ n) : stripSpaces units n (us.flatten ++ rest) = rest := by
  induction us generalizing n with
  | nil => exact stripSpaces_of_none hrest n
  | cons unit us ih =>
    obtain ⟨hunit, hus⟩ := List.forall_mem_cons.1 hus
    have hpos := List.length_pos_iff.2 (h.ne_nil unit hunit)
    rw [List.flatten_cons, List.append_assoc] at hn ⊢
    rw [List.length_append] at hn
    cases n with
    | zero => omega
    | succ n =>
      rw [stripSpaces, spaceOf_append h hunit]
      simp only [List.drop_left]
      exact ih hus (by omega)

theorem trimLeft_append (hlead : Blank lead) (hrest : spaceOf spaces rest = none) : trimLeft (lead ++ rest) = rest := by
  obtain ⟨us, hus, rfl⟩ := hlead
  exact stripSpaces_flatten delimited_spaces.1 hus hrest le_rfl

theorem trimSpace_spec (s : GoString) :
    ∃ lead trail, Blank lead ∧ Blank trail ∧ s = lead ++ (trimSpace s ++ trail) := by
  obtain ⟨us, hus, hleft⟩ : ∃ us : List GoString, (∀ unit ∈ us, unit ∈ spaces) ∧ s = us.flatten ++ trimLeft s :=
    stripSpaces_eq spaces s.length s
  obtain ⟨vs, hvs, hright⟩ := stripSpaces_eq (spaces.map List.reverse) (trimLeft s).length (trimLeft s).reverse
  refine ⟨us.flatten, vs.flatten.reverse, ⟨us, hus, rfl⟩, ⟨(vs.map List.reverse).reverse, ?_, List.reverse_flatten⟩, ?_⟩
  · intro unit hunit
    obtain ⟨v, hv, rfl⟩ := List.mem_map.1 (List.mem_reverse.1 hunit)
    obtain ⟨unit, hunit, rfl⟩ := List.mem_map.1 (hvs v hv)
    rwa [List.reverse_reverse]
  · have hback : trimLeft s = trimSpace s ++ vs.flatten.reverse := by
      rw [trimSpace, trimRight, ← List.reverse_append, ← hright, List.reverse_reverse]
    rw [← hback]
    exact hleft

theorem hasPrefix_trimSpace {m : GoString} {b : UInt8} (hlead : Blank lead) (hb : ∀ unit ∈ spaces, b ∉ unit)
    (hrest : spaceOf spaces (m ++ [b] ++ t) = none) : m ++ [b] <+: trimSpace (lead ++ (m ++ [b] ++ t)) := by
  have hb' : ∀ unit ∈ spaces.map List.reverse, b ∉ unit := by
    intro unit hunit
    obtain ⟨unit', hunit', rfl⟩ := List.mem_map.1 hunit
    simpa using hb unit' hunit'
  obtain ⟨t', ht'⟩ := stripSpaces_append hb' (m ++ [b] ++ t).length t.reverse m.reverse
  rw [trimSpace, trimLeft_append hlead hrest, trimRight]
  have hreverse : (m ++ [b] ++ t).reverse = t.reverse ++ b :: m.reverse := by simp
  rw [hreverse, ht']
  exact ⟨t'.reverse, by simp⟩

/-- Visible ASCII. -/
def Graph (s : GoString) : Prop := ∀ b ∈ s, 0x21 ≤ b ∧ b < 0x80

instance (s : GoString) : Decidable (Graph s) := List.decidableBAll (fun b => 0x21 ≤ b ∧ b < 0x80) s

theorem trimSpace_of_graph (h : Graph s) : trimSpace s = s := by
  have hspaces : ∀ unit ∈ spaces ++ spaces.map List.reverse,
      unit ≠ [] ∧ unit.all (fun b => ! decide (0x21 ≤ b ∧ b < 0x80)) = true := by decide
  have hnone {units : List GoString} (hunits : units ⊆ spaces ++ spaces.map List.reverse)
    {s : GoString} (hs : Graph s) :
      spaceOf units s = none := by
    refine Option.eq_none_iff_forall_ne_some.2 fun unit hunit => ?_
    obtain ⟨hmem, rest, rfl⟩ := spaceOf_eq_some hunit
    obtain ⟨hne, hbytes⟩ := hspaces unit (hunits hmem)
    obtain ⟨b, hb⟩ := List.exists_mem_of_ne_nil unit hne
    have hb' := List.all_eq_true.1 hbytes b hb
    rw [decide_eq_true (hs b (List.mem_append_left rest hb))] at hb'
    cases hb'
  have hreverse : Graph s.reverse := fun b hb => h b (List.mem_reverse.1 hb)
  rw [trimSpace, trimLeft, stripSpaces_of_none (hnone (List.subset_append_left ..) h), trimRight,
    stripSpaces_of_none (hnone (List.subset_append_right ..) hreverse), List.reverse_reverse]

theorem toLower_of_graph (U : Unicode) (h : Graph s) : toLower U s = s.map lowerByte :=
  if_pos (List.all_eq_true.2 fun b hb => decide_eq_true (h b hb).2)

theorem graph_of_lower (h : Graph (s.map lowerByte)) : Graph s := by
  intro b hb
  have hlower := h (lowerByte b) (List.mem_map_of_mem hb)
  unfold lowerByte at hlower
  split at hlower
  · rename_i hletter
    exact ⟨UInt8.le_trans (by decide) hletter.1, UInt8.lt_of_le_of_lt hletter.2 (by decide)⟩
  · exact hlower

end

/-! ## Query strings -/

/-- `strings.Cut` at a byte. -/
def cut (sep : UInt8) (s : GoString) : GoString × GoString :=
  (s.takeWhile (· != sep), (s.dropWhile (· != sep)).drop 1)

/-- The value of a hexadecimal digit. -/
def unhex (b : UInt8) : Option UInt8 :=
  if 48 ≤ b ∧ b ≤ 57 then some (b - 48)
  else if 97 ≤ b ∧ b ≤ 102 then some (b - 87)
  else if 65 ≤ b ∧ b ≤ 70 then some (b - 55)
  else none

/-- `url.QueryUnescape`. -/
def queryUnescape : GoString → Option GoString
  | 37 :: high :: low :: s => do return (16 * (← unhex high) + (← unhex low)) :: (← queryUnescape s)
  | 37 :: _ => none
  | 43 :: s => do return 32 :: (← queryUnescape s)
  | b :: s => do return b :: (← queryUnescape s)
  | [] => some []

/-- A part of a query string between ampersands: its raw value, its name and its value. -/
def queryParam (part : GoString) : Option (GoString × GoString × GoString) :=
  if 59 ∈ part ∨ part = [] then none
  else do return ((cut 61 part).2, ← queryUnescape (cut 61 part).1, ← queryUnescape (cut 61 part).2)

/-- The parameters that `url.ParseQuery` finds; parts that it can not read are passed over. -/
def parseQuery (query : GoString) : List (GoString × GoString × GoString) := (query.splitOn 38).filterMap queryParam

/-- The first parameter with a name: its raw value and its value. -/
def queryParamNamed (query name : GoString) : Option (GoString × GoString) :=
  ((parseQuery query).find? fun param => param.2.1 = name).map fun param => (param.1, param.2.2)

/-! ## Header names -/

/-- The bytes of a token. -/
def isTokenByte (b : UInt8) : Bool :=
  (48 ≤ b && b ≤ 57) || (65 ≤ b && b ≤ 90) || (97 ≤ b && b ≤ 122) ||
    [33, 35, 36, 37, 38, 39, 42, 43, 45, 46, 94, 95, 96, 124, 126].contains b

/-- The first letter and those after a hyphen in upper case, the others in lower case. -/
def canonicalCase (upper : Bool) : GoString → GoString
  | [] => []
  | b :: s => (if upper then upperByte b else lowerByte b) :: canonicalCase (b == 45) s

/-- `http.CanonicalHeaderKey`. -/
def canonicalHeaderKey (key : GoString) : GoString := if key.all isTokenByte then canonicalCase true key else key

theorem lowerByte_lowerByte (b : UInt8) : lowerByte (lowerByte b) = lowerByte b := by
  by_cases h : 65 ≤ b ∧ b ≤ 90
  · have hlower : lowerByte b = b + 32 := if_pos h
    rw [hlower]
    refine if_neg fun h' => ?_
    simp only [UInt8.le_iff_toNat_le, UInt8.toNat_add, UInt8.reduceToNat] at h h'
    omega
  · have hsame : lowerByte b = b := if_neg h
    rw [hsame, hsame]

theorem lowerByte_upperByte (b : UInt8) : lowerByte (upperByte b) = lowerByte b := by
  unfold lowerByte upperByte
  split
  · rename_i h
    simp only [UInt8.le_iff_toNat_le, UInt8.toNat_sub, UInt8.reduceToNat, ← UInt8.toNat_inj] at h ⊢
    split <;> split <;> simp_all <;> omega
  · rfl

theorem lowerByte_lt (b : UInt8) : lowerByte b < 0x80 ↔ b < 0x80 := by
  unfold lowerByte
  split
  · rename_i h
    simp only [UInt8.le_iff_toNat_le, UInt8.lt_iff_toNat_lt, UInt8.toNat_add, UInt8.reduceToNat] at h ⊢
    omega
  · rfl

theorem isTokenByte_lt {b : UInt8} (h : isTokenByte b = true) : b < 0x80 := by
  have hpunctuation : ∀ c ∈ [33, 35, 36, 37, 38, 39, 42, 43, 45, 46, 94, 95, 96, 124, (126 : UInt8)], c < 0x80 := by
    decide +kernel
  simp only [isTokenByte, Bool.or_eq_true, Bool.and_eq_true, decide_eq_true_eq, List.contains_iff_mem] at h
  obtain ((h | h) | h) | h := h
  · exact UInt8.lt_of_le_of_lt h.2 (by decide)
  · exact UInt8.lt_of_le_of_lt h.2 (by decide)
  · exact UInt8.lt_of_le_of_lt h.2 (by decide)
  · exact hpunctuation b h

theorem map_lowerByte_canonicalCase (upper : Bool) (s : GoString) :
    (canonicalCase upper s).map lowerByte = s.map lowerByte := by
  induction s generalizing upper with
  | nil => rfl
  | cons b s ih =>
    rw [canonicalCase, List.map_cons, List.map_cons, ih]
    cases upper with
    | false => exact congrArg (· :: _) (lowerByte_lowerByte b)
    | true => exact congrArg (· :: _) (lowerByte_upperByte b)

theorem isASCII_map_lowerByte (s : GoString) : isASCII (s.map lowerByte) = isASCII s := by
  rw [isASCII, isASCII, List.all_map]
  congr 1
  funext b
  exact decide_eq_decide.2 (lowerByte_lt b)

theorem equalFold_canonicalHeaderKey {U : Unicode} (hU : ∀ s, U.equalFold s s = true) (name : GoString) :
    equalFold U (canonicalHeaderKey name) name = true := by
  have hfold : (canonicalHeaderKey name).map lowerByte = name.map lowerByte := by
    unfold canonicalHeaderKey
    split
    · exact map_lowerByte_canonicalCase true name
    · rfl
  unfold equalFold
  split
  · rw [hfold]
    exact beq_self_eq_true _
  · rename_i hascii
    -- A name that is not ASCII is not a token.
    have hname : canonicalHeaderKey name = name := by
      refine if_neg fun htoken => hascii ?_
      have hname : isASCII name = true :=
        List.all_eq_true.2 fun b hb => decide_eq_true (isTokenByte_lt (List.all_eq_true.1 htoken b hb))
      rw [← isASCII_map_lowerByte, hfold, isASCII_map_lowerByte, hname]
      rfl
    rw [hname]
    exact hU name

end AuditGateway.Go
