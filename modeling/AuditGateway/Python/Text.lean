import AuditGateway.Python.Strip

/-!
# Python's `str` and `bytes`

A `str` is a sequence of code points, and a lone surrogate is one of them: it can
come from a `\ud800` in JSON, but UTF-8 has no encoding for it. `decodeUtf8` and
`encodeUtf8` are `bytes.decode("utf-8")` and `str.encode("utf-8")` with their strict
error handling.
-/

namespace AuditGateway.Python

abbrev CodePoint := Fin 0x110000

instance CodePoint.neZero : NeZero 0x110000 := ⟨by decide⟩

abbrev Str := List CodePoint

instance CodePoint.lawfulBEq : LawfulBEq CodePoint := inferInstance

instance Str.lawfulBEq : LawfulBEq Str := inferInstance

def CodePoint.ofChar (c : Char) : CodePoint :=
  Fin.ofNat 0x110000 c.toNat

def Str.ofString (s : String) : Str :=
  s.toList.map CodePoint.ofChar

instance : Coe String Str := ⟨Str.ofString⟩

/-! ## UTF-8 -/

def CodePoint.isSurrogate (c : CodePoint) : Bool :=
  0xD800 ≤ c.val && c.val ≤ 0xDFFF

def encodeCodePoint (c : CodePoint) : List UInt8 :=
  let n := c.val
  let continuation (k : Nat) : UInt8 := UInt8.ofNat (0x80 + n / 64 ^ k % 64)
  if n < 0x80 then [UInt8.ofNat n]
  else if n < 0x800 then [UInt8.ofNat (0xC0 + n / 64), continuation 0]
  else if n < 0x10000 then [UInt8.ofNat (0xE0 + n / 64 ^ 2), continuation 1, continuation 0]
  else [UInt8.ofNat (0xF0 + n / 64 ^ 3), continuation 2, continuation 1, continuation 0]

/-- `str.encode("utf-8")`, or none where it raises `UnicodeEncodeError`. -/
def encodeUtf8 : Str → Option (List UInt8)
  | [] => some []
  | c :: s => if c.isSurrogate then none else (encodeUtf8 s).map (encodeCodePoint c ++ ·)

/-- The continuation bytes that a first byte asks for, the bits it gives, and the range of
the first continuation byte, which excludes what would be too short an encoding, a surrogate
or beyond the last code point. -/
def leadByte (b : Nat) : Option (Nat × Nat × Nat × Nat) :=
  if b < 0x80 then some (0, b, 0x80, 0xBF)
  else if 0xC2 ≤ b ∧ b ≤ 0xDF then some (1, b % 32, 0x80, 0xBF)
  else if b = 0xE0 then some (2, 0, 0xA0, 0xBF)
  else if b = 0xED then some (2, 13, 0x80, 0x9F)
  else if 0xE1 ≤ b ∧ b ≤ 0xEF then some (2, b % 16, 0x80, 0xBF)
  else if b = 0xF0 then some (3, 0, 0x90, 0xBF)
  else if 0xF1 ≤ b ∧ b ≤ 0xF3 then some (3, b % 8, 0x80, 0xBF)
  else if b = 0xF4 then some (3, 4, 0x80, 0x8F)
  else none

/-- Decoding with `need` continuation bytes to come, the next of them between `lo` and `hi`. -/
def decodeUtf8From (need bits lo hi : Nat) : List UInt8 → Option Str
  | [] => if need = 0 then some [] else none
  | b :: bs =>
    match need with
    | 0 =>
      match leadByte b.toNat with
      | none => none
      | some (0, n, lo, hi) => (decodeUtf8From 0 0 lo hi bs).map (Fin.ofNat _ n :: ·)
      | some (more + 1, n, lo, hi) => decodeUtf8From (more + 1) n lo hi bs
    | more + 1 =>
      if lo ≤ b.toNat ∧ b.toNat ≤ hi then
        let n := bits * 64 + b.toNat % 64
        if more = 0 then (decodeUtf8From 0 0 0x80 0xBF bs).map (Fin.ofNat _ n :: ·)
        else decodeUtf8From more n 0x80 0xBF bs
      else none

/-- `bytes.decode("utf-8")`, or none where it raises `UnicodeDecodeError`. -/
def decodeUtf8 (bs : List UInt8) : Option Str :=
  decodeUtf8From 0 0 0x80 0xBF bs

example : decodeUtf8 [0x68, 0xC3, 0xA9, 0xE2, 0x82, 0xAC] = some [0x68, 0xE9, 0x20AC] := by decide

example : decodeUtf8 [0xED, 0xA0, 0x80] = none := by decide

/-- A text without surrogates. -/
def Encodes (s : Str) : Prop :=
  ∀ c ∈ s, CodePoint.isSurrogate c = false

instance (s : Str) : Decidable (Encodes s) :=
  List.decidableBAll _ s

theorem encodeUtf8_isSome_iff {s : Str} : (encodeUtf8 s).isSome = true ↔ Encodes s := by
  induction s with
  | nil => simp [encodeUtf8, Encodes]
  | cons c s ih =>
    rw [encodeUtf8]
    cases hc : c.isSurrogate with
    | true => simp [Encodes, hc]
    | false => simpa [Encodes, hc] using ih

/-- The texts that Postgres takes as `text`: no surrogate and no NUL. -/
def Storable (s : Str) : Prop :=
  Encodes s ∧ 0 ∉ s

instance (s : Str) : Decidable (Storable s) :=
  inferInstanceAs (Decidable (_ ∧ _))

@[simp] theorem storable_nil : Storable [] := by
  simp [Storable, Encodes]

@[simp] theorem storable_append {s t : Str} : Storable (s ++ t) ↔ Storable s ∧ Storable t := by
  simp only [Storable, Encodes, List.mem_append]
  grind

theorem Storable.of_subset {s t : Str} (h : Storable t) (hs : s ⊆ t) : Storable s :=
  ⟨fun c hc => h.1 c (hs hc), fun h0 => h.2 (hs h0)⟩

theorem storable_iff_forall {s : Str} : Storable s ↔ ∀ c ∈ s, Storable [c] := by
  simp only [Storable, Encodes, List.mem_singleton, forall_eq]
  grind

variable {c : CodePoint}

theorem storable_cons {s : Str} : Storable (c :: s) ↔ Storable [c] ∧ Storable s :=
  storable_append (s := [c])

variable {parts : List Str}

theorem storable_flatten : Storable parts.flatten ↔ ∀ s ∈ parts, Storable s := by
  induction parts with
  | nil => simp
  | cons s parts ih => simp [ih]

theorem Str.ofString_append (s t : String) : Str.ofString (s ++ t) = Str.ofString s ++ Str.ofString t := by
  simp [Str.ofString]

theorem CodePoint.val_ofChar (c : Char) : (CodePoint.ofChar c).val = c.toNat := by
  rw [CodePoint.ofChar, Fin.val_ofNat, Nat.mod_eq_of_lt]
  obtain h | h := c.valid <;> simp only [Char.toNat] <;> omega

theorem CodePoint.ofChar_injective : Function.Injective CodePoint.ofChar := by
  intro c d h
  exact Char.toNat_inj.1 (val_ofChar c ▸ val_ofChar d ▸ congrArg Fin.val h)

theorem Str.ofString_injective : Function.Injective Str.ofString :=
  fun _ _ h => String.toList_injective (List.map_injective_iff.2 CodePoint.ofChar_injective h)

theorem mem_ofString_toString {n : Nat} (h : c ∈ Str.ofString (toString n)) :
    48 ≤ c.val ∧ c.val ≤ 57 := by
  rw [Nat.toString_eq_repr, Nat.repr_eq_ofList_toDigits, Str.ofString, String.toList_ofList] at h
  obtain ⟨d, hd, rfl⟩ := List.mem_map.1 h
  have hdigit := Nat.isDigit_of_mem_toDigits (by omega) (by omega) hd
  simp only [Char.isDigit, Bool.and_eq_true, decide_eq_true_eq, ge_iff_le, UInt32.le_iff_toNat_le] at hdigit
  have hlo : 48 ≤ d.toNat := hdigit.1
  have hhi : d.toNat ≤ 57 := hdigit.2
  rw [CodePoint.val_ofChar]
  exact ⟨hlo, hhi⟩

theorem storable_toString (n : Nat) : Storable (Str.ofString (toString n)) := by
  refine storable_iff_forall.2 fun c hc => ?_
  obtain ⟨hlo, hhi⟩ := mem_ofString_toString hc
  refine ⟨fun c' hc' => ?_, fun h => ?_⟩
  · rw [List.mem_singleton.1 hc', CodePoint.isSurrogate]
    simp only [Bool.and_eq_false_iff, decide_eq_false_iff_not]
    omega
  · rw [← List.mem_singleton.1 h, Fin.val_zero] at hlo
    omega

theorem storable_toString_int (n : Int) : Storable (Str.ofString (toString n)) := by
  cases n with
  | ofNat n => exact storable_toString n
  | negSucc n =>
    have hneg : toString (Int.negSucc n) = "-" ++ toString (n + 1) := rfl
    rw [hneg, Str.ofString_append, storable_append]
    exact ⟨by decide, storable_toString _⟩

/-! ## Methods of `str` -/

namespace Str

def strip (s : Str) : Str :=
  stripBy (fun c => isSpace c.val) s

theorem strip_subset (s : Str) : s.strip ⊆ s :=
  fun _ hc => (List.dropWhile_sublist _).subset ((List.rdropWhile_prefix _ _).subset hc)

def startsWith (s pre : Str) : Bool :=
  pre.isPrefixOf s

/-- `removeprefix`. -/
def removePre (s pre : Str) : Str :=
  if s.startsWith pre then s.drop pre.length else s

/-- `needle in s`. -/
def contains (s needle : Str) : Bool :=
  s.tails.any fun t => needle.isPrefixOf t

def join (sep : Str) (parts : List Str) : Str :=
  sep.intercalate parts

theorem mem_join {sep : Str} (h : c ∈ join sep parts) :
    c ∈ sep ∨ ∃ s ∈ parts, c ∈ s := by
  induction parts with
  | nil => cases h
  | cons s parts ih =>
    cases parts with
    | nil => exact .inr ⟨s, List.mem_singleton.2 rfl, by simpa [join] using h⟩
    | cons t parts =>
      have hjoin : join sep (s :: t :: parts) = s ++ (sep ++ join sep (t :: parts)) := by simp [join]
      rw [hjoin, List.mem_append, List.mem_append] at h
      obtain h | h | h := h
      · exact .inr ⟨s, List.mem_cons_self, h⟩
      · exact .inl h
      · exact (ih h).imp_right fun ⟨u, hu, hc⟩ => ⟨u, List.mem_cons_of_mem _ hu, hc⟩

theorem storable_join {sep : Str} (hsep : Storable sep) (h : ∀ s ∈ parts, Storable s) :
    Storable (join sep parts) := by
  refine storable_iff_forall.2 fun c hc => ?_
  obtain hc | ⟨s, hs, hc⟩ := mem_join hc
  · exact storable_iff_forall.1 hsep c hc
  · exact storable_iff_forall.1 (h s hs) c hc

theorem encodes_join {sep : Str} (hsep : Encodes sep) (h : ∀ s ∈ parts, Encodes s) :
    Encodes (join sep parts) := by
  intro c hc
  obtain hc | ⟨s, hs, hc⟩ := mem_join hc
  · exact hsep c hc
  · exact h s hs c hc

/-- The length of `split()`: the number of maximal runs without white space. -/
def wordCount (s : Str) : Nat :=
  (s.splitBy fun a b => isSpace a.val == isSpace b.val).countP fun run => !run.any fun c => isSpace c.val

/-- `partition`: the text before the first separator, whether there is one, and the rest. -/
def partition (s : Str) (sep : CodePoint) : Str × Bool × Str :=
  (s.takeWhile (· != sep), s.contains [sep], (s.dropWhile (· != sep)).drop 1)

/-- The code points at which `splitlines` ends a line. -/
def isLineBreak (c : CodePoint) : Bool :=
  (10 ≤ c.val && c.val ≤ 13) || (28 ≤ c.val && c.val ≤ 30) || c.val == 0x85 || c.val == 0x2028 || c.val == 0x2029

/-- What a text file gives: `\r\n` and `\r` are read as `\n`. -/
def universalNewlines : Str → Str
  | [] => []
  | 13 :: 10 :: s => 10 :: universalNewlines s
  | c :: s => (if c = 13 then 10 else c) :: universalNewlines s

/-- `splitlines`, with the line that is being read. -/
def splitlinesFrom (line : Str) : Str → List Str
  | [] => if line = [] then [] else [line]
  | 13 :: 10 :: s => line :: splitlinesFrom [] s
  | c :: s => if isLineBreak c then line :: splitlinesFrom [] s else splitlinesFrom (line ++ [c]) s

def splitlines (s : Str) : List Str :=
  splitlinesFrom [] s

end Str

end AuditGateway.Python
