import AuditGateway.Go.Strings
import Mathlib.Data.List.DropRight
import Mathlib.Data.Nat.Digits.Defs
import Mathlib.Tactic.FieldSimp

/-!
# Numbers in the reasons of anomalies

The reason of an anomaly has its observed value and its threshold, with the digits before the point in groups of
three and without zeros at the end of the fraction. A text that is not a decimal number is left as it is.

* `DecimalText`, `Denotes`: decimal numbers, and what they stand for.
* `groupDecimalDigits_eq`: digits are grouped in threes from the right.
* `formatAnomalyDisplayNumber_text`: what is shown of a decimal number.
* `display_number_keeps_value`: it is the same number, and nothing else is changed.
-/

namespace AuditGateway.Admin

open AuditGateway.Framework AuditGateway.Go

/-! ## The format -/

/-- `s[low:high]`, which fails outside the string. -/
def slice (s : GoString) (low high : Nat) : Option GoString :=
  if low ≤ high ∧ high ≤ s.length then some ((s.take high).drop low) else none

/-- Characters beyond ASCII are no digits, and neither are their bytes. -/
def isDecimalDigits (value : GoString) : Bool := value.all fun b => 48 ≤ b && b ≤ 57

/-- The loop of `groupDecimalDigits`, with what has been written. -/
def groupFrom (digits : GoString) (i : Nat) (written : GoString) : Option GoString :=
  if i < digits.length then do
    let group ← slice digits i (i + 3)
    groupFrom digits (i + 3) (written ++ 44 :: group)
  else some written
  termination_by digits.length - i

def groupDecimalDigits (digits : GoString) : Option GoString := do
  let head := if digits.length % 3 = 0 then 3 else digits.length % 3
  groupFrom digits head (← slice digits 0 head)

/-- The sign at the front, and the rest. -/
def cutSign (value : GoString) : Option (GoString × GoString) :=
  if (ascii "-").isPrefixOf value || (ascii "+").isPrefixOf value then do
    return (← slice value 0 1, ← slice value 1 value.length)
  else some ([], value)

/-- A fraction with its point. -/
def pointed (fracPart : GoString) : GoString := if fracPart = [] then [] else 46 :: fracPart

/-- The result is `none` if a slice or an index is out of range. -/
def formatAnomalyDisplayNumber (value : GoString) : Option GoString :=
  if value = [] then some value
  else do
    let (sign, rest) ← cutSign value
    if rest = [] then some value
    else
      let parts := rest.splitOn 46
      if parts.length > 2 then some value
      else do
        let intPart ← parts[0]?
        if intPart = [] || !isDecimalDigits intPart then some value
        else do
          let fracPart ← if parts.length = 2 then parts[1]? else some []
          if fracPart ≠ [] && !isDecimalDigits fracPart then some value
          else do
            let groupedInt ← groupDecimalDigits intPart
            some (sign ++ (groupedInt ++ pointed (fracPart.rdropWhile (· == 48))))

/-! ## Decimal numbers -/

/-- An optional sign, digits, and perhaps a point with other digits. -/
structure DecimalText where
  sign : GoString
  digits : GoString
  fraction : Option GoString
  sign_mem : sign = [] ∨ sign = ascii "-" ∨ sign = ascii "+"
  digits_ne_nil : digits ≠ []
  digits_decimal : isDecimalDigits digits = true
  fraction_decimal : ∀ f ∈ fraction, isDecimalDigits f = true

/-- What is after the sign. -/
def DecimalText.unsigned (d : DecimalText) : GoString := d.digits ++ d.fraction.elim [] (46 :: ·)

def DecimalText.text (d : DecimalText) : GoString := d.sign ++ d.unsigned

/-- The number that digits stand for. -/
def numeral (digits : GoString) : Nat := Nat.ofDigits 10 (digits.map fun b => b.toNat - 48).reverse

def DecimalText.fractionDigits (d : DecimalText) : GoString := d.fraction.getD []

def DecimalText.value (d : DecimalText) : ℚ :=
  (if d.sign = ascii "-" then -1 else 1) *
    (numeral d.digits + numeral d.fractionDigits / 10 ^ d.fractionDigits.length)

/-- A text is a decimal number, and this is its value. -/
def Denotes (text : GoString) (q : ℚ) : Prop := ∃ d : DecimalText, d.text = text ∧ d.value = q

/-- Digits in groups of three from the right. -/
def Grouped (digits whole : GoString) : Prop :=
  ∃ (first : GoString) (groups : List GoString), digits = first ++ groups.flatten ∧
    1 ≤ first.length ∧ first.length ≤ 3 ∧ (∀ group ∈ groups, group.length = 3) ∧
    whole = [44].intercalate (first :: groups)

/-! ## Groups -/

section

variable {digits whole value s : GoString} {d d' : DecimalText}

theorem slice_eq_some {low high : Nat} (hlow : low ≤ high) (hhigh : high ≤ s.length) :
    slice s low high = some ((s.take high).drop low) :=
  if_pos ⟨hlow, hhigh⟩

theorem groupFrom_eq (digits : GoString) (i : Nat) (written : GoString) (hle : i ≤ digits.length)
    (hthree : 3 ∣ digits.length - i) :
    ∃ groups : List GoString, digits.drop i = groups.flatten ∧ (∀ group ∈ groups, group.length = 3) ∧
      groupFrom digits i written = some (written ++ groups.flatMap (44 :: ·)) := by
  induction i, written using groupFrom.induct digits with
  | case1 i written hlt ih =>
    have hnext : i + 3 ≤ digits.length := by omega
    have hslice := slice_eq_some (s := digits) (Nat.le_add_right i 3) hnext
    obtain ⟨groups, hdrop, hgroups, heq⟩ := ih ((digits.take (i + 3)).drop i) hnext (by omega)
    refine ⟨(digits.take (i + 3)).drop i :: groups, ?_, List.forall_mem_cons.2 ⟨?_, hgroups⟩, ?_⟩
    · rw [List.flatten_cons, ← hdrop]
      conv_lhs => rw [← List.take_append_drop (i + 3) digits]
      rw [List.drop_append_of_le_length (by rw [List.length_take]; omega)]
    · rw [List.length_drop, List.length_take]
      omega
    · rw [groupFrom, if_pos hlt, hslice]
      simpa using heq
  | case2 i written hge =>
    refine ⟨[], ?_, List.forall_mem_nil _, ?_⟩
    · rw [List.drop_of_length_le (by omega)]
      rfl
    · rw [groupFrom, if_neg hge]
      simp

theorem intercalate_cons_eq_flatMap (sep : UInt8) (first : GoString) (groups : List GoString) :
    [sep].intercalate (first :: groups) = first ++ groups.flatMap (sep :: ·) := by
  induction groups generalizing first with
  | nil => simp
  | cons second groups ih => rw [List.intercalate_cons_cons, ih]; simp

theorem groupDecimalDigits_eq (h : digits ≠ []) :
    ∃ whole, groupDecimalDigits digits = some whole ∧ Grouped digits whole := by
  have hpos := List.length_pos_iff.2 h
  -- The first group is of one to three digits, and the length of the rest is a multiple of three.
  obtain ⟨head, hhead, hle, hlow, hhigh, hthree⟩ : ∃ head,
      (if digits.length % 3 = 0 then 3 else digits.length % 3) = head ∧ head ≤ digits.length ∧ 1 ≤ head ∧
        head ≤ 3 ∧ 3 ∣ digits.length - head := by
    refine ⟨_, rfl, ?_⟩
    split <;> omega
  obtain ⟨groups, hdrop, hgroups, heq⟩ := groupFrom_eq digits head (digits.take head) hle hthree
  refine ⟨_, ?_, digits.take head, groups, ?_, ?_, ?_, hgroups, rfl⟩
  · rw [groupDecimalDigits, hhead, slice_eq_some (Nat.zero_le head) hle, intercalate_cons_eq_flatMap]
    exact heq
  · rw [← hdrop, List.take_append_drop]
  · rw [List.length_take]
    omega
  · rw [List.length_take]
    omega

theorem filter_comma_of_notMem (h : 44 ∉ s) : s.filter (· ≠ 44) = s := by
  refine List.filter_eq_self.2 fun b hb => decide_eq_true ?_
  rintro rfl
  exact h hb

theorem Grouped.filter (h : Grouped digits whole) (hdigits : 44 ∉ digits) : whole.filter (· ≠ 44) = digits := by
  obtain ⟨first, groups, rfl, -, -, -, rfl⟩ := h
  rw [List.mem_append, not_or] at hdigits
  obtain ⟨hfirst, hdigits⟩ := hdigits
  rw [intercalate_cons_eq_flatMap, List.filter_append, filter_comma_of_notMem hfirst]
  congr 1
  induction groups with
  | nil => rfl
  | cons group groups ih =>
    rw [List.flatten_cons, List.mem_append, not_or] at hdigits
    rw [List.flatMap_cons, List.filter_append, ih hdigits.2, List.flatten_cons, List.filter_cons_of_neg (by simp),
      filter_comma_of_notMem hdigits.1]

theorem Grouped.commas (h : Grouped digits whole) (hdigits : 44 ∉ digits) :
    ¬ [44] <+: whole ∧ ¬ [44, 44] <:+: whole := by
  obtain ⟨first, groups, rfl, hlow, -, hgroups, rfl⟩ := h
  have hsegments : ∀ segment ∈ first :: groups, IsSegment 44 segment := by
    refine List.forall_mem_cons.2 ⟨⟨List.ne_nil_of_length_pos hlow, ?_⟩, fun group hgroup => ⟨?_, ?_⟩⟩
    · exact fun h => hdigits (List.mem_append_left _ h)
    · exact List.ne_nil_of_length_pos (by rw [hgroups group hgroup]; decide)
    · exact fun h => hdigits (List.mem_append_right _ (List.mem_flatten_of_mem hgroup h))
  refine ⟨?_, not_infix_sep_sep hsegments (List.cons_ne_nil first groups)⟩
  rw [intercalate_cons_eq_flatMap]
  cases first with
  | nil => exact absurd hlow (by decide)
  | cons b first =>
    rintro ⟨t, ht⟩
    obtain ⟨rfl, -⟩ := List.cons.inj ht
    exact hdigits List.mem_cons_self

/-! ## Signs and parts -/

theorem notMem_of_isDecimalDigits {b : UInt8} (h : isDecimalDigits digits = true) (hb : ¬ (48 ≤ b ∧ b ≤ 57)) :
    b ∉ digits := by
  intro hmem
  have hdigit := List.all_eq_true.1 h b hmem
  simp only [Bool.and_eq_true, decide_eq_true_eq] at hdigit
  exact hb hdigit

theorem cutSign_eq (value : GoString) :
    ∃ sign rest, cutSign value = some (sign, rest) ∧ value = sign ++ rest ∧
      (sign = [] ∨ sign = ascii "-" ∨ sign = ascii "+") := by
  unfold cutSign
  split
  · rename_i h
    simp only [Bool.or_eq_true, List.isPrefixOf_iff_prefix] at h
    obtain ⟨rest, rfl⟩ | ⟨rest, rfl⟩ := h
    · exact ⟨ascii "-", rest, by simp [slice, ascii], rfl, .inr (.inl rfl)⟩
    · exact ⟨ascii "+", rest, by simp [slice, ascii], rfl, .inr (.inr rfl)⟩
  · exact ⟨[], value, rfl, rfl, .inl rfl⟩

theorem cutSign_text (d : DecimalText) : cutSign d.text = some (d.sign, d.unsigned) := by
  obtain h | h | h := d.sign_mem
  · -- The first character is a digit.
    obtain ⟨b, digits, hdigits⟩ := List.exists_cons_of_ne_nil d.digits_ne_nil
    have hb {c : UInt8} (hc : ¬ (48 ≤ c ∧ c ≤ 57)) : [c].isPrefixOf d.unsigned = false := by
      refine Bool.eq_false_iff.2 fun hfront => notMem_of_isDecimalDigits d.digits_decimal hc ?_
      obtain ⟨t, ht⟩ := List.isPrefixOf_iff_prefix.1 hfront
      rw [DecimalText.unsigned, hdigits] at ht
      rw [hdigits, (List.cons.inj ht).1]
      exact List.mem_cons_self
    have hminus : (ascii "-").isPrefixOf d.unsigned = false := hb (by decide)
    have hplus : (ascii "+").isPrefixOf d.unsigned = false := hb (by decide)
    rw [DecimalText.text, h, List.nil_append, cutSign, hminus, hplus]
    rfl
  · rw [DecimalText.text, h]
    simp [cutSign, slice, ascii]
  · rw [DecimalText.text, h]
    simp [cutSign, slice, ascii]

theorem splitOn_unsigned (d : DecimalText) :
    d.unsigned.splitOn 46 = d.digits :: d.fraction.elim [] fun f => [f] := by
  have hdigits : 46 ∉ d.digits := notMem_of_isDecimalDigits d.digits_decimal (by decide)
  cases hfraction : d.fraction with
  | none =>
    have hparts : ∀ part ∈ [d.digits], 46 ∉ part := List.forall_mem_singleton.2 hdigits
    simpa [DecimalText.unsigned, hfraction] using List.splitOn_intercalate 46 hparts (List.cons_ne_nil _ _)
  | some f =>
    have hf : 46 ∉ f := notMem_of_isDecimalDigits (d.fraction_decimal f hfraction) (by decide)
    have hparts : ∀ part ∈ [d.digits, f], 46 ∉ part :=
      List.forall_mem_cons.2 ⟨hdigits, List.forall_mem_singleton.2 hf⟩
    simpa [DecimalText.unsigned, hfraction] using List.splitOn_intercalate 46 hparts (List.cons_ne_nil _ _)

theorem text_injective (h : d.text = d'.text) : d = d' := by
  have hcut := cutSign_text d
  rw [h, cutSign_text d', Option.some.injEq, Prod.mk.injEq] at hcut
  have hsplit := splitOn_unsigned d
  rw [← hcut.2, splitOn_unsigned d', List.cons.injEq] at hsplit
  have hfraction : d'.fraction = d.fraction := by
    cases hd : d.fraction <;> cases hd' : d'.fraction <;> simp_all
  cases d
  cases d'
  simp_all

theorem formatAnomalyDisplayNumber_text (d : DecimalText) :
    formatAnomalyDisplayNumber d.text = (groupDecimalDigits d.digits).map fun groupedInt =>
      d.sign ++ (groupedInt ++ pointed (d.fractionDigits.rdropWhile (· == 48))) := by
  have hunsigned : d.unsigned ≠ [] := by simp [DecimalText.unsigned, d.digits_ne_nil]
  have htext : d.text ≠ [] := by simp [DecimalText.text, hunsigned]
  rw [formatAnomalyDisplayNumber, if_neg htext, cutSign_text]
  simp only [Option.bind_eq_bind, Option.bind_some, if_neg hunsigned, splitOn_unsigned]
  cases hfraction : d.fraction with
  | none => simp [d.digits_ne_nil, d.digits_decimal, DecimalText.fractionDigits, hfraction, Option.map_eq_bind]
  | some f =>
    simp [d.digits_ne_nil, d.digits_decimal, d.fraction_decimal f hfraction, DecimalText.fractionDigits, hfraction,
      Option.map_eq_bind]

theorem formatAnomalyDisplayNumber_other (h : ∀ d : DecimalText, d.text ≠ value) :
    formatAnomalyDisplayNumber value = some value := by
  unfold formatAnomalyDisplayNumber
  split
  · rfl
  obtain ⟨sign, rest, hcut, rfl, hsign⟩ := cutSign_eq value
  rw [hcut]
  simp only [Option.bind_eq_bind, Option.bind_some]
  split
  · rfl
  rename_i hrest
  split
  · rfl
  rename_i hparts
  have hjoin : [46].intercalate (rest.splitOn 46) = rest := List.intercalate_splitOn 46
  generalize rest.splitOn 46 = parts at hjoin hparts ⊢
  cases parts with
  | nil => exact absurd hjoin.symm hrest
  | cons intPart parts =>
    simp only [List.getElem?_cons_zero, Option.bind_some]
    split
    · rfl
    rename_i hint
    simp only [Bool.or_eq_true, decide_eq_true_eq, Bool.not_eq_true', not_or, Bool.not_eq_false] at hint
    cases parts with
    | nil =>
      refine absurd ?_ (h ⟨sign, intPart, none, hsign, hint.1, hint.2, by simp⟩)
      simpa [DecimalText.text, DecimalText.unsigned] using hjoin
    | cons fracPart parts =>
      cases parts with
      | cons other parts => exact absurd (by simp) hparts
      | nil =>
        simp only [List.length_cons, List.length_nil, if_true, List.getElem?_cons_succ, List.getElem?_cons_zero,
          Option.bind_some]
        split
        · rfl
        rename_i hfrac
        have hdigits : isDecimalDigits fracPart = true := by
          by_cases hnil : fracPart = []
          · rw [hnil]
            rfl
          · simpa [hnil] using hfrac
        refine absurd ?_ (h ⟨sign, intPart, some fracPart, hsign, hint.1, hint.2, by simpa using hdigits⟩)
        simpa [DecimalText.text, DecimalText.unsigned, List.intercalate_cons_cons] using hjoin

/-! ## Values -/

theorem numeral_append_zeros (digits : GoString) (k : Nat) :
    numeral (digits ++ List.replicate k 48) = 10 ^ k * numeral digits := by
  simp [numeral, Nat.ofDigits_append, Nat.ofDigits_replicate_zero]

theorem rdropWhile_zeros (f : GoString) : ∃ k, f = f.rdropWhile (· == 48) ++ List.replicate k 48 := by
  refine ⟨(f.rtakeWhile (· == 48)).length, ?_⟩
  have hzeros : f.rtakeWhile (· == 48) = List.replicate (f.rtakeWhile (· == 48)).length 48 :=
    List.eq_replicate_of_mem fun b hb => by simpa using List.mem_rtakeWhile_imp hb
  rw [← hzeros, List.rdropWhile_append_rtakeWhile]

theorem isDecimalDigits_fractionDigits (d : DecimalText) : isDecimalDigits d.fractionDigits = true := by
  cases hfraction : d.fraction with
  | none =>
    rw [DecimalText.fractionDigits, hfraction]
    rfl
  | some f =>
    rw [DecimalText.fractionDigits, hfraction]
    exact d.fraction_decimal f hfraction

theorem isDecimalDigits_of_isPrefix (h : s <+: digits) (hdigits : isDecimalDigits digits = true) :
    isDecimalDigits s = true :=
  List.all_eq_true.2 fun b hb => List.all_eq_true.1 hdigits b (h.subset hb)

/-- A number without the zeros at the end of its fraction. -/
def DecimalText.trimmed (d : DecimalText) : DecimalText :=
  let fracPart := d.fractionDigits.rdropWhile (· == 48)
  { d with
    fraction := if fracPart = [] then none else some fracPart
    fraction_decimal := by
      intro f hf
      split at hf
      · cases hf
      · obtain rfl : fracPart = f := by simpa using hf
        exact isDecimalDigits_of_isPrefix (List.rdropWhile_prefix _ _) (isDecimalDigits_fractionDigits d) }

theorem trimmed_fractionDigits (d : DecimalText) :
    d.trimmed.fractionDigits = d.fractionDigits.rdropWhile (· == 48) := by
  unfold DecimalText.trimmed
  rw [DecimalText.fractionDigits]
  dsimp only
  split
  · rename_i h
    exact h.symm
  · rfl

theorem trimmed_text (d : DecimalText) :
    d.trimmed.text = d.sign ++ (d.digits ++ pointed (d.fractionDigits.rdropWhile (· == 48))) := by
  unfold DecimalText.trimmed
  rw [DecimalText.text, DecimalText.unsigned, pointed]
  dsimp only
  split
  · rfl
  · rfl

theorem trimmed_value (d : DecimalText) : d.trimmed.value = d.value := by
  obtain ⟨k, hk⟩ := rdropWhile_zeros d.fractionDigits
  unfold DecimalText.value
  rw [trimmed_fractionDigits]
  congr 2
  generalize d.fractionDigits.rdropWhile (· == 48) = f at hk
  rw [hk, numeral_append_zeros, List.length_append, List.length_replicate, pow_add]
  push_cast
  field_simp

theorem denotes_text_iff {q : ℚ} : Denotes d.text q ↔ d.value = q := by
  constructor
  · rintro ⟨d', htext, rfl⟩
    rw [text_injective htext]
  · exact fun h => ⟨d, rfl, h⟩

theorem filter_shown (hwhole : Grouped d.digits whole) :
    (d.sign ++ (whole ++ pointed (d.fractionDigits.rdropWhile (· == 48)))).filter (· ≠ 44) = d.trimmed.text := by
  have hsign : 44 ∉ d.sign := by
    obtain h | h | h := d.sign_mem
    · rw [h]
      exact List.not_mem_nil
    · rw [h]
      decide
    · rw [h]
      decide
  have hfraction : 44 ∉ pointed (d.fractionDigits.rdropWhile (· == 48)) := by
    unfold pointed
    split
    · exact List.not_mem_nil
    · have hdigits : 44 ∉ d.fractionDigits :=
        notMem_of_isDecimalDigits (isDecimalDigits_fractionDigits d) (by decide)
      simpa using fun h => hdigits ((List.rdropWhile_prefix _ _).subset h)
  have hdigits : 44 ∉ d.digits := notMem_of_isDecimalDigits d.digits_decimal (by decide)
  rw [List.filter_append, List.filter_append, filter_comma_of_notMem hsign, hwhole.filter hdigits,
    filter_comma_of_notMem hfraction, trimmed_text]

theorem getLast?_rdropWhile_zeros (f : GoString) : (f.rdropWhile (· == 48)).getLast? ≠ some 48 := by
  intro h
  by_cases hne : f.rdropWhile (· == 48) = []
  · rw [hne] at h
    cases h
  · rw [List.getLast?_eq_some_getLast hne, Option.some.injEq] at h
    exact List.rdropWhile_last_not (· == 48) f hne (beq_iff_eq.2 h)

/-- Of a decimal number the same number is shown, in groups of three and without zeros at the end of the
fraction. Any other text is left as it is, and no slice is out of range. -/
theorem display_number_keeps_value (value : GoString) :
    ∃ shown, formatAnomalyDisplayNumber value = some shown ∧
      (∀ d : DecimalText, d.text = value → ∃ whole fraction,
        shown = d.sign ++ (whole ++ pointed fraction) ∧ Grouped d.digits whole ∧
          ¬ [44] <+: whole ∧ ¬ [44, 44] <:+: whole ∧ fraction.getLast? ≠ some 48 ∧
          ∀ q, Denotes value q ↔ Denotes (shown.filter (· ≠ 44)) q) ∧
      ((∀ d : DecimalText, d.text ≠ value) → shown = value) := by
  by_cases h : ∃ d : DecimalText, d.text = value
  · obtain ⟨d, rfl⟩ := h
    obtain ⟨whole, hgroup, hwhole⟩ := groupDecimalDigits_eq d.digits_ne_nil
    have hshown := formatAnomalyDisplayNumber_text d
    rw [hgroup, Option.map_some] at hshown
    refine ⟨_, hshown, fun d' hd' => ?_, fun hother => absurd rfl (hother d)⟩
    obtain rfl := text_injective hd'
    obtain ⟨hlead, hdouble⟩ := hwhole.commas (notMem_of_isDecimalDigits d'.digits_decimal (by decide))
    refine ⟨whole, _, rfl, hwhole, hlead, hdouble, getLast?_rdropWhile_zeros _, fun q => ?_⟩
    rw [filter_shown hwhole, denotes_text_iff, denotes_text_iff, trimmed_value]
  · rw [not_exists] at h
    exact ⟨value, formatAnomalyDisplayNumber_other h, fun d hd => absurd hd (h d), fun _ => rfl⟩

end

end AuditGateway.Admin
