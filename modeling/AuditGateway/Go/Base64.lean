import AuditGateway.Go.Url

/-!
# Base64

`base64.RawURLEncoding`: three bytes are four digits of six bits, and there is no padding. Line ends are passed over
when a text is decoded, and so are the bits that are left of the last digit, so that several texts stand for the
same bytes.

* `bytesOf_sextets`: bytes are the bytes of their digits.
* `rawURLDecode_rawURLEncode`: what was encoded is decoded.
-/

namespace AuditGateway.Go

/-- The character of a digit. -/
def encodeSextet (n : Nat) : UInt8 :=
  if n < 26 then UInt8.ofNat (65 + n)
  else if n < 52 then UInt8.ofNat (71 + n)
  else if n < 62 then UInt8.ofNat (n - 4)
  else if n = 62 then 45
  else 95

/-- The digit of a character. -/
def decodeSextet (b : UInt8) : Option Nat :=
  if 65 ≤ b ∧ b ≤ 90 then some (b.toNat - 65)
  else if 97 ≤ b ∧ b ≤ 122 then some (b.toNat - 71)
  else if 48 ≤ b ∧ b ≤ 57 then some (b.toNat + 4)
  else if b = 45 then some 62
  else if b = 95 then some 63
  else none

/-- The digits of bytes, three bytes at a time. -/
def sextets : GoString → List Nat
  | [] => []
  | [a] => [a.toNat / 4, a.toNat % 4 * 16]
  | [a, b] => [a.toNat / 4, a.toNat % 4 * 16 + b.toNat / 16, b.toNat % 16 * 4]
  | a :: b :: c :: s =>
    a.toNat / 4 :: (a.toNat % 4 * 16 + b.toNat / 16) :: (b.toNat % 16 * 4 + c.toNat / 64) :: c.toNat % 64 :: sextets s

/-- The bytes of digits, four digits at a time. A digit alone is not enough for a byte. -/
def bytesOf : List Nat → Option GoString
  | [] => some []
  | [_] => none
  | [a, b] => some [UInt8.ofNat (a * 4 + b / 16)]
  | [a, b, c] => some [UInt8.ofNat (a * 4 + b / 16), UInt8.ofNat (b % 16 * 16 + c / 4)]
  | a :: b :: c :: d :: s => (bytesOf s).map fun bytes =>
    UInt8.ofNat (a * 4 + b / 16) :: UInt8.ofNat (b % 16 * 16 + c / 4) :: UInt8.ofNat (c % 4 * 64 + d) :: bytes

/-- `base64.RawURLEncoding.EncodeToString`. -/
def rawURLEncode (s : GoString) : GoString := (sextets s).map encodeSextet

/-- `base64.RawURLEncoding.DecodeString`, with `none` for an error. -/
def rawURLDecode (s : GoString) : Option GoString :=
  ((s.filter fun b => b ≠ 10 && b ≠ 13).mapM decodeSextet).bind bytesOf

/-! ## The digits -/

theorem sextets_lt (s : GoString) : ∀ n ∈ sextets s, n < 64 := by
  induction s using sextets.induct with
  | case1 => exact List.forall_mem_nil _
  | case2 a =>
    have ha := a.toNat_lt
    simp only [sextets, List.forall_mem_cons]
    exact ⟨by omega, by omega, List.forall_mem_nil _⟩
  | case3 a b =>
    have ha := a.toNat_lt
    have hb := b.toNat_lt
    simp only [sextets, List.forall_mem_cons]
    exact ⟨by omega, by omega, by omega, List.forall_mem_nil _⟩
  | case4 a b c s ih =>
    have ha := a.toNat_lt
    have hb := b.toNat_lt
    have hc := c.toNat_lt
    simp only [sextets, List.forall_mem_cons]
    exact ⟨by omega, by omega, by omega, by omega, ih⟩

theorem ofNat_eq {n : Nat} {b : UInt8} (h : n = b.toNat) : UInt8.ofNat n = b := by rw [h, UInt8.ofNat_toNat]

theorem bytesOf_sextets (s : GoString) : bytesOf (sextets s) = some s := by
  induction s using sextets.induct with
  | case1 => rfl
  | case2 a => rw [sextets, bytesOf, ofNat_eq (b := a) (by omega)]
  | case3 a b =>
    have hb := b.toNat_lt
    rw [sextets, bytesOf, ofNat_eq (b := a) (by omega), ofNat_eq (b := b) (by omega)]
  | case4 a b c s ih =>
    have hb := b.toNat_lt
    have hc := c.toNat_lt
    rw [sextets, bytesOf, ih, ofNat_eq (b := a) (by omega), ofNat_eq (b := b) (by omega), ofNat_eq (b := c) (by omega)]
    rfl

theorem decodeSextet_encodeSextet :
    ∀ n < 64, decodeSextet (encodeSextet n) = some n ∧ encodeSextet n ≠ 10 ∧ encodeSextet n ≠ 13 := by
  decide +kernel

theorem mapM_decodeSextet {digits : List Nat} (h : ∀ n ∈ digits, n < 64) :
    (digits.map encodeSextet).mapM decodeSextet = some digits := by
  induction digits with
  | nil => rfl
  | cons n digits ih =>
    obtain ⟨hn, hdigits⟩ := List.forall_mem_cons.1 h
    rw [List.map_cons, List.mapM_cons, (decodeSextet_encodeSextet n hn).1, ih hdigits]
    rfl

theorem rawURLDecode_rawURLEncode (s : GoString) : rawURLDecode (rawURLEncode s) = some s := by
  have hlines : (rawURLEncode s).filter (fun b => b ≠ 10 && b ≠ 13) = rawURLEncode s := by
    refine List.filter_eq_self.2 (List.forall_mem_map.2 fun n hn => ?_)
    obtain ⟨-, hfeed, hreturn⟩ := decodeSextet_encodeSextet n (sextets_lt s n hn)
    simp [hfeed, hreturn]
  rw [rawURLDecode, hlines, rawURLEncode, mapM_decodeSextet (sextets_lt s)]
  exact bytesOf_sextets s

end AuditGateway.Go
