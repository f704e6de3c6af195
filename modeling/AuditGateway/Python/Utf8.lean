import AuditGateway.Python.Text

/-!
# Encoded texts

The encoding of a text without surrogates can be decoded again, and an ASCII byte in it is an
ASCII character of the text. So what is done with the bytes of an encoded text, up to the
next byte of a kind that is in ASCII, is done with its characters.
-/

namespace AuditGateway.Python

/-- The bytes of a text; for one without surrogates, its encoding. -/
def Str.bytes (s : Str) : List UInt8 := s.flatMap encodeCodePoint

@[simp] theorem Str.bytes_nil : Str.bytes [] = [] := rfl

@[simp] theorem Str.bytes_cons (c : CodePoint) (s : Str) : Str.bytes (c :: s) = encodeCodePoint c ++ Str.bytes s := rfl

@[simp] theorem Str.bytes_append (s t : Str) : Str.bytes (s ++ t) = Str.bytes s ++ Str.bytes t := List.flatMap_append

theorem encodeUtf8_eq {s : Str} (h : Encodes s) : encodeUtf8 s = some s.bytes := by
  induction s with
  | nil => rfl
  | cons c s ih =>
    have hc : c.isSurrogate = false := h c List.mem_cons_self
    rw [encodeUtf8, ih fun d hd => h d (List.mem_cons_of_mem c hd), if_neg (by simp [hc])]
    rfl

/-! ## Decoding -/

theorem toNat_ofNat {n : Nat} (h : n < 256) : (UInt8.ofNat n).toNat = n := by
  rw [UInt8.toNat_ofNat']
  exact Nat.mod_eq_of_lt h

theorem leadByte_two {q : Nat} (hlo : 2 ≤ q) (hhi : q < 32) : leadByte (0xC0 + q) = some (1, q, 0x80, 0xBF) := by
  rw [leadByte, if_neg (by omega), if_pos (by omega), show (0xC0 + q) % 32 = q by omega]

theorem leadByte_three : ∀ q < 16, leadByte (0xE0 + q) =
    some (2, q, if q = 0 then 0xA0 else 0x80, if q = 13 then 0x9F else 0xBF) := by decide

theorem leadByte_four : ∀ q < 5, leadByte (0xF0 + q) =
    some (3, q, if q = 0 then 0x90 else 0x80, if q = 4 then 0x8F else 0xBF) := by decide

section

variable {n bits lo hi : Nat} {bs : List UInt8}

theorem decodeUtf8From_lead {b more n lo' hi' : Nat} (hb : b < 256) (h : leadByte b = some (more + 1, n, lo', hi')) :
    decodeUtf8From 0 bits lo hi (UInt8.ofNat b :: bs) = decodeUtf8From (more + 1) n lo' hi' bs := by
  rw [decodeUtf8From, toNat_ofNat hb, h]

theorem decodeUtf8From_next {more m : Nat} (hm : m < 64) (hlo : lo ≤ 0x80 + m) (hhi : 0x80 + m ≤ hi) :
    decodeUtf8From (more + 2) bits lo hi (UInt8.ofNat (0x80 + m) :: bs) =
      decodeUtf8From (more + 1) (bits * 64 + m) 0x80 0xBF bs := by
  rw [decodeUtf8From, toNat_ofNat (by omega), if_pos ⟨hlo, hhi⟩]
  dsimp only
  rw [if_neg (by omega), show (0x80 + m) % 64 = m by omega]

theorem decodeUtf8From_last {m : Nat} (hm : m < 64) (hlo : lo ≤ 0x80 + m) (hhi : 0x80 + m ≤ hi) :
    decodeUtf8From 1 bits lo hi (UInt8.ofNat (0x80 + m) :: bs) =
      (decodeUtf8From 0 0 0x80 0xBF bs).map (Fin.ofNat _ (bits * 64 + m) :: ·) := by
  rw [decodeUtf8From, toNat_ofNat (by omega), if_pos ⟨hlo, hhi⟩]
  dsimp only
  rw [if_pos rfl, show (0x80 + m) % 64 = m by omega]

theorem decodeUtf8From_ascii (hn : n < 0x80) : decodeUtf8From 0 bits lo hi (UInt8.ofNat n :: bs) =
    (decodeUtf8From 0 0 0x80 0xBF bs).map (Fin.ofNat _ n :: ·) := by
  rw [decodeUtf8From, toNat_ofNat (by omega), leadByte, if_pos hn]

theorem decodeUtf8From_encodeCodePoint {c : CodePoint} (hc : c.isSurrogate = false) :
    decodeUtf8From 0 bits lo hi (encodeCodePoint c ++ bs) = (decodeUtf8From 0 0 0x80 0xBF bs).map (c :: ·) := by
  have hback : Fin.ofNat 0x110000 c.val = c := Fin.ofNat_val_eq_self c
  have hlt : c.val < 0x110000 := c.isLt
  have hsurrogate : c.val < 0xD800 ∨ 0xDFFF < c.val := by
    simp only [CodePoint.isSurrogate, Bool.and_eq_false_iff, decide_eq_false_iff_not] at hc
    omega
  unfold encodeCodePoint
  dsimp only
  generalize c.val = n at hback hlt hsurrogate
  subst hback
  split
  · rename_i h
    exact decodeUtf8From_ascii h
  · split
    · rw [List.cons_append, List.cons_append, List.nil_append,
        decodeUtf8From_lead (by omega) (leadByte_two (q := n / 64) (by omega) (by omega)),
        decodeUtf8From_last (by omega) (by omega) (by omega)]
      rw [show n / 64 * 64 + n / 64 ^ 0 % 64 = n by omega]
    · split
      · rw [List.cons_append, List.cons_append, List.cons_append, List.nil_append,
          decodeUtf8From_lead (by omega) (leadByte_three (n / 64 ^ 2) (by omega)),
          decodeUtf8From_next (by omega) (by split <;> omega) (by split <;> omega),
          decodeUtf8From_last (by omega) (by omega) (by omega)]
        rw [show (n / 64 ^ 2 * 64 + n / 64 ^ 1 % 64) * 64 + n / 64 ^ 0 % 64 = n by omega]
      · rw [List.cons_append, List.cons_append, List.cons_append, List.cons_append, List.nil_append,
          decodeUtf8From_lead (by omega) (leadByte_four (n / 64 ^ 3) (by omega)),
          decodeUtf8From_next (by omega) (by split <;> omega) (by split <;> omega),
          decodeUtf8From_next (by omega) (by omega) (by omega), decodeUtf8From_last (by omega) (by omega) (by omega)]
        rw [show ((n / 64 ^ 3 * 64 + n / 64 ^ 2 % 64) * 64 + n / 64 ^ 1 % 64) * 64 + n / 64 ^ 0 % 64 = n by omega]

end

theorem decodeUtf8_bytes {s : Str} (h : Encodes s) : decodeUtf8 s.bytes = some s := by
  unfold decodeUtf8
  induction s with
  | nil => rfl
  | cons c s ih =>
    rw [Str.bytes_cons, decodeUtf8From_encodeCodePoint (h c List.mem_cons_self),
      ih fun d hd => h d (List.mem_cons_of_mem c hd)]
    rfl

/-! ## ASCII characters -/

def CodePoint.IsAscii (c : CodePoint) : Prop := c.val < 0x80

instance (c : CodePoint) : Decidable c.IsAscii := inferInstanceAs (Decidable (_ < _))

/-- The byte of an ASCII character. -/
def CodePoint.byte (c : CodePoint) : UInt8 := UInt8.ofNat c.val

section

variable {c d : CodePoint} {s : Str}

theorem encodeCodePoint_ascii (h : c.IsAscii) : encodeCodePoint c = [c.byte] := by
  rw [encodeCodePoint]
  exact if_pos h

theorem CodePoint.IsAscii.toNat_byte (h : c.IsAscii) : c.byte.toNat = c.val :=
  toNat_ofNat (Nat.lt_trans h (by decide))

theorem CodePoint.byte_inj (hc : c.IsAscii) (hd : d.IsAscii) : c.byte = d.byte ↔ c = d := by
  refine ⟨fun h => Fin.ext ?_, fun h => h ▸ rfl⟩
  rw [← hc.toNat_byte, h, hd.toNat_byte]

theorem encodeCodePoint_high (h : ¬ d.IsAscii) : ∃ b bs, encodeCodePoint d = b :: bs ∧
    ∀ b' ∈ b :: bs, 0x80 ≤ b'.toNat := by
  have hlt : d.val < 0x110000 := d.isLt
  have hhigh : 0x80 ≤ d.val := Nat.le_of_not_lt h
  have hbyte : ∀ m, 0x80 ≤ m → m < 256 → 0x80 ≤ (UInt8.ofNat m).toNat := fun m hlo hhi => by
    rw [toNat_ofNat hhi]
    exact hlo
  unfold encodeCodePoint
  dsimp only
  generalize d.val = n at hlt hhigh
  rw [if_neg (by omega)]
  split
  · refine ⟨_, _, rfl, ?_⟩
    simp only [List.forall_mem_cons, List.not_mem_nil, false_imp_iff, implies_true, and_true]
    exact ⟨hbyte _ (by omega) (by omega), hbyte _ (by omega) (by omega)⟩
  · split
    · refine ⟨_, _, rfl, ?_⟩
      simp only [List.forall_mem_cons, List.not_mem_nil, false_imp_iff, implies_true, and_true]
      exact ⟨hbyte _ (by omega) (by omega), hbyte _ (by omega) (by omega), hbyte _ (by omega) (by omega)⟩
    · refine ⟨_, _, rfl, ?_⟩
      simp only [List.forall_mem_cons, List.not_mem_nil, false_imp_iff, implies_true, and_true]
      exact ⟨hbyte _ (by omega) (by omega), hbyte _ (by omega) (by omega), hbyte _ (by omega) (by omega),
        hbyte _ (by omega) (by omega)⟩

theorem CodePoint.IsAscii.byte_ne (h : c.IsAscii) {b : UInt8} (hb : 0x80 ≤ b.toNat) : b ≠ c.byte := by
  rintro rfl
  rw [h.toNat_byte] at hb
  exact Nat.not_lt.2 hb h

theorem mem_encodeCodePoint (h : c.IsAscii) : c.byte ∈ encodeCodePoint d ↔ c = d := by
  by_cases hd : d.IsAscii
  · rw [encodeCodePoint_ascii hd, List.mem_singleton, CodePoint.byte_inj h hd]
  · obtain ⟨b, bs, henc, hhigh⟩ := encodeCodePoint_high hd
    rw [henc]
    refine ⟨fun hmem => absurd rfl (h.byte_ne (hhigh _ hmem)), fun heq => absurd (heq ▸ h) hd⟩

theorem mem_bytes (h : c.IsAscii) : c.byte ∈ s.bytes ↔ c ∈ s := by
  simp only [Str.bytes, List.mem_flatMap, mem_encodeCodePoint h, exists_eq_right']

theorem isPrefix_bytes {p : Str} (hp : ∀ c ∈ p, c.IsAscii) : p.bytes <+: s.bytes ↔ p <+: s := by
  induction p generalizing s with
  | nil => simp
  | cons c p ih =>
    have hc : c.IsAscii := hp c List.mem_cons_self
    have hrest : ∀ d ∈ p, d.IsAscii := fun d hd => hp d (List.mem_cons_of_mem c hd)
    rw [Str.bytes_cons, encodeCodePoint_ascii hc, List.singleton_append]
    cases s with
    | nil => simp
    | cons d s =>
      by_cases hd : d.IsAscii
      · rw [Str.bytes_cons, encodeCodePoint_ascii hd, List.singleton_append, List.cons_prefix_cons,
          List.cons_prefix_cons,
          CodePoint.byte_inj hc hd, ih hrest]
      · obtain ⟨b, bs, henc, hhigh⟩ := encodeCodePoint_high hd
        rw [Str.bytes_cons, henc, List.cons_append, List.cons_prefix_cons, List.cons_prefix_cons]
        refine ⟨fun h => absurd h.1.symm (hc.byte_ne (hhigh b List.mem_cons_self)), fun h => absurd (h.1 ▸ hc) hd⟩

theorem dropWhile_bytes (h : c.IsAscii) : s.bytes.dropWhile (· == c.byte) = Str.bytes (s.dropWhile (· == c)) := by
  induction s with
  | nil => rfl
  | cons d s ih =>
    by_cases hd : d.IsAscii
    · rw [Str.bytes_cons, encodeCodePoint_ascii hd, List.singleton_append, List.dropWhile_cons, List.dropWhile_cons]
      by_cases heq : d = c
      · rw [if_pos (by simp [heq]), if_pos (by simp [heq]), ih]
      · rw [if_neg (by simpa [CodePoint.byte_inj hd h] using heq), if_neg (by simpa using heq), Str.bytes_cons,
          encodeCodePoint_ascii hd]
        rfl
    · obtain ⟨b, bs, henc, hhigh⟩ := encodeCodePoint_high hd
      have hb : b ≠ c.byte := h.byte_ne (hhigh b List.mem_cons_self)
      have hne : d ≠ c := fun heq => hd (heq ▸ h)
      rw [Str.bytes_cons, henc, List.cons_append, List.dropWhile_cons, if_neg (by simpa using hb), List.dropWhile_cons,
        if_neg (by simpa using hne), Str.bytes_cons, henc]
      rfl

end

end AuditGateway.Python
