import Mathlib.Data.List.Infix

/-!
# The operators `LIKE` and `ILIKE`

A pattern is a sequence of parts: a character that has to be there, any one character, or any
number of characters. `likeParts` reads it from its text, in which a backslash makes the next character
one that has to be there. `ILIKE` folds the characters of both sides first; folding a character
neither changes nor makes one that is special in a pattern.

* `accepts_literal`: characters that have to be there, and then anything.
* `accepts_many_literal`: the same after anything.
-/

namespace AuditGateway.Framework

/-- The characters that are special in a pattern. -/
def IsSpecial (c : Char) : Prop := c = '\\' ∨ c = '%' ∨ c = '_'

instance (c : Char) : Decidable (IsSpecial c) := inferInstanceAs (Decidable (_ ∨ _))

inductive LikePart
  | char (c : Char)
  | one
  | many
deriving DecidableEq, Repr

/-- The parts of a pattern. It can not end in the character that escapes. -/
def likeParts : List Char → Option (List LikePart)
  | [] => some []
  | ['\\'] => none
  | '\\' :: c :: pattern => (likeParts pattern).map (.char c :: ·)
  | '%' :: pattern => (likeParts pattern).map (.many :: ·)
  | '_' :: pattern => (likeParts pattern).map (.one :: ·)
  | c :: pattern => (likeParts pattern).map (.char c :: ·)

/-- The text is one that the parts describe. -/
def accepts : List LikePart → List Char → Bool
  | [], text => text.isEmpty
  | .char c :: parts, text =>
    match text with
    | [] => false
    | d :: text => c == d && accepts parts text
  | .one :: parts, text =>
    match text with
    | [] => false
    | _ :: text => accepts parts text
  | .many :: parts, text => text.tails.any (accepts parts)

/-- `text LIKE pattern`, which fails if the pattern ends in a backslash. -/
def like (text pattern : List Char) : Option Bool := (likeParts pattern).map (accepts · text)

/-- How `ILIKE` folds characters. -/
structure CaseFold where
  fold : Char → Char
  fold_special : ∀ c, IsSpecial c → fold c = c
  special_of_fold : ∀ c, IsSpecial (fold c) → IsSpecial c

def CaseFold.folded (F : CaseFold) (s : String) : List Char := s.toList.map F.fold

/-- `text ILIKE pattern`. -/
def CaseFold.ilike (F : CaseFold) (text pattern : String) : Option Bool := like (F.folded text) (F.folded pattern)

theorem CaseFold.isSpecial_fold (F : CaseFold) (c : Char) : IsSpecial (F.fold c) ↔ IsSpecial c :=
  ⟨F.special_of_fold c, fun h => (F.fold_special c h).symm ▸ h⟩

/-! ## Reading patterns -/

variable {c : Char} {s text pattern : List Char} {parts : List LikePart}

theorem likeParts_cons (hc : ¬ IsSpecial c) (pattern : List Char) :
    likeParts (c :: pattern) = (likeParts pattern).map (.char c :: ·) := by
  simp only [IsSpecial, not_or] at hc
  obtain ⟨hescape, hmany, hone⟩ := hc
  rw [likeParts]
  · rintro rfl; exact absurd rfl hescape
  · rintro _ _ rfl; exact absurd rfl hescape
  · rintro rfl; exact absurd rfl hmany
  · rintro rfl; exact absurd rfl hone

theorem likeParts_append (hs : ∀ c ∈ s, ¬ IsSpecial c) (pattern : List Char) :
    likeParts (s ++ pattern) = (likeParts pattern).map (s.map .char ++ ·) := by
  induction s with
  | nil => simp
  | cons c s ih =>
    obtain ⟨hc, hs⟩ := List.forall_mem_cons.1 hs
    rw [List.cons_append, likeParts_cons hc, ih hs, Option.map_map]
    rfl

/-! ## Accepting texts -/

theorem accepts_many : accepts (.many :: parts) text = true ↔ ∃ t, t <:+ text ∧ accepts parts t = true := by
  rw [accepts]
  simp only [List.any_eq_true, List.mem_tails]

theorem accepts_char : accepts (.char c :: parts) text = true ↔ ∃ t, text = c :: t ∧ accepts parts t = true := by
  cases text with
  | nil => simp [accepts]
  | cons d text =>
    simp only [accepts, Bool.and_eq_true, beq_iff_eq, List.cons.injEq]
    constructor
    · rintro ⟨rfl, h⟩
      exact ⟨text, ⟨rfl, rfl⟩, h⟩
    · rintro ⟨t, ⟨rfl, rfl⟩, h⟩
      exact ⟨rfl, h⟩

theorem accepts_literal : accepts (s.map .char ++ [.many]) text = true ↔ s <+: text := by
  induction s generalizing text with
  | nil =>
    rw [List.map_nil, List.nil_append, accepts_many]
    exact iff_of_true ⟨[], List.nil_suffix, rfl⟩ List.nil_prefix
  | cons c s ih =>
    rw [List.map_cons, List.cons_append, accepts_char]
    constructor
    · rintro ⟨t, rfl, ht⟩
      exact (List.prefix_cons_inj c).2 (ih.1 ht)
    · rintro ⟨t, rfl⟩
      exact ⟨s ++ t, rfl, ih.2 (List.prefix_append s t)⟩

theorem accepts_many_literal : accepts (.many :: s.map .char ++ [.many]) text = true ↔ s <:+: text := by
  rw [List.cons_append, accepts_many, List.infix_iff_prefix_suffix]
  simp only [accepts_literal, and_comm]

end AuditGateway.Framework
