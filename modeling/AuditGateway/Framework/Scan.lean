import Mathlib.Data.List.Basic
import Mathlib.Data.List.TakeWhile

/-!
# Replacing what a pattern matches

A pattern is a function that matches at the front of a list: it gives the part of the match that is
kept, and what follows the match. `replaceAll` goes through a list from left to right, and puts a mark
after the part that is kept of each match.

* `replaceAll_eq`: `replaceAll` is the only function with its equations.
* `cutBefore`: a list cut before each of its delimiters; `cutBefore_eq`, `cutBefore_flatMap`.
* `infix_iff_across`: where a list is part of another one, piece by piece.
-/

namespace AuditGateway.Framework

variable {α : Type}

section

variable (matchAt : List α → Option (List α × List α)) (mark : List α)

/-- All matches are replaced, in a list of at most `n` elements. -/
def replaceAllFrom : Nat → List α → List α
  | 0, l => l
  | _ + 1, [] => []
  | n + 1, a :: l =>
    match matchAt (a :: l) with
    | some (kept, rest) => kept ++ mark ++ replaceAllFrom n rest
    | none => a :: replaceAllFrom n l

def replaceAll (l : List α) : List α := replaceAllFrom matchAt mark l.length l

variable {matchAt mark}

theorem replaceAll_eq {f : List α → List α} (hnil : f [] = [])
    (hmatch : ∀ a l kept rest, matchAt (a :: l) = some (kept, rest) →
      f (a :: l) = kept ++ mark ++ f rest ∧ rest.length ≤ l.length)
    (hnone : ∀ a l, matchAt (a :: l) = none → f (a :: l) = a :: f l) (l : List α) :
    replaceAll matchAt mark l = f l := by
  have hfrom : ∀ n (l : List α), l.length ≤ n → replaceAllFrom matchAt mark n l = f l := by
    intro n
    induction n with
    | zero =>
      intro l hl
      rw [List.length_eq_zero_iff.1 (Nat.le_zero.1 hl), hnil]
      rfl
    | succ n ih =>
      intro l hl
      cases l with
      | nil => rw [hnil, replaceAllFrom]
      | cons a l =>
        rw [List.length_cons] at hl
        rw [replaceAllFrom]
        cases hm : matchAt (a :: l) with
        | none => rw [hnone a l hm, ih l (by omega)]
        | some found =>
          obtain ⟨kept, rest⟩ := found
          obtain ⟨hf, hrest⟩ := hmatch a l kept rest hm
          rw [hf, ← ih rest (by omega)]
  exact hfrom l.length l le_rfl

end

section

variable (p : α → Bool)

/-- A list cut before each element with a property. -/
def cutBefore : List α → List (List α)
  | [] => [[]]
  | a :: l =>
    match cutBefore l with
    | [] => [[a]]
    | piece :: pieces => if p a then [] :: (a :: piece) :: pieces else (a :: piece) :: pieces

theorem cutBefore_eq (l : List α) :
    cutBefore p l = l.takeWhile (! p ·) :: (cutBefore p (l.dropWhile (! p ·))).tail := by
  have hne : ∀ l : List α, cutBefore p l ≠ [] := by
    intro l
    cases l with
    | nil => simp [cutBefore]
    | cons a l =>
      rw [cutBefore]
      cases cutBefore p l with
      | nil => simp
      | cons piece pieces => by_cases ha : p a <;> simp [ha]
  induction l with
  | nil => rfl
  | cons a l ih =>
    by_cases ha : p a
    · rw [List.takeWhile_cons_of_neg (by simp [ha]), List.dropWhile_cons_of_neg (by simp [ha])]
      rw [cutBefore]
      cases hl : cutBefore p l with
      | nil => exact absurd hl (hne l)
      | cons piece pieces => simp [ha]
    · rw [List.takeWhile_cons_of_pos (by simp [ha]), List.dropWhile_cons_of_pos (by simp [ha]), cutBefore, ih]
      simp [ha]

theorem cutBefore_cons (a : α) (l : List α) : cutBefore p (a :: l) =
    if p a then [] :: (a :: l.takeWhile (! p ·)) :: (cutBefore p (l.dropWhile (! p ·))).tail
    else (a :: l.takeWhile (! p ·)) :: (cutBefore p (l.dropWhile (! p ·))).tail := by
  rw [cutBefore, cutBefore_eq p l]

theorem cutBefore_dropWhile (l : List α) :
    cutBefore p (l.dropWhile (! p ·)) = [] :: (cutBefore p (l.dropWhile (! p ·))).tail := by
  induction l with
  | nil => rfl
  | cons a l ih =>
    by_cases ha : p a
    · rw [List.dropWhile_cons_of_neg (by simp [ha]), cutBefore_cons, if_pos ha]
      rfl
    · rwa [List.dropWhile_cons_of_pos (by simp [ha])]

variable {p}

theorem flatten_cutBefore (l : List α) : (cutBefore p l).flatten = l := by
  induction l with
  | nil => rfl
  | cons a l ih =>
    rw [cutBefore]
    split
    · rename_i h
      rw [h] at ih
      simp [← ih]
    · rename_i h
      rw [h] at ih
      split <;> simp [← ih]

theorem cutBefore_append (l : List α) {l' first : List α} {pieces' : List (List α)}
    (h : cutBefore p l' = first :: pieces') :
    ∃ pieces last, cutBefore p l = pieces ++ [last] ∧ cutBefore p (l ++ l') = pieces ++ (last ++ first) :: pieces' := by
  induction l with
  | nil => exact ⟨[], [], rfl, h⟩
  | cons a l ih =>
    obtain ⟨pieces, last, hl, happend⟩ := ih
    rw [List.cons_append, cutBefore, cutBefore, hl, happend]
    cases pieces with
    | nil =>
      by_cases ha : p a
      · exact ⟨[[]], a :: last, by simp [ha], by simp [ha]⟩
      · exact ⟨[], a :: last, by simp [ha], by simp [ha]⟩
    | cons piece pieces =>
      by_cases ha : p a
      · exact ⟨[] :: (a :: piece) :: pieces, last, by simp [ha], by simp [ha]⟩
      · exact ⟨(a :: piece) :: pieces, last, by simp [ha], by simp [ha]⟩

/-- The pieces of a list among others: it is inside of one, or goes from the end of a piece to the beginning of a
later one. -/
inductive Across (pieces : List (List α)) : List (List α) → Prop
  | inside {piece part : List α} : piece ∈ pieces → part <:+: piece → Across pieces [part]
  | spanning {before after middle : List (List α)} {u first last v : List α} :
    pieces = before ++ (u ++ first) :: (middle ++ (last ++ v) :: after) → Across pieces (first :: (middle ++ [last]))

theorem Across.infix {pieces parts : List (List α)} (h : Across pieces parts) : parts.flatten <:+: pieces.flatten := by
  cases h with
  | inside hmem hpart => simpa using hpart.trans (List.infix_of_mem_flatten hmem)
  | @spanning before after middle u first last v h =>
    exact ⟨before.flatten ++ u, v ++ after.flatten, by simp [h]⟩

theorem infix_iff_across {l l' : List α} : l <:+: l' ↔ Across (cutBefore p l') (cutBefore p l) := by
  constructor
  · rintro ⟨u, v, rfl⟩
    obtain ⟨first', after, hv⟩ : ∃ first after, cutBefore p v = first :: after := ⟨_, _, cutBefore_eq p v⟩
    obtain ⟨parts, last, hl, hlv⟩ := cutBefore_append l hv
    rw [List.append_assoc]
    cases parts with
    | nil =>
      obtain ⟨before, first, -, huv⟩ := cutBefore_append u hlv
      rw [hl, huv]
      exact .inside (List.mem_append_right _ (List.mem_cons_self ..)) ⟨first, first', by simp⟩
    | cons part parts =>
      obtain ⟨before, first, -, huv⟩ := cutBefore_append u hlv
      rw [hl, huv]
      exact .spanning rfl
  · intro h
    simpa only [flatten_cutBefore] using h.infix

theorem cutBefore_flatMap {f : List α → List α}
    (hf : ∀ a l, ∃ l', f (a :: l) = a :: l' ∧ ((∀ b ∈ l, p b = false) → ∀ b ∈ l', p b = false)) (hnil : f [] = [])
    (l : List α) : cutBefore p ((cutBefore p l).flatMap f) = (cutBefore p l).map f := by
  have happend : ∀ {l l' first : List α} {pieces}, (∀ a ∈ l, p a = false) → cutBefore p l' = first :: pieces →
      cutBefore p (l ++ l') = (l ++ first) :: pieces := by
    intro l l' first pieces hl h
    induction l with
    | nil => exact h
    | cons a l ih =>
      obtain ⟨ha, hl⟩ := List.forall_mem_cons.1 hl
      simp [cutBefore, ih hl, ha]
  -- the first piece has no delimiter, and the others are cut as before
  have hcut : ∃ first pieces, cutBefore p l = first :: pieces ∧ (∀ a ∈ first, p a = false) ∧
      cutBefore p (pieces.flatMap f) = [] :: pieces.map f := by
    induction l with
    | nil => exact ⟨[], [], rfl, by simp, rfl⟩
    | cons a l ih =>
      obtain ⟨first, pieces, hl, hfirst, hpieces⟩ := ih
      rw [cutBefore, hl]
      by_cases ha : p a
      · obtain ⟨rest, hrest, hclean⟩ := hf a first
        refine ⟨[], (a :: first) :: pieces, by simp [ha], by simp, ?_⟩
        rw [List.flatMap_cons, hrest, List.cons_append, cutBefore, happend (hclean hfirst) hpieces]
        simp [ha, hrest]
      · exact ⟨a :: first, pieces, by simp [ha], List.forall_mem_cons.2 ⟨by simpa using ha, hfirst⟩, hpieces⟩
  obtain ⟨first, pieces, hl, hfirst, hpieces⟩ := hcut
  have hclean : ∀ a ∈ f first, p a = false := by
    cases first with
    | nil => simp [hnil]
    | cons a first =>
      obtain ⟨ha, hfirst⟩ := List.forall_mem_cons.1 hfirst
      obtain ⟨rest, hrest, hclean⟩ := hf a first
      rw [hrest]
      exact List.forall_mem_cons.2 ⟨ha, hclean hfirst⟩
  rw [hl, List.flatMap_cons, happend hclean hpieces, List.append_nil, List.map_cons]

end

end AuditGateway.Framework
