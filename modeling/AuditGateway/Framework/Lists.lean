import Mathlib.Data.List.Nodup
import Mathlib.Data.List.Range
import Mathlib.Data.List.Perm.Subperm

/-!
# Lists of events

* `length_le_of_labels`: a bound on the length of a list whose elements carry labels
  that no two of them share.
* `exists_last`: the last element with a property.
* `filterMap_filter_eq_iff`: two choices among the same values.
-/

namespace AuditGateway.Framework

variable {α : Type}

theorem length_le_of_labels {l : List α} (hl : l.Nodup) (label : α → Nat → Prop) {m : Nat}
    (hlabel : ∀ x ∈ l, ∃ n, n < m ∧ label x n) (hinj : ∀ x y n, label x n → label y n → x = y) :
    l.length ≤ m := by
  choose! f hf using hlabel
  have hnodup : (l.map f).Nodup := by
    refine hl.map_on fun x hx y hy h => hinj x y (f x) (hf x hx).2 ?_
    rw [h]
    exact (hf y hy).2
  have hsub : l.map f ⊆ List.range m := by
    intro n hn
    obtain ⟨x, hx, rfl⟩ := List.mem_map.1 hn
    exact List.mem_range.2 (hf x hx).1
  calc l.length = (l.map f).length := (List.length_map f).symm
    _ ≤ (List.range m).length := (hnodup.subperm hsub).length_le
    _ = m := List.length_range

theorem filterMap_filter_eq_iff {β : Type} (value : α → Option β) (q : α → Bool) (p : β → Bool) (l : List α) :
    (l.filter q).filterMap value = (l.filterMap value).filter p ↔
      ∀ a ∈ l, ∀ v, value a = some v → (p v = true ↔ q a = true) := by
  induction l with
  | nil => simp
  | cons a l ih =>
    rw [List.forall_mem_cons, ← ih]
    cases hvalue : value a with
    | none => by_cases hq : q a <;> simp [hvalue, hq]
    | some v =>
      by_cases hq : q a <;> by_cases hv : p v
      · simp [hvalue, hq, hv]
      · refine iff_of_false (fun h => hv ?_) fun h => hv ((h.1 v rfl).2 hq)
        have hmem : v ∈ ((a :: l).filterMap value).filter p := by
          rw [← h]
          simp [hvalue, hq]
        exact (List.mem_filter.1 hmem).2
      · refine iff_of_false (fun h => ?_) fun h => hq ((h.1 v rfl).1 hv)
        -- all that `q` chooses satisfies `p`, and it is one more than there is
        have hlonger : (l.filter q).filterMap value = v :: (l.filterMap value).filter p := by
          simpa [hvalue, hq, hv] using h
        have hsub : (((l.filter q).filterMap value).filter p).Sublist ((l.filterMap value).filter p) :=
          (List.filter_sublist.filterMap value).filter p
        have hlength := hsub.length_le
        rw [hlonger, List.filter_cons_of_pos hv, List.filter_filter] at hlength
        simp only [Bool.and_self, List.length_cons] at hlength
        exact absurd hlength (Nat.not_succ_le_self _)
      · simp [hvalue, hq, hv]

theorem exists_last {p : α → Prop} {l : List α} (h : ∃ x ∈ l, p x) :
    ∃ x ∈ l, p x ∧ ∀ l₁ l₂, l = l₁ ++ l₂ → (∃ y ∈ l₂, p y) → x ∈ l₂ := by
  classical
  let those (l : List α) : List α := l.filter fun x => p x
  have hne : ∀ {l}, (∃ x ∈ l, p x) → those l ≠ [] := by
    rintro l ⟨x, hx, hp⟩
    exact List.ne_nil_of_mem (List.mem_filter.2 ⟨hx, by simpa using hp⟩)
  have hmem : ∀ {l} (h : those l ≠ []), (those l).getLast h ∈ l ∧ p ((those l).getLast h) := by
    intro l h
    simpa using List.mem_filter.1 (List.getLast_mem h)
  refine ⟨_, (hmem (hne h)).1, (hmem (hne h)).2, ?_⟩
  rintro l₁ l₂ rfl hy
  have hlast : (those (l₁ ++ l₂)).getLast (hne h) = (those l₂).getLast (hne hy) := by
    simp only [those, List.filter_append]
    exact List.getLast_append_of_ne_nil _ (hne hy)
  rw [hlast]
  exact (hmem (hne hy)).1

end AuditGateway.Framework
