import AuditGateway.Framework.Keyed
import Mathlib

/-!
# Grouped sums, and refreshing them from a window

The sums of a finite collection of facts by key, as `SELECT key, SUM(value) ...
GROUP BY key` computes them, and a table of such sums that is refreshed from only
the facts that satisfy a condition: the keys that are recent are dropped, and then
each key that the facts of the condition have is written over the table.

* `sum_total`: the sums of the groups add up to the sum of all facts.
* `sum_find`: the rows of a table, added up along a list of keys.
* `refreshed_eq_groupSum_iff`: when the refreshed table has at a key the sum of all facts.
-/

namespace AuditGateway.Framework

section Totals

variable {φ κ μ : Type} [DecidableEq κ] [AddCommMonoid μ] (key : φ → κ) (val : φ → μ)

/-- The sum of the values of the facts with the key. -/
def total (F : Multiset φ) (k : κ) : μ :=
  ((F.filter fun f => key f = k).map val).sum

/-- The sums by key: a key that no fact has is in no group. -/
def groupSum (F : Multiset φ) (k : κ) : Option μ :=
  if k ∈ F.map key then some (total key val F k) else none

variable {key val} {F N : Multiset φ} {k : κ} {p : φ → Prop} [DecidablePred p]

theorem total_add : total key val (F + N) k = total key val F k + total key val N k := by
  simp only [total, Multiset.filter_add, Multiset.map_add, Multiset.sum_add]

theorem total_filter_add_not :
    total key val (F.filter p) k + total key val (F.filter fun f => ¬ p f) k = total key val F k := by
  rw [← total_add, Multiset.filter_add_not]

theorem total_eq_zero (h : ∀ f ∈ F, key f ≠ k) : total key val F k = 0 := by
  have hnone : F.filter (fun f => key f = k) = 0 := Multiset.filter_eq_nil.2 h
  rw [total, hnone, Multiset.map_zero, Multiset.sum_zero]

theorem groupSum_of_exists (h : ∃ f ∈ F, key f = k) : groupSum key val F k = some (total key val F k) :=
  if_pos (Multiset.mem_map.2 h)

theorem groupSum_of_forall (h : ∀ f ∈ F, key f ≠ k) : groupSum key val F k = none :=
  if_neg fun hk => by
    obtain ⟨f, hf, hk⟩ := Multiset.mem_map.1 hk
    exact h f hf hk

theorem groupSum_congr {κ' : Type} [DecidableEq κ'] {key' : φ → κ'} {k' : κ'} (h : ∀ f, key f = k ↔ key' f = k') :
    groupSum key val F k = groupSum key' val F k' := by
  have hmem : k ∈ F.map key ↔ k' ∈ F.map key' := by simp only [Multiset.mem_map, h]
  have htotal : total key val F k = total key' val F k' := by simp only [total, h]
  rw [groupSum, groupSum, htotal]
  exact if_congr hmem rfl rfl

theorem groupSum_add_of_forall (h : ∀ f ∈ N, key f ≠ k) :
    groupSum key val (F + N) k = groupSum key val F k := by
  by_cases hF : ∃ f ∈ F, key f = k
  · obtain ⟨f, hf, hk⟩ := hF
    rw [groupSum_of_exists ⟨f, Multiset.mem_add.2 (.inl hf), hk⟩, groupSum_of_exists ⟨f, hf, hk⟩, total_add,
      total_eq_zero h, add_zero]
  · push Not at hF
    rw [groupSum_of_forall hF, groupSum_of_forall]
    intro f hf
    obtain hf | hf := Multiset.mem_add.1 hf
    · exact hF f hf
    · exact h f hf

theorem total_cons (f : φ) : total key val (f ::ₘ F) k = (if key f = k then val f else 0) + total key val F k := by
  by_cases h : key f = k <;> simp [total, h]

theorem sum_total {P : κ → Prop} [DecidablePred P] {S : Finset κ} (h : ∀ f ∈ F, key f ∈ S) :
    ∑ k ∈ S with P k, total key val F k = ((F.filter fun f => P (key f)).map val).sum := by
  induction F using Multiset.induction with
  | empty => simp [total]
  | cons f F ih =>
    have hS : key f ∈ S := h f (Multiset.mem_cons_self f F)
    simp only [total_cons, Finset.sum_add_distrib, ih fun g hg => h g (Multiset.mem_cons_of_mem hg)]
    rw [Finset.sum_ite_eq]
    by_cases hP : P (key f) <;> simp [hS, hP]

end Totals

section Refresh

variable {φ κ μ : Type} [DecidableEq κ] [AddCommGroup μ] (key : φ → κ) (val : φ → μ)

/-- The table without its recent keys, overwritten by the sums of the facts that satisfy `p`. -/
def refreshed (recent : κ → Prop) [DecidablePred recent] (p : φ → Prop) [DecidablePred p] (F : Multiset φ)
    (T : κ → Option μ) (k : κ) : Option μ :=
  (groupSum key val (F.filter p) k).or (if recent k then none else T k)

variable {key val} {F N : Multiset φ} {k : κ} {recent : κ → Prop} [DecidablePred recent] {p : φ → Prop}
  [DecidablePred p]

theorem refreshed_eq_groupSum_iff (hrecent : ∀ f ∈ F + N, recent (key f) → p f) (hnew : ∀ f ∈ N, p f) :
    refreshed key val recent p (F + N) (groupSum key val F) k = groupSum key val (F + N) k ↔
      (¬ recent k → (∃ f ∈ F + N, key f = k ∧ p f) → total key val (F.filter fun f => ¬ p f) k = 0) := by
  have hold : (F + N).filter (fun f => ¬ p f) = F.filter fun f => ¬ p f := by
    rw [Multiset.filter_add, Multiset.filter_eq_nil.2 fun f hf => not_not.2 (hnew f hf), add_zero]
  by_cases hin : ∃ f ∈ F + N, key f = k ∧ p f
  · -- The key is overwritten by the facts of the condition.
    obtain ⟨f, hf, hk, hp⟩ := hin
    have hwritten : refreshed key val recent p (F + N) (groupSum key val F) k =
        some (total key val ((F + N).filter p) k) := by
      rw [refreshed, groupSum_of_exists ⟨f, Multiset.mem_filter.2 ⟨hf, hp⟩, hk⟩, Option.some_or]
    have hsplit : total key val (F + N) k =
        total key val ((F + N).filter p) k + total key val (F.filter fun f => ¬ p f) k := by
      rw [← hold, total_filter_add_not]
    rw [hwritten, groupSum_of_exists ⟨f, hf, hk⟩, Option.some_inj, hsplit, left_eq_add]
    refine ⟨fun h _ _ => h, fun h => ?_⟩
    by_cases hr : recent k
    · refine total_eq_zero fun g hg hgk => ?_
      obtain ⟨hgF, hgp⟩ := Multiset.mem_filter.1 hg
      exact hgp (hrecent g (Multiset.mem_add.2 (.inl hgF)) (hgk ▸ hr))
    · exact h hr ⟨f, hf, hk, hp⟩
  · -- None of the facts of the condition has the key, so it has no new facts.
    refine iff_of_true ?_ fun _ h => absurd h hin
    have hnone : ∀ f ∈ N, key f ≠ k := fun f hf hk => hin ⟨f, Multiset.mem_add.2 (.inr hf), hk, hnew f hf⟩
    have hkept : refreshed key val recent p (F + N) (groupSum key val F) k =
        if recent k then none else groupSum key val F k := by
      rw [refreshed, groupSum_of_forall, Option.none_or]
      intro f hf hk
      obtain ⟨hf, hp⟩ := Multiset.mem_filter.1 hf
      exact hin ⟨f, hf, hk, hp⟩
    rw [hkept, groupSum_add_of_forall hnone]
    split
    · rename_i hr
      refine (groupSum_of_forall fun f hf hk => ?_).symm
      have hf : f ∈ F + N := Multiset.mem_add.2 (.inl hf)
      exact hin ⟨f, hf, hk, hrecent f hf (hk ▸ hr)⟩
    · rfl

end Refresh

theorem Keyed.sum_find {K V μ : Type} [DecidableEq K] [AddCommMonoid μ] (t : Keyed K V) (f : V → μ) {keys : List K}
    (hkeys : keys.Nodup) (hall : ∀ row ∈ t.rows, row.1 ∈ keys) :
    (keys.map fun k => ((t.find k).map f).getD 0).sum = (t.rows.map fun row => f row.2).sum := by
  have hperm : keys.Perm (t.rows.map Prod.fst ++ keys.filter fun k => k ∉ t.rows.map Prod.fst) := by
    refine (List.perm_ext_iff_of_nodup hkeys (List.nodup_append.2 ⟨t.nodup, hkeys.filter _, ?_⟩)).2 fun k => ?_
    · rintro k hk k' hk' rfl
      exact of_decide_eq_true (List.mem_filter.1 hk').2 hk
    · rw [List.mem_append, List.mem_filter, decide_eq_true_eq]
      constructor
      · intro hk
        by_cases hrow : k ∈ t.rows.map Prod.fst
        · exact .inl hrow
        · exact .inr ⟨hk, hrow⟩
      · rintro (hk | hk)
        · obtain ⟨row, hrow, rfl⟩ := List.mem_map.1 hk
          exact hall row hrow
        · exact hk.1
  have hfound : ((t.rows.map Prod.fst).map fun k => ((t.find k).map f).getD 0) = t.rows.map fun row => f row.2 := by
    rw [List.map_map]
    refine List.map_congr_left fun row hrow => ?_
    simp only [Function.comp_apply, Keyed.find_of_mem (v := row.2) hrow, Option.map_some, Option.getD_some]
  have hrest : ((keys.filter fun k => k ∉ t.rows.map Prod.fst).map fun k => ((t.find k).map f).getD 0).sum = 0 := by
    refine List.sum_eq_zero (List.forall_mem_map.2 fun k hk => ?_)
    rw [Keyed.find_eq_none.2 (of_decide_eq_true (List.mem_filter.1 hk).2), Option.map_none, Option.getD_none]
  rw [(hperm.map _).sum_eq, List.map_append, List.sum_append, hfound, hrest, add_zero]

theorem countP_eq_sum {α : Type} (p : α → Bool) (l : List α) :
    l.countP p = (l.map fun a => if p a then 1 else 0).sum := by
  induction l with
  | nil => rfl
  | cons a l ih => rw [List.countP_cons, List.map_cons, List.sum_cons, ih, Nat.add_comm]

end AuditGateway.Framework
