import Mathlib.Data.List.Nodup
import Mathlib.Data.List.Perm.Basic

/-!
# Pages of an ordered list

The answer to a query with `ORDER BY`, `LIMIT` and `OFFSET` is a part of some list of the rows that respects the
order (`InOrder`). Rows that the order leaves tied may be in any sequence, and in another one for the next query.

* `InOrder.strictAt`: an order by a key that no two rows share is strict everywhere.
* `take_perm`: the rows before a place where the order is strict are the same in all sequences.
* `pages_perm_iff`: the pages have every row once, whatever the sequences, if and only if the order
  is strict at every page boundary.
-/

namespace AuditGateway.Framework

variable {α : Type} {le : α → α → Prop} {rows l o : List α} {p n k : Nat}

/-- A sequence of the rows that respects the order. -/
structure InOrder (le : α → α → Prop) (rows o : List α) : Prop where
  perm : o.Perm rows
  sorted : o.Pairwise le

/-- The rows of a page; the first one has the number 0. -/
def page (size : Nat) (k : Nat) (o : List α) : List α := (o.drop (k * size)).take size

/-- The order is strict between the rows before `p` and those from `p` on. -/
def StrictAt (le : α → α → Prop) (l : List α) (p : Nat) : Prop :=
  0 < p → ∀ a b, l[p - 1]? = some a → l[p]? = some b → ¬ le b a

theorem InOrder.next (h : InOrder le rows l) (hp : 0 < p) {a b : α} (ha : l[p - 1]? = some a) (hb : l[p]? = some b) :
    le a b := by
  obtain ⟨hi, rfl⟩ := List.getElem?_eq_some_iff.1 ha
  obtain ⟨hj, rfl⟩ := List.getElem?_eq_some_iff.1 hb
  exact List.pairwise_iff_getElem.1 h.sorted _ _ hi hj (by omega)

theorem InOrder.strictAt {K : Type} {key : α → K} (h : InOrder le rows l) (hkeys : (rows.map key).Nodup)
    (hties : ∀ a b, le a b → le b a → key a = key b) (p : Nat) : StrictAt le l p := by
  intro hp a b ha hb hba
  have hab := h.next hp ha hb
  have hne : l.Pairwise fun a b => key a ≠ key b := List.pairwise_map.1 ((h.perm.map key).nodup_iff.2 hkeys)
  obtain ⟨hi, rfl⟩ := List.getElem?_eq_some_iff.1 ha
  obtain ⟨hj, rfl⟩ := List.getElem?_eq_some_iff.1 hb
  exact List.pairwise_iff_getElem.1 hne _ _ hi hj (by omega) (hties _ _ hab hba)

theorem filter_eq_take {q : α → Bool} (hq : ∀ a b, le a b → q b = true → q a = true) (ho : o.Pairwise le) :
    o.filter q = o.take (o.countP q) := by
  induction o with
  | nil => rfl
  | cons a o ih =>
    obtain ⟨ha, ho⟩ := List.pairwise_cons.1 ho
    by_cases hqa : q a = true
    · rw [List.filter_cons_of_pos hqa, List.countP_cons_of_pos hqa, List.take_succ_cons, ih ho]
    · have hnone : ∀ b ∈ o, ¬ q b = true := fun b hb hqb => hqa (hq a b (ha b hb) hqb)
      rw [List.filter_cons_of_neg hqa, List.countP_cons_of_neg hqa, List.filter_eq_nil_iff.2 hnone,
        List.countP_eq_zero.2 hnone, List.take_zero]

section Preorder

variable (htrans : ∀ a b c, le a b → le b c → le a c) (hrefl : ∀ a, le a a)

include htrans hrefl

theorem take_perm (hl : InOrder le rows l) (ho : InOrder le rows o) (hstrict : StrictAt le l p) :
    (o.take p).Perm (l.take p) := by
  classical
  by_cases hp : p = 0
  · rw [hp, List.take_zero, List.take_zero]
  by_cases hlen : l.length ≤ p
  · have hlen' : o.length ≤ p := (ho.perm.trans hl.perm.symm).length_eq ▸ hlen
    rw [List.take_of_length_le hlen, List.take_of_length_le hlen']
    exact ho.perm.trans hl.perm.symm
  -- The rows before the one at the place are those that it is not below.
  have hlt : p < l.length := Nat.lt_of_not_le hlen
  let q (a : α) : Bool := decide (¬ le l[p] a)
  have hq : ∀ a b, le a b → q b = true → q a = true := fun a b hab hb =>
    decide_eq_true fun ha => of_decide_eq_true hb (htrans _ _ _ ha hab)
  have hpair := List.pairwise_iff_getElem.1 hl.sorted
  have hcount : l.countP q = p := by
    have hbefore : ∀ a ∈ l.take p, q a = true := by
      intro a ha
      obtain ⟨i, hi, rfl⟩ := List.mem_take_iff_getElem.1 ha
      refine decide_eq_true fun hle => hstrict (Nat.pos_of_ne_zero hp) l[p - 1] l[p]
        (List.getElem?_eq_getElem (by omega)) (List.getElem?_eq_getElem hlt) ?_
      by_cases hlast : i = p - 1
      · simpa only [← hlast] using hle
      · exact htrans _ _ _ hle (hpair i (p - 1) (by omega) (by omega) (by omega))
    have hafter : ∀ a ∈ l.drop p, ¬ q a = true := by
      intro a ha hqa
      obtain ⟨i, hi, rfl⟩ := List.mem_drop_iff_getElem.1 ha
      refine of_decide_eq_true hqa ?_
      by_cases hfirst : i = 0
      · simpa only [hfirst, Nat.add_zero] using hrefl l[p]
      · exact hpair p (p + i) hlt (by omega) (by omega)
    rw [← List.take_append_drop p l, List.countP_append, List.countP_eq_length.2 hbefore,
      List.countP_eq_zero.2 hafter, List.length_take, Nat.min_eq_left (Nat.le_of_lt hlt), Nat.add_zero]
  have hcount' : o.countP q = p := (((ho.perm.trans hl.perm.symm).countP_eq q)).trans hcount
  have heq := (ho.perm.trans hl.perm.symm).filter q
  rwa [filter_eq_take hq ho.sorted, filter_eq_take hq hl.sorted, hcount, hcount'] at heq

theorem page_perm (hl : InOrder le rows l) (ho : InOrder le rows o) {size : Nat} (hstart : StrictAt le l (k * size))
    (hstop : StrictAt le l ((k + 1) * size)) : (page size k o).Perm (page size k l) := by
  have hsplit (l : List α) : l.take ((k + 1) * size) = l.take (k * size) ++ page size k l := by
    rw [page, Nat.add_mul, Nat.one_mul, List.take_add]
  have hwhole := take_perm htrans hrefl hl ho hstop
  rw [hsplit, hsplit] at hwhole
  have hbefore := take_perm htrans hrefl hl ho hstart
  exact (List.perm_append_left_iff _).1 ((hbefore.append_right _).symm.trans hwhole)

end Preorder

theorem flatMap_page (size total : Nat) (o : List α) :
    ((List.range total).flatMap fun k => page size k o) = o.take (total * size) := by
  induction total with
  | zero => rw [Nat.zero_mul]; rfl
  | succ total ih =>
    rw [List.range_succ, List.flatMap_append, ih, List.flatMap_singleton, page, Nat.add_mul, Nat.one_mul, List.take_add]

theorem InOrder.swap {before after : List α} {a b : α} (h : InOrder le rows (before ++ a :: b :: after))
    (hba : le b a) : InOrder le rows (before ++ b :: a :: after) := by
  refine ⟨((List.Perm.swap a b after).append_left before).trans h.perm, ?_⟩
  have hsorted := h.sorted
  simp only [List.pairwise_append, List.pairwise_cons, List.mem_cons, forall_eq_or_imp] at hsorted ⊢
  obtain ⟨hbefore, ⟨⟨hab, ha⟩, hb, hafter⟩, hall⟩ := hsorted
  exact ⟨hbefore, ⟨⟨hba, hb⟩, ha, hafter⟩, fun x hx => ⟨(hall x hx).2.1, (hall x hx).1, (hall x hx).2.2⟩⟩

theorem mem_page {size i : Nat} {a : α} (ha : o[i]? = some a) (hle : k * size ≤ i) (hlt : i < (k + 1) * size) :
    a ∈ page size k o := by
  refine List.mem_of_getElem? (i := i - k * size) ?_
  rw [Nat.add_mul, Nat.one_mul] at hlt
  rw [page, List.getElem?_take_of_lt (by omega), List.getElem?_drop, Nat.add_sub_cancel' hle, ha]

theorem pages_perm_iff (htrans : ∀ a b c, le a b → le b c → le a c) (hrefl : ∀ a, le a a) (hrows : rows.Nodup)
    (hl : InOrder le rows l) {size total : Nat} (hsize : 0 < size) (hle : rows.length ≤ total * size) :
    (∀ seq : Nat → List α, (∀ k, InOrder le rows (seq k)) →
        ((List.range total).flatMap fun k => page size k (seq k)).Perm rows) ↔
      ∀ k, StrictAt le l (k * size) := by
  constructor
  · intro h k hpos a b ha hb hba
    obtain ⟨hp, hb'⟩ := List.getElem?_eq_some_iff.1 hb
    obtain ⟨hp', ha'⟩ := List.getElem?_eq_some_iff.1 ha
    have hk : k < total := by
      refine Nat.lt_of_mul_lt_mul_right (a := size) (Nat.lt_of_lt_of_le hp ?_)
      rw [hl.perm.length_eq]
      exact hle
    have hk' : 0 < k := Nat.pos_of_mul_pos_right hpos
    -- The page before the boundary is of `l`, the one after it of `l` with the two rows exchanged.
    have hsplit : l = l.take (k * size - 1) ++ a :: b :: l.drop (k * size + 1) := by
      have hdrop : l.drop (k * size - 1) = a :: b :: l.drop (k * size + 1) := by
        rw [List.drop_eq_getElem_cons hp', ha', Nat.sub_add_cancel hpos, List.drop_eq_getElem_cons hp, hb']
      rw [← hdrop, List.take_append_drop]
    let o := l.take (k * size - 1) ++ b :: a :: l.drop (k * size + 1)
    have ho : InOrder le rows o := (hsplit ▸ hl).swap hba
    have hat : o[k * size]? = some a := by
      rw [List.getElem?_append_right (by rw [List.length_take]; omega), List.length_take,
        show k * size - min (k * size - 1) l.length = 1 by omega]
      rfl
    have hperm := h (fun j => if j = k then o else l) fun j => by
      split
      · exact ho
      · exact hl
    have hdisjoint := List.pairwise_iff_getElem.1 (List.nodup_flatMap.1 (hperm.nodup_iff.2 hrows)).2 (k - 1) k
      (by rw [List.length_range]; omega) (by rw [List.length_range]; exact hk) (by omega)
    simp only [List.getElem_range, Function.onFun, if_neg (show k - 1 ≠ k by omega), if_true] at hdisjoint
    refine hdisjoint (mem_page ha ?_ ?_) (mem_page hat (Nat.le_refl _) ?_)
    · rw [Nat.sub_mul, Nat.one_mul]
      omega
    · rw [Nat.sub_add_cancel hk']
      omega
    · rw [Nat.add_mul, Nat.one_mul]
      omega
  · intro h seq hseq
    have hpages : ((List.range total).flatMap fun k => page size k (seq k)).Perm
        ((List.range total).flatMap fun k => page size k l) :=
      List.Perm.flatMap_left _ fun k _ => page_perm htrans hrefl hl (hseq k) (h k) (h (k + 1))
    rw [flatMap_page, List.take_of_length_le (hl.perm.length_eq ▸ hle)] at hpages
    exact hpages.trans hl.perm

end AuditGateway.Framework
