import Mathlib.Data.List.Nodup

/-!
# Tables with a unique key

A table as the list of its rows, no two of which have the same key, with the statements
that respect the key: `insertNew` (`INSERT ... ON CONFLICT DO NOTHING`), `upsert`
(`INSERT ... ON CONFLICT DO UPDATE`) and `modify` (`UPDATE ... WHERE key`).

* `find_insertNew`, `find_upsert`, `find_modify`: the row of a key after a statement.
* `count_insertNew`: how many rows satisfy a condition after it.
* `removeIf`: the rows with other keys (`DELETE`); `find_removeIf`.
-/

namespace AuditGateway.Framework

/-- Rows with distinct keys. -/
@[ext] structure Keyed (K V : Type) where
  rows : List (K × V)
  nodup : (rows.map Prod.fst).Nodup

namespace Keyed

variable {K V : Type} [DecidableEq K]

def empty : Keyed K V := ⟨[], List.nodup_nil⟩

/-- The row of a key. -/
def find (t : Keyed K V) (k : K) : Option V :=
  (t.rows.find? fun row => row.1 = k).map Prod.snd

/-- The row of a key is changed, if there is one. -/
def modify (t : Keyed K V) (k : K) (f : V → V) : Keyed K V where
  rows := t.rows.map fun row => if row.1 = k then (row.1, f row.2) else row
  nodup := by
    have hfst : (Prod.fst ∘ fun row : K × V => if row.1 = k then (row.1, f row.2) else row) = Prod.fst := by
      funext row
      simp only [Function.comp_apply]
      split <;> rfl
    rw [List.map_map, hfst]
    exact t.nodup

theorem find_eq_none {t : Keyed K V} {k : K} : t.find k = none ↔ k ∉ t.rows.map Prod.fst := by
  rw [find, Option.map_eq_none_iff, List.find?_eq_none, List.mem_map]
  simp only [decide_eq_true_eq, not_exists, not_and]

/-- A row with a new key; nothing happens if there is one with that key. -/
def insertNew (t : Keyed K V) (k : K) (v : V) : Keyed K V :=
  if h : t.find k = none then
    ⟨t.rows ++ [(k, v)], by
      rw [List.map_append, List.nodup_append]
      refine ⟨t.nodup, List.nodup_singleton k, fun a ha b hb hab => find_eq_none.1 h ?_⟩
      have hbk : b = k := List.mem_singleton.1 hb
      rwa [← hbk, ← hab]⟩
  else t

/-- A row with a new key, or else a change of the row with that key. -/
def upsert (t : Keyed K V) (k : K) (v : V) (f : V → V) : Keyed K V :=
  if t.find k = none then t.insertNew k v else t.modify k f

/-- The rows with other keys. -/
def removeIf (t : Keyed K V) (p : K → Bool) : Keyed K V where
  rows := t.rows.filter fun row => !p row.1
  nodup := t.nodup.sublist (List.filter_sublist.map Prod.fst)

/-- How many rows satisfy a condition. -/
def count (t : Keyed K V) (p : K × V → Bool) : Nat :=
  t.rows.countP p

/-- Every row of the second table is one of the first. -/
def Includes (t' t : Keyed K V) : Prop :=
  ∀ k v, t.find k = some v → t'.find k = some v

theorem Includes.refl (t : Keyed K V) : t.Includes t := fun _ _ h => h

variable {t : Keyed K V} {k k' : K} {v : V} {f : V → V} {p : K × V → Bool}

@[simp] theorem find_empty : (empty : Keyed K V).find k = none := rfl

theorem insertNew_of_some (h : t.find k = some v) {w : V} : t.insertNew k w = t := by
  simp [insertNew, h]

theorem rows_insertNew (h : t.find k = none) : (t.insertNew k v).rows = t.rows ++ [(k, v)] := by
  simp [insertNew, h]

theorem find_insertNew : (t.insertNew k v).find k' = if k' = k ∧ t.find k = none then some v else t.find k' := by
  by_cases h : t.find k = none
  · rw [find, rows_insertNew h, List.find?_append]
    by_cases hk : k' = k
    · subst hk
      have hnone : t.rows.find? (fun row => decide (row.1 = k')) = none := by simpa [find] using h
      simp [hnone, h]
    · simp [hk, find, Ne.symm hk]
  · simp [insertNew, h]

theorem find_modify : (t.modify k f).find k' = if k' = k then (t.find k').map f else t.find k' := by
  have hkey : ((fun row : K × V => decide (row.1 = k')) ∘
      fun row : K × V => if row.1 = k then (row.1, f row.2) else row) = fun row => decide (row.1 = k') := by
    funext row
    simp only [Function.comp_apply]
    split <;> rfl
  rw [find, modify, List.find?_map, hkey, find]
  cases hrow : t.rows.find? fun row => decide (row.1 = k') with
  | none => simp
  | some row =>
    have hk := List.find?_some hrow
    simp only [decide_eq_true_eq] at hk
    by_cases hkk : k' = k <;> simp [hk, hkk]

theorem find_upsert : (t.upsert k v f).find k' =
    if k' = k then some (((t.find k).map f).getD v) else t.find k' := by
  unfold upsert
  split
  · rename_i h
    rw [find_insertNew]
    by_cases hk : k' = k <;> simp [hk, h]
  · rename_i h
    rw [find_modify]
    obtain ⟨w, hw⟩ := Option.ne_none_iff_exists'.1 h
    by_cases hk : k' = k <;> simp [hk, hw]

theorem find_removeIf {p : K → Bool} : (t.removeIf p).find k = if p k then none else t.find k := by
  unfold find removeIf
  rw [List.find?_filter]
  by_cases hp : p k = true
  · rw [if_pos hp, Option.map_eq_none_iff, List.find?_eq_none]
    intro row _ hrow
    obtain ⟨hrow, heq⟩ : p row.1 = false ∧ row.1 = k := by simpa using hrow
    rw [heq, hp] at hrow
    cases hrow
  · rw [if_neg hp]
    congr 2
    funext row
    by_cases heq : row.1 = k
    · simp [heq, hp]
    · simp [heq]

omit [DecidableEq K] in
theorem removeIf_removeIf (p q : K → Bool) : (t.removeIf p).removeIf q = t.removeIf fun k => p k || q k := by
  ext1
  simp only [removeIf, List.filter_filter, Bool.not_or, Bool.and_comm]

theorem removeIf_eq_self {p : K → Bool} (h : ∀ k, p k = true → t.find k = none) : t.removeIf p = t := by
  ext1
  refine List.filter_eq_self.2 fun row hrow => ?_
  cases hp : p row.1 with
  | false => rfl
  | true => exact absurd (List.mem_map_of_mem hrow) (find_eq_none.1 (h row.1 hp))

theorem count_insertNew :
    (t.insertNew k v).count p = t.count p + if t.find k = none ∧ p (k, v) = true then 1 else 0 := by
  by_cases h : t.find k = none
  · rw [count, rows_insertNew h, List.countP_append, count, List.countP_singleton]
    simp [h]
  · simp [insertNew, h]

theorem mem_of_find (h : t.find k = some v) : (k, v) ∈ t.rows := by
  obtain ⟨row, hrow, rfl⟩ := Option.map_eq_some_iff.1 h
  have hk := List.find?_some hrow
  simp only [decide_eq_true_eq] at hk
  exact hk ▸ List.mem_of_find?_eq_some hrow

theorem find_of_mem (h : (k, v) ∈ t.rows) : t.find k = some v := by
  have hfind (rows : List (K × V)) (hn : (rows.map Prod.fst).Nodup) (h : (k, v) ∈ rows) :
      rows.find? (fun row => decide (row.1 = k)) = some (k, v) := by
    induction rows with
    | nil => cases h
    | cons row rows ih =>
      obtain ⟨hnot, hn⟩ := List.nodup_cons.1 hn
      obtain rfl | h := List.mem_cons.1 h
      · simp
      · have hne : row.1 ≠ k := by
          rintro rfl
          exact hnot (List.mem_map.2 ⟨_, h, rfl⟩)
        simp [hne, ih hn h]
  simp [find, hfind t.rows t.nodup h]

theorem mem_iff_find : (k, v) ∈ t.rows ↔ t.find k = some v :=
  ⟨find_of_mem, mem_of_find⟩

theorem filter_key_of_find (h : t.find k = some v) : t.rows.filter (fun row => row.1 = k) = [(k, v)] := by
  have hfilter (rows : List (K × V)) (hn : (rows.map Prod.fst).Nodup) (h : (k, v) ∈ rows) :
      rows.filter (fun row => decide (row.1 = k)) = [(k, v)] := by
    induction rows with
    | nil => cases h
    | cons row rows ih =>
      obtain ⟨hnot, hn⟩ := List.nodup_cons.1 hn
      obtain rfl | h := List.mem_cons.1 h
      · rw [List.filter_cons_of_pos (by simp), List.filter_eq_nil_iff.2]
        intro row' hrow'
        have hne : row'.1 ≠ k := fun hk => hnot (List.mem_map.2 ⟨row', hrow', hk⟩)
        simpa using hne
      · have hne : row.1 ≠ k := by
          rintro rfl
          exact hnot (List.mem_map.2 ⟨_, h, rfl⟩)
        rw [List.filter_cons_of_neg (by simpa using hne), ih hn h]
  exact hfilter t.rows t.nodup (mem_of_find h)

theorem rows_foldl_upsert {α : Type} (key : α → K) (val : α → V) (l : List α) (t : Keyed K V)
    (hn : (l.map key).Nodup) (hnew : ∀ a ∈ l, t.find (key a) = none) :
    (l.foldl (fun t a => t.upsert (key a) (val a) fun _ => val a) t).rows =
      t.rows ++ l.map fun a => (key a, val a) := by
  induction l generalizing t with
  | nil => rw [List.foldl_nil, List.map_nil, List.append_nil]
  | cons a l ih =>
    rw [List.map_cons, List.nodup_cons] at hn
    obtain ⟨ha, hl⟩ := List.forall_mem_cons.1 hnew
    have hrows : (t.upsert (key a) (val a) fun _ => val a).rows = t.rows ++ [(key a, val a)] := by
      rw [upsert, if_pos ha, rows_insertNew ha]
    rw [List.foldl_cons, ih _ hn.2, hrows, List.append_assoc, List.map_cons, List.singleton_append]
    intro a' ha'
    have hne : key a' ≠ key a := fun heq => hn.1 (heq ▸ List.mem_map_of_mem ha')
    rw [find_upsert, if_neg hne, hl a' ha']

end Keyed

end AuditGateway.Framework
