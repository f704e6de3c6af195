import Mathlib.Tactic.Common

/-!
# A table with row locks

A table of a database at isolation level READ COMMITTED, seen row by row: the
committed value of each row and, for a row that some transaction has changed and
not yet committed, that transaction and the new value. A row carries at most one
uncommitted value, so the row lock is part of the data and not an invariant to
prove.
-/

namespace AuditGateway.Framework

/-- The committed rows, and the uncommitted new value of each row that a
transaction has changed. -/
structure Table (T K V : Type) where
  committed : K → V
  dirty : K → Option (T × V)

namespace Table

variable {T K V : Type}

section Operations

variable [DecidableEq T] [DecidableEq K]

/-- What transaction `t` sees of a row: its own change, else the committed value. -/
def view (tbl : Table T K V) (t : T) (k : K) : V :=
  match tbl.dirty k with
  | some (t', v) => if t' = t then v else tbl.committed k
  | none => tbl.committed k

/-- Transaction `t` may change row `k`: no other transaction has it locked. -/
def Free (tbl : Table T K V) (t : T) (k : K) : Prop :=
  match tbl.dirty k with
  | some (t', _) => t' = t
  | none => True

instance (tbl : Table T K V) (t : T) (k : K) : Decidable (tbl.Free t k) := by
  unfold Free
  split <;> infer_instance

/-- Writes an uncommitted value of the row `k`. -/
def write (tbl : Table T K V) (t : T) (k : K) (v : V) : Table T K V :=
  { tbl with dirty := Function.update tbl.dirty k (some (t, v)) }

/-- `UPDATE … WHERE` on the row `k`: `f` is the new value, if the row matches.
The Boolean is whether it did. `none` while the row matches and is locked. -/
def update (tbl : Table T K V) (t : T) (k : K) (f : V → Option V) : Option (Bool × Table T K V) :=
  match f (tbl.view t k) with
  | none => some (false, tbl)
  | some v => if tbl.Free t k then some (true, tbl.write t k v) else none

/-- Makes the changes of `t` visible. -/
def commit (tbl : Table T K V) (t : T) : Table T K V where
  committed k := tbl.view t k
  dirty k := match tbl.dirty k with
    | some (t', v) => if t' = t then none else some (t', v)
    | none => none

/-- Drops the changes of `t`. -/
def rollback (tbl : Table T K V) (t : T) : Table T K V where
  committed := tbl.committed
  dirty k := match tbl.dirty k with
    | some (t', v) => if t' = t then none else some (t', v)
    | none => none

/-- Changes the committed value of the row `k` in a transaction of its own. -/
def autocommit (tbl : Table T K V) (t : T) (k : K) (v : V) : Option (Table T K V) :=
  if tbl.Free t k then some { tbl with committed := Function.update tbl.committed k v } else none

end Operations

/-- The rows that `t` has changed and not committed are exactly those of `o`. -/
def Holds (tbl : Table T K V) (t : T) (o : Option (K × V)) : Prop :=
  ∀ k v, tbl.dirty k = some (t, v) ↔ o = some (k, v)

/-- A step of `t` from `tbl` to `tbl'` leaves the locked rows of the others alone. -/
structure Respects (t : T) (tbl tbl' : Table T K V) : Prop where
  dirty {u : T} (hu : u ≠ t) (k : K) (v : V) : tbl'.dirty k = some (u, v) ↔ tbl.dirty k = some (u, v)
  committed {u : T} (hu : u ≠ t) {k : K} {v : V} :
    tbl.dirty k = some (u, v) → tbl'.committed k = tbl.committed k

variable {tbl tbl' : Table T K V} {t u : T} {k : K} {v : V} {o : Option (K × V)}

/-! ## What a transaction holds -/

theorem Holds.dirty (h : tbl.Holds t (some (k, v))) : tbl.dirty k = some (t, v) :=
  (h k v).2 rfl

theorem Holds.not_dirty (h : tbl.Holds t none) (k : K) (v : V) : tbl.dirty k ≠ some (t, v) :=
  fun hd => nomatch (h k v).1 hd

theorem Holds.respects (h : tbl.Holds u o) (hr : Respects t tbl tbl') (hu : u ≠ t) :
    tbl'.Holds u o :=
  fun k v => (hr.dirty hu k v).trans (h k v)

theorem Holds.committed_respects (h : tbl.Holds u (some (k, v))) (hr : Respects t tbl tbl')
    (hu : u ≠ t) : tbl'.committed k = tbl.committed k :=
  hr.committed hu h.dirty

theorem Free.not_dirty (h : tbl.Free t k) (hu : u ≠ t) (v : V) : tbl.dirty k ≠ some (u, v) := by
  intro hd
  rw [Free, hd] at h
  exact hu h

theorem Respects.refl (t : T) (tbl : Table T K V) : Respects t tbl tbl :=
  ⟨fun _ _ _ => .rfl, fun _ _ _ _ => rfl⟩

variable [DecidableEq T]

theorem Holds.view_none (h : tbl.Holds t none) (k : K) : tbl.view t k = tbl.committed k := by
  unfold view
  split
  · rename_i t' v hd
    split
    · rename_i ht
      subst ht
      exact absurd hd (h.not_dirty k v)
    · rfl
  · rfl

theorem view_of_dirty_other (hu : u ≠ t) (hd : tbl.dirty k = some (u, v)) :
    tbl.view t k = tbl.committed k := by
  simp [view, hd, hu]

/-! ## The end of a transaction -/

theorem rollback_holds : (tbl.rollback t).Holds t none := by
  intro k v
  simp only [rollback, reduceCtorEq, iff_false]
  split
  · split
    · simp
    · rename_i ht
      simp [ht]
  · simp

theorem commit_holds : (tbl.commit t).Holds t none := by
  have h : (tbl.rollback t).Holds t none := rollback_holds
  exact h

theorem rollback_respects : Respects t tbl (tbl.rollback t) where
  dirty {u} hu k v := by
    simp only [rollback]
    split
    · rename_i t' v' hd
      by_cases ht : t' = t
      · simp [ht, hd, hu.symm]
      · simp [ht, hd]
    · rename_i hd
      simp [hd]
  committed _ _ _ _ := rfl

theorem commit_respects : Respects t tbl (tbl.commit t) where
  dirty := rollback_respects.dirty
  committed hu _ _ hd := view_of_dirty_other hu hd

theorem commit_committed_none (h : tbl.Holds t none) : (tbl.commit t).committed = tbl.committed :=
  funext h.view_none

theorem commit_committed_some [DecidableEq K] (h : tbl.Holds t (some (k, v))) :
    (tbl.commit t).committed = Function.update tbl.committed k v := by
  funext k'
  by_cases hk : k' = k
  · subst hk
    simp [commit, view, h.dirty]
  · rw [Function.update_of_ne hk]
    simp only [commit, view]
    split
    · rename_i t' v' hd
      split
      · rename_i ht
        subst ht
        have := (h k' v').1 hd
        simp only [Option.some.injEq, Prod.mk.injEq] at this
        exact absurd this.1.symm hk
      · rfl
    · rfl

/-! ## Statements -/

variable [DecidableEq K]

omit [DecidableEq T] in
theorem write_holds (hh : tbl.Holds t none) : (tbl.write t k v).Holds t (some (k, v)) := by
  intro k' v'
  by_cases hk : k' = k
  · subst hk
    simp [write]
  · simp only [write, Function.update_of_ne hk]
    constructor
    · intro h'
      exact absurd h' (hh.not_dirty k' v')
    · intro h'
      simp only [Option.some.injEq, Prod.mk.injEq] at h'
      exact absurd h'.1.symm hk

omit [DecidableEq T] in
theorem write_respects (hf : tbl.Free t k) : Respects t tbl (tbl.write t k v) where
  dirty {u} hu k' v' := by
    by_cases hk : k' = k
    · subst hk
      simp [write, hu.symm, hf.not_dirty hu v']
    · simp only [write, Function.update_of_ne hk]
  committed _ _ _ _ := rfl

variable {f : V → Option V} {b : Bool}

theorem update_cases (h : tbl.update t k f = some (b, tbl')) :
    (∃ v, f (tbl.view t k) = some v ∧ tbl.Free t k ∧ b = true ∧ tbl' = tbl.write t k v) ∨
      (f (tbl.view t k) = none ∧ b = false ∧ tbl' = tbl) := by
  unfold update at h
  split at h
  · rename_i hf
    obtain ⟨rfl, rfl⟩ : false = b ∧ tbl = tbl' := by simpa using h
    exact .inr ⟨hf, rfl, rfl⟩
  · rename_i v hf
    split at h <;> [skip; cases h]
    rename_i hfree
    obtain ⟨rfl, rfl⟩ : true = b ∧ tbl.write t k v = tbl' := by simpa using h
    exact .inl ⟨v, hf, hfree, rfl, rfl⟩

theorem update_committed (h : tbl.update t k f = some (b, tbl')) :
    tbl'.committed = tbl.committed := by
  obtain ⟨v, _, _, _, rfl⟩ | ⟨_, _, rfl⟩ := update_cases h <;> rfl

theorem update_respects (h : tbl.update t k f = some (b, tbl')) :
    Respects t tbl tbl' := by
  obtain ⟨v, _, hfree, _, rfl⟩ | ⟨_, _, rfl⟩ := update_cases h
  · exact write_respects hfree
  · exact .refl t _

theorem update_holds (hh : tbl.Holds t none)
    (h : tbl.update t k f = some (b, tbl')) :
    (∃ v, f (tbl.committed k) = some v ∧ b = true ∧ tbl'.Holds t (some (k, v))) ∨
      (f (tbl.committed k) = none ∧ b = false ∧ tbl' = tbl) := by
  have h' := update_cases h
  rw [hh.view_none] at h'
  obtain ⟨v, hf, _, hb, rfl⟩ | h' := h'
  · exact .inl ⟨v, hf, hb, write_holds hh⟩
  · exact .inr h'

theorem autocommit_eq_some (h : tbl.autocommit t k v = some tbl') :
    tbl.Free t k ∧ tbl' = { tbl with committed := Function.update tbl.committed k v } := by
  unfold autocommit at h
  split at h <;> [skip; cases h]
  rename_i hfree
  exact ⟨hfree, (Option.some.inj h).symm⟩

theorem autocommit_respects (h : tbl.autocommit t k v = some tbl') : Respects t tbl tbl' := by
  obtain ⟨hfree, rfl⟩ := autocommit_eq_some h
  refine ⟨fun _ _ _ => .rfl, fun hu k' v' hd => ?_⟩
  have hk : k' ≠ k := by
    rintro rfl
    exact hfree.not_dirty hu v' hd
  exact Function.update_of_ne hk _ _

end Table

end AuditGateway.Framework
