import Mathlib.Tactic.Common

/-!
# Computations with a state that may raise

`Effectful ε σ α` changes a state as it goes and may end with an exception; what it has
changed by then stays. `Keeps P x` says that `x` keeps `P`, however it ends, and `Gives P x Q`
what holds of the result and the state if `x` returns; `Returns P x Q` says in addition that
it does, and `Ensures P x Q` is about both ways to end. The rules follow the way a computation is
put together, as those of `Yields` do.

* `Keeps.bind`, `Keeps.mapM`, `Keeps.forM`: what every part of a computation keeps, the whole keeps.
* `Gives.bind`, `Returns.bind`, `Ensures.bind`, `Ensures.seq`: one computation after another.
-/

namespace AuditGateway.Framework

/-- A computation that changes a state and may raise. -/
abbrev Effectful (ε σ : Type) := ExceptT ε (StateM σ)

namespace Effectful

variable {ε σ α β : Type}

/-- How a computation ends, and the state it leaves. -/
def outcome (x : Effectful ε σ α) (s : σ) : Except ε α × σ :=
  (ExceptT.run x).run s

@[simp] theorem outcome_pure (a : α) (s : σ) : outcome (pure a : Effectful ε σ α) s = (.ok a, s) := rfl

@[simp] theorem outcome_throw (e : ε) (s : σ) : outcome (throw e : Effectful ε σ α) s = (.error e, s) := rfl

@[simp] theorem outcome_get (s : σ) : outcome (get : Effectful ε σ σ) s = (.ok s, s) := rfl

@[simp] theorem outcome_modify (f : σ → σ) (s : σ) :
    outcome (modify f : Effectful ε σ Unit) s = (.ok (), f s) := rfl

theorem outcome_bind (x : Effectful ε σ α) (f : α → Effectful ε σ β) (s : σ) :
    outcome (x >>= f) s =
      match outcome x s with
      | (.ok a, s') => outcome (f a) s'
      | (.error e, s') => (.error e, s') := by
  show (ExceptT.bindCont f (outcome x s).1).run (outcome x s).2 = _
  obtain ⟨_ | _, s'⟩ := outcome x s <;> rfl

variable {x : Effectful ε σ α} {f : α → Effectful ε σ β}

theorem outcome_bind_eq_ok {s s' : σ} {b : β} :
    outcome (x >>= f) s = (.ok b, s') ↔ ∃ a s₁, outcome x s = (.ok a, s₁) ∧ outcome (f a) s₁ = (.ok b, s') := by
  rw [outcome_bind]
  obtain ⟨_ | a, s₁⟩ := outcome x s <;> simp

theorem outcome_ofExcept (x : Except ε α) (s : σ) :
    outcome (MonadExcept.ofExcept x : Effectful ε σ α) s = (x, s) := by
  cases x <;> rfl

theorem outcome_tryCatch (x : Effectful ε σ α) (handle : ε → Effectful ε σ α) (s : σ) :
    outcome (tryCatch x handle) s =
      match outcome x s with
      | (.ok a, s') => (.ok a, s')
      | (.error e, s') => outcome (handle e) s' := by
  show StateT.run (match (outcome x s).1 with
    | .ok a => pure (.ok a)
    | .error e => ExceptT.run (handle e)) (outcome x s).2 = _
  obtain ⟨_ | _, s'⟩ := outcome x s <;> rfl

/-- The computation keeps `P`, however it ends. -/
def Keeps (P : σ → Prop) (x : Effectful ε σ α) : Prop :=
  ∀ s, P s → P (outcome x s).2

/-- If the computation returns, the result and the state satisfy `Q`. -/
def Gives (P : σ → Prop) (x : Effectful ε σ α) (Q : α → σ → Prop) : Prop :=
  ∀ s, P s → ∀ a s', outcome x s = (.ok a, s') → Q a s'

variable {P : σ → Prop}

namespace Keeps

theorem pure (a : α) : Keeps P (Pure.pure a : Effectful ε σ α) := fun _ h => h

theorem throw (e : ε) : Keeps P (MonadExcept.throw e : Effectful ε σ α) := fun _ h => h

theorem get : Keeps P (MonadState.get : Effectful ε σ σ) := fun _ h => h

theorem update {f : σ → σ} (hf : ∀ s, P s → P (f s)) : Keeps P (modify f : Effectful ε σ Unit) := hf

theorem ofExcept (x : Except ε α) : Keeps P (MonadExcept.ofExcept x : Effectful ε σ α) := by
  intro s h
  rwa [outcome_ofExcept]

theorem bind (hx : Keeps P x) (hf : ∀ a, Keeps P (f a)) :
    Keeps P (x >>= f) := by
  intro s h
  have hs := hx s h
  rw [outcome_bind]
  cases hr : outcome x s with
  | mk r s' =>
    rw [hr] at hs
    cases r with
    | error e => exact hs
    | ok a => exact hf a s' hs

theorem get_bind {f : σ → Effectful ε σ β} (hf : ∀ s, P s → Keeps P (f s)) : Keeps P (MonadState.get >>= f) := by
  intro s h
  rw [outcome_bind]
  exact hf s h s h

theorem mapM {l : List α} (h : ∀ a ∈ l, Keeps P (f a)) : Keeps P (l.mapM f) := by
  induction l with
  | nil => exact Keeps.pure _
  | cons a l ih =>
    rw [List.mapM_cons]
    exact (h a List.mem_cons_self).bind fun _ =>
      (ih fun b hb => h b (List.mem_cons_of_mem _ hb)).bind fun _ => Keeps.pure _

theorem forM {f : α → Effectful ε σ Unit} {l : List α} (h : ∀ a ∈ l, Keeps P (f a)) : Keeps P (l.forM f) := by
  induction l with
  | nil => exact Keeps.pure _
  | cons a l ih =>
    exact (h a List.mem_cons_self).bind fun _ => ih fun b hb => h b (List.mem_cons_of_mem _ hb)

end Keeps

namespace Gives

variable {Q : α → σ → Prop} {R : β → σ → Prop}

theorem pure {a : α} (h : ∀ s, P s → Q a s) : Gives P (Pure.pure a : Effectful ε σ α) Q := by
  rintro s hs b s' heq
  cases heq
  exact h s hs

theorem throw (e : ε) : Gives P (MonadExcept.throw e : Effectful ε σ α) Q := by
  intro s _ b s' heq
  cases heq

theorem ofExcept {x : Except ε α} : Gives P (MonadExcept.ofExcept x : Effectful ε σ α) fun a s => x = .ok a ∧ P s := by
  intro s hs a s' heq
  rw [outcome_ofExcept] at heq
  cases heq
  exact ⟨rfl, hs⟩

theorem get : Gives P (MonadState.get : Effectful ε σ σ) fun a s => a = s ∧ P s := by
  intro s hs a s' heq
  cases heq
  exact ⟨rfl, hs⟩

theorem update {f : σ → σ} {Q : Unit → σ → Prop} (hf : ∀ s, P s → Q () (f s)) :
    Gives P (modify f : Effectful ε σ Unit) Q := by
  intro s hs a s' heq
  cases heq
  exact hf s hs

theorem of_fact {p : Prop} (h : p → Gives P x Q) : Gives (fun s => p ∧ P s) x Q :=
  fun s hs => h hs.1 s hs.2

theorem of_keeps (h : Keeps P x) : Gives P x fun _ => P := by
  intro s hs a s' heq
  have hP := h s hs
  rwa [heq] at hP

theorem bind (hx : Gives P x Q) (hf : ∀ a, Gives (Q a) (f a) R) :
    Gives P (x >>= f) R := by
  intro s hs b s' heq
  obtain ⟨a, s₁, hxa, hfb⟩ := outcome_bind_eq_ok.1 heq
  exact hf a s₁ (hx s hs a s₁ hxa) b s' hfb

end Gives

/-- The computation returns, and the result and the state satisfy `Q`. -/
def Returns (P : σ → Prop) (x : Effectful ε σ α) (Q : α → σ → Prop) : Prop :=
  ∀ s, P s → ∃ a s', outcome x s = (.ok a, s') ∧ Q a s'

/-- However the computation ends, its end and the state it leaves satisfy `Q`. -/
def Ensures (P : σ → Prop) (x : Effectful ε σ α) (Q : Except ε α → σ → Prop) : Prop :=
  ∀ s, P s → Q (outcome x s).1 (outcome x s).2

namespace Returns

variable {Q Q' : α → σ → Prop} {R : β → σ → Prop} {P' : σ → Prop}

theorem pure {a : α} (h : ∀ s, P s → Q a s) : Returns P (Pure.pure a : Effectful ε σ α) Q :=
  fun s hs => ⟨a, s, rfl, h s hs⟩

theorem bind (hx : Returns P x Q)
    (hf : ∀ a, Returns (Q a) (f a) R) : Returns P (x >>= f) R := by
  intro s hs
  obtain ⟨a, s₁, hx', hq⟩ := hx s hs
  obtain ⟨b, s₂, hf', hr⟩ := hf a s₁ hq
  refine ⟨b, s₂, ?_, hr⟩
  rw [outcome_bind, hx']
  exact hf'

theorem weaken (h : Returns P x Q) (hP : ∀ s, P' s → P s) (hQ : ∀ a s, Q a s → Q' a s) :
    Returns P' x Q' := by
  intro s hs
  obtain ⟨a, s', hx, hq⟩ := h s (hP s hs)
  exact ⟨a, s', hx, hQ a s' hq⟩

end Returns

namespace Ensures

variable {Q : α → σ → Prop} {R : Except ε β → σ → Prop}

theorem of_returns {R : Except ε α → σ → Prop} (hx : Returns P x Q)
    (h : ∀ a s, Q a s → R (.ok a) s) : Ensures P x R := by
  intro s hs
  obtain ⟨a, s', hx', hq⟩ := hx s hs
  rw [hx']
  exact h a s' hq

theorem seq {Q : Except ε α → σ → Prop} (hx : Ensures P x Q)
    (hf : ∀ a, Ensures (Q (.ok a)) (f a) R) (he : ∀ e s, Q (.error e) s → R (.error e) s) :
    Ensures P (x >>= f) R := by
  intro s hs
  have hq := hx s hs
  rw [outcome_bind]
  cases hr : outcome x s with
  | mk r s' =>
    rw [hr] at hq
    cases r with
    | error e => exact he e s' hq
    | ok a => exact hf a s' hq

theorem bind (hx : Returns P x Q)
    (hf : ∀ a, Ensures (Q a) (f a) R) : Ensures P (x >>= f) R := by
  intro s hs
  obtain ⟨a, s', hx', hq⟩ := hx s hs
  rw [outcome_bind, hx']
  exact hf a s' hq

end Ensures

end Effectful

end AuditGateway.Framework
