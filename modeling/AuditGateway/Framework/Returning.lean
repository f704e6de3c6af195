import AuditGateway.Framework.Effects

/-!
# What a computation may return

A program that is written for any monad with exceptions has one proof for all of them about what it returns.
`Returning` says what such a proof needs of a monad: how a value that is returned comes about.

* `mapM_inv`: the results of a loop, one for each element.
-/

namespace AuditGateway.Framework

variable {ε σ α β : Type}

/-- The values that a computation may return, and how they come about. -/
class Returning (ε : outParam Type) (m : Type → Type) [Monad m] [MonadExceptOf ε m] where
  MayReturn {α : Type} (x : m α) (a : α) : Prop
  pure_inv {α : Type} {a b : α} : MayReturn (pure a) b → b = a
  bind_inv {α β : Type} {x : m α} {f : α → m β} {b : β} : MayReturn (x >>= f) b → ∃ a, MayReturn x a ∧ MayReturn (f a) b
  ofExcept_inv {α : Type} {x : Except ε α} {a : α} : MayReturn (MonadExcept.ofExcept x : m α) a → x = .ok a

export Returning (MayReturn)

instance : Returning ε (Except ε) where
  MayReturn x a := x = .ok a
  pure_inv h := (Except.ok.inj h).symm
  bind_inv {_ _ x f b} h := by
    cases x with
    | error e => cases h
    | ok a => exact ⟨a, rfl, h⟩
  ofExcept_inv {_ x a} h := by cases x <;> exact h

/-- From some state. -/
instance : Returning ε (Effectful ε σ) where
  MayReturn x a := ∃ s s', Effectful.outcome x s = (.ok a, s')
  pure_inv := by
    rintro _ a b ⟨s, s', h⟩
    cases h
    rfl
  bind_inv := by
    rintro _ _ x f b ⟨s, s', h⟩
    rw [Effectful.outcome_bind] at h
    cases hx : Effectful.outcome x s with
    | mk r t =>
      rw [hx] at h
      cases r with
      | error e => cases h
      | ok a => exact ⟨a, ⟨s, t, hx⟩, ⟨t, s', h⟩⟩
  ofExcept_inv := by
    rintro _ x a ⟨s, s', h⟩
    rw [Effectful.outcome_ofExcept] at h
    exact congrArg Prod.fst h

namespace Returning

variable {m : Type → Type} [Monad m] [LawfulMonad m] [MonadExceptOf ε m] [Returning ε m]

theorem mapM_inv {f : α → m β} {l : List α} {bs : List β} (h : MayReturn (l.mapM f) bs) :
    List.Forall₂ (fun a b => MayReturn (f a) b) l bs := by
  induction l generalizing bs with
  | nil =>
    rw [List.mapM_nil] at h
    rw [pure_inv h]
    exact .nil
  | cons a l ih =>
    rw [List.mapM_cons] at h
    obtain ⟨b, hb, h⟩ := bind_inv h
    obtain ⟨bs', hbs', h⟩ := bind_inv h
    rw [pure_inv h]
    exact .cons hb (ih hbs')

end Returning

end AuditGateway.Framework
