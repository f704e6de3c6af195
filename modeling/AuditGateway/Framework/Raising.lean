import Mathlib.Tactic.ByContra

/-!
# Computations that may raise

What a computation in `Except` needs and gives: `Yields x P a` says that `x` returns
`a` if `P` holds, and raises otherwise. The rules below follow the way the
computation is put together, so that each function has one lemma of this form, and
its callers use that lemma instead of its definition.

* `Yields.bind`: one computation after another.
* `Yields.mapM`, `Yields.foldlM`: loops.
* `Yields.returns_iff`: a computation returns if and only if what it needs holds.
* `RaisesOnly.bind_iff`: when all exceptions of one computation after another are expected.
-/

namespace AuditGateway.Framework

variable {ε α β σ : Type}

/-- The computation returns `a` if `P` holds, and raises otherwise. -/
structure Yields (x : Except ε α) (P : Prop) (a : α) : Prop where
  ok : P → x = .ok a
  error : ¬ P → ∃ e, x = .error e

variable {f : α → Except ε β}

namespace Yields

variable {x y : Except ε α} {P Q : Prop} {a b : α}

theorem pure (a : α) : Yields (.ok a : Except ε α) True a :=
  ⟨fun _ => rfl, fun h => absurd trivial h⟩

theorem throw (e : ε) (a : α) : Yields (.error e : Except ε α) False a :=
  ⟨False.elim, fun _ => ⟨e, rfl⟩⟩

theorem self (x : Except ε α) (a : α) : Yields x (∃ b, x = .ok b) (x.toOption.getD a) := by
  cases x with
  | ok b => exact ⟨fun _ => rfl, fun h => absurd ⟨b, rfl⟩ h⟩
  | error e => exact ⟨fun ⟨_, hb⟩ => (nomatch hb), fun _ => ⟨e, rfl⟩⟩

theorem congr (h : Yields x P a) (hP : P ↔ Q) (ha : Q → a = b) : Yields x Q b :=
  ⟨fun hQ => ha hQ ▸ h.ok (hP.2 hQ), fun hQ => h.error fun hP' => hQ (hP.1 hP')⟩

theorem of_iff (h : Yields x P a) (hP : P ↔ Q) : Yields x Q a :=
  h.congr hP fun _ => rfl

theorem bind {c : β} (hx : Yields x P a) (hf : P → Yields (f a) Q c) :
    Yields (x >>= f) (P ∧ Q) c := by
  by_cases hP : P
  · rw [hx.ok hP]
    exact (hf hP).of_iff ⟨fun hQ => ⟨hP, hQ⟩, And.right⟩
  · refine ⟨fun h => absurd h.1 hP, fun _ => ?_⟩
    obtain ⟨e, he⟩ := hx.error hP
    exact ⟨e, by rw [he]; rfl⟩

theorem bind_pure {f : α → β} (hx : Yields x P a) : Yields (x >>= fun b => Pure.pure (f b)) P (f a) := by
  refine ⟨fun hP => by rw [hx.ok hP]; rfl, fun hP => ?_⟩
  obtain ⟨e, he⟩ := hx.error hP
  exact ⟨e, by rw [he]; rfl⟩

theorem guard [Decidable P] (e : ε) : Yields (if P then .ok () else .error e : Except ε Unit) P () :=
  ⟨fun h => if_pos h, fun h => ⟨e, if_neg h⟩⟩

theorem mapM {g : α → β} {R : α → Prop} {l : List α}
    (h : ∀ a ∈ l, Yields (f a) (R a) (g a)) : Yields (l.mapM f) (∀ a ∈ l, R a) (l.map g) := by
  induction l with
  | nil => exact (Yields.pure []).of_iff (by simp)
  | cons a l ih =>
    rw [List.mapM_cons, List.map_cons]
    have hl := ih fun b hb => h b (List.mem_cons_of_mem _ hb)
    refine ((h a List.mem_cons_self).bind fun _ => hl.bind_pure).of_iff ?_
    simp

theorem foldlM {f : σ → α → Except ε σ} {g : σ → α → σ} {R : α → Prop} {l : List α}
    (h : ∀ s, ∀ a ∈ l, Yields (f s a) (R a) (g s a)) (s : σ) :
    Yields (l.foldlM f s) (∀ a ∈ l, R a) (l.foldl g s) := by
  induction l generalizing s with
  | nil => exact (Yields.pure s).of_iff (by simp)
  | cons a l ih =>
    rw [List.foldlM_cons, List.foldl_cons]
    have hl := ih (fun s b hb => h s b (List.mem_cons_of_mem _ hb)) (g s a)
    refine ((h s a List.mem_cons_self).bind fun _ => hl).of_iff ?_
    simp

theorem returns_iff (h : Yields x P a) : (∃ b, x = .ok b) ↔ P := by
  constructor
  · rintro ⟨b, hb⟩
    by_contra hP
    obtain ⟨e, he⟩ := h.error hP
    rw [hb] at he
    cases he
  · exact fun hP => ⟨a, h.ok hP⟩

theorem eq_of_ok (h : Yields x P a) (hb : x = .ok b) : P ∧ b = a := by
  have hP := h.returns_iff.1 ⟨b, hb⟩
  rw [h.ok hP] at hb
  exact ⟨hP, (Except.ok.inj hb).symm⟩

end Yields

theorem bind_eq_ok_iff {x : Except ε α} {b : β} :
    x >>= f = .ok b ↔ ∃ a, x = .ok a ∧ f a = .ok b := by
  cases x with
  | error e => exact ⟨fun h => (nomatch h), fun ⟨_, h, _⟩ => (nomatch h)⟩
  | ok a => exact ⟨fun h => ⟨a, rfl, h⟩, fun ⟨_, ha, h⟩ => Except.ok.inj ha ▸ h⟩

/-! ## What may be raised -/

/-- Every exception that the computation can raise is one of `E`. -/
def RaisesOnly (E : ε → Prop) (x : Except ε α) : Prop :=
  ∀ e, x = .error e → E e

namespace RaisesOnly

variable {E : ε → Prop} {x : Except ε α}

@[simp] theorem ok_iff (a : α) : RaisesOnly E (.ok a) ↔ True :=
  ⟨fun _ => trivial, fun _ _ h => nomatch h⟩

@[simp] theorem error_iff (e : ε) : RaisesOnly E (.error e : Except ε α) ↔ E e :=
  ⟨fun h => h e rfl, fun h _ he => Except.error.inj he ▸ h⟩

theorem bind_iff :
    RaisesOnly E (x >>= f) ↔ RaisesOnly E x ∧ ∀ a, x = .ok a → RaisesOnly E (f a) := by
  cases x with
  | error e =>
    show RaisesOnly E (.error e : Except ε β) ↔ _
    simp
  | ok a =>
    show RaisesOnly E (f a) ↔ _
    simp

theorem bind_iff_and {Q : Prop} (hx : RaisesOnly E x → ∃ a, x = .ok a)
    (hf : ∀ a, x = .ok a → (RaisesOnly E (f a) ↔ Q)) : RaisesOnly E (x >>= f) ↔ RaisesOnly E x ∧ Q := by
  rw [bind_iff]
  constructor
  · rintro ⟨hraises, hall⟩
    obtain ⟨a, ha⟩ := hx hraises
    exact ⟨hraises, (hf a ha).1 (hall a ha)⟩
  · rintro ⟨hraises, hQ⟩
    exact ⟨hraises, fun a ha => (hf a ha).2 hQ⟩

end RaisesOnly

end AuditGateway.Framework
