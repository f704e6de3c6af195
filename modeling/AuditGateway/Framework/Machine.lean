import Mathlib.Data.List.Basic

/-!
# Machines that answer

A machine takes an input in a state, gives an output and goes to another state. `outputs` are its
answers to a sequence of inputs.

* `outputs_eq_append`: an output among the others is that of a state that the inputs before it lead to.
* `filter_outputs`: a machine that is made of others answers as the one that an input is for.
-/

namespace AuditGateway.Framework.Machine

variable {σ τ α β : Type}

section

variable (step : σ → α → β × σ)

/-- The state after a sequence of inputs. -/
def after (s : σ) (inputs : List α) : σ := inputs.foldl (fun s a => (step s a).2) s

def outputs (s : σ) : List α → List β
  | [] => []
  | a :: inputs => (step s a).1 :: outputs (step s a).2 inputs

end

variable {step : σ → α → β × σ} {part : τ → α → β × τ}

theorem after_append (s : σ) (inputs : List α) (a : α) :
    after step s (inputs ++ [a]) = (step (after step s inputs) a).2 := by
  simp [after]

theorem after_induct {P : σ → Prop} {s : σ} (hs : P s) (hstep : ∀ s a, P s → P (step s a).2) (inputs : List α) :
    P (after step s inputs) := by
  induction inputs generalizing s with
  | nil => exact hs
  | cons a inputs ih => exact ih (hstep s a hs)

theorem outputs_append (s : σ) (inputs more : List α) :
    outputs step s (inputs ++ more) = outputs step s inputs ++ outputs step (after step s inputs) more := by
  induction inputs generalizing s with
  | nil => rfl
  | cons a inputs ih => exact congrArg _ (ih (step s a).2)

theorem mem_outputs {s : σ} {inputs : List α} {b : β} (h : b ∈ outputs step s inputs) :
    ∃ s', ∃ a ∈ inputs, b = (step s' a).1 := by
  induction inputs generalizing s with
  | nil => cases h
  | cons a inputs ih =>
    obtain rfl | h := List.mem_cons.1 h
    · exact ⟨s, a, List.mem_cons_self, rfl⟩
    · obtain ⟨s', a', ha', hb⟩ := ih h
      exact ⟨s', a', List.mem_cons_of_mem _ ha', hb⟩

theorem outputs_eq_append {s : σ} {inputs : List α} {before rest : List β}
    (h : outputs step s inputs = before ++ rest) :
    ∃ first more, inputs = first ++ more ∧ outputs step s first = before ∧
      outputs step (after step s first) more = rest := by
  induction before generalizing s inputs with
  | nil => exact ⟨[], inputs, rfl, rfl, h⟩
  | cons b before ih =>
    cases inputs with
    | nil => cases h
    | cons a inputs =>
      obtain ⟨hb, h⟩ := List.cons.inj h
      obtain ⟨first, more, rfl, hfirst, hmore⟩ := ih h
      exact ⟨a :: first, more, rfl, by rw [outputs, hb, hfirst], hmore⟩

theorem filter_outputs (I : σ → Prop) (view : σ → τ) (p : α → Bool) (q : β → Bool)
    (hkeep : ∀ s a, I s → I (step s a).2)
    (hpart : ∀ s a, I s → p a = true →
      (step s a).1 = (part (view s) a).1 ∧ view (step s a).2 = (part (view s) a).2)
    (hother : ∀ s a, I s → p a = false → view (step s a).2 = view s) (hq : ∀ s a, q (step s a).1 = p a) {s : σ}
    (hs : I s) (inputs : List α) :
    (outputs step s inputs).filter q = outputs part (view s) (inputs.filter p) := by
  induction inputs generalizing s with
  | nil => rfl
  | cons a inputs ih =>
    rw [outputs, List.filter_cons, List.filter_cons, hq, ih (hkeep s a hs)]
    cases hp : p a with
    | false =>
      rw [hother s a hs hp]
      rfl
    | true =>
      rw [(hpart s a hs hp).2, (hpart s a hs hp).1]
      rfl

end AuditGateway.Framework.Machine
