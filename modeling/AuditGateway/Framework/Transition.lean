import Mathlib.Logic.Relation

/-!
# Transition systems given by a step function

A system is a set of initial states and a partial step function of the action
taken. `ReachableBy ok` is what runs reach whose steps all satisfy `ok`
(`Reachable` puts no condition on them), and `Leads ok s s'` says that such a
run goes from `s` on to `s'`.

* `ReachableBy.induct`: an invariant of the steps holds in every state reached;
  its step may use that the state before is reachable.
* `Leads.induct`: what the steps keep from a state on holds ever after.
* `always_iff_allSteps`: a property that a step keeps exactly under a condition holds
  throughout a run exactly when all its steps meet the condition.
* `reachable_run`, `leads_run`, `leads_runBy`: what a list of actions computes is reached.
-/

namespace AuditGateway.Framework

/-- Where a system may start, and the state, if any, that an action leads to. -/
structure TransitionSystem (σ α : Type) where
  init : σ → Prop
  step : σ → α → Option σ

namespace TransitionSystem

variable {σ α : Type} (S : TransitionSystem σ α)

/-- The states that runs reach all of whose steps satisfy `ok`. -/
inductive ReachableBy (ok : σ → α → Prop) : σ → Prop
  | init {s : σ} : S.init s → ReachableBy ok s
  | step {s : σ} {a : α} {s' : σ} :
      ReachableBy ok s → ok s a → S.step s a = some s' → ReachableBy ok s'

/-- The states that any run reaches. -/
abbrev Reachable : σ → Prop :=
  S.ReachableBy fun _ _ => True

/-- A run all of whose steps satisfy `ok` goes from the first state to the second. -/
def Leads (ok : σ → α → Prop) : σ → σ → Prop :=
  Relation.ReflTransGen fun s s' => ∃ a, ok s a ∧ S.step s a = some s'

/-- The state after the actions of a list, if each of them is possible. -/
def run (s : σ) : List α → Option σ
  | [] => some s
  | a :: as => (S.step s a).bind fun s' => run s' as

/-- The same, as long as each of the steps satisfies `ok`. -/
def runBy (ok : σ → α → Prop) [∀ s a, Decidable (ok s a)] (s : σ) : List α → Option σ
  | [] => some s
  | a :: as => if ok s a then (S.step s a).bind fun s' => runBy ok s' as else none

/-- `p` holds in every state of a run, which ends where an action is not possible. -/
def Always (p : σ → Prop) (s : σ) : List α → Prop
  | [] => p s
  | a :: as => p s ∧ ∀ s', S.step s a = some s' → Always p s' as

/-- Every step of a run satisfies `ok`. -/
def AllSteps (ok : σ → α → Prop) (s : σ) : List α → Prop
  | [] => True
  | a :: as => ∀ s', S.step s a = some s' → ok s a ∧ AllSteps ok s' as

variable {S} {ok : σ → α → Prop} {s s' : σ}

theorem ReachableBy.induct {P : σ → Prop} (hinit : ∀ s, S.init s → P s)
    (hstep : ∀ s a s', S.ReachableBy ok s → P s → ok s a → S.step s a = some s' → P s')
    (hs : S.ReachableBy ok s) : P s := by
  induction hs with
  | init hi => exact hinit _ hi
  | step hr ha hs ih => exact hstep _ _ _ hr ih ha hs

theorem ReachableBy.leads (hs : S.ReachableBy ok s) (h : S.Leads ok s s') :
    S.ReachableBy ok s' := by
  induction h with
  | refl => exact hs
  | tail _ hstep ih =>
    obtain ⟨a, ha, hstep⟩ := hstep
    exact .step ih ha hstep

theorem Leads.induct {P : σ → Prop} (hs : S.ReachableBy ok s)
    (hstep : ∀ s a s', S.ReachableBy ok s → P s → ok s a → S.step s a = some s' → P s')
    (h : S.Leads ok s s') (hP : P s) : P s' := by
  induction h with
  | refl => exact hP
  | tail hl hst ih =>
    obtain ⟨a, ha, hst⟩ := hst
    exact hstep _ _ _ (hs.leads hl) ih ha hst

variable {as : List α}

theorem run_induct {P : σ → Prop}
    (hstep : ∀ s a s', a ∈ as → S.ReachableBy ok s → P s → ok s a → S.step s a = some s' → P s')
    (hok : ∀ s a, ok s a) (hs : S.ReachableBy ok s) (hP : P s) (h : S.run s as = some s') : P s' := by
  induction as generalizing s with
  | nil =>
    obtain rfl : s = s' := Option.some.inj h
    exact hP
  | cons a as ih =>
    obtain ⟨s₁, hs₁, hrest⟩ := Option.bind_eq_some_iff.1 h
    refine ih (fun s b s' hb => hstep s b s' (List.mem_cons_of_mem _ hb)) (.step hs (hok _ _) hs₁) ?_ hrest
    exact hstep _ _ _ List.mem_cons_self hs hP (hok _ _) hs₁

theorem run_append {bs : List α} (h : S.run s as = some s') : S.run s (as ++ bs) = S.run s' bs := by
  induction as generalizing s with
  | nil =>
    obtain rfl : s = s' := Option.some.inj h
    rfl
  | cons a as ih =>
    obtain ⟨s₁, hstep, hrest⟩ := Option.bind_eq_some_iff.1 h
    rw [List.cons_append, run, hstep, Option.bind_some, ih hrest]

theorem leads_run (h : S.run s as = some s') : S.Leads (fun _ _ => True) s s' := by
  induction as generalizing s with
  | nil =>
    obtain rfl : s = s' := Option.some.inj h
    exact .refl
  | cons a as ih =>
    obtain ⟨s₁, hstep, hrest⟩ := Option.bind_eq_some_iff.1 h
    exact .head ⟨a, trivial, hstep⟩ (ih hrest)

theorem leads_runBy [∀ s a, Decidable (ok s a)] (h : S.runBy ok s as = some s') :
    S.Leads ok s s' := by
  induction as generalizing s with
  | nil =>
    obtain rfl : s = s' := Option.some.inj h
    exact .refl
  | cons a as ih =>
    rw [runBy] at h
    split at h
    · rename_i ha
      obtain ⟨s₁, hstep, hrest⟩ := Option.bind_eq_some_iff.1 h
      exact .head ⟨a, ha, hstep⟩ (ih hrest)
    · cases h

theorem run_of_runBy [∀ s a, Decidable (ok s a)] (h : S.runBy ok s as = some s') :
    S.run s as = some s' := by
  induction as generalizing s with
  | nil => exact h
  | cons a as ih =>
    rw [runBy] at h
    split at h
    · obtain ⟨s₁, hstep, hrest⟩ := Option.bind_eq_some_iff.1 h
      exact Option.bind_eq_some_iff.2 ⟨s₁, hstep, ih hrest⟩
    · cases h

theorem reachable_run (hi : S.init s) (h : S.run s as = some s') : S.Reachable s' :=
  (ReachableBy.init hi).leads (leads_run h)

theorem Always.head {p : σ → Prop} (h : S.Always p s as) : p s := by
  cases as with
  | nil => exact h
  | cons a as => exact h.1

theorem always_iff_allSteps {p : σ → Prop}
    (hstep : ∀ s a s', p s → S.step s a = some s' → (p s' ↔ ok s a)) (hs : p s) (as : List α) :
    S.Always p s as ↔ S.AllSteps ok s as := by
  induction as generalizing s with
  | nil => exact iff_of_true hs trivial
  | cons a as ih =>
    rw [Always, AllSteps, and_iff_right hs]
    refine forall_congr' fun s' => forall_congr' fun ha => ?_
    have hiff := hstep s a s' hs ha
    constructor
    · intro h
      exact ⟨hiff.1 h.head, (ih h.head).1 h⟩
    · rintro ⟨hok, h⟩
      exact (ih (hiff.2 hok)).2 h

end TransitionSystem

end AuditGateway.Framework
