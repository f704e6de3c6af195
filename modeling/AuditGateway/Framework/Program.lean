import AuditGateway.Framework.Transition
import Mathlib.Tactic.Common

/-!
# Programs that share a world

`Prog Op Res α` is a program that performs operations and continues with their
answers; `Proc ε Op Ret α` is one whose operations can raise. A `Machine` says
what an operation does to the world, what the environment may do, and what a crash
leaves behind; `pool` is the system of any number of programs that run on it,
interleaved operation by operation.

The pool is defined for anything that can be observed one operation at a time
(`Code`): for a program itself (`progCode`), and for an automaton whose states
are its control points. `Code.Hom` is a map between the two that commutes with
the observation, and `Hom.reachable` carries reachability over: an invariant of
the automaton's pool is one of the program's pool.
-/

namespace AuditGateway.Framework

/-- A program that performs operations `Op`; the answer to `o` is a `Res o`. -/
inductive Prog (Op : Type) (Res : Op → Type) (α : Type) where
  | pure (a : α)
  | op (o : Op) (k : Res o → Prog Op Res α)

namespace Prog

variable {Op : Type} {Res : Op → Type} {α β : Type}

def bind : Prog Op Res α → (α → Prog Op Res β) → Prog Op Res β
  | pure a, f => f a
  | op o k, f => op o fun r => bind (k r) f

instance : Monad (Prog Op Res) where
  pure := Prog.pure
  bind := Prog.bind

/-- The operation a program performs next, with what it does after it. -/
def view : Prog Op Res α → Option ((o : Op) × (Res o → Prog Op Res α))
  | pure _ => none
  | op o k => some ⟨o, k⟩

/-- The value of a program that is done. -/
def result : Prog Op Res α → Option α
  | pure a => some a
  | op .. => none

end Prog

/-- A program whose operations answer with a value or raise an `ε`. -/
abbrev Proc (ε Op : Type) (Ret : Op → Type) : Type → Type :=
  ExceptT ε (Prog Op fun o => Except ε (Ret o))

/-- Performs one operation; what it raises is raised. -/
def Proc.call {ε Op : Type} {Ret : Op → Type} (o : Op) : Proc ε Op Ret (Ret o) :=
  ExceptT.mk (Prog.op o Prog.pure)

/-! ## Pools of programs -/

/-- The world that programs share: what an operation of thread `t` answers and
leaves (`none` while it has to wait), where `c` is what the environment decides
about it; what remains when `t` crashes; the environment's own steps; and what it
takes to start a thread. -/
structure Machine (W Op : Type) (Res : Op → Type) (Tid Choice Env Start Info : Type) where
  perform : Tid → (o : Op) → Choice → W → Option (Res o × W)
  crash : Tid → W → W
  env : Env → W → Option W
  start : Tid → Start → W → Option (Info × W)

/-- What can be observed one operation at a time. `boot i` is where a thread
started with `i` begins. -/
structure Code (Op : Type) (Res : Op → Type) (Info P : Type) where
  boot : Info → P
  view : Info → P → Option ((o : Op) × (Res o → P))

/-- A thread: what it was started with, and where it is (`none` after a crash). -/
structure Thread (Info P : Type) where
  info : Info
  state : Option P

/-- An operation that has been performed. -/
structure Event (Op : Type) (Res : Op → Type) (Tid Info : Type) where
  tid : Tid
  info : Info
  op : Op
  res : Res op

/-- A state of a pool: the world, the threads, and the operations so far. -/
structure Config (W Op : Type) (Res : Op → Type) (Tid Info P : Type) where
  world : W
  threads : Tid → Option (Thread Info P)
  history : List (Event Op Res Tid Info)

/-- A step of a pool. -/
inductive Action (Tid Choice Env Start : Type) where
  | exec (t : Tid) (c : Choice)
  | crash (t : Tid)
  | env (a : Env)
  | start (t : Tid) (s : Start)

section Pool

variable {W Op : Type} {Res : Op → Type} {Tid Choice Env Start Info P Q : Type} [DecidableEq Tid]

/-- The next operation of a live thread. -/
def Thread.next (C : Code Op Res Info P) (th : Thread Info P) : Option ((o : Op) × (Res o → P)) :=
  th.state.bind (C.view th.info)

/-- The operation that thread `t` performs next. -/
def Config.nextOp (C : Code Op Res Info P) (c : Config W Op Res Tid Info P) (t : Tid) : Option Op :=
  (c.threads t).bind fun th => (th.next C).map Sigma.fst

/-- Some thread still has an operation to perform. -/
def Config.InFlight (C : Code Op Res Info P) (c : Config W Op Res Tid Info P) (t : Tid) : Prop :=
  ∃ th, c.threads t = some th ∧ th.next C ≠ none

variable (M : Machine W Op Res Tid Choice Env Start Info) (C : Code Op Res Info P)

/-- Thread `t` performs its next operation. -/
def Config.exec (c : Config W Op Res Tid Info P) (t : Tid) (ch : Choice) :
    Option (Config W Op Res Tid Info P) := do
  let th ← c.threads t
  let ⟨o, k⟩ ← th.next C
  let (r, w) ← M.perform t o ch c.world
  return { world := w
           threads := Function.update c.threads t (some ⟨th.info, some (k r)⟩)
           history := c.history ++ [⟨t, th.info, o, r⟩] }

/-- Thread `t` stops where it is. -/
def Config.crash (c : Config W Op Res Tid Info P) (t : Tid) : Option (Config W Op Res Tid Info P) := do
  let th ← c.threads t
  return { c with world := M.crash t c.world
                  threads := Function.update c.threads t (some ⟨th.info, none⟩) }

def Config.env (c : Config W Op Res Tid Info P) (a : Env) : Option (Config W Op Res Tid Info P) :=
  (M.env a c.world).map fun w => { c with world := w }

/-- A new thread `t` starts. -/
def Config.start (c : Config W Op Res Tid Info P) (t : Tid) (s : Start) :
    Option (Config W Op Res Tid Info P) :=
  match c.threads t with
  | some _ => none
  | none => (M.start t s c.world).map fun x =>
      { c with world := x.2
               threads := Function.update c.threads t (some ⟨x.1, some (C.boot x.1)⟩) }

def Config.step (c : Config W Op Res Tid Info P) :
    Action Tid Choice Env Start → Option (Config W Op Res Tid Info P)
  | .exec t ch => c.exec M C t ch
  | .crash t => c.crash M t
  | .env a => c.env M a
  | .start t s => c.start M C t s

/-- Any number of threads, from a world that satisfies `init` and no thread yet. -/
def pool (init : W → Prop) :
    TransitionSystem (Config W Op Res Tid Info P) (Action Tid Choice Env Start) where
  init c := init c.world ∧ (c.threads = fun _ => none) ∧ c.history = []
  step c a := c.step M C a

variable {M C} {c c' : Config W Op Res Tid Info P}

theorem Config.exec_eq_some {t : Tid} {ch : Choice} (h : c.exec M C t ch = some c') :
    ∃ i p o k r w, c.threads t = some ⟨i, some p⟩ ∧ C.view i p = some ⟨o, k⟩ ∧
      M.perform t o ch c.world = some (r, w) ∧
      c' = { world := w
             threads := Function.update c.threads t (some ⟨i, some (k r)⟩)
             history := c.history ++ [⟨t, i, o, r⟩] } := by
  simp only [exec, Option.bind_eq_bind, Option.bind_eq_some_iff] at h
  obtain ⟨⟨i, p⟩, hth, ⟨o, k⟩, hn, ⟨r, w⟩, hp, hc⟩ := h
  cases p with
  | none => cases hn
  | some p => exact ⟨i, p, o, k, r, w, hth, hn, hp, (Option.some.inj hc).symm⟩

theorem Config.crash_eq_some {t : Tid} (h : c.crash M t = some c') :
    ∃ th, c.threads t = some th ∧
      c' = { c with world := M.crash t c.world
                    threads := Function.update c.threads t (some ⟨th.info, none⟩) } := by
  simp only [crash, Option.bind_eq_bind, Option.bind_eq_some_iff] at h
  obtain ⟨th, hth, hc⟩ := h
  exact ⟨th, hth, (Option.some.inj hc).symm⟩

theorem Config.start_eq_some {t : Tid} {s : Start} (h : c.start M C t s = some c') :
    ∃ i w, c.threads t = none ∧ M.start t s c.world = some (i, w) ∧
      c' = { c with world := w
                    threads := Function.update c.threads t (some ⟨i, some (C.boot i)⟩) } := by
  unfold start at h
  split at h
  · cases h
  · rename_i hth
    obtain ⟨⟨i, w⟩, hi, hc⟩ := Option.map_eq_some_iff.1 h
    exact ⟨i, w, hth, hi, hc.symm⟩

/-- The thread that an action starts. -/
def Action.started : Action Tid Choice Env Start → Option Tid
  | start t _ => some t
  | _ => none

theorem Config.threads_none_of_step {a : Action Tid Choice Env Start} (h : c.step M C a = some c') {t : Tid}
    (ht : c.threads t = none) (ha : a.started ≠ some t) : c'.threads t = none := by
  have hupdate : ∀ {u th}, u ≠ t → Function.update c.threads u th t = none := by
    intro u th hu
    rw [Function.update_of_ne hu.symm, ht]
  cases a with
  | exec u ch =>
    obtain ⟨i, p, o, k, r, w, hth, _, _, rfl⟩ := exec_eq_some h
    refine hupdate ?_
    rintro rfl
    rw [ht] at hth
    cases hth
  | crash u =>
    obtain ⟨th, hth, rfl⟩ := crash_eq_some h
    refine hupdate ?_
    rintro rfl
    rw [ht] at hth
    cases hth
  | env a =>
    obtain ⟨w, _, rfl⟩ := Option.map_eq_some_iff.1 h
    exact ht
  | start u s =>
    obtain ⟨i, w, _, _, rfl⟩ := start_eq_some h
    refine hupdate ?_
    rintro rfl
    exact ha rfl

theorem Config.threads_none_of_run {init : W → Prop} {as : List (Action Tid Choice Env Start)}
    (h : (pool M C init).run c as = some c') {t : Tid} (ht : c.threads t = none)
    (has : t ∉ as.filterMap Action.started) : c'.threads t = none := by
  induction as generalizing c with
  | nil =>
    obtain rfl : c = c' := Option.some.inj h
    exact ht
  | cons a as ih =>
    obtain ⟨c₁, hstep, hrest⟩ := Option.bind_eq_some_iff.1 h
    have hstep : c.step M C a = some c₁ := hstep
    have ha : a.started ≠ some t := by
      intro ha
      exact has (List.mem_filterMap.2 ⟨a, List.mem_cons_self, ha⟩)
    refine ih hrest (threads_none_of_step hstep ht ha) fun hmem => has ?_
    obtain ⟨b, hb, hbt⟩ := List.mem_filterMap.1 hmem
    exact List.mem_filterMap.2 ⟨b, List.mem_cons_of_mem _ hb, hbt⟩

end Pool

/-! ## From an automaton to the program -/

/-- A program as code: it is where its remaining operations are. -/
def progCode {Op : Type} {Res : Op → Type} {Info α : Type} (main : Info → Prog Op Res α) :
    Code Op Res Info (Prog Op Res α) where
  boot := main
  view _ p := p.view

namespace Code

variable {W Op : Type} {Res : Op → Type} {Tid Choice Env Start Info P Q : Type}

/-- A map of control points that commutes with the observation. -/
structure Hom (C : Code Op Res Info P) (D : Code Op Res Info Q) where
  map : Info → P → Q
  boot (i : Info) : D.boot i = map i (C.boot i)
  view (i : Info) (p : P) : D.view i (map i p) = (C.view i p).map fun x => ⟨x.1, fun r => map i (x.2 r)⟩

namespace Hom

variable {C : Code Op Res Info P} {D : Code Op Res Info Q} (f : Hom C D)
  {M : Machine W Op Res Tid Choice Env Start Info}

def mapThread (th : Thread Info P) : Thread Info Q :=
  ⟨th.info, th.state.map (f.map th.info)⟩

def mapConfig (c : Config W Op Res Tid Info P) : Config W Op Res Tid Info Q where
  world := c.world
  threads t := (c.threads t).map f.mapThread
  history := c.history

@[simp] theorem mapConfig_world (c : Config W Op Res Tid Info P) : (f.mapConfig c).world = c.world := rfl

theorem next_mapThread (th : Thread Info P) :
    (f.mapThread th).next D = (th.next C).map fun x => ⟨x.1, fun r => f.map th.info (x.2 r)⟩ := by
  obtain ⟨i, _ | p⟩ := th
  · rfl
  · exact f.view i p

theorem nextOp_mapConfig (c : Config W Op Res Tid Info P) (t : Tid) :
    (f.mapConfig c).nextOp D t = c.nextOp C t := by
  simp only [Config.nextOp, mapConfig]
  cases c.threads t with
  | none => rfl
  | some th =>
    simp only [Option.map_some, Option.bind_some, next_mapThread, Option.map_map]
    rfl

variable [DecidableEq Tid]

theorem mapConfig_update (c : Config W Op Res Tid Info P) (t : Tid) (th : Thread Info P) :
    (fun u => (Function.update c.threads t (some th) u).map f.mapThread) =
      Function.update (f.mapConfig c).threads t (some (f.mapThread th)) := by
  funext u
  by_cases hu : u = t
  · subst hu
    simp
  · simp [Function.update_of_ne hu, mapConfig]

theorem step_mapConfig (c : Config W Op Res Tid Info P) (a : Action Tid Choice Env Start) :
    (f.mapConfig c).step M D a = (c.step M C a).map f.mapConfig := by
  cases a with
  | exec t ch =>
    simp only [Config.step, Config.exec, mapConfig]
    cases c.threads t with
    | none => rfl
    | some th =>
      simp only [Option.map_some, Option.bind_eq_bind, Option.bind_some, next_mapThread]
      cases th.next C with
      | none => rfl
      | some x =>
        simp only [Option.map_some, Option.bind_some]
        cases M.perform t x.1 ch c.world with
        | none => rfl
        | some rw =>
          simp only [Option.bind_some, Option.pure_def, Option.map_some, mapConfig, mapConfig_update]
          rfl
  | crash t =>
    simp only [Config.step, Config.crash, mapConfig]
    cases c.threads t with
    | none => rfl
    | some th =>
      simp only [Option.map_some, Option.bind_eq_bind, Option.bind_some, Option.pure_def, mapConfig,
        mapConfig_update]
      rfl
  | env a =>
    simp only [Config.step, Config.env, mapConfig, Option.map_map]
    rfl
  | start t s =>
    simp only [Config.step, Config.start, mapConfig]
    cases c.threads t with
    | some th => rfl
    | none =>
      simp only [Option.map_none, Option.map_map]
      congr 1
      funext i
      simp only [Function.comp_apply, mapConfig, mapConfig_update, f.boot]
      rfl

theorem run_mapConfig {init : W → Prop} (c : Config W Op Res Tid Info P)
    (as : List (Action Tid Choice Env Start)) :
    (pool M D init).run (f.mapConfig c) as = ((pool M C init).run c as).map f.mapConfig := by
  induction as generalizing c with
  | nil => rfl
  | cons a as ih =>
    have hstep : (pool M D init).step (f.mapConfig c) a = ((pool M C init).step c a).map f.mapConfig :=
      f.step_mapConfig c a
    simp only [TransitionSystem.run, hstep]
    cases (pool M C init).step c a with
    | none => rfl
    | some c₁ => exact ih c₁

theorem reachable {init : W → Prop} {ok : Config W Op Res Tid Info Q → Action Tid Choice Env Start → Prop}
    {d : Config W Op Res Tid Info Q} (h : (pool M D init).ReachableBy ok d) :
    ∃ c, (pool M C init).ReachableBy (fun c a => ok (f.mapConfig c) a) c ∧ d = f.mapConfig c := by
  induction h with
  | @init d hi =>
    obtain ⟨hw, ht, hh⟩ := hi
    refine ⟨⟨d.world, fun _ => none, []⟩, .init ⟨hw, rfl, rfl⟩, ?_⟩
    obtain ⟨w, th, hist⟩ := d
    obtain rfl := ht
    obtain rfl := hh
    rfl
  | @step d a d' _ ha hstep ih =>
    obtain ⟨c, hc, rfl⟩ := ih
    have hs : (c.step M C a).map f.mapConfig = some d' := (f.step_mapConfig c a).symm.trans hstep
    obtain ⟨c', hc', rfl⟩ := Option.map_eq_some_iff.1 hs
    exact ⟨c', .step hc ha hc', rfl⟩

theorem leads {init : W → Prop} {ok : Config W Op Res Tid Info Q → Action Tid Choice Env Start → Prop}
    {c : Config W Op Res Tid Info P} {d' : Config W Op Res Tid Info Q}
    (h : (pool M D init).Leads ok (f.mapConfig c) d') :
    ∃ c', (pool M C init).Leads (fun c a => ok (f.mapConfig c) a) c c' ∧ d' = f.mapConfig c' := by
  induction h with
  | refl => exact ⟨c, .refl, rfl⟩
  | tail _ hstep ih =>
    obtain ⟨c₁, hl, rfl⟩ := ih
    obtain ⟨a, ha, hstep⟩ := hstep
    have hs : (c₁.step M C a).map f.mapConfig = some _ := (f.step_mapConfig c₁ a).symm.trans hstep
    obtain ⟨c', hc', rfl⟩ := Option.map_eq_some_iff.1 hs
    exact ⟨c', hl.tail ⟨a, ha, hc'⟩, rfl⟩

end Hom

end Code

end AuditGateway.Framework
