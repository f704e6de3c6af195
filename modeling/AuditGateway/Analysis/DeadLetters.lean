import AuditGateway.Analysis.Attempts

/-!
# The dead letter queue and the tasks

The message goes to the dead letter queue before the task is marked as failed, in a
transaction that needs the lease. In every run a task that has failed terminally has
a dead letter (`dead_letter_of_failed`), and no task has two (`deadLetters_le_one`):
only its last claim leads there. But a dead letter need not have a failed task. The
execution may crash or fail in between, or find that its lease is gone; and since the
handler also catches what is raised after the commit of the core stage, the task may
have succeeded (`succeeded_dead_letter`).

`dead_letters_agree` says that this is all: in a run in which what follows a dead
letter is never interrupted (`Uninterrupted`), dead letters and failed tasks agree
whenever no execution is in flight.
-/

namespace AuditGateway.Analysis

open AuditGateway.Framework

variable {d : Decoding} {c c' : PhaseConfig} {a : Step} {e : ExecId} {job : Job} {φ : Phase} {κ : TaskKey}
  {s s' : Durable} {w w' : World} {o : Op} {k : o.Res → Phase} {r : o.Res} {ch : Choice}

/-! ## At most one -/

/-- The operation publishes a message with an error code. -/
def Op.publishesDeadLetter : Op → Bool
  | xadd _ payload =>
    match payload.hints with
    | some (.dumped fields) => (fields.lookup "error_code").isSome
    | _ => false
  | _ => false

theorem rankOf_publishesDeadLetter : RankOf Op.publishesDeadLetter 10 := by
  intro job φ o k hview ho
  cases φ <;> cases hview <;> first
    | rfl
    | cases ho

theorem claimedAt_publishesDeadLetter : ClaimedAt Op.publishesDeadLetter (· = ·) := by
  intro e job φ w o k hview ho hl
  cases φ with
  | publishDlq task err now =>
    obtain ⟨_, hclaimed, hmax⟩ := hl
    exact ⟨task, rfl, hclaimed, Nat.le_antisymm hclaimed.2.2.1 hmax⟩
  | done => cases hview
  | _ =>
    cases hview
    cases ho

/-- The number of messages for the task in the dead letter queue. -/
def Durable.deadLetters (s : Durable) (κ : TaskKey) : Nat :=
  s.redis.entries.countP fun en => en.stream == streamDlq && en.key == some κ

theorem Durable.deadLettered_iff : s.DeadLettered κ ↔ 0 < s.deadLetters κ := by
  simp [Durable.DeadLettered, Durable.deadLetters, List.countP_pos_iff]

theorem performed_append (K : Op → Bool) (h : History) (ev : Event Op Op.Res ExecId Job) :
    performed K κ (h ++ [ev]) = performed K κ h + if K ev.op && ev.info.key == κ then 1 else 0 := by
  simp [performed, List.countP_append, List.countP_singleton]

theorem publishes_deadLetter (id : MessageId) {stream : String} {payload : Payload}
    (hview : φ.view job = some ⟨o, k⟩) (hd : Delivered job s) (hφ : φ.publishes job = some (stream, payload))
    (hne : φ.live = true → job.traceId ≠ "") (hdlq : stream = streamDlq) :
    (∃ task err now, φ = .publishDlq task err now) ∧ o.publishesDeadLetter = true ∧
      Entry.key ⟨stream, id, payload⟩ = some job.key := by
  obtain ⟨task, err, now, rfl⟩ := hd.publishes_dlq hφ hdlq
  cases hview
  obtain ⟨rfl, rfl⟩ := Prod.mk.inj (Option.some.inj hφ)
  exact ⟨⟨task, err, now, rfl⟩, rfl, key_publish hd.strip (hne rfl)⟩

/-- Dead letters are published by operations of the history. -/
def Tallied (c : PhaseConfig) : Prop :=
  ∀ κ, c.world.durable.deadLetters κ ≤ performed Op.publishesDeadLetter κ c.history

theorem Change.redis_cases (h : Change e job φ s s') : s'.redis.entries = s.redis.entries ∨
    ∃ stream payload id, φ.publishes job = some (stream, payload) ∧
      s'.redis.entries = s.redis.entries ++ [⟨stream, id, payload⟩] := by
  cases h with
  | publish hφ => exact .inr ⟨_, _, _, hφ, rfl⟩
  | _ => exact .inl rfl

theorem Outside.redis_cases {act : EnvAction} (h : Outside act s s') : s'.redis.entries = s.redis.entries ∨
    ∃ stream payload id, stream ≠ streamDlq ∧ s'.redis.entries = s.redis.entries ++ [⟨stream, id, payload⟩] := by
  cases h with
  | publish hs => exact .inr ⟨_, _, _, hs, rfl⟩
  | _ => exact .inl rfl

theorem Durable.deadLetters_append {en : Entry} (h : s'.redis.entries = s.redis.entries ++ [en]) :
    s'.deadLetters κ = s.deadLetters κ + if en.stream == streamDlq && en.key == some κ then 1 else 0 := by
  simp [Durable.deadLetters, h, List.countP_append, List.countP_singleton]

theorem Tallied.move (hc : Tallied c) (h : Move c c' a) : Tallied c' := by
  intro κ
  have hκ := hc κ
  cases h with
  | exec _ hview _ _ _ hdelivered hlive hchange _ _ hhistory =>
    rw [hhistory, performed_append]
    obtain hsame | ⟨stream, payload, id, hφ, hnew⟩ := hchange.redis_cases
    · have heq : c'.world.durable.deadLetters κ = c.world.durable.deadLetters κ := by
        rw [Durable.deadLetters, hsame]
        rfl
      omega
    · rw [Durable.deadLetters_append hnew]
      by_cases hdlq : stream = streamDlq
      · obtain ⟨_, ho, hkey⟩ := publishes_deadLetter id hview hdelivered hφ hlive hdlq
        subst hdlq
        simp only [hkey, ho, beq_self_eq_true, Bool.true_and, Option.some_beq_some]
        omega
      · simp only [beq_eq_false_iff_ne.2 hdlq, Bool.false_and, Bool.false_eq_true, if_false]
        omega
  | outside houtside _ _ _ hhistory =>
    rw [hhistory]
    obtain hsame | ⟨stream, payload, id, hne, hnew⟩ := houtside.redis_cases
    · rw [Durable.deadLetters, hsame]
      exact hκ
    · rw [Durable.deadLetters_append hnew]
      simp only [beq_eq_false_iff_ne.2 hne, Bool.false_and]
      exact hκ
  | crash _ hworld _ hhistory | start _ _ _ hworld _ hhistory =>
    rw [hhistory, hworld]
    exact hκ

theorem tallied_reachable {ok : PhaseConfig → Step → Prop} (h : (phases d).ReachableBy ok c) : Tallied c := by
  refine h.induct ?_ fun s a s' hs hc _ hstep => hc.move (move_of_step (inv_reachable hs) hstep)
  rintro s ⟨hw, _, _⟩ κ
  have hentries : s.world.durable.redis.entries = [] := hw.entries
  simp [Durable.deadLetters, hentries]

theorem deadLetters_le_one {ok : PhaseConfig → Step → Prop} (h : (phases d).ReachableBy ok c) (κ : TaskKey) :
    c.world.durable.deadLetters κ ≤ 1 := by
  refine (tallied_reachable h κ).trans ?_
  by_cases hrow : ∃ row, c.world.durable.tasks κ = some row
  · obtain ⟨row, hrow⟩ := hrow
    refine performed_le rankOf_publishesDeadLetter claimedAt_publishesDeadLetter h (row.maxAttempts - 1)
      fun row₁ hrow₁ i hi hR => ?_
    obtain rfl := Option.some.inj (hrow.symm.trans hrow₁)
    omega
  · exact performed_le rankOf_publishesDeadLetter claimedAt_publishesDeadLetter h 0
      fun row₁ hrow₁ => absurd ⟨row₁, hrow₁⟩ hrow

theorem dead_letter_of_failed {ok : PhaseConfig → Step → Prop} (h : (phases d).ReachableBy ok c)
    (hst : c.world.durable.HasStatus κ .failedTerminal) : c.world.durable.DeadLettered κ := by
  revert hst
  refine h.induct (P := fun c => c.world.durable.HasStatus κ .failedTerminal → c.world.durable.DeadLettered κ)
    ?_ fun s a s' hs hc _ hstep hst => ?_
  · rintro s ⟨hw, _, _⟩ ⟨row, hrow, _⟩
    have htasks : s.world.durable.tasks = fun _ => none := hw.tasks
    rw [htasks] at hrow
    cases hrow
  · have hmove := move_of_step (inv_reachable hs) hstep
    have hev := hmove.evolves
    cases hmove with
    | exec _ _ _ hlocal _ _ _ hchange =>
      obtain hst | ⟨rfl, ⟨hx, _⟩ | ⟨_, task, err, rfl⟩⟩ := hchange.status_back rfl hst
      · exact (hc hst).evolves hev
      · cases hx
      · exact hlocal.2.2.1.evolves hev
    | outside _ htables =>
      have htasks : s'.world.durable.tasks = s.world.durable.tasks := congrArg Table.committed htables.1
      refine (hc ?_).evolves hev
      rw [Durable.HasStatus, htasks] at hst
      exact hst
    | crash _ hworld | start _ _ _ hworld =>
      rw [hworld] at hst ⊢
      exact hc hst

/-! ## After a dead letter -/

/-- The open transaction of `e` is about to mark the task as failed terminally. -/
def marksTerminal (w : World) (e : ExecId) (κ : TaskKey) : Bool :=
  match w.db.tasks.dirty κ with
  | some (e', some row) => e' == e && row.status == .failedTerminal
  | _ => false

/-- The execution has published a dead letter, and its next operation belongs to the
transaction that is to mark the task. -/
def owes {P : Type} (C : Code Op Op.Res Job P) (c : Config World Op Op.Res ExecId Job P) (e : ExecId) : Bool :=
  match c.nextOp C e with
  | some (.execute (.markFailedTerminal ..)) => true
  | some (.execute (.markTraceStageFailed _ _ _ terminal)) => terminal
  | some .commit => (c.threads e).any fun th => marksTerminal c.world e th.info.key
  | _ => false

/-- The row that `mark_failed_terminal` is to update is still leased. -/
def leaseHeld (w : World) (e : ExecId) (ch : Choice) (κ : TaskKey) (worker : String) : Bool :=
  match w.txnNow e ch, w.db.tasks.committed κ with
  | some now, some row => row.leasedBy worker now
  | _, _ => false

/-- The operation has raised although it has taken effect. -/
def Fault.applied : Fault → Bool
  | after _ => true
  | _ => false

/-- The step does not come between a dead letter and the mark on its task: no crash, no
failed operation, no lost lease, and no dead letter whose publication raises. -/
def Uninterrupted {P : Type} (C : Code Op Op.Res Job P) (c : Config World Op Op.Res ExecId Job P) :
    Step → Prop
  | .crash e => owes C c e = false
  | .exec e ch => (owes C c e = true → ch.fault = .none) ∧
    match c.nextOp C e with
    | some (.execute (.markFailedTerminal κ worker _ _)) => leaseHeld c.world e ch κ worker = true
    | some (.xadd stream _) => stream = streamDlq → ch.fault.applied = false
    | _ => True
  | _ => True

instance {P : Type} (C : Code Op Op.Res Job P) (c : Config World Op Op.Res ExecId Job P) (a : Step) :
    Decidable (Uninterrupted C c a) := by
  unfold Uninterrupted
  split
  · infer_instance
  · refine @instDecidableAnd _ _ inferInstance ?_
    split <;> infer_instance
  · infer_instance

namespace Phase

/-- The control points between a dead letter and the commit of the mark. -/
def settling : Phase → Bool
  | markTerminal .. | failTerminal .. | commitTerminal .. => true
  | _ => false

end Phase

theorem owes_of_settling (hth : c.threads e = some ⟨job, some φ⟩) (hφ : φ.settling = true)
    (hl : φ.Local e job c.world) : owes phaseCode c e = true := by
  cases φ with
  | markTerminal task err | failTerminal task err =>
    rw [owes, nextOp_of_view hth rfl]
  | commitTerminal task err =>
    obtain ⟨_, _, _, u, hf⟩ := hl
    obtain ⟨now, row, row', _, hmark, hu⟩ := hf.task
    have hheld := hf.holds.tasks
    rw [hu] at hheld
    rw [owes, nextOp_of_view hth rfl]
    simp [hth, marksTerminal, hheld.dirty, (markFailedTerminal_spec hmark).2]
  | _ => cases hφ

theorem settling_step (hview : φ.view job = some ⟨o, k⟩) (hφ : φ.settling = true) (hl : φ.Local e job w)
    (heff : effect d e o ch w = some (r, w'))
    (hlease : ∀ {task err}, φ = .markTerminal task err → leaseHeld w e ch job.key job.workerId = true) :
    (k r).settling = true ∨ w'.durable.HasStatus job.key .failedTerminal := by
  cases φ with
  | markTerminal task err =>
    cases hview
    obtain ⟨now, hnow, rfl, _, _⟩ := execute_spec heff hl.1 rfl
    have hheld := hlease rfl
    unfold leaseHeld at hheld
    split at hheld
    · rename_i now' row hnow' hrow
      obtain rfl := Option.some.inj (hnow.symm.trans hnow')
      have hrow : w.durable.tasks job.key = some row := hrow
      left
      simp only [Statement.effect, Statement.effect.onTask, hrow, Option.bind_some, markFailedTerminal,
        leasedUpdate, hheld, if_true]
      rfl
    · cases hheld
  | failTerminal task err =>
    cases hview
    simp only [effect, Option.bind_eq_bind, Option.bind_eq_some_iff] at heff
    obtain ⟨now, _, ⟨b, db⟩, _, hx⟩ := heff
    obtain ⟨rfl, rfl⟩ := Prod.mk.inj (Option.some.inj hx)
    exact .inl rfl
  | commitTerminal task err =>
    cases hview
    obtain ⟨rfl, rfl⟩ := Prod.mk.inj (Option.some.inj heff)
    obtain ⟨_, _, _, u, hf⟩ := hl
    obtain ⟨now, row, row', now', tr, _, hmark, _, hd⟩ := hf.commit_mark
    refine .inr ⟨row', ?_, (markFailedTerminal_spec hmark).2⟩
    rw [hd]
    exact Function.update_self ..
  | _ => cases hφ

/-- A dead letter has a failed task, or an execution that is about to mark it. -/
def Settling (c : PhaseConfig) : Prop :=
  ∀ κ, c.world.durable.DeadLettered κ → c.world.durable.HasStatus κ .failedTerminal ∨
    ∃ e job φ, c.threads e = some ⟨job, some φ⟩ ∧ job.key = κ ∧ φ.settling = true

theorem effect_of_fault_none {r : o.Res} (h : perform d e o ch w = some (r, w')) (hf : ch.fault = .none) :
    effect d e o ch w = some (r, w') := by
  rw [perform, hf] at h
  exact h

theorem settling_of_new (hview : φ.view job = some ⟨o, k⟩) (hperf : perform d e o ch w = some (r, w'))
    (hd : Delivered job w.durable) (hne : φ.live = true → job.traceId ≠ "")
    (hchange : Change e job φ w.durable w'.durable) (hok : ∀ payload, o = .xadd streamDlq payload →
      ch.fault.applied = false) (hnew : w'.durable.DeadLettered κ) (hold : ¬ w.durable.DeadLettered κ) :
    job.key = κ ∧ (k r).settling = true := by
  obtain ⟨en, hen, hdlq, hkey⟩ := hnew
  obtain hsame | ⟨stream, payload, id, hφ, hentries⟩ := hchange.redis_cases
  · exact absurd ⟨en, hsame ▸ hen, hdlq, hkey⟩ hold
  rw [hentries] at hen
  obtain hen | hen := List.mem_append.1 hen
  · exact absurd ⟨en, hen, hdlq, hkey⟩ hold
  obtain rfl := List.mem_singleton.1 hen
  obtain ⟨⟨task, err, now, rfl⟩, _, hkey'⟩ := publishes_deadLetter id hview hd hφ hne hdlq
  refine ⟨Option.some.inj (hkey'.symm.trans hkey), ?_⟩
  cases hview
  have hfault := hok _ rfl
  unfold perform at hperf
  split at hperf
  · simp only [effect] at hperf
    split at hperf <;> [skip; cases hperf]
    obtain ⟨rfl, _⟩ := Prod.mk.inj (Option.some.inj hperf)
    rfl
  · -- Refused, so that nothing was added.
    obtain ⟨_, rfl⟩ := Prod.mk.inj (Option.some.inj hperf)
    rw [refused_durable] at hentries
    exact absurd hentries (by simp)
  · rename_i hf
    rw [hf] at hfault
    cases hfault

theorem Settling.other {th : Thread Job Phase} (hc : Settling c)
    (hev : Evolves c.world.durable c'.world.durable)
    (hthreads : c'.threads = Function.update c.threads e (some th)) (hold : c.world.durable.DeadLettered κ)
    (hown : ∀ {job φ}, c.threads e = some ⟨job, some φ⟩ → job.key = κ → φ.settling = true →
      c'.world.durable.HasStatus κ .failedTerminal ∨
        ∃ φ', th = ⟨job, some φ'⟩ ∧ φ'.settling = true) :
    c'.world.durable.HasStatus κ .failedTerminal ∨
      ∃ e job φ, c'.threads e = some ⟨job, some φ⟩ ∧ job.key = κ ∧ φ.settling = true := by
  obtain hst | ⟨e₁, job₁, φ₁, hth₁, hκ, hφ₁⟩ := hc κ hold
  · exact .inl (hst.evolves rfl hev)
  rw [hthreads]
  by_cases he : e₁ = e
  · subst he
    obtain hst | ⟨φ', rfl, hφ'⟩ := hown hth₁ hκ hφ₁
    · exact .inl hst
    · exact .inr ⟨e₁, job₁, φ', Function.update_self .., hκ, hφ'⟩
  · exact .inr ⟨e₁, job₁, φ₁, by rw [Function.update_of_ne he, hth₁], hκ, hφ₁⟩

theorem Settling.move (hinv : Inv c) (hc : Settling c) (h : Move c c' a)
    (hok : Uninterrupted phaseCode c a) : Settling c' := by
  intro κ hdead
  have hev := h.evolves
  cases h with
  | @exec d e ch job φ o k r hth hview hperf hlocal _ hdelivered hlive hchange _ hthreads =>
    obtain ⟨hfault, hop⟩ := hok
    rw [nextOp_of_view hth hview] at hop
    by_cases hold : c.world.durable.DeadLettered κ
    · refine hc.other hev hthreads hold fun hth₁ hκ hφ₁ => ?_
      obtain ⟨rfl, hx⟩ := Thread.mk.inj (Option.some.inj (hth.symm.trans hth₁))
      obtain rfl := Option.some.inj hx
      have heff := effect_of_fault_none hperf (hfault (owes_of_settling hth hφ₁ hlocal))
      have hlease : ∀ {task err}, φ = .markTerminal task err →
          leaseHeld c.world e ch job.key job.workerId = true := by
        rintro task err rfl
        cases hview
        exact hop
      obtain hφ' | hst := settling_step hview hφ₁ hlocal heff hlease
      · exact .inr ⟨_, rfl, hφ'⟩
      · exact .inl (hκ ▸ hst)
    · have hxadd : ∀ payload, o = .xadd streamDlq payload → ch.fault.applied = false := by
        rintro payload rfl
        exact hop rfl
      obtain ⟨hκ, hφ'⟩ := settling_of_new hview hperf hdelivered hlive hchange hxadd hdead hold
      refine .inr ⟨e, job, k r, ?_, hκ, hφ'⟩
      rw [hthreads]
      exact Function.update_self ..
  | outside houtside _ _ hthreads =>
    have hold : c.world.durable.DeadLettered κ := by
      rw [Durable.deadLettered_iff] at hdead ⊢
      obtain hsame | ⟨stream, payload, id, hne, hnew⟩ := houtside.redis_cases
      · rw [Durable.deadLetters, hsame] at hdead
        exact hdead
      · rw [Durable.deadLetters_append hnew] at hdead
        simpa only [beq_eq_false_iff_ne.2 hne, Bool.false_and, Bool.false_eq_true, if_false,
          Nat.add_zero] using hdead
    rw [hthreads]
    exact (hc κ hold).imp (·.evolves rfl hev) id
  | crash hth hworld hthreads =>
    rw [hworld] at hdead
    refine hc.other hev hthreads hdead fun hth₁ _ hφ₁ => ?_
    have howes := owes_of_settling hth₁ hφ₁ (hinv.locals hth₁)
    rw [hok] at howes
    cases howes
  | start hth _ _ hworld hthreads =>
    rw [hworld] at hdead
    refine hc.other hev hthreads hdead fun hth₁ _ _ => ?_
    rw [hth] at hth₁
    cases hth₁

theorem settling_reachable (h : (phases d).ReachableBy (Uninterrupted phaseCode) c) : Settling c := by
  refine h.induct ?_ fun s a s' hs hc hok hstep =>
    hc.move (inv_reachable hs) (move_of_step (inv_reachable hs) hstep) hok
  rintro s ⟨hw, _, _⟩ κ ⟨en, hen, _⟩
  have hentries : s.world.durable.redis.entries = [] := hw.entries
  rw [hentries] at hen
  cases hen

theorem owes_mapConfig : owes workerCode (phaseHom.mapConfig c) e = owes phaseCode c e := by
  unfold owes
  rw [phaseHom.nextOp_mapConfig]
  split
  · rfl
  · rfl
  · simp only [Code.Hom.mapConfig, Option.any_map]
    rfl
  · rfl

theorem uninterrupted_mapConfig :
    Uninterrupted workerCode (phaseHom.mapConfig c) a = Uninterrupted phaseCode c a := by
  cases a <;>
    simp only [Uninterrupted, owes_mapConfig, phaseHom.nextOp_mapConfig, phaseHom.mapConfig_world]

/-- In every run in which nothing comes between a dead letter and the mark on its task,
whenever no execution is in flight: a task has a dead letter if and only if it has failed
terminally, and it has at most one. -/
theorem dead_letters_agree {c : WorkerConfig} (hc : (workers d).ReachableBy (Uninterrupted workerCode) c)
    (hidle : ∀ e, ¬ c.InFlight workerCode e) (κ : TaskKey) :
    (c.world.durable.DeadLettered κ ↔ c.world.durable.HasStatus κ .failedTerminal) ∧
      c.world.durable.deadLetters κ ≤ 1 := by
  obtain ⟨p, hp, rfl⟩ := phaseHom.reachable hc
  simp only [uninterrupted_mapConfig] at hp
  refine ⟨⟨fun hdead => ?_, dead_letter_of_failed hp⟩, deadLetters_le_one hp κ⟩
  obtain hst | ⟨e, job, φ, hth, _, hφ⟩ := settling_reachable hp κ hdead
  · exact hst
  · refine absurd ?_ (hidle e)
    obtain ⟨x, hx⟩ : ∃ x, φ.view job = some x := by cases φ <;> first | exact ⟨_, rfl⟩ | cases hφ
    refine ⟨phaseHom.mapThread ⟨job, some φ⟩, by simp [Code.Hom.mapConfig, hth], ?_⟩
    rw [phaseHom.next_mapThread]
    simp [Thread.next, phaseCode_view, hx]

def failedOnce : List Step :=
  captured "t" ++
  [.start 0 { entry := bareEntry streamCore ⟨1, 0⟩ "t", workerId := "a", maxAttempts := 1 }] ++
  List.replicate 5 (.exec 0 {}) ++ [.exec 0 { fault := .before ⟨"ValueError", ""⟩ }] ++
  List.replicate 7 (.exec 0 { id := ⟨1, 0⟩ })

theorem dead_letters_agree_failedOnce : ∃ c, runWorkers .bare failedOnce = some c ∧
    c.world.durable.HasStatus ⟨"t", .core⟩ .failedTerminal ∧ c.world.durable.DeadLettered ⟨"t", .core⟩ ∧
    c.world.durable.deadLetters ⟨"t", .core⟩ ≤ 1 := by
  have hrun : (((workers .bare).runBy (Uninterrupted workerCode) WorkerConfig.empty failedOnce).map fun c =>
      (decide (c.world.durable.HasStatus ⟨"t", .core⟩ .failedTerminal), c.nextOp workerCode 0)) =
      some (true, none) := by decide
  obtain ⟨c, hc, hx⟩ := Option.map_eq_some_iff.1 hrun
  obtain ⟨hst, hend⟩ := Prod.mk.inj hx
  have hst := of_decide_eq_true hst
  have hidle := idle_of_run (TransitionSystem.run_of_runBy hc) fun e he => by
    obtain rfl : 0 = e := by simpa [failedOnce, captured, Action.started] using he
    exact hend
  obtain ⟨hiff, hone⟩ := dead_letters_agree ((TransitionSystem.ReachableBy.init
    (WorkerConfig.init_empty .bare)).leads (TransitionSystem.leads_runBy hc)) hidle ⟨"t", .core⟩
  exact ⟨c, TransitionSystem.run_of_runBy hc, hst, hiff.2 hst, hone⟩

def failedAfterCommit : List Step :=
  captured "t" ++
  [.start 0 { entry := bareEntry streamCore ⟨1, 0⟩ "t", workerId := "a", maxAttempts := 1 }] ++
  List.replicate 12 (.exec 0 { hasMedia := true, id := ⟨2, 0⟩ }) ++
  [.exec 0 { fault := .before ⟨"OperationalError", ""⟩ }] ++ List.replicate 4 (.exec 0 { id := ⟨3, 0⟩ })

/-- A task has succeeded, no execution is in flight, and the dead letter queue has its message. -/
theorem succeeded_dead_letter : ∃ c, (workers .bare).Reachable c ∧ (∀ e, ¬ c.InFlight workerCode e) ∧
    c.world.durable.HasStatus ⟨"t", .core⟩ .succeeded ∧ c.world.durable.DeadLettered ⟨"t", .core⟩ := by
  have hrun : ((runWorkers .bare failedAfterCommit).map fun c =>
      (decide (c.world.durable.HasStatus ⟨"t", .core⟩ .succeeded), c.nextOp workerCode 0,
        c.world.durable.deadLetters ⟨"t", .core⟩)) = some (true, none, 1) := by decide
  obtain ⟨c, hc, hx⟩ := Option.map_eq_some_iff.1 hrun
  obtain ⟨hst, hx⟩ := Prod.mk.inj hx
  obtain ⟨hend, hdead⟩ := Prod.mk.inj hx
  refine ⟨c, reachable_runWorkers hc, idle_of_run hc fun e he => ?_, of_decide_eq_true hst, ?_⟩
  · obtain rfl : 0 = e := by simpa [failedAfterCommit, captured, Action.started] using he
    exact hend
  · rw [Durable.deadLettered_iff, hdead]
    decide

end AuditGateway.Analysis
