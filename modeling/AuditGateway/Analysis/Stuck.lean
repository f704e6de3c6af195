import AuditGateway.Analysis.Acks

/-!
# Tasks that nothing can move

A task that has used up its attempts can only be finished by the execution that has
made the last of them. If that one crashes then the task stays leased: no claim
matches any more, and every delivery of its message ends with `active_lease` and
without an acknowledgement (`exhausted_forever`, `crashed_last_attempt`).

`unstuck_iff` is the exact condition, for a task that is not finished and has no
unexpired lease: the processing of its next message starts the stage if and only if
there are attempts left, the message's time can be cast, and its retry hint, where
the worker looks at it, can be read.
-/

namespace AuditGateway.Analysis

open AuditGateway.Framework AuditGateway.Python

variable {d : Decoding} {c c' : PhaseConfig} {a : Step} {e : ExecId} {job : Job} {φ φ' : Phase} {κ : TaskKey}
  {s s' : Durable} {w w' : World} {o : Op} {k : o.Res → Phase} {r : o.Res} {ch : Choice} {row : AnalysisTask}

/-! ## Used up attempts -/

namespace Phase

/-- The control points of an execution that has claimed nothing and found nothing. -/
def early : Phase → Bool
  | sleep | insert | claim | get | done _ => true
  | _ => false

theorem publishes_early (h : φ.early = true) : φ.publishes job = none := by
  cases φ with
  | sleep | insert | claim | get | done => rfl
  | _ => cases h

theorem acks_early (h : φ.early = true) : φ.acks = false := by
  cases φ with
  | sleep | insert | claim | get | done => rfl
  | _ => cases h

end Phase

/-- The task is leased with all its attempts used, and nobody is left who could finish it. -/
structure Exhausted (κ : TaskKey) (n : Nat) (c : PhaseConfig) : Prop where
  row : ∃ row, c.world.durable.tasks κ = some row ∧ row.status = .leased ∧ row.attemptCount = n ∧
    row.maxAttempts ≤ n
  early {e : ExecId} {job : Job} {φ : Phase} : c.threads e = some ⟨job, some φ⟩ → job.key = κ →
    φ.early = true

theorem Change.tasks_other (h : Change e job φ s s') (hκ : κ ≠ job.key) : s'.tasks κ = s.tasks κ := by
  cases h with
  | insert | claim | succeeded | terminal | retryable => exact Function.update_of_ne hκ _ _
  | _ => rfl

theorem Change.exhausted (h : Change e job φ s s') (hφ : φ.early = true) (hrow : s.tasks job.key = some row)
    (hmax : row.maxAttempts ≤ row.attemptCount) :
    ∃ row', s'.tasks job.key = some row' ∧ row'.status = row.status ∧
      row'.attemptCount = row.attemptCount ∧ row'.maxAttempts = row.maxAttempts ∧
      row'.leaseExpiresAt = row.leaseExpiresAt := by
  cases h with
  | refl | processing | enqueued | publish | ack => exact ⟨row, hrow, rfl, rfl, rfl, rfl⟩
  | insert =>
    rw [hrow]
    exact ⟨_, Function.update_self .., rfl, rfl, rfl, rfl⟩
  | claim hrow' hclaim =>
    obtain rfl := Option.some.inj (hrow.symm.trans hrow')
    have hlt := (AnalysisTask.claimable_iff.1 (claimTask_eq_some hclaim).1).1
    omega
  | succeeded | terminal | retryable => cases hφ

theorem early_step (hview : φ.view job = some ⟨o, k⟩) (hφ : φ.early = true) (hl : φ.Local e job w)
    (hperf : perform d e o ch w = some (r, w')) (hrow : w.durable.tasks job.key = some row)
    (hst : row.status.terminal = false) (hmax : row.maxAttempts ≤ row.attemptCount) :
    (k r).early = true := by
  cases φ with
  | sleep | insert =>
    cases hview
    cases r <;> rfl
  | claim =>
    cases hview
    obtain ⟨_, rfl, _⟩ | heff | ⟨_, _, _, rfl, _⟩ := perform_cases hperf
    · rfl
    · obtain ⟨_, ⟨rfl, _⟩ | ⟨now, row', row'', hrow', hclaim, rfl, _⟩⟩ := claimTask_spec heff hl.1
      · rfl
      · obtain rfl := Option.some.inj (hrow.symm.trans hrow')
        have hlt := (AnalysisTask.claimable_iff.1 (claimTask_eq_some hclaim).1).1
        omega
    · rfl
  | get =>
    cases hview
    obtain ⟨_, rfl, _⟩ | heff | ⟨_, _, _, rfl, _⟩ := perform_cases hperf
    · rfl
    · obtain ⟨_, rfl, _⟩ := getTask_spec heff hl.1
      simp only [Phase.plain, Phase.afterGet, hrow, Option.map_some]
      cases hrst : row.status <;> rw [hrst] at hst <;> first | rfl | cases hst
    · rfl
  | done => cases hview
  | _ => cases hφ

theorem Phase.early_boot (h : strip job.traceId ≠ "") : (Phase.boot job).early = true := by
  unfold Phase.boot
  rw [if_neg h]
  split <;> rfl

theorem Exhausted.move {n : Nat} (hc : Exhausted κ n c) (hκ : κ.traceId ≠ "") (h : Move c c' a) :
    Exhausted κ n c' := by
  obtain ⟨row, hrow, hst, hn, hmax⟩ := hc.row
  cases h with
  | @exec d e ch job φ o k r hth hview hperf hlocal _ _ _ hchange _ hthreads =>
    have hothers : (job.key = κ → (k r).early = true) → ∀ {e' job' φ'},
        c'.threads e' = some ⟨job', some φ'⟩ → job'.key = κ → φ'.early = true := by
      intro hown e' job' φ' he' hkey
      rw [hthreads] at he'
      obtain ⟨_, hx⟩ | ⟨_, he'⟩ := update_eq_some he'
      · obtain ⟨rfl, hφ'⟩ := Thread.mk.inj hx
        obtain rfl := Option.some.inj hφ'
        exact hown hkey
      · exact hc.early he' hkey
    by_cases hkey : job.key = κ
    · subst hkey
      have hφ := hc.early hth rfl
      obtain ⟨row', hrow', h1, h2, h3, _⟩ := hchange.exhausted hφ hrow (by omega)
      refine ⟨⟨row', hrow', h1.trans hst, h2.trans hn, by omega⟩, hothers fun _ => ?_⟩
      exact early_step hview hφ hlocal hperf hrow (by rw [hst]; rfl) (by omega)
    · refine ⟨⟨row, ?_, hst, hn, hmax⟩, hothers fun h => absurd h hkey⟩
      rw [hchange.tasks_other fun h => hkey h.symm, hrow]
  | outside _ htables _ hthreads =>
    have htasks : c'.world.durable.tasks = c.world.durable.tasks := congrArg Table.committed htables.1
    exact ⟨⟨row, by rw [htasks, hrow], hst, hn, hmax⟩, fun he => hc.early (hthreads ▸ he)⟩
  | crash hth hworld hthreads =>
    refine ⟨⟨row, by rw [hworld]; exact hrow, hst, hn, hmax⟩, ?_⟩
    intro e' job' φ' he' hkey
    rw [hthreads] at he'
    obtain ⟨_, hx⟩ | ⟨_, he'⟩ := update_eq_some he'
    · cases hx
    · exact hc.early he' hkey
  | start hth hdelivered _ hworld hthreads =>
    refine ⟨⟨row, by rw [hworld]; exact hrow, hst, hn, hmax⟩, ?_⟩
    intro e' job' φ' he' hkey
    rw [hthreads] at he'
    obtain ⟨_, hx⟩ | ⟨_, he'⟩ := update_eq_some he'
    · obtain ⟨rfl, hφ'⟩ := Thread.mk.inj hx
      obtain rfl := Option.some.inj hφ'
      refine Phase.early_boot ?_
      rw [hdelivered.strip]
      rw [← hkey] at hκ
      exact hκ
    · exact hc.early he' hkey

theorem exhausted_forever {c c' : WorkerConfig} (hc : (workers d).Reachable c)
    (hidle : ∀ e, ¬ c.InFlight workerCode e) (hrow : c.world.durable.tasks κ = some row)
    (hst : row.status = .leased) (hmax : row.maxAttempts ≤ row.attemptCount)
    (hl : (workers d).Leads (fun _ _ => True) c c') :
    ∃ row', c'.world.durable.tasks κ = some row' ∧ row'.status = .leased ∧
      row'.attemptCount = row.attemptCount := by
  obtain ⟨p, hp, rfl⟩ := phases_of_workers hc
  obtain ⟨p', hp', rfl⟩ := phaseHom.leads hl
  obtain ⟨en, _, _, hkey⟩ := (accounts_reachable hp).published hrow
  have hex : Exhausted κ row.attemptCount p := by
    refine ⟨⟨row, hrow, hst, rfl, hmax⟩, ?_⟩
    intro e job φ hth _
    by_contra hφ
    refine hidle e ⟨phaseHom.mapThread ⟨job, some φ⟩, by simp [Code.Hom.mapConfig, hth], ?_⟩
    rw [phaseHom.next_mapThread]
    cases φ <;> first | (simp [Phase.early] at hφ; done) | simp [Thread.next, phaseCode_view, Phase.view]
  have hex' : Exhausted κ row.attemptCount p' := by
    refine hp'.induct hp (P := Exhausted κ row.attemptCount) ?_ hex
    intro q a q' hq hex _ hstep
    exact hex.move (traceId_ne_of_key hkey) (move_of_step (inv_reachable hq) hstep)
  obtain ⟨row', hrow', hst', hn', _⟩ := hex'.row
  exact ⟨row', hrow', hst', hn'⟩

/-! ## Deliveries that cannot get to the claim -/

/-- The message of the delivery cannot lead to a claim: its retry hint raises, its time
cannot be cast, or the task has no attempts left. -/
def Blocked (d : Decoding) (job : Job) (row : AnalysisTask) : Phase → Prop
  | .sleep => (∃ err, d.notBefore job.message.envelope.hints = .raises err) ∨
      d.stamp (streamMessageEnqueuedAt job.message) = none ∨ row.maxAttempts ≤ row.attemptCount
  | .insert => d.stamp (streamMessageEnqueuedAt job.message) = none ∨ row.maxAttempts ≤ row.attemptCount
  | .claim | .get => row.maxAttempts ≤ row.attemptCount
  | .done _ => True
  | _ => False

theorem Blocked.early (h : Blocked d job row φ) : φ.early = true := by
  cases φ <;> first | rfl | cases h

theorem Blocked.step (h : Blocked d job row φ) (hview : φ.view job = some ⟨o, k⟩) (hl : φ.Local e job w)
    (hperf : perform d e o ch w = some (r, w')) (hrow : w.durable.tasks job.key = some row)
    (hst : row.status.terminal = false) : Blocked d job row (k r) := by
  cases φ with
  | sleep =>
    cases hview
    cases r with
    | error exc => trivial
    | ok x =>
      obtain ⟨_, hx, _⟩ | heff | ⟨_, _, _, hx, _⟩ := perform_cases hperf
      · cases hx
      · obtain ⟨err, herr⟩ | h := h
        · simp only [effect, herr] at heff
          cases (Prod.mk.inj (Option.some.inj heff)).1
        · exact h
      · cases hx
  | insert =>
    cases hview
    cases r with
    | error exc => trivial
    | ok x =>
      obtain ⟨_, hx, _⟩ | heff | ⟨_, _, _, hx, _⟩ := perform_cases hperf
      · cases hx
      · obtain hstamp | h := h
        · simp only [effect, hstamp, Option.bind_eq_bind, Option.bind_eq_some_iff] at heff
          obtain ⟨_, _, hx⟩ := heff
          cases (Prod.mk.inj (Option.some.inj hx)).1
        · exact h
      · cases hx
  | claim =>
    have hearly := early_step hview rfl hl hperf hrow hst h
    cases hview
    rcases r with _ | _ | task
    · trivial
    · exact h
    · cases hearly
  | get =>
    have hearly := early_step hview rfl hl hperf hrow hst h
    cases hview
    rcases r with _ | task
    · trivial
    · simp only [Phase.plain, Phase.afterGet] at hearly ⊢
      split
      · rename_i hs
        rw [hs] at hearly
        simp only at hearly
        split at hearly <;> cases hearly
      · rename_i hs
        rw [hs] at hearly
        cases hearly
      · trivial
  | done => cases hview
  | _ => cases h

theorem Change.blocked (h : Change e job φ s s') (hb : Blocked d job row φ)
    (hrow : s.tasks job.key = some row) :
    s'.redis = s.redis ∧ ∃ row', s'.tasks job.key = some row' ∧ row'.status = row.status ∧
      row'.attemptCount = row.attemptCount ∧ row'.maxAttempts = row.maxAttempts := by
  cases h with
  | refl => exact ⟨rfl, row, hrow, rfl, rfl, rfl⟩
  | insert =>
    rw [hrow]
    exact ⟨rfl, _, Function.update_self .., rfl, rfl, rfl⟩
  | claim hrow' hclaim =>
    obtain rfl := Option.some.inj (hrow.symm.trans hrow')
    have hlt := (AnalysisTask.claimable_iff.1 (claimTask_eq_some hclaim).1).1
    have hmax : row.maxAttempts ≤ row.attemptCount := hb
    omega
  | enqueued _ _ hφ => obtain rfl | ⟨_, _, rfl⟩ := hφ <;> cases hb
  | publish hφ =>
    rw [Phase.publishes_early hb.early] at hφ
    cases hφ
  | ack hφ =>
    rw [Phase.acks_early hb.early] at hφ
    cases hφ
  | processing | succeeded | terminal | retryable => cases hb

/-- The execution is blocked, and nothing has happened to the task or the streams. -/
structure Waiting (d : Decoding) (e : ExecId) (job : Job) (row : AnalysisTask) (redis : Redis)
    (c : PhaseConfig) : Prop where
  streams : c.world.redis = redis
  same : ∃ row', c.world.durable.tasks job.key = some row' ∧ row'.status = row.status ∧
    row'.attemptCount = row.attemptCount ∧ row'.maxAttempts = row.maxAttempts
  blocked : ∃ φ, c.threads e = some ⟨job, some φ⟩ ∧ Blocked d job row φ

theorem Blocked.congr {row' : AnalysisTask} (h : Blocked d job row φ)
    (ha : row'.attemptCount = row.attemptCount) (hm : row'.maxAttempts = row.maxAttempts) :
    Blocked d job row' φ := by
  cases φ with
  | sleep | insert | claim | get =>
    simp only [Blocked, ha, hm] at h ⊢
    exact h
  | done => trivial
  | _ => cases h

theorem Waiting.step {redis : Redis} (h : Waiting d e job row redis c) (hinv : Inv c)
    (hst : row.status.terminal = false) (hstep : (phases d).step c (.exec e ch) = some c') :
    Waiting d e job row redis c' := by
  obtain ⟨hredis, ⟨row₁, hrow₁, hst₁, ha₁, hm₁⟩, φ, hth, hb⟩ := h
  have hb₁ := hb.congr ha₁ hm₁
  obtain ⟨job', φ', o, k, r, w', hth', hview, hperf, rfl⟩ := exec_step hstep
  obtain ⟨rfl, hφ⟩ := Thread.mk.inj (Option.some.inj (hth.symm.trans hth'))
  obtain rfl := Option.some.inj hφ
  obtain ⟨_, hchange⟩ := exec_local hinv.sound (hinv.delivered hth) (hinv.live hth) (hinv.locals hth) hview hperf
  obtain ⟨hredis₂, row₂, hrow₂, hst₂, ha₂, hm₂⟩ := hchange.blocked hb₁ hrow₁
  refine ⟨Eq.trans hredis₂ hredis, ⟨row₂, hrow₂, hst₂.trans hst₁, ha₂.trans ha₁, hm₂.trans hm₁⟩,
    k r, Function.update_self .., ?_⟩
  exact (hb₁.step hview (hinv.locals hth) hperf hrow₁ (hst₁ ▸ hst)).congr ha₁.symm hm₁.symm

/-! ## Deliveries that do -/

/-- The world after a transaction of its own in which `e` has written a task. -/
def World.taskWritten (w : World) (e : ExecId) (κ : TaskKey) (row : AnalysisTask) : World :=
  w.withDb e (w.db.ownTxn e
    { w.db.tasks with committed := Function.update w.db.tasks.committed κ (some row) })

theorem World.tasks_taskWritten (w : World) (e : ExecId) (κ : TaskKey) (row : AnalysisTask) :
    (w.taskWritten e κ row).durable.tasks κ = some row :=
  Function.update_self ..

/-- The execution is between transactions and on time, and nobody has locked the task
or its trace. -/
structure Ready (w : World) (e : ExecId) (κ : TaskKey) : Prop where
  clean : w.Clean e
  txn : w.db.txnStart e = none
  since : w.since e = w.clock
  task : w.db.tasks.dirty κ = none
  trace : w.db.traces.dirty κ.traceId = none

namespace Ready

theorem txnNow (h : Ready w e κ) (hnow : ch.now = w.clock) : w.txnNow e ch = some w.clock := by
  simp [World.txnNow, h.txn, h.since, hnow]

theorem withRedis (h : Ready w e κ) : Ready (w.withRedis e w.redis) e κ :=
  ⟨h.clean.withRedis _, h.txn, Function.update_self .., h.task, h.trace⟩

theorem taskWritten (h : Ready w e κ) (row : AnalysisTask) : Ready (w.taskWritten e κ row) e κ :=
  ⟨⟨h.clean.tasks, h.clean.traces, h.clean.analysis⟩, Function.update_self .., Function.update_self ..,
    h.task, h.trace⟩

theorem autocommit (h : Ready w e κ) (row : AnalysisTask) :
    w.db.tasks.autocommit e κ (some row) =
      some { w.db.tasks with committed := Function.update w.db.tasks.committed κ (some row) } := by
  simp [Table.autocommit, Table.Free, h.task]

theorem insertTask (h : Ready w e κ) (hf : ch.fault = .none) (hnow : ch.now = w.clock) {stamp : Stamp}
    {queuedAt : Time} (hstamp : d.stamp stamp = some queuedAt) {tr : TraceRow}
    (htr : w.durable.traces κ.traceId = some tr) (hrow : w.durable.tasks κ = some row)
    (stream : String) (id : MessageId) (maxAttempts : Nat) :
    ∃ row', row'.status = row.status ∧ row'.attemptCount = row.attemptCount ∧
      row'.maxAttempts = row.maxAttempts ∧ row'.leaseExpiresAt = row.leaseExpiresAt ∧
      perform d e (.insertTask κ stream id stamp maxAttempts) ch w = some (.ok (), w.taskWritten e κ row') := by
  have hview : w.db.traces.view e κ.traceId = some tr := (h.clean.traces.view_none _).trans htr
  have hcommitted : w.db.tasks.committed κ = some row := hrow
  refine ⟨Analysis.insertTask stream id queuedAt maxAttempts w.clock (some row), rfl, rfl, rfl, rfl, ?_⟩
  simp only [perform, hf, effect, h.txnNow hnow, hstamp, hview, hcommitted, h.autocommit,
    Option.bind_eq_bind, Option.bind_some]
  rfl

theorem claimTask (h : Ready w e κ) (d : Decoding) (hf : ch.fault = .none) (hnow : ch.now = w.clock)
    (hrow : w.durable.tasks κ = some row) (hclaim : row.claimable w.clock = true) (worker : String)
    (leaseSeconds : Nat) :
    ∃ row', row'.status = .leased ∧ row'.leaseOwner = worker ∧ row'.attemptCount = row.attemptCount + 1 ∧
      perform d e (.claimTask κ worker leaseSeconds) ch w = some (.ok (some row'), w.taskWritten e κ row') := by
  have hcommitted : w.db.tasks.committed κ = some row := hrow
  obtain ⟨row', hrow'⟩ : ∃ row', Analysis.claimTask worker leaseSeconds w.clock row = some row' := by
    simp [Analysis.claimTask, hclaim]
  obtain ⟨_, hst, hown, hatt, _⟩ := claimTask_eq_some hrow'
  refine ⟨row', hst, hown, hatt, ?_⟩
  simp only [perform, hf, effect, h.txnNow hnow, hcommitted, hrow', h.autocommit,
    Option.bind_eq_bind, Option.bind_some]
  rfl

theorem markProcessing (h : Ready w e κ) (d : Decoding) (hf : ch.fault = .none) (hnow : ch.now = w.clock)
    {tr : TraceRow}
    (htr : w.durable.traces κ.traceId = some tr) (stage : AnalysisStage) :
    ∃ b w', perform d e (.execute (.markTraceStageProcessing κ.traceId stage)) ch w = some (.ok b, w') := by
  have hview : w.db.traces.view e κ.traceId = some tr := (h.clean.traces.view_none _).trans htr
  have hfree : w.db.traces.Free e κ.traceId := by
    simp [Table.Free, h.trace]
  simp only [perform, hf, effect, h.txnNow hnow, Statement.run, Database.updateTrace, Table.update, hview,
    Option.map_some, if_pos hfree, Option.bind_eq_bind, Option.bind_some]
  exact ⟨_, _, rfl⟩

end Ready

theorem Change.tasks_processing {task : AnalysisTask} (h : Change e job φ s s')
    (hφ : φ = .markProcessing task ∨ φ = .commitProcessing task) : s'.tasks = s.tasks := by
  cases h with
  | refl | processing | enqueued | publish | ack => rfl
  | insert | claim | succeeded | terminal | retryable => obtain h | h := hφ <;> cases h

theorem exists_step (hth : c.threads e = some ⟨job, some φ⟩) (hview : φ.view job = some ⟨o, k⟩)
    (hperf : perform d e o ch c.world = some (r, w')) :
    ∃ c', (phases d).step c (.exec e ch) = some c' ∧ c'.threads e = some ⟨job, some (k r)⟩ ∧ c'.world = w' :=
  ⟨_, step_exec hth hview hperf, Function.update_self .., rfl⟩

theorem tasks_of_processing {task : AnalysisTask} (hc : (phases d).Reachable c)
    (hth : c.threads e = some ⟨job, some φ⟩) (hφ : φ = .markProcessing task ∨ φ = .commitProcessing task)
    (hstep : (phases d).step c (.exec e ch) = some c') : c'.world.durable.tasks = c.world.durable.tasks := by
  cases move_of_step (inv_reachable hc) hstep with
  | exec hth' _ _ _ _ _ _ hchange =>
    obtain ⟨rfl, hx⟩ := Thread.mk.inj (Option.some.inj (hth.symm.trans hth'))
    obtain rfl := Option.some.inj hx
    exact hchange.tasks_processing hφ

theorem starts_of_ready (hc : (phases d).Reachable c) (hth : c.threads e = some ⟨job, some .insert⟩)
    (hr : Ready c.world e job.key) (ch : Choice) (hf : ch.fault = .none) (hnow : ch.now = c.world.clock)
    {queuedAt : Time}
    (hstamp : d.stamp (streamMessageEnqueuedAt job.message) = some queuedAt)
    (hrow : c.world.durable.tasks job.key = some row) (hclaim : row.claimable c.world.clock = true) :
    ∃ c' task row', (phases d).run c (List.replicate 4 (.exec e ch)) = some c' ∧
      c'.threads e = some ⟨job, some (.analyse task)⟩ ∧ c'.world.durable.tasks job.key = some row' ∧
      row'.status = .leased ∧ row'.leaseOwner = job.workerId ∧ row'.attemptCount = row.attemptCount + 1 := by
  obtain ⟨tr, htr⟩ := (inv_reachable hc).sound.inserted hrow
  obtain ⟨row₁, hst₁, ha₁, hm₁, hl₁, hperf₁⟩ := hr.insertTask hf hnow hstamp htr hrow
    job.message.streamName job.message.messageId job.maxAttempts
  obtain ⟨c₁, hstep₁, hth₁, hw₁⟩ := exists_step hth rfl hperf₁
  have hr₁ : Ready c₁.world e job.key := hw₁ ▸ hr.taskWritten row₁
  have hclaim₁ : row₁.claimable c₁.world.clock = true := by
    rw [hw₁]
    simp only [AnalysisTask.claimable, AnalysisTask.leaseExpired, hst₁, ha₁, hm₁, hl₁] at hclaim ⊢
    exact hclaim
  obtain ⟨row₂, hst₂, hown₂, ha₂, hperf₂⟩ := hr₁.claimTask d hf (hnow.trans (by rw [hw₁]; rfl))
    (by rw [hw₁]; exact World.tasks_taskWritten ..) hclaim₁ job.workerId job.leaseSeconds
  obtain ⟨c₂, hstep₂, hth₂, hw₂⟩ := exists_step hth₁ rfl hperf₂
  have hr₂ : Ready c₂.world e job.key := hw₂ ▸ hr₁.taskWritten row₂
  obtain ⟨b, w₃, hperf₃⟩ := hr₂.markProcessing d hf (hnow.trans (by rw [hw₂, hw₁]; rfl))
    (by rw [hw₂, hw₁]; exact htr) job.stage
  obtain ⟨c₃, hstep₃, hth₃, rfl⟩ := exists_step hth₂ rfl hperf₃
  have hperf₄ : perform d e .commit ch c₃.world = some (.ok (), c₃.world.withDb e (c₃.world.db.commit e)) := by
    simp only [perform, hf]
    rfl
  obtain ⟨c₄, hstep₄, hth₄, _⟩ := exists_step hth₃ rfl hperf₄
  have hc₂ := (hc.step trivial hstep₁).step trivial hstep₂
  refine ⟨c₄, row₂, row₂, ?_, hth₄, ?_, hst₂, hown₂, ha₂.trans (by rw [ha₁])⟩
  · simp only [List.replicate, TransitionSystem.run, hstep₁, hstep₂, hstep₃, hstep₄, Option.bind_some]
  · rw [tasks_of_processing (hc₂.step trivial hstep₃) hth₃ (.inr rfl) hstep₄,
      tasks_of_processing hc₂ hth₂ (.inl rfl) hstep₃, hw₂]
    exact World.tasks_taskWritten ..

/-! ## The next delivery -/

/-- A message of an unfinished task can be delivered to a new execution: the task has no
unexpired lease, the message's time has come, and no transaction is open on the rows. -/
structure Redeliverable (d : Decoding) (c : WorkerConfig) (e : ExecId) (x : Delivery) (m : StreamMessage)
    (row : AnalysisTask) : Prop where
  message : messageFromEntry x.entry = .ok m
  entry : x.entry ∈ c.world.redis.entries ∧ x.entry.stream ≠ streamDlq ∧ ¬ c.world.redis.Acked x.entry
  fresh : c.threads e = none
  task : c.world.durable.tasks m.key = some row
  unfinished : row.status ≠ .succeeded ∧ row.status ≠ .failedTerminal
  lease : row.status = .leased → row.leaseExpired c.world.clock = true
  due : ∀ t, d.notBefore m.envelope.hints = .at t → t ≤ c.world.clock
  unlocked : c.world.db.tasks.dirty m.key = none ∧ c.world.db.traces.dirty m.envelope.traceId = none

/-- The processing of the delivery, alone and without failures, gets somewhere: it starts
the stage with the task claimed, or leaves the task failed with a dead letter, or
acknowledges the message. -/
def Progresses (d : Decoding) (c : WorkerConfig) (e : ExecId) (x : Delivery) (κ : TaskKey)
    (row : AnalysisTask) : Prop :=
  ∃ n c', (workers d).run c (.start e x :: List.replicate n (.exec e { now := c.world.clock })) = some c' ∧
    ((∃ p t row', c'.nextOp workerCode e = some (.analyse p t) ∧ c'.world.durable.tasks κ = some row' ∧
        row'.status = .leased ∧ row'.leaseOwner = x.workerId ∧ row'.attemptCount = row.attemptCount + 1) ∨
      (c'.world.durable.HasStatus κ .failedTerminal ∧ c'.world.durable.DeadLettered κ) ∨
      c'.world.redis.Acked x.entry)

theorem AnalysisTask.not_terminal_of_unfinished (h : row.status ≠ .succeeded ∧ row.status ≠ .failedTerminal) :
    row.status.terminal = false := by
  cases hst : row.status with
  | succeeded => exact absurd hst h.1
  | failedTerminal => exact absurd hst h.2
  | _ => rfl

theorem AnalysisTask.claimable_of_expired {now : Time} (hlt : row.attemptCount < row.maxAttempts)
    (h : row.status ≠ .succeeded ∧ row.status ≠ .failedTerminal)
    (hl : row.status = .leased → row.leaseExpired now = true) : row.claimable now = true := by
  simp only [claimable, hlt, decide_true, Bool.true_and]
  cases hst : row.status with
  | succeeded => exact absurd hst h.1
  | failedTerminal => exact absurd hst h.2
  | leased => simp [hl hst]
  | queued | failedRetryable => rfl

section Next

variable {x : Delivery} {m : StreamMessage} {p : PhaseConfig}

/-- The state right after the delivery. -/
def delivered (p : PhaseConfig) (e : ExecId) (x : Delivery) (m : StreamMessage) : PhaseConfig :=
  { p with world := p.world.withRedis e p.world.redis
           threads := Function.update p.threads e (some ⟨x.job m, some (Phase.boot (x.job m))⟩) }

theorem step_delivered (h : Redeliverable d (phaseHom.mapConfig p) e x m row) :
    (phases d).step p (.start e x) = some (delivered p e x m) := by
  have hth : p.threads e = none := Option.map_eq_none_iff.1 h.fresh
  refine step_start hth ?_
  have hentry : x.entry ∈ p.world.redis.entries ∧ x.entry.stream ≠ streamDlq ∧ ¬ p.world.redis.Acked x.entry :=
    h.entry
  simp only [deliver, h.message, if_pos hentry]

theorem boot_of_redeliverable (hp : (phases d).Reachable p)
    (h : Redeliverable d (phaseHom.mapConfig p) e x m row) :
    Phase.boot (x.job m) = if x.respectRetryBackoff then .sleep else .insert := by
  obtain ⟨en, _, _, hkey⟩ := (accounts_reachable hp).published h.task
  have hne : m.envelope.traceId ≠ "" := traceId_ne_of_key hkey
  have hstrip : strip (x.job m).traceId ≠ "" := by
    show strip m.envelope.traceId ≠ ""
    rw [strip_traceId h.message]
    exact hne
  rw [Phase.boot, if_neg hstrip]
  rfl

theorem ready_delivered (hp : (phases d).Reachable p) (h : Redeliverable d (phaseHom.mapConfig p) e x m row) :
    Ready (delivered p e x m).world e m.key := by
  have hth : p.threads e = none := Option.map_eq_none_iff.1 h.fresh
  obtain ⟨hclean, htxn⟩ := (inv_reachable hp).fresh hth
  exact ⟨hclean.withRedis _, htxn, Function.update_self .., h.unlocked.1, h.unlocked.2⟩

theorem not_progresses_of_blocked (hp : (phases d).Reachable p)
    (h : Redeliverable d (phaseHom.mapConfig p) e x m row)
    (hb : Blocked d (x.job m) row (Phase.boot (x.job m))) :
    ¬ Progresses d (phaseHom.mapConfig p) e x m.key row := by
  rintro ⟨n, c', hrun, hprog⟩
  obtain ⟨p', hp', rfl⟩ := Option.map_eq_some_iff.1 ((phaseHom.run_mapConfig p _).symm.trans hrun)
  obtain ⟨q, hq, hrest⟩ := Option.bind_eq_some_iff.1 hp'
  obtain rfl := Option.some.inj ((step_delivered h).symm.trans hq)
  have hst := AnalysisTask.not_terminal_of_unfinished h.unfinished
  have hwait : Waiting d e (x.job m) row p.world.redis (delivered p e x m) :=
    ⟨rfl, ⟨row, h.task, rfl, rfl, rfl⟩, _, Function.update_self .., hb⟩
  have hwait' : Waiting d e (x.job m) row p.world.redis p' := by
    refine TransitionSystem.run_induct ?_ (fun _ _ => trivial) (hp.step trivial hq) hwait hrest
    intro s a s' ha hs hw _ hstep
    obtain rfl := List.eq_of_mem_replicate ha
    exact hw.step (inv_reachable hs) hst hstep
  obtain ⟨hredis, ⟨row', hrow', hst', _⟩, φ, hth, hblocked⟩ := hwait'
  obtain ⟨pr, t, _, hop, _⟩ | ⟨⟨row'', hrow'', hst''⟩, _⟩ | hack := hprog
  · rw [phaseHom.nextOp_mapConfig] at hop
    have hearly := hblocked.early
    cases φ with
    | sleep | insert | claim | get =>
      rw [nextOp_of_view hth rfl] at hop
      cases hop
    | done =>
      rw [Config.nextOp, hth] at hop
      cases hop
    | _ => cases hearly
  · obtain rfl := Option.some.inj (hrow'.symm.trans hrow'')
    exact h.unfinished.2 (hst'.symm.trans hst'')
  · have hack : p'.world.redis.Acked x.entry := hack
    rw [hredis] at hack
    exact h.entry.2.2 hack

theorem progresses_of_attempts (hp : (phases d).Reachable p)
    (h : Redeliverable d (phaseHom.mapConfig p) e x m row) (hlt : row.attemptCount < row.maxAttempts)
    {queuedAt : Time} (hstamp : d.stamp (streamMessageEnqueuedAt m) = some queuedAt)
    (hhint : x.respectRetryBackoff = true → ∀ err, d.notBefore m.envelope.hints ≠ .raises err) :
    Progresses d (phaseHom.mapConfig p) e x m.key row := by
  have hboot := boot_of_redeliverable hp h
  have hready := ready_delivered hp h
  have hclaim : row.claimable p.world.clock = true :=
    AnalysisTask.claimable_of_expired hlt h.unfinished h.lease
  have hq := hp.step trivial (step_delivered h)
  -- The wait for the retry time is a step of its own, and changes nothing.
  obtain ⟨n, q, hrun, hqreach, hth, hw⟩ : ∃ n q, (phases d).run (delivered p e x m)
      (List.replicate n (.exec e { now := p.world.clock })) = some q ∧ (phases d).Reachable q ∧
      q.threads e = some ⟨x.job m, some .insert⟩ ∧
      (q.world = (delivered p e x m).world ∨
        q.world = (delivered p e x m).world.withRedis e (delivered p e x m).world.redis) := by
    by_cases hr : x.respectRetryBackoff = true
    · rw [if_pos hr] at hboot
      have hth : (delivered p e x m).threads e = some ⟨x.job m, some .sleep⟩ := by
        rw [← hboot]
        exact Function.update_self ..
      have hperf : perform d e (.sleepForRetryBackoff m) { now := p.world.clock } (delivered p e x m).world =
          some (.ok (), (delivered p e x m).world.withRedis e (delivered p e x m).world.redis) := by
        simp only [perform, effect]
        cases hb : d.notBefore m.envelope.hints with
        | absent => rfl
        | «at» t => exact if_pos (h.due t hb)
        | raises err => exact absurd hb (hhint hr err)
      obtain ⟨q, hstep, hth', hw⟩ := exists_step hth rfl hperf
      refine ⟨1, q, ?_, hq.step trivial hstep, hth', .inr hw⟩
      simp only [List.replicate, TransitionSystem.run, hstep, Option.bind_some]
    · rw [if_neg hr] at hboot
      refine ⟨0, delivered p e x m, rfl, hq, ?_, .inl rfl⟩
      rw [← hboot]
      exact Function.update_self ..
  have hready' : Ready q.world e (x.job m).key := by
    obtain hw | hw := hw
    · exact hw ▸ hready
    · exact hw ▸ hready.withRedis
  have hclock : q.world.clock = p.world.clock := by obtain hw | hw := hw <;> rw [hw] <;> rfl
  have hrow : q.world.durable.tasks (x.job m).key = some row := by
    obtain hw | hw := hw <;> rw [hw] <;> exact h.task
  obtain ⟨q', task, row', hrun', hth', hrow', hst', hown', hatt'⟩ :=
    starts_of_ready hqreach hth hready' { now := p.world.clock } rfl hclock.symm hstamp hrow (hclock ▸ hclaim)
  have hop : (phaseHom.mapConfig q').nextOp workerCode e =
      some (.analyse (x.job m).processor (x.job m).traceId) := by
    rw [phaseHom.nextOp_mapConfig, nextOp_of_view hth' rfl]
  refine ⟨n + 4, phaseHom.mapConfig q', ?_, .inl ⟨_, _, row', hop, hrow', hst', hown', hatt'⟩⟩
  have hall : (phases d).run p (.start e x :: List.replicate (n + 4) (.exec e { now := p.world.clock })) =
      some q' := by
    rw [TransitionSystem.run, step_delivered h, Option.bind_some, List.replicate_add,
      TransitionSystem.run_append hrun, hrun']
  exact (phaseHom.run_mapConfig p _).trans (congrArg (Option.map phaseHom.mapConfig) hall)

/-- A task that is not finished and has no unexpired lease: processing its next message
gets somewhere exactly if there are attempts left, the time of the message can be cast,
and reading the retry hint, where the worker does, raises nothing. -/
theorem unstuck_iff {c : WorkerConfig} (hc : (workers d).Reachable c) (h : Redeliverable d c e x m row) :
    Progresses d c e x m.key row ↔
      row.attemptCount < row.maxAttempts ∧ (d.stamp (streamMessageEnqueuedAt m)).isSome = true ∧
        (x.respectRetryBackoff = true → ∀ err, d.notBefore m.envelope.hints ≠ .raises err) := by
  obtain ⟨p, hp, rfl⟩ := phases_of_workers hc
  constructor
  · intro hprog
    by_contra hcond
    refine not_progresses_of_blocked hp h ?_ hprog
    have hor : (x.respectRetryBackoff = true ∧ ∃ err, d.notBefore m.envelope.hints = .raises err) ∨
        d.stamp (streamMessageEnqueuedAt m) = none ∨ row.maxAttempts ≤ row.attemptCount := by
      by_contra hnot
      push Not at hnot
      exact hcond ⟨hnot.2.2, Option.isSome_iff_ne_none.2 hnot.2.1, hnot.1⟩
    rw [boot_of_redeliverable hp h]
    split
    · obtain ⟨_, herr⟩ | hrest := hor
      · exact .inl herr
      · exact .inr hrest
    · rename_i hr
      obtain ⟨hr', _⟩ | hrest := hor
      · exact absurd hr' hr
      · exact hrest
  · rintro ⟨hlt, hstamp, hhint⟩
    obtain ⟨queuedAt, hstamp⟩ := Option.isSome_iff_exists.1 hstamp
    exact progresses_of_attempts hp h hlt hstamp hhint

end Next

/-! ## A crash in the last attempt -/

/-- The execution of the first message claims the task and crashes, and its lease expires. -/
def crashedClaim (maxAttempts : Nat) : List Step :=
  captured "t" ++
    [.start 0 { entry := bareEntry streamCore ⟨1, 0⟩ "t", workerId := "a", leaseSeconds := 1, maxAttempts }] ++
    List.replicate 3 (.exec 0 {}) ++ [.crash 0, .env (.tick (2 * second))]

def crashedMessage : StreamMessage :=
  ⟨streamCore, ⟨1, 0⟩, ⟨"t", .core, .text "", .text "\x7b\x7d"⟩⟩

/-- The task as the crashed execution has left it. -/
def crashedTask (maxAttempts : Nat) : AnalysisTask where
  status := .leased
  attemptCount := 1
  maxAttempts := maxAttempts
  leaseOwner := "a"
  leaseExpiresAt := some second
  streamName := streamCore
  streamMessageId := ⟨1, 0⟩
  queuedAt := 1000
  startedAt := some 0
  updatedAt := 0

/-- The message is claimed from the pending list by another worker. -/
def redelivery : Delivery := { entry := bareEntry streamCore ⟨1, 0⟩ "t", workerId := "b" }

theorem redeliverable_crashedClaim {n : Nat} (hn : n = 1 ∨ n = 2) :
    ∃ c, runWorkers .bare (crashedClaim n) = some c ∧ (∀ e, ¬ c.InFlight workerCode e) ∧
      Redeliverable .bare c 1 redelivery crashedMessage (crashedTask n) := by
  have hrun : ((runWorkers .bare (crashedClaim n)).map fun c =>
      decide ((redelivery.entry ∈ c.world.redis.entries ∧ redelivery.entry.stream ≠ streamDlq ∧
          ¬ c.world.redis.Acked redelivery.entry) ∧
        (c.nextOp workerCode 0).isNone ∧ (c.threads 1).isNone ∧ c.world.clock = 2 * second ∧
        c.world.durable.tasks crashedMessage.key = some (crashedTask n) ∧
        c.world.db.tasks.dirty crashedMessage.key = none ∧
        c.world.db.traces.dirty crashedMessage.envelope.traceId = none)) = some true := by
    obtain rfl | rfl := hn <;> decide
  obtain ⟨c, hc, hx⟩ := Option.map_eq_some_iff.1 hrun
  simp only [decide_eq_true_eq, Option.isNone_iff_eq_none] at hx
  obtain ⟨hentry, hend, hfresh, hclock, htask, hdirty⟩ := hx
  refine ⟨c, hc, idle_of_run hc fun e he => ?_, ?_⟩
  · obtain rfl : 0 = e := by simpa [crashedClaim, captured, Action.started] using he
    exact hend
  · refine ⟨by rfl, hentry, hfresh, htask, by simp [crashedTask], ?_, ?_, hdirty⟩
    · intro _
      rw [hclock]
      rfl
    · intro t ht
      cases ht

theorem unstuck_second_attempt : ∃ c, (workers .bare).Reachable c ∧
    Progresses .bare c 1 redelivery crashedMessage.key (crashedTask 2) := by
  obtain ⟨c, hc, _, h⟩ := redeliverable_crashedClaim (.inr rfl)
  have hc := reachable_runWorkers hc
  exact ⟨c, hc, (unstuck_iff hc h).2 ⟨by decide, by rfl, fun _ _ herr => by cases herr⟩⟩

/-- The only attempt crashes, and its lease expires. The next delivery of the message
does nothing, and in whatever happens later the task is still leased. -/
theorem crashed_last_attempt : ∃ c, (workers .bare).Reachable c ∧ (∀ e, ¬ c.InFlight workerCode e) ∧
    Redeliverable .bare c 1 redelivery crashedMessage (crashedTask 1) ∧
    ¬ Progresses .bare c 1 redelivery crashedMessage.key (crashedTask 1) ∧
    ∀ c', (workers .bare).Leads (fun _ _ => True) c c' →
      ∃ row, c'.world.durable.tasks crashedMessage.key = some row ∧ row.status = .leased ∧
        row.attemptCount = 1 := by
  obtain ⟨c, hc, hidle, h⟩ := redeliverable_crashedClaim (.inl rfl)
  have hc := reachable_runWorkers hc
  refine ⟨c, hc, hidle, h, ?_, fun c' hl => exhausted_forever hc hidle h.task rfl (by decide) hl⟩
  obtain ⟨p, hp, rfl⟩ := phases_of_workers hc
  refine not_progresses_of_blocked hp h ?_
  rw [boot_of_redeliverable hp h]
  exact .inr (.inr (by decide))

end AuditGateway.Analysis
