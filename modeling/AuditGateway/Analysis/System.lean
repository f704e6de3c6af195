import AuditGateway.Framework.Table
import AuditGateway.Analysis.Phase

/-!
# Postgres, Redis and the workers

The world that executions of `_process_stream_message` share, and what each
operation does to it. Any number of executions run at once, operation by
operation, and may crash between any two of them.

* An operation can raise without effect (`Fault.before`), even while it waits for a
  row lock, or take effect and still raise, as when the connection breaks after the
  server has committed (`Fault.after`). A statement that fails aborts its transaction.
* `now()` in a statement is the start of its transaction: a time between the
  execution's last operation and the statement itself, which may have waited for
  a row lock.
* Redis delivers an entry again and again until it is acknowledged (`deliver`).
  An entry with an unknown stage is acknowledged where the batch is read (`discard`).
* Outside of the workers, traces are captured (`captureTrace`) and marked as queued
  (`markTraceCoreQueued`), and messages with any fields are added to any stream but
  the dead letter queue (`publish`).
-/

namespace AuditGateway.Analysis

open AuditGateway.Framework

abbrev ExecId := Nat

/-- All that a stage processor writes in one execution, as one record: for which
task, and which processor it was. -/
structure StageWrite where
  key : TaskKey
  processor : Processor
deriving DecidableEq, Repr

/-- The tables, and the start of each execution's open transaction. What the stage
processors write is kept apart by execution, so that none of them waits for another. -/
structure Database where
  tasks : Table ExecId TaskKey (Option AnalysisTask)
  traces : Table ExecId TraceId (Option TraceRow)
  analysis : Table ExecId ExecId (Option StageWrite)
  txnStart : ExecId → Option Time

namespace Database

variable (db : Database) (e : ExecId)

def commit : Database where
  tasks := db.tasks.commit e
  traces := db.traces.commit e
  analysis := db.analysis.commit e
  txnStart := Function.update db.txnStart e none

def rollback : Database where
  tasks := db.tasks.rollback e
  traces := db.traces.rollback e
  analysis := db.analysis.rollback e
  txnStart := Function.update db.txnStart e none

/-- `UPDATE traces SET … WHERE trace_id = t`. -/
def updateTrace (t : TraceId) (set : TraceRow → TraceRow) : Option (Bool × Database) :=
  (db.traces.update e t fun row => row.map fun r => some (set r)).map fun x =>
    (x.1, { db with traces := x.2 })

/-- `UPDATE analysis_tasks SET … WHERE` on the task `κ`. -/
def updateTask (κ : TaskKey) (set : AnalysisTask → Option AnalysisTask) : Option (Bool × Database) :=
  (db.tasks.update e κ fun row => (row.bind set).map some).map fun x =>
    (x.1, { db with tasks := x.2 })

/-- The writes of the stage processor of `e`. -/
def saveAnalysis (κ : TaskKey) (p : Processor) : Option (Bool × Database) :=
  (db.analysis.update e e fun _ => some (some ⟨κ, p⟩)).map fun x => (x.1, { db with analysis := x.2 })

end Database

/-- A statement in the transaction of `e` that started at `now`. -/
def Statement.run (s : Statement) (e : ExecId) (now : Time) (db : Database) : Option (Bool × Database) :=
  match s with
  | markTraceStageProcessing t stage =>
    db.updateTrace e t (Analysis.markTraceStageProcessing stage now)
  | markTraceStageFailed t stage errorCode terminal =>
    db.updateTrace e t (Analysis.markTraceStageFailed stage errorCode terminal now)
  | markTraceEnrichmentEnqueued t queuedAt =>
    db.updateTrace e t (Analysis.markTraceEnrichmentEnqueued queuedAt now)
  | updateTraceStageState t required status queued errorCode =>
    db.updateTrace e t (Analysis.updateTraceStageState required status queued errorCode now)
  | markTraceEnrichmentCompleted t => db.updateTrace e t (Analysis.markTraceEnrichmentCompleted now)
  | saveAnalysis κ p => db.saveAnalysis e κ p
  | markSucceeded κ worker => db.updateTask e κ (Analysis.markSucceeded worker now)
  | markFailedRetryable κ worker errorCode errorMessage =>
    db.updateTask e κ (Analysis.markFailedRetryable worker errorCode errorMessage now)
  | markFailedTerminal κ worker errorCode errorMessage =>
    db.updateTask e κ (Analysis.markFailedTerminal worker errorCode errorMessage now)

/-- `since e` is when execution `e` performed its last operation. -/
structure World where
  clock : Time
  since : ExecId → Time
  db : Database
  redis : Redis

/-- What a retry hint of a message from outside says. -/
inductive NotBefore
  | absent
  | at (t : Time)
  | raises (err : Error)
deriving DecidableEq, Repr

/-- What the libraries make of texts from outside: the cast `::timestamptz`, and
`retry_not_before_for_message` on a `hints` field. -/
structure Decoding where
  timestamptz : String → Option Time
  retryNotBefore : String → NotBefore

def Decoding.stamp (d : Decoding) : Stamp → Option Time
  | .text s => d.timestamptz s
  | .iso t => some t

def Decoding.notBefore (d : Decoding) : Hints → NotBefore
  | .text s => d.retryNotBefore s
  | .dumped fields =>
    match fields.lookup "retry_not_before" with
    | some (.iso t) => .at t
    | _ => .absent

inductive Fault
  | none
  | before (err : Error)
  | after (err : Error)
deriving DecidableEq, Repr

/-- What the environment decides about one operation: whether it fails, the time a
transaction starts or the worker's clock shows, the id of a new entry, and what
the stage's own computation or a look at `media_snapshot_jobs` gives. -/
structure Choice where
  fault : Fault := .none
  now : Time := 0
  id : MessageId := ⟨0, 0⟩
  analysis : JobLineResult := {}
  hasMedia : Bool := false
deriving DecidableEq, Repr

namespace World

variable (w : World) (e : ExecId)

/-- The start of the transaction in which `e` runs its next statement. -/
def txnNow (ch : Choice) : Option Time :=
  match w.db.txnStart e with
  | some t => some t
  | none => if w.since e ≤ ch.now ∧ ch.now ≤ w.clock then some ch.now else none

/-- An operation of `e` on the database has ended, at the present time. -/
def withDb (db : Database) : World :=
  { w with since := Function.update w.since e w.clock, db := db }

/-- An operation of `e` on Redis, or on neither, has ended. -/
def withRedis (redis : Redis) : World :=
  { w with since := Function.update w.since e w.clock, redis := redis }

end World

/-- The database after a statement that is a transaction of its own. -/
def Database.ownTxn (db : Database) (e : ExecId) (tasks : Table ExecId TaskKey (Option AnalysisTask)) :
    Database :=
  { db with tasks := tasks, txnStart := Function.update db.txnStart e none }

/-- The database while a transaction of `e` that started at `now` is open. -/
def Database.opened (db : Database) (e : ExecId) (now : Time) : Database :=
  { db with txnStart := Function.update db.txnStart e (some now) }

/-- The answer to a statement the server rejects. -/
def rejected {α : Type} (className : String) : Except Exn α :=
  .error (.error ⟨className, ""⟩)

/-- What an operation of `e` answers and does if it does not fail. -/
def effect (d : Decoding) (e : ExecId) (o : Op) (ch : Choice) (w : World) : Option (o.Res × World) :=
  match o with
  | .sleepForRetryBackoff m =>
    match d.notBefore m.envelope.hints with
    | .absent => some (.ok (), w.withRedis e w.redis)
    | .at t => if t ≤ w.clock then some (.ok (), w.withRedis e w.redis) else none
    | .raises err => some (.error (.error err), w.withRedis e w.redis)
  | .now => some (.ok ch.now, w.withRedis e w.redis)
  | .insertTask κ stream id queuedAt maxAttempts => do
    let now ← w.txnNow e ch
    match d.stamp queuedAt, w.db.traces.view e κ.traceId with
    | none, _ => return (rejected "InvalidDatetimeFormat", w.withDb e (w.db.rollback e))
    | some _, none => return (rejected "ForeignKeyViolation", w.withDb e (w.db.rollback e))
    | some queuedAt, some _ =>
      let row := Analysis.insertTask stream id queuedAt maxAttempts now (w.db.tasks.committed κ)
      let tasks ← w.db.tasks.autocommit e κ (some row)
      return (.ok (), w.withDb e (w.db.ownTxn e tasks))
  | .claimTask κ worker leaseSeconds => do
    let now ← w.txnNow e ch
    match (w.db.tasks.committed κ).bind (Analysis.claimTask worker leaseSeconds now) with
    | none => return (.ok none, w.withDb e (w.db.ownTxn e w.db.tasks))
    | some row =>
      let tasks ← w.db.tasks.autocommit e κ (some row)
      return (.ok (some row), w.withDb e (w.db.ownTxn e tasks))
  | .getTask κ => do
    let now ← w.txnNow e ch
    return (.ok (w.db.tasks.view e κ), w.withDb e (w.db.opened e now))
  | .selectTrace t => do
    let now ← w.txnNow e ch
    return (.ok (w.db.traces.view e t), w.withDb e (w.db.opened e now))
  | .selectMediaSnapshotJobs _ => do
    let now ← w.txnNow e ch
    return (.ok ch.hasMedia, w.withDb e (w.db.opened e now))
  | .execute s => do
    let now ← w.txnNow e ch
    let (matched, db) ← s.run e now w.db
    return (.ok matched, w.withDb e (db.opened e now))
  | .commit => some (.ok (), w.withDb e (w.db.commit e))
  | .rollback => some (.ok (), w.withDb e (w.db.rollback e))
  | .analyse _ _ => some (.ok ch.analysis, w.withRedis e w.redis)
  | .xadd stream payload =>
    if w.redis.Fresh stream ch.id then
      some (.ok ch.id, w.withRedis e (w.redis.xadd ⟨stream, ch.id, payload⟩))
    else none
  | .xack stream id => some (.ok (), w.withRedis e (w.redis.xack stream id))

/-- The operations that run in the open transaction: if one fails, all is lost. -/
def Op.inTransaction : Op → Bool
  | getTask _ | selectTrace _ | selectMediaSnapshotJobs _ | execute _ => true
  | _ => false

/-- What an operation of `e` leaves that has failed without effect. -/
def refused (e : ExecId) (o : Op) (w : World) : World :=
  match o with
  | .sleepForRetryBackoff _ | .now | .analyse .. | .xadd .. | .xack .. => w.withRedis e w.redis
  | _ => w.withDb e (w.db.rollback e)

/-- What an operation of `e` answers and does. -/
def perform (d : Decoding) (e : ExecId) (o : Op) (ch : Choice) (w : World) : Option (o.Res × World) :=
  match ch.fault with
  | .none => effect d e o ch w
  | .before err => some (.error (.error err), refused e o w)
  | .after err =>
    if o.inTransaction then some (.error (.error err), refused e o w)
    else (effect d e o ch w).map fun x => (.error (.error err), x.2)

/-- The steps of the world outside of the workers' message processing. -/
inductive EnvAction
  | tick (t : Time)
  | captureTrace (t : TraceId)
  | markTraceCoreQueued (t : TraceId) (queuedAt now : Time)
  | publish (stream : String) (payload : Payload) (id : MessageId)
  | discard (entry : Entry)
deriving DecidableEq, Repr

/-- The gateway inserts the row of a trace with the defaults of its columns. -/
def World.captureTrace (w : World) (t : TraceId) : World :=
  { w with db.traces.committed := Function.update w.db.traces.committed t (some { updatedAt := w.clock }) }

/-- The gateway has published for a trace. -/
def World.markTraceCoreQueued (w : World) (t : TraceId) (queuedAt now : Time) (row : TraceRow) : World :=
  let row' := Analysis.markTraceCoreQueued queuedAt now row
  { w with db.traces.committed := Function.update w.db.traces.committed t (some row') }

def envStep : EnvAction → World → Option World
  | .tick t, w => if w.clock ≤ t then some { w with clock := t } else none
  | .captureTrace t, w =>
    match w.db.traces.committed t, w.db.traces.dirty t with
    | none, none => some (w.captureTrace t)
    | _, _ => none
  | .markTraceCoreQueued t queuedAt now, w =>
    match w.db.traces.committed t, w.db.traces.dirty t with
    | some row, none => if now ≤ w.clock then some (w.markTraceCoreQueued t queuedAt now row) else none
    | _, _ => none
  | .publish stream payload id, w =>
    if stream ≠ streamDlq ∧ w.redis.Fresh stream id then
      some { w with redis := w.redis.xadd ⟨stream, id, payload⟩ }
    else none
  | .discard entry, w =>
    match messageFromEntry entry with
    | .ok _ => none
    | .error _ =>
      if entry ∈ w.redis.entries ∧ entry.stream ≠ streamDlq ∧ ¬ w.redis.Acked entry then
        some { w with redis := w.redis.xack entry.stream entry.id }
      else none

/-- An entry is delivered to a worker with these settings. -/
structure Delivery where
  entry : Entry
  workerId : String
  leaseSeconds : Nat := 300
  maxAttempts : Nat := 5
  respectRetryBackoff : Bool := true
  llmJudge : Bool := false
deriving DecidableEq, Repr

/-- The arguments of the execution that processes the message of a delivery. -/
def Delivery.job (x : Delivery) (m : StreamMessage) : Job where
  workerId := x.workerId
  message := m
  leaseSeconds := x.leaseSeconds
  maxAttempts := x.maxAttempts
  respectRetryBackoff := x.respectRetryBackoff
  llmJudge := x.llmJudge

def deliver (e : ExecId) (x : Delivery) (w : World) : Option (Job × World) :=
  match messageFromEntry x.entry with
  | .error _ => none
  | .ok m =>
    if x.entry ∈ w.redis.entries ∧ x.entry.stream ≠ streamDlq ∧ ¬ w.redis.Acked x.entry then
      some (x.job m, w.withRedis e w.redis)
    else none

def machine (d : Decoding) : Machine World Op Op.Res ExecId Choice EnvAction Delivery Job where
  perform := perform d
  crash e w := { w with db := w.db.rollback e }
  env := envStep
  start := deliver

/-- Nothing captured, published or analysed yet. -/
structure World.Initial (w : World) : Prop where
  tasks : w.db.tasks.committed = fun _ => none
  traces : w.db.traces.committed = fun _ => none
  analysis : w.db.analysis.committed = fun _ => none
  tasksClean : w.db.tasks.dirty = fun _ => none
  tracesClean : w.db.traces.dirty = fun _ => none
  analysisClean : w.db.analysis.dirty = fun _ => none
  txnStart : w.db.txnStart = fun _ => none
  entries : w.redis.entries = []
  acked : w.redis.acked = []

/-- The world before anything has happened. -/
def World.empty : World where
  clock := 0
  since _ := 0
  db :=
    { tasks := ⟨fun _ => none, fun _ => none⟩
      traces := ⟨fun _ => none, fun _ => none⟩
      analysis := ⟨fun _ => none, fun _ => none⟩
      txnStart := fun _ => none }
  redis := ⟨[], []⟩

theorem World.initial_empty : World.empty.Initial :=
  ⟨rfl, rfl, rfl, rfl, rfl, rfl, rfl, rfl, rfl⟩

/-- The workers: any number of executions of `_process_stream_message`. -/
def workers (d : Decoding) := pool (machine d) workerCode World.Initial

/-- The same with the executions as their phases. -/
def phases (d : Decoding) := pool (machine d) phaseCode World.Initial

abbrev PhaseConfig := Config World Op Op.Res ExecId Job Phase

abbrev WorkerConfig := Config World Op Op.Res ExecId Job (Prog Op Op.Res (Except Exn Result))

abbrev Step := Action ExecId Choice EnvAction Delivery

/-- The workers before the first message. -/
def WorkerConfig.empty : WorkerConfig := ⟨World.empty, fun _ => none, []⟩

theorem WorkerConfig.init_empty (d : Decoding) : (workers d).init WorkerConfig.empty :=
  ⟨World.initial_empty, rfl, rfl⟩

/-- The state after a list of steps from the start, if all of them are possible. -/
def runWorkers (d : Decoding) (steps : List Step) : Option WorkerConfig :=
  (workers d).run WorkerConfig.empty steps

/-- No text is a time, and no message from outside asks for a delay. -/
def Decoding.bare : Decoding := ⟨fun _ => none, fun _ => .absent⟩

/-- The entry of a trace `t` with the fields it needs. -/
def bareEntry (stream : String) (id : MessageId) (t : TraceId) : Entry :=
  ⟨stream, id, { traceId := some t }⟩

/-- A trace is captured, and a message for its core stage published. -/
def captured (t : TraceId) : List Step :=
  [.env (.captureTrace t), .env (.publish streamCore (bareEntry streamCore ⟨1, 0⟩ t).payload ⟨1, 0⟩)]

theorem reachable_runWorkers {d : Decoding} {steps : List Step} {c : WorkerConfig}
    (h : runWorkers d steps = some c) : (workers d).Reachable c :=
  TransitionSystem.reachable_run (WorkerConfig.init_empty d) h

theorem idle_of_run {d : Decoding} {steps : List Step} {c : WorkerConfig}
    (h : runWorkers d steps = some c)
    (hend : ∀ e ∈ steps.filterMap Action.started, c.nextOp workerCode e = none) (e : ExecId) :
    ¬ c.InFlight workerCode e := by
  rintro ⟨th, hth, hnext⟩
  by_cases he : e ∈ steps.filterMap Action.started
  · have hnone := hend e he
    rw [Config.nextOp, hth] at hnone
    exact hnext (Option.map_eq_none_iff.1 hnone)
  · rw [Config.threads_none_of_run h rfl he] at hth
    cases hth

theorem exists_leads {α β : Type} {d : Decoding} {steps rest : List Step} {f : WorkerConfig → α}
    {g : WorkerConfig → β} {x : α} {y : β} (h : ((runWorkers d steps).bind fun c =>
      ((workers d).run c rest).map fun c' => (f c, g c')) = some (x, y)) :
    ∃ c c', (workers d).Reachable c ∧ (workers d).Leads (fun _ _ => True) c c' ∧ f c = x ∧ g c' = y := by
  obtain ⟨c, hc, h⟩ := Option.bind_eq_some_iff.1 h
  obtain ⟨c', hc', h⟩ := Option.map_eq_some_iff.1 h
  obtain ⟨hf, hg⟩ := Prod.mk.inj h
  exact ⟨c, c', reachable_runWorkers hc, TransitionSystem.leads_run hc', hf, hg⟩

/-! ## Steps -/

theorem phaseCode_boot : phaseCode.boot = Phase.boot := by
  simp only [phaseCode]

theorem phaseCode_view : phaseCode.view = Phase.view := by
  simp only [phaseCode]

theorem machine_perform (d : Decoding) : (machine d).perform = perform d := by
  simp only [machine]

theorem machine_env (d : Decoding) : (machine d).env = envStep := by
  simp only [machine]

theorem machine_start (d : Decoding) : (machine d).start = deliver := by
  simp only [machine]

section Steps

variable {d : Decoding} {c c' : PhaseConfig} {e : ExecId}

theorem exec_step {ch : Choice} (h : (phases d).step c (.exec e ch) = some c') :
    ∃ job φ o k r w', c.threads e = some ⟨job, some φ⟩ ∧ φ.view job = some ⟨o, k⟩ ∧
      perform d e o ch c.world = some (r, w') ∧
      c' = { world := w'
             threads := Function.update c.threads e (some ⟨job, some (k r)⟩)
             history := c.history ++ [⟨e, job, o, r⟩] } := by
  have h : c.exec (machine d) phaseCode e ch = some c' := h
  obtain ⟨job, φ, o, k, r, w', hth, hview, hperf, hc⟩ := Config.exec_eq_some h
  rw [phaseCode_view] at hview
  rw [machine_perform] at hperf
  exact ⟨job, φ, o, k, r, w', hth, hview, hperf, hc⟩

theorem crash_step (h : (phases d).step c (.crash e) = some c') :
    ∃ th, c.threads e = some th ∧
      c' = { c with world := { c.world with db := c.world.db.rollback e }
                    threads := Function.update c.threads e (some ⟨th.info, none⟩) } := by
  have h : c.crash (machine d) e = some c' := h
  exact Config.crash_eq_some h

theorem env_step {a : EnvAction} (h : (phases d).step c (.env a) = some c') :
    ∃ w', envStep a c.world = some w' ∧ c' = { c with world := w' } := by
  have h : c.env (machine d) a = some c' := h
  rw [Config.env, machine_env] at h
  obtain ⟨w', hw', rfl⟩ := Option.map_eq_some_iff.1 h
  exact ⟨w', hw', rfl⟩

theorem start_step {x : Delivery} (h : (phases d).step c (.start e x) = some c') :
    ∃ job w', c.threads e = none ∧ deliver e x c.world = some (job, w') ∧
      c' = { c with world := w'
                    threads := Function.update c.threads e (some ⟨job, some (Phase.boot job)⟩) } := by
  have h : c.start (machine d) phaseCode e x = some c' := h
  obtain ⟨job, w', hth, hx, hc⟩ := Config.start_eq_some h
  rw [machine_start] at hx
  rw [phaseCode_boot] at hc
  exact ⟨job, w', hth, hx, hc⟩

theorem step_exec {ch : Choice} {job : Job} {φ : Phase} {o : Op} {k : o.Res → Phase} {r : o.Res} {w' : World}
    (hth : c.threads e = some ⟨job, some φ⟩) (hview : φ.view job = some ⟨o, k⟩)
    (hperf : perform d e o ch c.world = some (r, w')) :
    (phases d).step c (.exec e ch) = some
      { world := w'
        threads := Function.update c.threads e (some ⟨job, some (k r)⟩)
        history := c.history ++ [⟨e, job, o, r⟩] } := by
  show c.exec (machine d) phaseCode e ch = _
  have hnext : Thread.next phaseCode ⟨job, some φ⟩ = some ⟨o, k⟩ := by
    rw [Thread.next, phaseCode_view]
    exact hview
  simp only [Config.exec, hth, hnext, machine_perform, hperf, Option.bind_eq_bind, Option.bind_some]
  rfl

theorem step_start {x : Delivery} {job : Job} {w' : World} (hth : c.threads e = none)
    (hx : deliver e x c.world = some (job, w')) :
    (phases d).step c (.start e x) = some
      { c with world := w'
               threads := Function.update c.threads e (some ⟨job, some (Phase.boot job)⟩) } := by
  show c.start (machine d) phaseCode e x = _
  simp only [Config.start, hth, machine_start, hx, phaseCode_boot, Option.map_some]

end Steps

end AuditGateway.Analysis
