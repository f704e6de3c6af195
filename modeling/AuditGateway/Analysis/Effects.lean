import AuditGateway.Analysis.Protocol

/-!
# What each operation does

One lemma for each operation of an execution: its answer, what it leaves of the
durable state, and which rows the execution then has changed and not committed
(`World.Holds`). `perform_respects` says once for all operations that they leave
the rows alone that other executions have locked.
-/

namespace AuditGateway.Analysis

open AuditGateway.Framework

/-- The rows that an execution has changed and not committed: at most one of each table. -/
structure Uncommitted where
  task : Option (TaskKey × Option AnalysisTask) := none
  trace : Option (TraceId × Option TraceRow) := none
  write : Option (ExecId × Option StageWrite) := none

structure World.Holds (w : World) (e : ExecId) (u : Uncommitted) : Prop where
  tasks : w.db.tasks.Holds e u.task
  traces : w.db.traces.Holds e u.trace
  analysis : w.db.analysis.Holds e u.write

/-- The execution has nothing to commit. -/
abbrev World.Clean (w : World) (e : ExecId) : Prop := w.Holds e {}

/-- A step of `e` leaves the locked rows of the others alone, and their transactions. -/
structure World.Respects (e : ExecId) (w w' : World) : Prop where
  tasks : Table.Respects e w.db.tasks w'.db.tasks
  traces : Table.Respects e w.db.traces w'.db.traces
  analysis : Table.Respects e w.db.analysis w'.db.analysis
  txnStart {u : ExecId} (hu : u ≠ e) : w'.db.txnStart u = w.db.txnStart u

/-- The durable state once the rows of `u` are committed. -/
def Durable.apply (s : Durable) (u : Uncommitted) : Durable where
  tasks := match u.task with
    | none => s.tasks
    | some (κ, row) => Function.update s.tasks κ row
  traces := match u.trace with
    | none => s.traces
    | some (t, row) => Function.update s.traces t row
  writes := match u.write with
    | none => s.writes
    | some (e, x) => Function.update s.writes e x
  redis := s.redis

variable {d : Decoding} {e e' : ExecId} {ch : Choice} {w w' : World} {u : Uncommitted}

theorem World.Holds.respects (h : w.Holds e' u) (hr : World.Respects e w w') (he : e' ≠ e) :
    w'.Holds e' u :=
  ⟨h.tasks.respects hr.tasks he, h.traces.respects hr.traces he, h.analysis.respects hr.analysis he⟩

theorem World.Respects.of_db (h : w'.db = w.db) : World.Respects e w w' :=
  ⟨h ▸ .refl e _, h ▸ .refl e _, h ▸ .refl e _, fun _ => h ▸ rfl⟩

theorem opened_respects (now : Time) : World.Respects e w (w.withDb e (w.db.opened e now)) :=
  ⟨.refl e _, .refl e _, .refl e _, fun hu => Function.update_of_ne hu _ _⟩

/-! ## Ends of transactions -/

theorem rollback_clean : (w.withDb e (w.db.rollback e)).Clean e :=
  ⟨Table.rollback_holds, Table.rollback_holds, Table.rollback_holds⟩

theorem rollback_respects : World.Respects e w (w.withDb e (w.db.rollback e)) :=
  ⟨Table.rollback_respects, Table.rollback_respects, Table.rollback_respects,
    fun hu => Function.update_of_ne hu _ _⟩

theorem commit_clean : (w.withDb e (w.db.commit e)).Clean e :=
  ⟨Table.commit_holds, Table.commit_holds, Table.commit_holds⟩

theorem commit_respects : World.Respects e w (w.withDb e (w.db.commit e)) :=
  ⟨Table.commit_respects, Table.commit_respects, Table.commit_respects,
    fun hu => Function.update_of_ne hu _ _⟩

theorem commit_durable (h : w.Holds e u) :
    (w.withDb e (w.db.commit e)).durable = w.durable.apply u := by
  obtain ⟨task, trace, write⟩ := u
  ext1
  · cases task with
    | none => exact Table.commit_committed_none h.tasks
    | some x => exact Table.commit_committed_some h.tasks
  · cases trace with
    | none => exact Table.commit_committed_none h.traces
    | some x => exact Table.commit_committed_some h.traces
  · cases write with
    | none => exact Table.commit_committed_none h.analysis
    | some x => exact Table.commit_committed_some h.analysis
  · rfl

theorem World.Holds.withRedis (h : w.Holds e u) (redis : Redis) : (w.withRedis e' redis).Holds e u :=
  ⟨h.tasks, h.traces, h.analysis⟩

@[simp] theorem refused_durable (o : Op) : (refused e o w).durable = w.durable := by
  cases o <;> rfl

theorem refused_clean (o : Op) (h : w.Clean e) : (refused e o w).Clean e := by
  cases o with
  | sleepForRetryBackoff m | now | analyse p t | xadd s p | xack s i => exact h.withRedis _
  | _ => exact rollback_clean

theorem refused_respects (o : Op) : World.Respects e w (refused e o w) := by
  cases o with
  | sleepForRetryBackoff m | now | analyse p t | xadd s p | xack s i => exact .of_db rfl
  | _ => exact rollback_respects

/-! ## Statements -/

/-- The statement, seen from the committed rows: whether it matches, and what the
execution then has to commit. -/
def Statement.effect (s : Statement) (e : ExecId) (now : Time) (st : Durable) (u : Uncommitted) :
    Bool × Uncommitted :=
  match s with
  | markTraceStageProcessing t stage => onTrace t (Analysis.markTraceStageProcessing stage now)
  | markTraceStageFailed t stage errorCode terminal =>
    onTrace t (Analysis.markTraceStageFailed stage errorCode terminal now)
  | markTraceEnrichmentEnqueued t queuedAt => onTrace t (Analysis.markTraceEnrichmentEnqueued queuedAt now)
  | updateTraceStageState t required status queued errorCode =>
    onTrace t (Analysis.updateTraceStageState required status queued errorCode now)
  | markTraceEnrichmentCompleted t => onTrace t (Analysis.markTraceEnrichmentCompleted now)
  | saveAnalysis κ p => (true, { u with write := some (e, some ⟨κ, p⟩) })
  | markSucceeded κ worker => onTask κ (Analysis.markSucceeded worker now)
  | markFailedRetryable κ worker errorCode errorMessage =>
    onTask κ (Analysis.markFailedRetryable worker errorCode errorMessage now)
  | markFailedTerminal κ worker errorCode errorMessage =>
    onTask κ (Analysis.markFailedTerminal worker errorCode errorMessage now)
where
  onTrace (t : TraceId) (set : TraceRow → TraceRow) : Bool × Uncommitted :=
    match st.traces t with
    | some r => (true, { u with trace := some (t, some (set r)) })
    | none => (false, u)
  onTask (κ : TaskKey) (set : AnalysisTask → Option AnalysisTask) : Bool × Uncommitted :=
    match (st.tasks κ).bind set with
    | some row => (true, { u with task := some (κ, some row) })
    | none => (false, u)

/-- The execution has not yet changed a row of the statement's table. -/
def Statement.First (u : Uncommitted) : Statement → Prop
  | markTraceStageProcessing .. | markTraceStageFailed .. | markTraceEnrichmentEnqueued ..
  | updateTraceStageState .. | markTraceEnrichmentCompleted .. => u.trace = none
  | saveAnalysis .. => u.write = none
  | markSucceeded .. | markFailedRetryable .. | markFailedTerminal .. => u.task = none

variable {db : Database} {now : Time} {b : Bool}

theorem updateTrace_spec {t : TraceId} {set : TraceRow → TraceRow}
    (h : w.db.updateTrace e t set = some (b, db)) (hw : w.Holds e u) (hu : u.trace = none) :
    b = (Statement.effect.onTrace w.durable u t set).1 ∧
      (w.withDb e (db.opened e now)).Holds e (Statement.effect.onTrace w.durable u t set).2 ∧
      (w.withDb e (db.opened e now)).durable = w.durable := by
  obtain ⟨⟨b', tbl⟩, hup, hx⟩ := Option.map_eq_some_iff.1 h
  obtain ⟨rfl, rfl⟩ := Prod.mk.inj hx
  have hdur : (w.withDb e (({ w.db with traces := tbl }).opened e now)).durable = w.durable := by
    ext1
    · rfl
    · exact Table.update_committed hup
    · rfl
    · rfl
  have htr := hw.traces
  rw [hu] at htr
  obtain ⟨v, hf, rfl, hh⟩ | ⟨hf, rfl, rfl⟩ := Table.update_holds htr hup
  · obtain ⟨r, hr, rfl⟩ := Option.map_eq_some_iff.1 hf
    have hr' : w.durable.traces t = some r := hr
    simp only [Statement.effect.onTrace, hr']
    exact ⟨trivial, ⟨hw.tasks, hh, hw.analysis⟩, hdur⟩
  · have hr' : w.durable.traces t = none := Option.map_eq_none_iff.1 hf
    simp only [Statement.effect.onTrace, hr']
    exact ⟨trivial, ⟨hw.tasks, hw.traces, hw.analysis⟩, hdur⟩

variable {κ : TaskKey}

theorem updateTask_spec {set : AnalysisTask → Option AnalysisTask}
    (h : w.db.updateTask e κ set = some (b, db)) (hw : w.Holds e u)
    (hu : u.task = none) :
    b = (Statement.effect.onTask w.durable u κ set).1 ∧
      (w.withDb e (db.opened e now)).Holds e (Statement.effect.onTask w.durable u κ set).2 ∧
      (w.withDb e (db.opened e now)).durable = w.durable := by
  obtain ⟨⟨b', tbl⟩, hup, hx⟩ := Option.map_eq_some_iff.1 h
  obtain ⟨rfl, rfl⟩ := Prod.mk.inj hx
  have hdur : (w.withDb e (({ w.db with tasks := tbl }).opened e now)).durable = w.durable := by
    ext1
    · exact Table.update_committed hup
    · rfl
    · rfl
    · rfl
  have htr := hw.tasks
  rw [hu] at htr
  obtain ⟨v, hf, rfl, hh⟩ | ⟨hf, rfl, rfl⟩ := Table.update_holds htr hup
  · obtain ⟨row, hr, rfl⟩ := Option.map_eq_some_iff.1 hf
    have hr' : (w.durable.tasks κ).bind set = some row := hr
    simp only [Statement.effect.onTask, hr']
    exact ⟨trivial, ⟨hh, hw.traces, hw.analysis⟩, hdur⟩
  · have hr' : (w.durable.tasks κ).bind set = none := Option.map_eq_none_iff.1 hf
    simp only [Statement.effect.onTask, hr']
    exact ⟨trivial, ⟨hw.tasks, hw.traces, hw.analysis⟩, hdur⟩

theorem saveAnalysis_spec {p : Processor}
    (h : w.db.saveAnalysis e κ p = some (b, db)) (hw : w.Holds e u) (hu : u.write = none) :
    b = true ∧ (w.withDb e (db.opened e now)).Holds e { u with write := some (e, some ⟨κ, p⟩) } ∧
      (w.withDb e (db.opened e now)).durable = w.durable := by
  obtain ⟨⟨b', tbl⟩, hup, hx⟩ := Option.map_eq_some_iff.1 h
  obtain ⟨rfl, rfl⟩ := Prod.mk.inj hx
  have hdur : (w.withDb e (({ w.db with analysis := tbl }).opened e now)).durable = w.durable := by
    ext1
    · rfl
    · rfl
    · exact Table.update_committed hup
    · rfl
  have htr := hw.analysis
  rw [hu] at htr
  obtain ⟨v, hf, rfl, hh⟩ | ⟨hf, _⟩ := Table.update_holds htr hup
  · obtain rfl := Option.some.inj hf
    exact ⟨rfl, ⟨hw.tasks, hw.traces, hh⟩, hdur⟩
  · cases hf

theorem execute_spec {s : Statement} {r : Op.Res (.execute s)}
    (h : effect d e (.execute s) ch w = some (r, w')) (hw : w.Holds e u) (hs : s.First u) :
    ∃ now, w.txnNow e ch = some now ∧ r = .ok (s.effect e now w.durable u).1 ∧
      w'.Holds e (s.effect e now w.durable u).2 ∧ w'.durable = w.durable := by
  simp only [effect, Option.bind_eq_bind, Option.bind_eq_some_iff] at h
  obtain ⟨now, hnow, ⟨b, db⟩, hrun, hx⟩ := h
  obtain ⟨rfl, rfl⟩ := Prod.mk.inj (Option.some.inj hx)
  refine ⟨now, hnow, ?_⟩
  cases s with
  | markTraceStageProcessing t stage | markTraceStageFailed t stage errorCode terminal
  | markTraceEnrichmentEnqueued t queuedAt | updateTraceStageState t required status queued errorCode
  | markTraceEnrichmentCompleted t =>
    obtain ⟨rfl, hh, hd⟩ := updateTrace_spec hrun hw hs
    exact ⟨rfl, hh, hd⟩
  | saveAnalysis κ p =>
    obtain ⟨rfl, hh, hd⟩ := saveAnalysis_spec hrun hw hs
    exact ⟨rfl, hh, hd⟩
  | markSucceeded κ worker | markFailedRetryable κ worker errorCode errorMessage
  | markFailedTerminal κ worker errorCode errorMessage =>
    obtain ⟨rfl, hh, hd⟩ := updateTask_spec hrun hw hs
    exact ⟨rfl, hh, hd⟩

/-! ## The other operations -/

theorem autocommit_durable {row : AnalysisTask}
    {tasks : Table ExecId TaskKey (Option AnalysisTask)}
    (h : w.db.tasks.autocommit e κ (some row) = some tasks) (hw : w.Clean e) :
    (w.withDb e (w.db.ownTxn e tasks)).Clean e ∧
      (w.withDb e (w.db.ownTxn e tasks)).durable =
        { w.durable with tasks := Function.update w.durable.tasks κ (some row) } := by
  obtain ⟨_, rfl⟩ := Table.autocommit_eq_some h
  exact ⟨⟨hw.tasks, hw.traces, hw.analysis⟩, rfl⟩

variable {stream : String}

theorem insertTask_spec {id : MessageId} {stamp : Stamp}
    {maxAttempts : Nat} {r : Op.Res (.insertTask κ stream id stamp maxAttempts)}
    (h : effect d e (.insertTask κ stream id stamp maxAttempts) ch w = some (r, w')) (hw : w.Clean e) :
    w'.Clean e ∧ ((∃ exc, r = .error exc ∧ w'.durable = w.durable) ∨
      r = .ok () ∧ ∃ queuedAt now row, w.durable.traces κ.traceId = some row ∧
        w'.durable = { w.durable with
          tasks := Function.update w.durable.tasks κ
            (some (Analysis.insertTask stream id queuedAt maxAttempts now (w.durable.tasks κ))) }) := by
  simp only [effect, Option.bind_eq_bind, Option.bind_eq_some_iff] at h
  obtain ⟨now, _, h⟩ := h
  rw [hw.traces.view_none] at h
  split at h
  · obtain ⟨rfl, rfl⟩ := Prod.mk.inj (Option.some.inj h)
    exact ⟨rollback_clean, .inl ⟨_, rfl, rfl⟩⟩
  · obtain ⟨rfl, rfl⟩ := Prod.mk.inj (Option.some.inj h)
    exact ⟨rollback_clean, .inl ⟨_, rfl, rfl⟩⟩
  · rename_i queuedAt row _ hrow
    obtain ⟨tasks, hauto, hx⟩ := Option.bind_eq_some_iff.1 h
    obtain ⟨rfl, rfl⟩ := Prod.mk.inj (Option.some.inj hx)
    obtain ⟨hc, hd⟩ := autocommit_durable hauto hw
    exact ⟨hc, .inr ⟨rfl, queuedAt, now, row, hrow, hd⟩⟩

theorem claimTask_spec {worker : String} {leaseSeconds : Nat}
    {r : Op.Res (.claimTask κ worker leaseSeconds)}
    (h : effect d e (.claimTask κ worker leaseSeconds) ch w = some (r, w')) (hw : w.Clean e) :
    w'.Clean e ∧ ((r = .ok none ∧ w'.durable = w.durable) ∨
      ∃ now row row', w.durable.tasks κ = some row ∧
        Analysis.claimTask worker leaseSeconds now row = some row' ∧ r = .ok (some row') ∧
        w'.durable = { w.durable with tasks := Function.update w.durable.tasks κ (some row') }) := by
  simp only [effect, Option.bind_eq_bind, Option.bind_eq_some_iff] at h
  obtain ⟨now, _, h⟩ := h
  split at h
  · obtain ⟨rfl, rfl⟩ := Prod.mk.inj (Option.some.inj h)
    exact ⟨⟨hw.tasks, hw.traces, hw.analysis⟩, .inl ⟨rfl, rfl⟩⟩
  · rename_i row' hclaim
    obtain ⟨row, hrow, hclaim⟩ := Option.bind_eq_some_iff.1 hclaim
    obtain ⟨tasks, hauto, hx⟩ := Option.bind_eq_some_iff.1 h
    obtain ⟨rfl, rfl⟩ := Prod.mk.inj (Option.some.inj hx)
    obtain ⟨hc, hd⟩ := autocommit_durable hauto hw
    exact ⟨hc, .inr ⟨now, row, row', hrow, hclaim, rfl, hd⟩⟩

theorem getTask_spec {r : Op.Res (.getTask κ)}
    (h : effect d e (.getTask κ) ch w = some (r, w')) (hw : w.Clean e) :
    w'.Clean e ∧ r = .ok (w.durable.tasks κ) ∧ w'.durable = w.durable := by
  simp only [effect, Option.bind_eq_bind, Option.bind_eq_some_iff] at h
  obtain ⟨now, _, h⟩ := h
  rw [hw.tasks.view_none] at h
  obtain ⟨rfl, rfl⟩ := Prod.mk.inj (Option.some.inj h)
  exact ⟨⟨hw.tasks, hw.traces, hw.analysis⟩, rfl, rfl⟩

theorem selectTrace_spec {t : TraceId} {r : Op.Res (.selectTrace t)}
    (h : effect d e (.selectTrace t) ch w = some (r, w')) (hw : w.Clean e) :
    w'.Clean e ∧ r = .ok (w.durable.traces t) ∧ w'.durable = w.durable := by
  simp only [effect, Option.bind_eq_bind, Option.bind_eq_some_iff] at h
  obtain ⟨now, _, h⟩ := h
  rw [hw.traces.view_none] at h
  obtain ⟨rfl, rfl⟩ := Prod.mk.inj (Option.some.inj h)
  exact ⟨⟨hw.tasks, hw.traces, hw.analysis⟩, rfl, rfl⟩

theorem selectMedia_spec {t : TraceId} {r : Op.Res (.selectMediaSnapshotJobs t)}
    (h : effect d e (.selectMediaSnapshotJobs t) ch w = some (r, w')) (hw : w.Holds e u) :
    w'.Holds e u ∧ r = .ok ch.hasMedia ∧ w'.durable = w.durable := by
  simp only [effect, Option.bind_eq_bind, Option.bind_eq_some_iff] at h
  obtain ⟨now, _, h⟩ := h
  obtain ⟨rfl, rfl⟩ := Prod.mk.inj (Option.some.inj h)
  exact ⟨⟨hw.tasks, hw.traces, hw.analysis⟩, rfl, rfl⟩

theorem xadd_spec {payload : Payload} {r : Op.Res (.xadd stream payload)}
    (h : effect d e (.xadd stream payload) ch w = some (r, w')) (hw : w.Holds e u) :
    w'.Holds e u ∧ r = .ok ch.id ∧ w.durable.redis.Fresh stream ch.id ∧
      w'.durable = { w.durable with redis := w.durable.redis.xadd ⟨stream, ch.id, payload⟩ } := by
  simp only [effect] at h
  split at h <;> [skip; cases h]
  rename_i hf
  obtain ⟨rfl, rfl⟩ := Prod.mk.inj (Option.some.inj h)
  exact ⟨hw.withRedis _, rfl, hf, rfl⟩

theorem xack_spec {id : MessageId} {r : Op.Res (.xack stream id)}
    (h : effect d e (.xack stream id) ch w = some (r, w')) (hw : w.Holds e u) :
    w'.Holds e u ∧ r = .ok () ∧
      w'.durable = { w.durable with redis := w.durable.redis.xack stream id } := by
  obtain ⟨rfl, rfl⟩ := Prod.mk.inj (Option.some.inj h)
  exact ⟨hw.withRedis _, rfl, rfl⟩

/-! ## Failures, and the others -/

theorem perform_cases {o : Op} {r : o.Res} (h : perform d e o ch w = some (r, w')) :
    (∃ err, r = .error (.error err) ∧ w' = refused e o w) ∨ effect d e o ch w = some (r, w') ∨
      ∃ err r', o.inTransaction = false ∧ r = .error (.error err) ∧ effect d e o ch w = some (r', w') := by
  unfold perform at h
  split at h
  · exact .inr (.inl h)
  · rename_i err _
    obtain ⟨rfl, rfl⟩ := Prod.mk.inj (Option.some.inj h)
    exact .inl ⟨err, rfl, rfl⟩
  · rename_i err _
    split at h
    · obtain ⟨rfl, rfl⟩ := Prod.mk.inj (Option.some.inj h)
      exact .inl ⟨err, rfl, rfl⟩
    · rename_i ho
      obtain ⟨⟨r', w₁⟩, heff, hx⟩ := Option.map_eq_some_iff.1 h
      obtain ⟨rfl, rfl⟩ := Prod.mk.inj hx
      exact .inr (.inr ⟨err, r', by simpa using ho, rfl, heff⟩)

theorem run_respects {s : Statement}
    (h : s.run e now w.db = some (b, db)) : World.Respects e w (w.withDb e (db.opened e now)) := by
  cases s with
  | markTraceStageProcessing | markTraceStageFailed | markTraceEnrichmentEnqueued
  | updateTraceStageState | markTraceEnrichmentCompleted =>
    obtain ⟨⟨b', tbl⟩, hup, hx⟩ := Option.map_eq_some_iff.1 h
    obtain ⟨rfl, rfl⟩ := Prod.mk.inj hx
    exact ⟨.refl e _, Table.update_respects hup, .refl e _, fun hu => Function.update_of_ne hu _ _⟩
  | saveAnalysis =>
    obtain ⟨⟨b', tbl⟩, hup, hx⟩ := Option.map_eq_some_iff.1 h
    obtain ⟨rfl, rfl⟩ := Prod.mk.inj hx
    exact ⟨.refl e _, .refl e _, Table.update_respects hup, fun hu => Function.update_of_ne hu _ _⟩
  | markSucceeded | markFailedRetryable | markFailedTerminal =>
    obtain ⟨⟨b', tbl⟩, hup, hx⟩ := Option.map_eq_some_iff.1 h
    obtain ⟨rfl, rfl⟩ := Prod.mk.inj hx
    exact ⟨Table.update_respects hup, .refl e _, .refl e _, fun hu => Function.update_of_ne hu _ _⟩

theorem autocommit_respects {row : AnalysisTask}
    {tasks : Table ExecId TaskKey (Option AnalysisTask)}
    (h : w.db.tasks.autocommit e κ (some row) = some tasks) :
    World.Respects e w (w.withDb e (w.db.ownTxn e tasks)) :=
  ⟨Table.autocommit_respects h, .refl e _, .refl e _, fun hu => Function.update_of_ne hu _ _⟩

theorem effect_respects {o : Op} {r : o.Res} (h : effect d e o ch w = some (r, w')) :
    World.Respects e w w' := by
  cases o with
  | sleepForRetryBackoff m =>
    simp only [effect] at h
    split at h
    · obtain ⟨rfl, rfl⟩ := Prod.mk.inj (Option.some.inj h)
      exact .of_db rfl
    · split at h <;> [skip; cases h]
      obtain ⟨rfl, rfl⟩ := Prod.mk.inj (Option.some.inj h)
      exact .of_db rfl
    · obtain ⟨rfl, rfl⟩ := Prod.mk.inj (Option.some.inj h)
      exact .of_db rfl
  | now | analyse p t | xack s i =>
    obtain ⟨rfl, rfl⟩ := Prod.mk.inj (Option.some.inj h)
    exact .of_db rfl
  | insertTask κ stream id stamp maxAttempts =>
    simp only [effect, Option.bind_eq_bind, Option.bind_eq_some_iff] at h
    obtain ⟨now, _, h⟩ := h
    split at h
    · obtain ⟨rfl, rfl⟩ := Prod.mk.inj (Option.some.inj h)
      exact rollback_respects
    · obtain ⟨rfl, rfl⟩ := Prod.mk.inj (Option.some.inj h)
      exact rollback_respects
    · obtain ⟨tasks, hauto, hx⟩ := Option.bind_eq_some_iff.1 h
      obtain ⟨rfl, rfl⟩ := Prod.mk.inj (Option.some.inj hx)
      exact autocommit_respects hauto
  | claimTask κ worker leaseSeconds =>
    simp only [effect, Option.bind_eq_bind, Option.bind_eq_some_iff] at h
    obtain ⟨now, _, h⟩ := h
    split at h
    · obtain ⟨rfl, rfl⟩ := Prod.mk.inj (Option.some.inj h)
      exact ⟨.refl e _, .refl e _, .refl e _, fun hu => Function.update_of_ne hu _ _⟩
    · obtain ⟨tasks, hauto, hx⟩ := Option.bind_eq_some_iff.1 h
      obtain ⟨rfl, rfl⟩ := Prod.mk.inj (Option.some.inj hx)
      exact autocommit_respects hauto
  | getTask κ | selectTrace t | selectMediaSnapshotJobs t =>
    simp only [effect, Option.bind_eq_bind, Option.bind_eq_some_iff] at h
    obtain ⟨now, _, h⟩ := h
    obtain ⟨rfl, rfl⟩ := Prod.mk.inj (Option.some.inj h)
    exact opened_respects now
  | execute s =>
    simp only [effect, Option.bind_eq_bind, Option.bind_eq_some_iff] at h
    obtain ⟨now, _, ⟨b, db⟩, hrun, hx⟩ := h
    obtain ⟨rfl, rfl⟩ := Prod.mk.inj (Option.some.inj hx)
    exact run_respects hrun
  | commit =>
    obtain ⟨rfl, rfl⟩ := Prod.mk.inj (Option.some.inj h)
    exact commit_respects
  | rollback =>
    obtain ⟨rfl, rfl⟩ := Prod.mk.inj (Option.some.inj h)
    exact rollback_respects
  | xadd stream payload =>
    simp only [effect] at h
    split at h <;> [skip; cases h]
    obtain ⟨rfl, rfl⟩ := Prod.mk.inj (Option.some.inj h)
    exact .of_db rfl

theorem perform_respects {o : Op} {r : o.Res} (h : perform d e o ch w = some (r, w')) :
    World.Respects e w w' := by
  obtain ⟨_, _, rfl⟩ | h | ⟨_, _, _, _, h⟩ := perform_cases h
  · exact refused_respects o
  · exact effect_respects h
  · exact effect_respects h

end AuditGateway.Analysis
