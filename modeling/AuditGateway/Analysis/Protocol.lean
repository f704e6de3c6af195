import AuditGateway.Analysis.System

/-!
# The protocol of the durable state

What survives a crash is the committed rows and the streams (`Durable`). `Change`
lists everything that one operation of an execution can do to it, with the phase
at which it happens, and `Outside` what happens apart from the executions. This is
the protocol the workers follow, stated without transactions or locks;
`Analysis/Local.lean` proves that they follow it.
-/

namespace AuditGateway.Analysis

/-- The committed rows and the streams. -/
@[ext] structure Durable where
  tasks : TaskKey → Option AnalysisTask
  traces : TraceId → Option TraceRow
  writes : ExecId → Option StageWrite
  redis : Redis

def World.durable (w : World) : Durable where
  tasks := w.db.tasks.committed
  traces := w.db.traces.committed
  writes := w.db.analysis.committed
  redis := w.redis

/-! ## The changes of one operation -/

/-- What a phase adds to which stream. -/
def Phase.publishes (job : Job) : Phase → Option (String × Payload)
  | recoverPublish => some (streamEnrichment, enrichmentMessage job.traceId [])
  | publishEnrichment _ result =>
    some (streamEnrichment, enrichmentMessage job.traceId result.enrichmentReasons)
  | publishDlq task err now =>
    some (streamDlq, dlqMessage job.message task.attemptCount err.className err.message now)
  | publishRetry task _ now =>
    some (job.message.streamName, retryMessage job.message task.attemptCount now)
  | _ => none

/-- The phases that acknowledge the message. -/
def Phase.acks : Phase → Bool
  | ackInvalid | recoverAck | ackDuplicate | ackProcessed _ | ackTerminal _ | ackRetry _ => true
  | _ => false

/-- The trace row that the stage processor leaves. -/
def stageTrace (job : Job) (result : Result) (now : Time) (r : TraceRow) : TraceRow :=
  match job.processor with
  | .core => updateTraceStageState result.enrichmentRequired
      (if result.enrichmentRequired then .pending else .notRequired) false "" now r
  | .enrichment => markTraceEnrichmentCompleted now r

/-- What one operation of execution `e` at a phase can do to the durable state. -/
inductive Change (e : ExecId) (job : Job) : Phase → Durable → Durable → Prop
  | refl {φ : Phase} {s : Durable} : Change e job φ s s
  | insert {s : Durable} {r : TraceRow} (queuedAt now : Time) (hr : s.traces job.traceId = some r) :
      Change e job .insert s
        { s with tasks := Function.update s.tasks job.key (some (insertTask job.message.streamName
                    job.message.messageId queuedAt job.maxAttempts now (s.tasks job.key))) }
  | claim {s : Durable} {row row' : AnalysisTask} {now : Time} (hrow : s.tasks job.key = some row)
      (hclaim : claimTask job.workerId job.leaseSeconds now row = some row') :
      Change e job .claim s { s with tasks := Function.update s.tasks job.key (some row') }
  | processing {s : Durable} {r : TraceRow} (task : AnalysisTask) (now : Time)
      (hr : s.traces job.traceId = some r) :
      Change e job (.commitProcessing task) s
        { s with traces := Function.update s.traces job.traceId
                    (some (markTraceStageProcessing job.stage now r)) }
  | enqueued {φ : Phase} {s : Durable} {r : TraceRow} (queuedAt now : Time)
      (hφ : φ = .recoverCommit ∨ ∃ task result, φ = .commitEnqueued task result)
      (hr : s.traces job.traceId = some r) :
      Change e job φ s
        { s with traces := Function.update s.traces job.traceId
                    (some (markTraceEnrichmentEnqueued queuedAt now r)) }
  | succeeded {s : Durable} {row row' : AnalysisTask} {r : TraceRow} (task : AnalysisTask)
      (result : Result) {now now' : Time} (hrow : s.tasks job.key = some row)
      (hr : s.traces job.traceId = some r) (hmark : markSucceeded job.workerId now row = some row') :
      Change e job (.commitSucceeded task result) s
        { s with tasks := Function.update s.tasks job.key (some row')
                 traces := Function.update s.traces job.traceId (some (stageTrace job result now' r))
                 writes := Function.update s.writes e (some ⟨job.key, job.processor⟩) }
  | terminal {s : Durable} {row row' : AnalysisTask} {r : TraceRow} (task : AnalysisTask) (err : Error)
      {now now' : Time} (hrow : s.tasks job.key = some row) (hr : s.traces job.traceId = some r)
      (hmark : markFailedTerminal job.workerId err.className err.message now row = some row') :
      Change e job (.commitTerminal task err) s
        { s with tasks := Function.update s.tasks job.key (some row')
                 traces := Function.update s.traces job.traceId
                    (some (markTraceStageFailed job.stage err.className true now' r)) }
  | retryable {s : Durable} {row row' : AnalysisTask} {r : TraceRow} (task : AnalysisTask) (err : Error)
      {now now' : Time} (hrow : s.tasks job.key = some row) (hr : s.traces job.traceId = some r)
      (hmark : markFailedRetryable job.workerId err.className err.message now row = some row') :
      Change e job (.commitRetryable task err) s
        { s with tasks := Function.update s.tasks job.key (some row')
                 traces := Function.update s.traces job.traceId
                    (some (markTraceStageFailed job.stage err.className false now' r)) }
  | publish {φ : Phase} {s : Durable} {stream : String} {payload : Payload} {id : MessageId}
      (hφ : φ.publishes job = some (stream, payload)) (hid : s.redis.Fresh stream id) :
      Change e job φ s { s with redis := s.redis.xadd ⟨stream, id, payload⟩ }
  | ack {φ : Phase} {s : Durable} (hφ : φ.acks = true) :
      Change e job φ s { s with redis := s.redis.xack job.message.streamName job.message.messageId }

/-- What happens to the durable state apart from the executions. -/
inductive Outside : EnvAction → Durable → Durable → Prop
  | tick {s : Durable} {t : Time} : Outside (.tick t) s s
  | capture {s : Durable} {t : TraceId} {now : Time} (ht : s.traces t = none) :
      Outside (.captureTrace t) s { s with traces := Function.update s.traces t (some { updatedAt := now }) }
  | queued {s : Durable} {t : TraceId} {r : TraceRow} {queuedAt now : Time} (hr : s.traces t = some r) :
      Outside (.markTraceCoreQueued t queuedAt now) s
        { s with traces := Function.update s.traces t (some (markTraceCoreQueued queuedAt now r)) }
  | publish {s : Durable} {stream : String} {payload : Payload} {id : MessageId}
      (hs : stream ≠ streamDlq) (hid : s.redis.Fresh stream id) :
      Outside (.publish stream payload id) s { s with redis := s.redis.xadd ⟨stream, id, payload⟩ }
  | discard {s : Durable} {entry : Entry} {err : UnknownStageError} (he : entry ∈ s.redis.entries)
      (hs : entry.stream ≠ streamDlq) (hm : messageFromEntry entry = .error err) :
      Outside (.discard entry) s { s with redis := s.redis.xack entry.stream entry.id }

/-! ## What every change keeps -/

structure Evolves (s s' : Durable) : Prop where
  task {κ : TaskKey} {row : AnalysisTask} (h : s.tasks κ = some row) :
    ∃ row', s'.tasks κ = some row' ∧ row.Le row'
  trace {t : TraceId} {r : TraceRow} (h : s.traces t = some r) : ∃ r', s'.traces t = some r'
  entries : s.redis.entries <+: s'.redis.entries
  acked : s.redis.acked ⊆ s'.redis.acked

theorem Evolves.refl (s : Durable) : Evolves s s :=
  ⟨fun h => ⟨_, h, .refl _⟩, fun h => ⟨_, h⟩, List.prefix_rfl, List.Subset.refl _⟩

theorem Evolves.trans {s s' s'' : Durable} (h : Evolves s s') (h' : Evolves s' s'') : Evolves s s'' where
  task hrow := by
    obtain ⟨row', h1, hle⟩ := h.task hrow
    obtain ⟨row'', h2, hle'⟩ := h'.task h1
    exact ⟨row'', h2, hle.trans hle'⟩
  trace hr := by
    obtain ⟨r', h1⟩ := h.trace hr
    exact h'.trace h1
  entries := h.entries.trans h'.entries
  acked _ hr := h'.acked (h.acked hr)

section Update

variable {s : Durable}

theorem update_eq_some {K V : Type} [DecidableEq K] {f : K → Option V} {k k' : K} {v x : V}
    (h : Function.update f k (some v) k' = some x) : (k' = k ∧ x = v) ∨ (k' ≠ k ∧ f k' = some x) := by
  by_cases hk : k' = k
  · subst hk
    rw [Function.update_self] at h
    exact .inl ⟨rfl, (Option.some.inj h).symm⟩
  · rw [Function.update_of_ne hk] at h
    exact .inr ⟨hk, h⟩

theorem exists_update_task {κ : TaskKey} {row : AnalysisTask} (new : AnalysisTask)
    (hnew : ∀ row, s.tasks κ = some row → row.Le new) {κ' : TaskKey} (h : s.tasks κ' = some row) :
    ∃ row', Function.update s.tasks κ (some new) κ' = some row' ∧ row.Le row' := by
  by_cases hκ : κ' = κ
  · subst hκ
    exact ⟨new, by simp, hnew row h⟩
  · exact ⟨row, by rw [Function.update_of_ne hκ, h], .refl row⟩

theorem exists_update_trace {t : TraceId} (new : TraceRow) {t' : TraceId} {r : TraceRow}
    (h : s.traces t' = some r) : ∃ r', Function.update s.traces t (some new) t' = some r' := by
  by_cases ht : t' = t
  · subst ht
    exact ⟨new, by simp⟩
  · exact ⟨r, by rw [Function.update_of_ne ht, h]⟩

end Update

theorem Change.evolves {e : ExecId} {job : Job} {φ : Phase} {s s' : Durable} (h : Change e job φ s s') :
    Evolves s s' := by
  have hp : ∀ l : List Entry, l <+: l := fun l => List.prefix_rfl
  have ha : ∀ l : List (String × MessageId), l ⊆ l := fun l => List.Subset.refl l
  cases h with
  | refl => exact .refl _
  | insert queuedAt now hr =>
    refine ⟨exists_update_task _ ?_, fun h => ⟨_, h⟩, hp _, ha _⟩
    intro row hrow
    rw [hrow]
    exact insertTask_le ..
  | claim hrow hclaim =>
    refine ⟨exists_update_task _ ?_, fun h => ⟨_, h⟩, hp _, ha _⟩
    intro row hrow'
    obtain rfl := Option.some.inj (hrow.symm.trans hrow')
    exact claimTask_le hclaim
  | processing task now hr | enqueued queuedAt now hφ hr =>
    exact ⟨fun h => ⟨_, h, .refl _⟩, exists_update_trace _, hp _, ha _⟩
  | succeeded task result hrow hr hmark | terminal task err hrow hr hmark | retryable task err hrow hr hmark =>
    refine ⟨exists_update_task _ ?_, exists_update_trace _, hp _, ha _⟩
    intro row hrow'
    obtain rfl := Option.some.inj (hrow.symm.trans hrow')
    exact leasedUpdate_le hmark (fun _ => rfl) (fun _ => rfl)
  | publish hφ hid => exact ⟨fun h => ⟨_, h, .refl _⟩, fun h => ⟨_, h⟩, List.prefix_append _ _, ha _⟩
  | ack hφ => exact ⟨fun h => ⟨_, h, .refl _⟩, fun h => ⟨_, h⟩, hp _, List.subset_cons_self _ _⟩

theorem Outside.evolves {act : EnvAction} {s s' : Durable} (h : Outside act s s') : Evolves s s' := by
  cases h with
  | tick => exact .refl _
  | capture | queued =>
    exact ⟨fun h => ⟨_, h, .refl _⟩, exists_update_trace _, List.prefix_rfl, List.Subset.refl _⟩
  | publish hs hid =>
    exact ⟨fun h => ⟨_, h, .refl _⟩, fun h => ⟨_, h⟩, List.prefix_append _ _, List.Subset.refl _⟩
  | discard he hs hm =>
    exact ⟨fun h => ⟨_, h, .refl _⟩, fun h => ⟨_, h⟩, List.prefix_rfl, List.subset_cons_self _ _⟩

theorem Outside.trace_back {act : EnvAction} {s s' : Durable} (h : Outside act s s') {t : TraceId} {r' : TraceRow}
    (hr' : s'.traces t = some r') :
    (∃ r queuedAt now, s.traces t = some r ∧ r' = { r with coreQueuedAt := queuedAt, updatedAt := now }) ∨
      s.traces t = none ∧ ∃ now, r' = { updatedAt := now } := by
  cases h with
  | tick | publish | discard => exact .inl ⟨r', _, _, hr', rfl⟩
  | capture ht =>
    obtain ⟨rfl, rfl⟩ | ⟨_, hr'⟩ := update_eq_some hr'
    · exact .inr ⟨ht, _, rfl⟩
    · exact .inl ⟨r', _, _, hr', rfl⟩
  | queued hr =>
    obtain ⟨rfl, rfl⟩ | ⟨_, hr'⟩ := update_eq_some hr'
    · exact .inl ⟨_, _, _, hr, rfl⟩
    · exact .inl ⟨r', _, _, hr', rfl⟩

/-! ## Stable facts -/

namespace Durable

variable (s : Durable)

def HasStatus (κ : TaskKey) (status : TaskStatus) : Prop :=
  ∃ row, s.tasks κ = some row ∧ row.status = status

def Terminal (κ : TaskKey) : Prop :=
  ∃ row, s.tasks κ = some row ∧ row.status.terminal = true

instance (κ : TaskKey) (status : TaskStatus) : Decidable (s.HasStatus κ status) :=
  decidable_of_iff ((s.tasks κ).any (·.status == status) = true) (by simp [HasStatus, Option.any_eq_true])

instance (κ : TaskKey) : Decidable (s.Terminal κ) :=
  decidable_of_iff ((s.tasks κ).any (·.status.terminal) = true) (by simp [Terminal, Option.any_eq_true])

/-- The task and its trace have a row. -/
def Inserted (κ : TaskKey) : Prop :=
  (∃ row, s.tasks κ = some row) ∧ ∃ r, s.traces κ.traceId = some r

/-- `task` is what an earlier claim of `κ` returned. -/
def Claimed (κ : TaskKey) (task : AnalysisTask) : Prop :=
  s.Inserted κ ∧ 1 ≤ task.attemptCount ∧ task.attemptCount ≤ task.maxAttempts ∧
    ∃ row, s.tasks κ = some row ∧ task.attemptCount ≤ row.attemptCount ∧
      row.maxAttempts = task.maxAttempts

/-- A message for the task is in one of the work streams, acknowledged or not. -/
def Published (κ : TaskKey) : Prop :=
  ∃ en ∈ s.redis.entries, en.stream ≠ streamDlq ∧ en.key = some κ

/-- A message for the task is in the dead letter queue. -/
def DeadLettered (κ : TaskKey) : Prop :=
  ∃ en ∈ s.redis.entries, en.stream = streamDlq ∧ en.key = some κ

/-- Another message for the task was added after `m`, and names it as its source. -/
def Replaced (m : StreamMessage) : Prop :=
  ∃ l₁ l₂ en en', s.redis.entries = l₁ ++ l₂ ∧ en ∈ l₁ ∧ messageFromEntry en = .ok m ∧ en' ∈ l₂ ∧
    en'.stream = m.streamName ∧ en'.key = some m.key ∧
    ∃ attempt now, en'.payload = retryMessage m attempt now

end Durable

section Stable

variable {s s' : Durable} {κ : TaskKey}

theorem Durable.HasStatus.evolves {status : TaskStatus} (h : s.HasStatus κ status)
    (ht : status.terminal = true) (hs : Evolves s s') : s'.HasStatus κ status := by
  obtain ⟨row, hrow, rfl⟩ := h
  obtain ⟨row', hrow', hle⟩ := hs.task hrow
  exact ⟨row', hrow', hle.terminal ht⟩

theorem Durable.HasStatus.terminal {status : TaskStatus} (h : s.HasStatus κ status)
    (ht : status.terminal = true) : s.Terminal κ := by
  obtain ⟨row, hrow, rfl⟩ := h
  exact ⟨row, hrow, ht⟩

theorem Durable.Terminal.evolves (h : s.Terminal κ) (hs : Evolves s s') : s'.Terminal κ := by
  obtain ⟨row, hrow, ht⟩ := h
  obtain ⟨row', hrow', hle⟩ := hs.task hrow
  exact ⟨row', hrow', by rw [hle.terminal ht, ht]⟩

theorem Durable.Inserted.evolves (h : s.Inserted κ) (hs : Evolves s s') : s'.Inserted κ := by
  obtain ⟨⟨row, hrow⟩, r, hr⟩ := h
  obtain ⟨row', hrow', _⟩ := hs.task hrow
  exact ⟨⟨row', hrow'⟩, hs.trace hr⟩

theorem Durable.Claimed.evolves {task : AnalysisTask} (h : s.Claimed κ task) (hs : Evolves s s') :
    s'.Claimed κ task := by
  obtain ⟨hi, h1, h2, row, hrow, ha, hm⟩ := h
  obtain ⟨row', hrow', hle⟩ := hs.task hrow
  exact ⟨hi.evolves hs, h1, h2, row', hrow', ha.trans hle.attempts, hle.maxAttempts.trans hm⟩

theorem Durable.Published.evolves (h : s.Published κ) (hs : Evolves s s') : s'.Published κ := by
  obtain ⟨en, hen, h1, h2⟩ := h
  exact ⟨en, hs.entries.subset hen, h1, h2⟩

theorem Durable.DeadLettered.evolves (h : s.DeadLettered κ) (hs : Evolves s s') :
    s'.DeadLettered κ := by
  obtain ⟨en, hen, h1, h2⟩ := h
  exact ⟨en, hs.entries.subset hen, h1, h2⟩

theorem Durable.Replaced.evolves {m : StreamMessage} (h : s.Replaced m) (hs : Evolves s s') :
    s'.Replaced m := by
  obtain ⟨l₁, l₂, en, en', hl, h1, h2, h3, h4⟩ := h
  obtain ⟨l₃, hl₃⟩ := hs.entries
  exact ⟨l₁, l₂ ++ l₃, en, en', by rw [← hl₃, hl, List.append_assoc], h1, h2,
    List.mem_append_left _ h3, h4⟩

end Stable

end AuditGateway.Analysis
