import AuditGateway.Analysis.Effects

/-!
# The workers follow the protocol

`Phase.Local` is what an execution may rely on at each of its control points: which
rows it has changed and not committed (`Follows`), and facts about the durable state
that the others keep. `exec_local` is the one case analysis over the control points:
every operation, however it ends, leads to a phase whose facts hold, and does to the
durable state what `Change` allows.

`Sound` is what holds of the durable state at all times; `exec_local` needs it where
a decision rests on a row that was read.
-/

namespace AuditGateway.Analysis

open AuditGateway.Python

/-- If the trace requires enrichment then a message for it has been published. -/
def Durable.Settled (s : Durable) (t : TraceId) : Prop :=
  ∀ r, s.traces t = some r → r.enrichmentRequired = true → s.Published ⟨t, .enrichment⟩

/-- What holds of the durable state at all times. -/
structure Sound (s : Durable) : Prop where
  rows {κ : TaskKey} {row : AnalysisTask} : s.tasks κ = some row → row.WellFormed
  inserted {κ : TaskKey} {row : AnalysisTask} : s.tasks κ = some row → ∃ r, s.traces κ.traceId = some r
  /-- Enrichment is required by a core stage that has succeeded, or on its way. -/
  required {t : TraceId} {r : TraceRow} : s.traces t = some r → r.enrichmentRequired = true →
    s.Published ⟨t, .enrichment⟩ ∨ s.HasStatus ⟨t, .core⟩ .succeeded
  /-- Where the message for it is still missing, the trace shows it. -/
  unqueued {t : TraceId} {r : TraceRow} : s.traces t = some r → s.HasStatus ⟨t, .core⟩ .succeeded →
    r.enrichmentRequired = true → ¬ s.Published ⟨t, .enrichment⟩ → r.needsEnrichmentEnqueue = true

/-- The message of an execution is an entry of a work stream. -/
def Delivered (job : Job) (s : Durable) : Prop :=
  ∃ en ∈ s.redis.entries, en.stream ≠ streamDlq ∧ messageFromEntry en = .ok job.message

/-! ## What an execution has changed -/

/-- Which changes an execution has made in its open transaction: the update of its
task, that of its trace, and the writes of its stage processor. -/
structure Plan where
  mark : Option (Time → AnalysisTask → Option AnalysisTask) := none
  set : Option (Time → TraceRow → TraceRow) := none
  write : Bool := false

/-- The uncommitted row `x` of the task `κ` is what `mark` makes of the committed one. -/
def Durable.Marked (s : Durable) (κ : TaskKey) (x : Option (TaskKey × Option AnalysisTask)) :
    Option (Time → AnalysisTask → Option AnalysisTask) → Prop
  | none => x = none
  | some mark => ∃ now row row', s.tasks κ = some row ∧ mark now row = some row' ∧ x = some (κ, some row')

/-- The uncommitted row `x` of the trace `t` is what `set` makes of the committed one. -/
def Durable.Set (s : Durable) (t : TraceId) (x : Option (TraceId × Option TraceRow)) :
    Option (Time → TraceRow → TraceRow) → Prop
  | none => x = none
  | some set => ∃ now r, s.traces t = some r ∧ x = some (t, some (set now r))

/-- The uncommitted rows of `e` are what its updates make of the committed rows. -/
structure World.Follows (w : World) (e : ExecId) (job : Job) (p : Plan) (u : Uncommitted) : Prop where
  holds : w.Holds e u
  task : w.durable.Marked job.key u.task p.mark
  trace : w.durable.Set job.traceId u.trace p.set
  write : u.write = if p.write then some (e, some ⟨job.key, job.processor⟩) else none

variable {d : Decoding} {e e' : ExecId} {ch : Choice} {w w' : World} {job : Job} {p : Plan} {u : Uncommitted}

theorem World.Clean.follows (h : w.Clean e) (job : Job) : w.Follows e job {} {} :=
  ⟨h, rfl, rfl, rfl⟩

theorem World.Follows.clean (h : w.Follows e job {} u) : w.Clean e := by
  obtain ⟨task, trace, write⟩ := u
  obtain ⟨hh, ht, hr, hw⟩ := h
  obtain rfl : task = none := ht
  obtain rfl : trace = none := hr
  obtain rfl : write = none := hw
  exact hh

theorem World.Follows.respects (h : w.Follows e job p u) (hr : World.Respects e' w w') (he : e ≠ e') :
    w'.Follows e job p u := by
  refine ⟨h.holds.respects hr he, ?_, ?_, h.write⟩
  · have ht := h.task
    cases hp : p.mark with
    | none =>
      rw [hp] at ht
      exact ht
    | some mark =>
      rw [hp] at ht
      obtain ⟨now, row, row', hrow, hmark, hu⟩ := ht
      have hh := h.holds.tasks
      rw [hu] at hh
      exact ⟨now, row, row', (hh.committed_respects hr.tasks he).trans hrow, hmark, hu⟩
  · have ht := h.trace
    cases hp : p.set with
    | none =>
      rw [hp] at ht
      exact ht
    | some set =>
      rw [hp] at ht
      obtain ⟨now, r, hrow, hu⟩ := ht
      have hh := h.holds.traces
      rw [hu] at hh
      exact ⟨now, r, (hh.committed_respects hr.traces he).trans hrow, hu⟩

section Execute

variable {s : Statement} {r : Op.Res (.execute s)} {row : TraceRow}

theorem World.Follows.execute_set (h : w.Follows e job p u) (hp : p.set = none)
    {set : Time → TraceRow → TraceRow} (hs : s.First u ↔ u.trace = none)
    (hset : ∀ now st, s.effect e now st u = Statement.effect.onTrace st u job.traceId (set now))
    (hrow : w.durable.traces job.traceId = some row) (heff : effect d e (.execute s) ch w = some (r, w')) :
    r = .ok true ∧ w'.durable = w.durable ∧ ∃ u', w'.Follows e job { p with set := some set } u' := by
  have htr := h.trace
  rw [hp] at htr
  obtain ⟨now, _, hr, hh, hd⟩ := execute_spec heff h.holds (hs.2 htr)
  simp only [hset, Statement.effect.onTrace, hrow] at hr hh
  exact ⟨hr, hd, _, hh, hd ▸ h.task, ⟨now, row, hd ▸ hrow, rfl⟩, h.write⟩

theorem World.Follows.execute_mark (h : w.Follows e job p u) (hp : p.mark = none)
    {mark : Time → AnalysisTask → Option AnalysisTask} (hs : s.First u ↔ u.task = none)
    (hmark : ∀ now st, s.effect e now st u = Statement.effect.onTask st u job.key (mark now))
    (heff : effect d e (.execute s) ch w = some (r, w')) :
    w'.durable = w.durable ∧ ((r = .ok true ∧ ∃ u', w'.Follows e job { p with mark := some mark } u') ∨
      (r = .ok false ∧ w'.Follows e job p u)) := by
  have htk := h.task
  rw [hp] at htk
  obtain ⟨now, _, hr, hh, hd⟩ := execute_spec heff h.holds (hs.2 htk)
  simp only [hmark, Statement.effect.onTask] at hr hh
  refine ⟨hd, ?_⟩
  cases hbind : (w.durable.tasks job.key).bind (mark now) with
  | none =>
    simp only [hbind] at hr hh
    exact .inr ⟨hr, hh, hd ▸ h.task, hd ▸ h.trace, h.write⟩
  | some row' =>
    simp only [hbind] at hr hh
    obtain ⟨row, hrow, hm⟩ := Option.bind_eq_some_iff.1 hbind
    exact .inl ⟨hr, _, hh, ⟨now, row, row', hd ▸ hrow, hm, rfl⟩, hd ▸ h.trace, h.write⟩

theorem World.Follows.execute_save
    {r : Op.Res (.execute (.saveAnalysis job.key job.processor))} (h : w.Clean e)
    (heff : effect d e (.execute (.saveAnalysis job.key job.processor)) ch w = some (r, w')) :
    r = .ok true ∧ w'.durable = w.durable ∧ ∃ u', w'.Follows e job { write := true } u' := by
  obtain ⟨now, _, hr, hh, hd⟩ := execute_spec heff h rfl
  exact ⟨hr, hd, _, hh, rfl, rfl, rfl⟩

end Execute

/-! ## Committing -/

section Commit

variable {set : Time → TraceRow → TraceRow} {mark : Time → AnalysisTask → Option AnalysisTask} {write : Bool}

theorem World.Follows.commit_set (h : w.Follows e job { set := some set } u) :
    ∃ now r, w.durable.traces job.traceId = some r ∧ (w.withDb e (w.db.commit e)).durable =
      { w.durable with traces := Function.update w.durable.traces job.traceId (some (set now r)) } := by
  obtain ⟨now, r, hr, hu⟩ := h.trace
  refine ⟨now, r, hr, ?_⟩
  obtain ⟨task, trace, write⟩ := u
  obtain rfl : task = none := h.task
  obtain rfl : trace = _ := hu
  obtain rfl : write = none := h.write
  exact commit_durable h.holds

theorem World.Follows.commit_mark (h : w.Follows e job { mark := some mark, set := some set, write := write } u) :
    ∃ now row row' now' r, w.durable.tasks job.key = some row ∧ mark now row = some row' ∧
      w.durable.traces job.traceId = some r ∧ (w.withDb e (w.db.commit e)).durable =
        { w.durable with
          tasks := Function.update w.durable.tasks job.key (some row')
          traces := Function.update w.durable.traces job.traceId (some (set now' r))
          writes := if write then Function.update w.durable.writes e (some ⟨job.key, job.processor⟩)
            else w.durable.writes } := by
  obtain ⟨now, row, row', hrow, hmark, hu⟩ := h.task
  obtain ⟨now', r, hr, hu'⟩ := h.trace
  refine ⟨now, row, row', now', r, hrow, hmark, hr, ?_⟩
  obtain ⟨task, trace, x⟩ := u
  obtain rfl : task = _ := hu
  obtain rfl : trace = _ := hu'
  obtain rfl : x = _ := h.write
  rw [commit_durable h.holds]
  cases write <;> rfl

end Commit

/-! ## What holds at each control point -/

/-- The core stage has succeeded, and the enrichment message for it is published. -/
def Durable.Enqueuing (s : Durable) (job : Job) : Prop :=
  s.Inserted job.key ∧ s.HasStatus job.key .succeeded ∧ job.stage = .core ∧
    s.Published ⟨job.traceId, .enrichment⟩

theorem Durable.Enqueuing.evolves {s s' : Durable} (h : s.Enqueuing job) (hs : Evolves s s') :
    s'.Enqueuing job :=
  ⟨h.1.evolves hs, h.2.1.evolves rfl hs, h.2.2.1, h.2.2.2.evolves hs⟩

/-- The queued time is any, since the row only shows that there is one. -/
def enqueuedAt (id : MessageId) : Time → TraceRow → TraceRow :=
  markTraceEnrichmentEnqueued (streamMessageIdToEnqueuedAt id)

namespace Phase

/-- The execution is past the check that the trace id is not blank, and not at its end. -/
def live : Phase → Bool
  | ackInvalid | done _ => false
  | _ => true

/-- What execution `e` may rely on at a control point. -/
def Local (e : ExecId) (job : Job) (w : World) : Phase → Prop
  | ackInvalid => w.Clean e ∧ strip job.traceId = ""
  | sleep | insert => w.Clean e
  | claim | get => w.Clean e ∧ w.durable.Inserted job.key
  | selectTrace | recoverPublish => w.Clean e ∧ w.durable.Inserted job.key ∧
      w.durable.HasStatus job.key .succeeded ∧ job.stage = .core
  | recoverMark _ => w.Clean e ∧ w.durable.Enqueuing job
  | recoverCommit => w.durable.Enqueuing job ∧ ∃ id u, w.Follows e job { set := some (enqueuedAt id) } u
  | recoverAck => w.Clean e ∧ w.durable.Enqueuing job
  | ackDuplicate => w.Clean e ∧ (w.durable.HasStatus job.key .failedTerminal ∨
      w.durable.HasStatus job.key .succeeded ∧ (job.stage = .core → w.durable.Settled job.traceId))
  | markProcessing task | analyse task | save task _ => w.Clean e ∧ w.durable.Claimed job.key task
  | commitProcessing task => w.durable.Claimed job.key task ∧
      ∃ u, w.Follows e job { set := some (markTraceStageProcessing job.stage) } u
  | selectMedia task _ | updateState task _ _ => w.durable.Claimed job.key task ∧ job.processor = .core ∧
      ∃ u, w.Follows e job { write := true } u
  | complete task => w.durable.Claimed job.key task ∧ job.processor = .enrichment ∧
      ∃ u, w.Follows e job { write := true } u
  | markSucceeded task result => w.durable.Claimed job.key task ∧
      ∃ u, w.Follows e job { set := some (stageTrace job result), write := true } u
  | commitSucceeded task result => w.durable.Claimed job.key task ∧
      ∃ u, w.Follows e job { mark := some (Analysis.markSucceeded job.workerId)
                             set := some (stageTrace job result), write := true } u
  | publishEnrichment task _ => w.Clean e ∧ w.durable.Claimed job.key task ∧
      w.durable.HasStatus job.key .succeeded ∧ job.stage = .core
  | markEnqueued task _ _ => w.Clean e ∧ w.durable.Claimed job.key task ∧ w.durable.Enqueuing job
  | commitEnqueued task _ => w.durable.Claimed job.key task ∧ w.durable.Enqueuing job ∧
      ∃ id u, w.Follows e job { set := some (enqueuedAt id) } u
  | ackProcessed _ => w.Clean e ∧ w.durable.HasStatus job.key .succeeded ∧
      (job.stage = .core → w.durable.Settled job.traceId)
  | rollbackRaise _ => True
  | rollbackFailure task _ => w.durable.Claimed job.key task
  | dlqTime task _ | publishDlq task _ _ => w.Clean e ∧ w.durable.Claimed job.key task ∧
      task.maxAttempts ≤ task.attemptCount
  | markTerminal task _ => w.Clean e ∧ w.durable.Claimed job.key task ∧
      task.maxAttempts ≤ task.attemptCount ∧ w.durable.DeadLettered job.key
  | failTerminal task err => w.durable.Claimed job.key task ∧ task.maxAttempts ≤ task.attemptCount ∧
      w.durable.DeadLettered job.key ∧
      ∃ u, w.Follows e job { mark := some (markFailedTerminal job.workerId err.className err.message) } u
  | commitTerminal task err => w.durable.Claimed job.key task ∧ task.maxAttempts ≤ task.attemptCount ∧
      w.durable.DeadLettered job.key ∧
      ∃ u, w.Follows e job { mark := some (markFailedTerminal job.workerId err.className err.message)
                             set := some (markTraceStageFailed job.stage err.className true) } u
  | ackTerminal _ => w.Clean e ∧ w.durable.HasStatus job.key .failedTerminal ∧
      w.durable.DeadLettered job.key
  | markRetryable task _ => w.Clean e ∧ w.durable.Claimed job.key task ∧
      task.attemptCount < task.maxAttempts
  | failRetryable task err => w.durable.Claimed job.key task ∧ task.attemptCount < task.maxAttempts ∧
      ∃ u, w.Follows e job { mark := some (markFailedRetryable job.workerId err.className err.message) } u
  | commitRetryable task err => w.durable.Claimed job.key task ∧ task.attemptCount < task.maxAttempts ∧
      ∃ u, w.Follows e job { mark := some (markFailedRetryable job.workerId err.className err.message)
                             set := some (markTraceStageFailed job.stage err.className false) } u
  | retryTime task _ | publishRetry task _ _ => w.Clean e ∧ w.durable.Claimed job.key task ∧
      task.attemptCount < task.maxAttempts
  | ackRetry _ => w.Clean e ∧ w.durable.Replaced job.message
  | done _ => w.Clean e

end Phase

end AuditGateway.Analysis
