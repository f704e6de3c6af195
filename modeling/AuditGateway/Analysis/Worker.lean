import AuditGateway.Framework.Program
import AuditGateway.Analysis.Stream

/-!
# `_process_stream_message`

The worker's treatment of one delivered message (`main.py`) with the two stage
processors (`core_stage.py`, `enrichment_stage.py`), as a program over the
operations that touch Postgres, Redis or a clock. `run_core_once` has the same body.

An operation answers or raises. `insertTask` and `claimTask` are a statement and
its commit; `execute` is a statement in the transaction that the connection has
open, and answers whether a row matched. `analyse` stands for what a stage
processor computes before its writes, and may raise anything.
-/

namespace AuditGateway.Analysis

open AuditGateway.Framework AuditGateway.Python

/-- The two stage processors. -/
inductive Processor
  | core
  | enrichment
deriving DecidableEq, Repr

/-- `build_stage_processor`: the stream decides, and not the message's stage. -/
def buildStageProcessor (stream : String) : Processor :=
  if stream = streamEnrichment then .enrichment else .core

/-- An exception's class name and text. -/
structure Error where
  className : String
  message : String
deriving DecidableEq, Repr

inductive Exn
  | leaseLost (message : String)
  | enrichmentEnqueueRetryable (message : String)
  | error (e : Error)
deriving DecidableEq, Repr

/-- What the rest of the stage uses of the result of `process_job_line`. -/
structure JobLineResult where
  enrichmentReasons : List String := []
  llmJudgeStatus : String := ""
deriving DecidableEq, Repr

/-- The dictionary `_process_stream_message` returns. -/
structure Result where
  workerStatus : String
  pollResult : String := ""
  traceId : TraceId
  enrichmentRequired : Bool := false
  enrichmentReasons : List String := []
  enrichmentEnqueueStatus : String := ""
deriving DecidableEq, Repr

/-- The statements that run inside a transaction of several statements.
`saveAnalysis` is all the writes of `save_trace_analysis` and its like. -/
inductive Statement
  | markTraceStageProcessing (t : TraceId) (stage : AnalysisStage)
  | markTraceStageFailed (t : TraceId) (stage : AnalysisStage) (errorCode : String) (terminal : Bool)
  | markTraceEnrichmentEnqueued (t : TraceId) (queuedAt : Time)
  | updateTraceStageState (t : TraceId) (enrichmentRequired : Bool)
      (enrichmentStatus : TraceStageStatus) (enrichmentQueued : Bool) (lastErrorCode : String)
  | markTraceEnrichmentCompleted (t : TraceId)
  | saveAnalysis (κ : TaskKey) (processor : Processor)
  | markSucceeded (κ : TaskKey) (worker : String)
  | markFailedRetryable (κ : TaskKey) (worker errorCode errorMessage : String)
  | markFailedTerminal (κ : TaskKey) (worker errorCode errorMessage : String)
deriving DecidableEq, Repr

inductive Op
  | sleepForRetryBackoff (m : StreamMessage)
  | now
  | insertTask (κ : TaskKey) (stream : String) (id : MessageId) (queuedAt : Stamp) (maxAttempts : Nat)
  | claimTask (κ : TaskKey) (worker : String) (leaseSeconds : Nat)
  | getTask (κ : TaskKey)
  | selectTrace (t : TraceId)
  | selectMediaSnapshotJobs (t : TraceId)
  | execute (s : Statement)
  | commit
  | rollback
  | analyse (processor : Processor) (t : TraceId)
  | xadd (stream : String) (payload : Payload)
  | xack (stream : String) (id : MessageId)
deriving DecidableEq, Repr

/-- What an operation answers when it does not raise. -/
abbrev Op.Ret : Op → Type
  | sleepForRetryBackoff _ | insertTask .. | commit | rollback | xack .. => Unit
  | now => Time
  | claimTask .. | getTask _ => Option AnalysisTask
  | selectTrace _ => Option TraceRow
  | selectMediaSnapshotJobs _ | execute _ => Bool
  | analyse .. => JobLineResult
  | xadd .. => MessageId

abbrev Op.Res (o : Op) : Type := Except Exn o.Ret

abbrev Worker : Type → Type := Proc Exn Op Op.Ret

/-- The arguments of `_process_stream_message`. `llmJudge` is whether the worker has
one; the processor is the one built for the stream. -/
structure Job where
  workerId : String
  message : StreamMessage
  leaseSeconds : Nat
  maxAttempts : Nat
  respectRetryBackoff : Bool
  llmJudge : Bool
deriving DecidableEq, Repr

namespace Job

variable (job : Job)

abbrev key : TaskKey := job.message.key

abbrev traceId : TraceId := job.message.envelope.traceId

abbrev stage : AnalysisStage := job.message.envelope.stage

def processor : Processor := buildStageProcessor job.message.streamName

theorem processor_cases : job.processor = .core ∨ job.processor = .enrichment := by
  cases job.processor <;> simp

end Job

/-- Performs one operation. -/
def call (o : Op) : Worker o.Ret :=
  Proc.call o

/-! ## Messages between the stages -/

/-- `stream_message_id_to_enqueued_at`. -/
def streamMessageIdToEnqueuedAt (id : MessageId) : Time :=
  id.ms * 1000

/-- `stream_message_enqueued_at`. -/
def streamMessageEnqueuedAt (m : StreamMessage) : Stamp :=
  if m.envelope.enqueuedAt = .text "" then .iso (streamMessageIdToEnqueuedAt m.messageId)
  else m.envelope.enqueuedAt

def ackMessage (m : StreamMessage) : Worker Unit :=
  call (.xack m.streamName m.messageId)

/-- The condition of `trace_needs_enrichment_enqueue_recovery` on the row it reads. -/
def TraceRow.needsEnrichmentEnqueue (row : TraceRow) : Bool :=
  row.enrichmentRequired && row.enrichmentStatus == .pending && row.enrichmentQueuedAt.isNone

def traceNeedsEnrichmentEnqueueRecovery (m : StreamMessage) : Worker Bool :=
  if m.envelope.stage = .core then do
    match ← call (.selectTrace m.envelope.traceId) with
    | none => return false
    | some row => return row.needsEnrichmentEnqueue
  else return false

/-- The text of an exception, for `EnrichmentEnqueueRetryable(str(exc))`. -/
def Exn.str : Exn → String
  | leaseLost message | enrichmentEnqueueRetryable message | error ⟨_, message⟩ => message

def maybeEnqueueEnrichmentAfterCoreCommit (m : StreamMessage) (result : Result) : Worker Result :=
  if m.envelope.stage = .core ∧ result.enrichmentRequired = true then do
    let messageId ← tryCatch
      (call (.xadd streamEnrichment (enrichmentMessage m.envelope.traceId result.enrichmentReasons)))
      (fun exc => throw (.enrichmentEnqueueRetryable exc.str))
    let _ ← call (.execute (.markTraceEnrichmentEnqueued m.envelope.traceId
      (streamMessageIdToEnqueuedAt messageId)))
    call .commit
    return { result with enrichmentEnqueueStatus := "queued" }
  else return result

/-! ## The stage processors -/

/-- `_effective_enrichment_reasons`. -/
def effectiveEnrichmentReasons (llmJudge : Bool) (reasons : List String) : List String :=
  reasons.filter fun reason => !(reason == "llm_judge" && !llmJudge)

/-- `_trace_needs_enrichment`. -/
def traceNeedsEnrichment (t : TraceId) (reasons : List String) (llmJudgeStatus : String) : Worker Bool :=
  if reasons ≠ [] ∨ llmJudgeStatus = "degraded" then return true
  else call (.selectMediaSnapshotJobs t)

/-- `CoreStageProcessor.process`. -/
def coreProcess (job : Job) : Worker Result := do
  let analysis ← call (.analyse .core job.traceId)
  let _ ← call (.execute (.saveAnalysis job.key .core))
  let reasons := effectiveEnrichmentReasons job.llmJudge analysis.enrichmentReasons
  let required ← traceNeedsEnrichment job.traceId reasons analysis.llmJudgeStatus
  let _ ← call (.execute (.updateTraceStageState job.traceId required
    (if required then .pending else .notRequired) false ""))
  return { workerStatus := "processed", traceId := job.traceId
           enrichmentRequired := required, enrichmentReasons := reasons }

/-- `EnrichmentStageProcessor.process`. -/
def enrichmentProcess (job : Job) : Worker Result := do
  let _ ← call (.analyse .enrichment job.traceId)
  let _ ← call (.execute (.saveAnalysis job.key .enrichment))
  let _ ← call (.execute (.markTraceEnrichmentCompleted job.traceId))
  return { workerStatus := "processed", traceId := job.traceId }

def stageProcess (job : Job) : Worker Result :=
  match job.processor with
  | .core => coreProcess job
  | .enrichment => enrichmentProcess job

/-! ## The message processor -/

/-- The error of a `mark_*` update that matched no row. -/
def leaseLost (outcome : String) (job : Job) : Exn :=
  .leaseLost ("lease lost before " ++ outcome ++ " commit for " ++ job.traceId)

/-- The `except` clauses. The exception is raised again at the end of each. -/
def handleException (job : Job) (task : AnalysisTask) : Exn → Worker Result
  | .error err => do
    call .rollback
    if task.maxAttempts ≤ task.attemptCount then do
      let now ← call .now
      let _ ← call (.xadd streamDlq
        (dlqMessage job.message task.attemptCount err.className err.message now))
      let marked ← call (.execute (.markFailedTerminal job.key job.workerId err.className err.message))
      if marked then do
        let _ ← call (.execute (.markTraceStageFailed job.traceId job.stage err.className true))
        call .commit
        ackMessage job.message
        throw (.error err)
      else throw (leaseLost "terminal failure" job)
    else do
      let marked ← call (.execute (.markFailedRetryable job.key job.workerId err.className err.message))
      if marked then do
        let _ ← call (.execute (.markTraceStageFailed job.traceId job.stage err.className false))
        call .commit
        let now ← call .now
        let _ ← call (.xadd job.message.streamName (retryMessage job.message task.attemptCount now))
        ackMessage job.message
        throw (.error err)
      else throw (leaseLost "retryable failure" job)
  | exc => do
    call .rollback
    throw exc

/-- The body of the `try`. -/
def runStage (job : Job) : Worker Result := do
  let _ ← call (.execute (.markTraceStageProcessing job.traceId job.stage))
  call .commit
  let result ← stageProcess job
  let marked ← call (.execute (.markSucceeded job.key job.workerId))
  if marked then do
    call .commit
    maybeEnqueueEnrichmentAfterCoreCommit job.message result
  else throw (leaseLost "success" job)

/-- The branch for a task that could not be claimed. -/
def processUnclaimed (job : Job) : Worker Result := do
  let existing : Option AnalysisTask ← call (.getTask job.key)
  match existing.map AnalysisTask.status with
  | some .succeeded =>
    if ← traceNeedsEnrichmentEnqueueRecovery job.message then do
      let result ← maybeEnqueueEnrichmentAfterCoreCommit job.message
        { workerStatus := "processed", traceId := job.traceId, enrichmentRequired := true }
      ackMessage job.message
      return { result with pollResult := "recovered_enrichment_enqueue" }
    else do
      ackMessage job.message
      return { workerStatus := "deferred", pollResult := "duplicate_acked", traceId := job.traceId }
  | some .failedTerminal => do
    ackMessage job.message
    return { workerStatus := "deferred", pollResult := "duplicate_acked", traceId := job.traceId }
  | _ => return { workerStatus := "deferred", pollResult := "active_lease", traceId := job.traceId }

/-- The branch for a claimed task. -/
def processClaimed (job : Job) (task : AnalysisTask) : Worker Result := do
  let result ← tryCatch (runStage job) (handleException job task)
  ackMessage job.message
  return result

/-- What follows the wait for the message's retry time. -/
def processDue (job : Job) : Worker Result := do
  call (.insertTask job.key job.message.streamName job.message.messageId
    (streamMessageEnqueuedAt job.message) job.maxAttempts)
  match ← call (.claimTask job.key job.workerId job.leaseSeconds) with
  | none => processUnclaimed job
  | some task => processClaimed job task

/-- `_process_stream_message`. -/
def processStreamMessage (job : Job) : Worker Result :=
  if strip job.traceId = "" then do
    ackMessage job.message
    return { workerStatus := "deferred", pollResult := "invalid_message_acked", traceId := "" }
  else if job.respectRetryBackoff then do
    call (.sleepForRetryBackoff job.message)
    processDue job
  else processDue job

end AuditGateway.Analysis
