import AuditGateway.Analysis.Worker

/-!
# The control points of `_process_stream_message`

`Phase` names every point at which an execution is about to perform an operation,
with the values it still needs, and `Phase.view` is that operation and where its
answer leads. `Phase.prog` is the rest of the program at a point, and `phaseHom`
says that the two agree: the automaton of the phases is the program.
-/

namespace AuditGateway.Analysis

open AuditGateway.Framework AuditGateway.Python

inductive Phase
  | ackInvalid
  | sleep
  | insert
  | claim
  | get
  | selectTrace
  | recoverPublish
  | recoverMark (id : MessageId)
  | recoverCommit
  | recoverAck
  | ackDuplicate
  | markProcessing (task : AnalysisTask)
  | commitProcessing (task : AnalysisTask)
  | analyse (task : AnalysisTask)
  | save (task : AnalysisTask) (analysis : JobLineResult)
  | selectMedia (task : AnalysisTask) (reasons : List String)
  | updateState (task : AnalysisTask) (reasons : List String) (required : Bool)
  | complete (task : AnalysisTask)
  | markSucceeded (task : AnalysisTask) (result : Result)
  | commitSucceeded (task : AnalysisTask) (result : Result)
  | publishEnrichment (task : AnalysisTask) (result : Result)
  | markEnqueued (task : AnalysisTask) (result : Result) (id : MessageId)
  | commitEnqueued (task : AnalysisTask) (result : Result)
  | ackProcessed (result : Result)
  | rollbackRaise (exc : Exn)
  | rollbackFailure (task : AnalysisTask) (err : Error)
  | dlqTime (task : AnalysisTask) (err : Error)
  | publishDlq (task : AnalysisTask) (err : Error) (now : Time)
  | markTerminal (task : AnalysisTask) (err : Error)
  | failTerminal (task : AnalysisTask) (err : Error)
  | commitTerminal (task : AnalysisTask) (err : Error)
  | ackTerminal (err : Error)
  | markRetryable (task : AnalysisTask) (err : Error)
  | failRetryable (task : AnalysisTask) (err : Error)
  | commitRetryable (task : AnalysisTask) (err : Error)
  | retryTime (task : AnalysisTask) (err : Error)
  | publishRetry (task : AnalysisTask) (err : Error) (now : Time)
  | ackRetry (err : Error)
  | done (r : Except Exn Result)

namespace Phase

/-- Where an exception leads that the `try` catches. -/
def caught (task : AnalysisTask) : Exn → Phase
  | .error err => rollbackFailure task err
  | exc => rollbackRaise exc

/-- Where an answer leads outside of the `try`. -/
def plain {α : Type} (f : α → Phase) : Except Exn α → Phase
  | .ok a => f a
  | .error exc => done (.error exc)

/-- Where an answer leads inside of the `try`. -/
def guarded {α : Type} (task : AnalysisTask) (f : α → Phase) : Except Exn α → Phase
  | .ok a => f a
  | .error exc => caught task exc

/-- The result that `traceId` is a duplicate. -/
def duplicate (traceId : TraceId) : Result :=
  { workerStatus := "deferred", pollResult := "duplicate_acked", traceId := traceId }

/-- The result handed to the recovery of a lost enrichment message. -/
def recovered (traceId : TraceId) : Result :=
  { workerStatus := "processed", traceId := traceId, enrichmentRequired := true }

/-- After `get_task`. -/
def afterGet (job : Job) (existing : Option AnalysisTask) : Phase :=
  match existing.map AnalysisTask.status with
  | some .succeeded => if job.stage = .core then selectTrace else ackDuplicate
  | some .failedTerminal => ackDuplicate
  | _ => done (.ok { workerStatus := "deferred", pollResult := "active_lease", traceId := job.traceId })

/-- After the row of the trace has been read. -/
def afterSelectTrace (row : Option TraceRow) : Phase :=
  match row with
  | none => ackDuplicate
  | some row => if row.needsEnrichmentEnqueue then recoverPublish else ackDuplicate

/-- After the writes of the core stage. -/
def afterSave (job : Job) (task : AnalysisTask) (analysis : JobLineResult) : Phase :=
  match job.processor with
  | .core =>
    if effectiveEnrichmentReasons job.llmJudge analysis.enrichmentReasons ≠ [] ∨
        analysis.llmJudgeStatus = "degraded" then
      updateState task (effectiveEnrichmentReasons job.llmJudge analysis.enrichmentReasons) true
    else selectMedia task (effectiveEnrichmentReasons job.llmJudge analysis.enrichmentReasons)
  | .enrichment => complete task

/-- After the commit of the stage's writes. -/
def afterCommitSucceeded (job : Job) (task : AnalysisTask) (result : Result) : Phase :=
  if job.stage = .core ∧ result.enrichmentRequired = true then publishEnrichment task result
  else ackProcessed result

def coreResult (job : Job) (reasons : List String) (required : Bool) : Result :=
  { workerStatus := "processed", traceId := job.traceId
    enrichmentRequired := required, enrichmentReasons := reasons }

def enrichmentResult (job : Job) : Result :=
  { workerStatus := "processed", traceId := job.traceId }

/-- The operation at a control point, and where its answer leads. -/
def view (job : Job) : Phase → Option ((o : Op) × (o.Res → Phase))
  | ackInvalid => some ⟨.xack job.message.streamName job.message.messageId, plain fun _ =>
      done (.ok { workerStatus := "deferred", pollResult := "invalid_message_acked", traceId := "" })⟩
  | sleep => some ⟨.sleepForRetryBackoff job.message, plain fun _ => insert⟩
  | insert => some ⟨.insertTask job.key job.message.streamName job.message.messageId
      (streamMessageEnqueuedAt job.message) job.maxAttempts, plain fun _ => claim⟩
  | claim => some ⟨.claimTask job.key job.workerId job.leaseSeconds, plain fun
      | none => get
      | some task => markProcessing task⟩
  | get => some ⟨.getTask job.key, plain (afterGet job)⟩
  | selectTrace => some ⟨.selectTrace job.traceId, plain afterSelectTrace⟩
  | recoverPublish => some ⟨.xadd streamEnrichment (enrichmentMessage job.traceId []), fun
      | .ok id => recoverMark id
      | .error exc => done (.error (.enrichmentEnqueueRetryable exc.str))⟩
  | recoverMark id => some ⟨.execute (.markTraceEnrichmentEnqueued job.traceId
      (streamMessageIdToEnqueuedAt id)), plain fun _ => recoverCommit⟩
  | recoverCommit => some ⟨.commit, plain fun _ => recoverAck⟩
  | recoverAck => some ⟨.xack job.message.streamName job.message.messageId, plain fun _ =>
      done (.ok { recovered job.traceId with
        pollResult := "recovered_enrichment_enqueue", enrichmentEnqueueStatus := "queued" })⟩
  | ackDuplicate => some ⟨.xack job.message.streamName job.message.messageId, plain fun _ =>
      done (.ok (duplicate job.traceId))⟩
  | markProcessing task => some ⟨.execute (.markTraceStageProcessing job.traceId job.stage),
      guarded task fun _ => commitProcessing task⟩
  | commitProcessing task => some ⟨.commit, guarded task fun _ => analyse task⟩
  | analyse task => some ⟨.analyse job.processor job.traceId, guarded task fun a => save task a⟩
  | save task a => some ⟨.execute (.saveAnalysis job.key job.processor),
      guarded task fun _ => afterSave job task a⟩
  | selectMedia task reasons => some ⟨.selectMediaSnapshotJobs job.traceId,
      guarded task fun required => updateState task reasons required⟩
  | updateState task reasons required => some ⟨.execute (.updateTraceStageState job.traceId required
      (if required then .pending else .notRequired) false ""),
      guarded task fun _ => markSucceeded task (coreResult job reasons required)⟩
  | complete task => some ⟨.execute (.markTraceEnrichmentCompleted job.traceId),
      guarded task fun _ => markSucceeded task (enrichmentResult job)⟩
  | markSucceeded task result => some ⟨.execute (.markSucceeded job.key job.workerId),
      guarded task fun marked =>
        if marked then commitSucceeded task result else rollbackRaise (leaseLost "success" job)⟩
  | commitSucceeded task result => some ⟨.commit, guarded task fun _ =>
      afterCommitSucceeded job task result⟩
  | publishEnrichment task result =>
      some ⟨.xadd streamEnrichment (enrichmentMessage job.traceId result.enrichmentReasons), fun
      | .ok id => markEnqueued task result id
      | .error exc => rollbackRaise (.enrichmentEnqueueRetryable exc.str)⟩
  | markEnqueued task result id => some ⟨.execute (.markTraceEnrichmentEnqueued job.traceId
      (streamMessageIdToEnqueuedAt id)), guarded task fun _ => commitEnqueued task result⟩
  | commitEnqueued task result => some ⟨.commit, guarded task fun _ =>
      ackProcessed { result with enrichmentEnqueueStatus := "queued" }⟩
  | ackProcessed result => some ⟨.xack job.message.streamName job.message.messageId, plain fun _ =>
      done (.ok result)⟩
  | rollbackRaise exc => some ⟨.rollback, plain fun _ => done (.error exc)⟩
  | rollbackFailure task err => some ⟨.rollback, plain fun _ =>
      if task.maxAttempts ≤ task.attemptCount then dlqTime task err else markRetryable task err⟩
  | dlqTime task err => some ⟨.now, plain fun now => publishDlq task err now⟩
  | publishDlq task err now => some ⟨.xadd streamDlq
      (dlqMessage job.message task.attemptCount err.className err.message now),
      plain fun _ => markTerminal task err⟩
  | markTerminal task err =>
      some ⟨.execute (.markFailedTerminal job.key job.workerId err.className err.message),
      plain fun marked =>
        if marked then failTerminal task err else done (.error (leaseLost "terminal failure" job))⟩
  | failTerminal task err =>
      some ⟨.execute (.markTraceStageFailed job.traceId job.stage err.className true),
      plain fun _ => commitTerminal task err⟩
  | commitTerminal _ err => some ⟨.commit, plain fun _ => ackTerminal err⟩
  | ackTerminal err => some ⟨.xack job.message.streamName job.message.messageId, plain fun _ =>
      done (.error (.error err))⟩
  | markRetryable task err =>
      some ⟨.execute (.markFailedRetryable job.key job.workerId err.className err.message),
      plain fun marked =>
        if marked then failRetryable task err else done (.error (leaseLost "retryable failure" job))⟩
  | failRetryable task err =>
      some ⟨.execute (.markTraceStageFailed job.traceId job.stage err.className false),
      plain fun _ => commitRetryable task err⟩
  | commitRetryable task err => some ⟨.commit, plain fun _ => retryTime task err⟩
  | retryTime task err => some ⟨.now, plain fun now => publishRetry task err now⟩
  | publishRetry task err now => some ⟨.xadd job.message.streamName
      (retryMessage job.message task.attemptCount now), plain fun _ => ackRetry err⟩
  | ackRetry err => some ⟨.xack job.message.streamName job.message.messageId, plain fun _ =>
      done (.error (.error err))⟩
  | done _ => none

/-- Where an execution begins. -/
def boot (job : Job) : Phase :=
  if strip job.traceId = "" then ackInvalid
  else if job.respectRetryBackoff then sleep
  else insert

/-! ## The rest of the program at a control point -/

section Prog

variable (job : Job)

/-- The program around the body of the `try`. -/
def inTry (task : AnalysisTask) (body : Worker Result) : Worker Result := do
  let result ← tryCatch body (handleException job task)
  ackMessage job.message
  return result

/-- The end of the `try`, after the stage processor. -/
def finishStage (result : Result) : Worker Result := do
  let marked ← call (.execute (.markSucceeded job.key job.workerId))
  if marked then do
    call .commit
    maybeEnqueueEnrichmentAfterCoreCommit job.message result
  else throw (leaseLost "success" job)

/-- The end of the core stage, once it knows whether enrichment is required. -/
def finishCore (reasons : List String) (required : Bool) : Worker Result := do
  let _ ← call (.execute (.updateTraceStageState job.traceId required
    (if required then .pending else .notRequired) false ""))
  finishStage job (coreResult job reasons required)

/-- The stage processor after its analysis. -/
def finishSave (analysis : JobLineResult) : Worker Result :=
  match job.processor with
  | .core => do
    let required ← traceNeedsEnrichment job.traceId
      (effectiveEnrichmentReasons job.llmJudge analysis.enrichmentReasons) analysis.llmJudgeStatus
    finishCore job (effectiveEnrichmentReasons job.llmJudge analysis.enrichmentReasons) required
  | .enrichment => do
    let _ ← call (.execute (.markTraceEnrichmentCompleted job.traceId))
    finishStage job (enrichmentResult job)

/-- After the enrichment message has been published. -/
def finishEnqueue (result : Result) (id : MessageId) : Worker Result := do
  let _ ← call (.execute (.markTraceEnrichmentEnqueued job.traceId (streamMessageIdToEnqueuedAt id)))
  call .commit
  return { result with enrichmentEnqueueStatus := "queued" }

/-- `maybe_enqueue_enrichment_after_core_commit` where there is something to enqueue. -/
def enqueue (result : Result) : Worker Result := do
  let id ← tryCatch
    (call (.xadd streamEnrichment (enrichmentMessage job.traceId result.enrichmentReasons)))
    (fun exc => throw (.enrichmentEnqueueRetryable exc.str))
  finishEnqueue job result id

def finishRecovery (result : Worker Result) : Worker Result := do
  let result ← result
  ackMessage job.message
  return { result with pollResult := "recovered_enrichment_enqueue" }

/-- The end of the handler: the exception is raised again. -/
def ackAndRaise (err : Error) : Worker Result := do
  ackMessage job.message
  throw (.error err)

/-- The handler after the dead letter queue has the message. -/
def finishTerminal (err : Error) : Worker Result := do
  let marked ← call (.execute (.markFailedTerminal job.key job.workerId err.className err.message))
  if marked then do
    let _ ← call (.execute (.markTraceStageFailed job.traceId job.stage err.className true))
    call .commit
    ackAndRaise job err
  else throw (leaseLost "terminal failure" job)

/-- The handler after the commit of a retryable failure. -/
def finishRetry (task : AnalysisTask) (err : Error) : Worker Result := do
  let now ← call .now
  let _ ← call (.xadd job.message.streamName (retryMessage job.message task.attemptCount now))
  ackAndRaise job err

/-- The handler inside of the program around the `try`. -/
def inHandler (rest : Worker Result) : Worker Result := do
  let result ← rest
  ackMessage job.message
  return result

def prog : Phase → Worker Result
  | ackInvalid => do
    ackMessage job.message
    return { workerStatus := "deferred", pollResult := "invalid_message_acked", traceId := "" }
  | sleep => do
    call (.sleepForRetryBackoff job.message)
    processDue job
  | insert => processDue job
  | claim => do
    match ← call (.claimTask job.key job.workerId job.leaseSeconds) with
    | none => processUnclaimed job
    | some task => processClaimed job task
  | get => processUnclaimed job
  | selectTrace => do
    let row : Option TraceRow ← call (.selectTrace job.traceId)
    match row with
    | none => do
      ackMessage job.message
      return duplicate job.traceId
    | some row =>
      if row.needsEnrichmentEnqueue then finishRecovery job (enqueue job (recovered job.traceId))
      else do
        ackMessage job.message
        return duplicate job.traceId
  | recoverPublish => finishRecovery job (enqueue job (recovered job.traceId))
  | recoverMark id => finishRecovery job (finishEnqueue job (recovered job.traceId) id)
  | recoverCommit => finishRecovery job do
    call .commit
    return { recovered job.traceId with enrichmentEnqueueStatus := "queued" }
  | recoverAck => do
    ackMessage job.message
    return { recovered job.traceId with
      pollResult := "recovered_enrichment_enqueue", enrichmentEnqueueStatus := "queued" }
  | ackDuplicate => do
    ackMessage job.message
    return duplicate job.traceId
  | markProcessing task => processClaimed job task
  | commitProcessing task => inTry job task do
    call .commit
    let result ← stageProcess job
    finishStage job result
  | analyse task => inTry job task do
    let analysis ← call (.analyse job.processor job.traceId)
    let _ ← call (.execute (.saveAnalysis job.key job.processor))
    finishSave job analysis
  | save task analysis => inTry job task do
    let _ ← call (.execute (.saveAnalysis job.key job.processor))
    finishSave job analysis
  | selectMedia task reasons => inTry job task do
    let required ← call (.selectMediaSnapshotJobs job.traceId)
    finishCore job reasons required
  | updateState task reasons required => inTry job task (finishCore job reasons required)
  | complete task => inTry job task do
    let _ ← call (.execute (.markTraceEnrichmentCompleted job.traceId))
    finishStage job (enrichmentResult job)
  | markSucceeded task result => inTry job task (finishStage job result)
  | commitSucceeded task result => inTry job task do
    call .commit
    maybeEnqueueEnrichmentAfterCoreCommit job.message result
  | publishEnrichment task result => inTry job task (enqueue job result)
  | markEnqueued task result id => inTry job task (finishEnqueue job result id)
  | commitEnqueued task result => inTry job task do
    call .commit
    return { result with enrichmentEnqueueStatus := "queued" }
  | ackProcessed result => do
    ackMessage job.message
    return result
  | rollbackRaise exc => inHandler job do
    call .rollback
    throw exc
  | rollbackFailure task err => inHandler job (handleException job task (.error err))
  | dlqTime task err => inHandler job do
    let now ← call .now
    let _ ← call (.xadd streamDlq (dlqMessage job.message task.attemptCount err.className err.message now))
    finishTerminal job err
  | publishDlq task err now => inHandler job do
    let _ ← call (.xadd streamDlq (dlqMessage job.message task.attemptCount err.className err.message now))
    finishTerminal job err
  | markTerminal _ err => inHandler job (finishTerminal job err)
  | failTerminal _ err => inHandler job do
    let _ ← call (.execute (.markTraceStageFailed job.traceId job.stage err.className true))
    call .commit
    ackAndRaise job err
  | commitTerminal _ err => inHandler job do
    call .commit
    ackAndRaise job err
  | ackTerminal err => inHandler job (ackAndRaise job err)
  | markRetryable task err => inHandler job do
    let marked ← call (.execute (.markFailedRetryable job.key job.workerId err.className err.message))
    if marked then do
      let _ ← call (.execute (.markTraceStageFailed job.traceId job.stage err.className false))
      call .commit
      finishRetry job task err
    else throw (leaseLost "retryable failure" job)
  | failRetryable task err => inHandler job do
    let _ ← call (.execute (.markTraceStageFailed job.traceId job.stage err.className false))
    call .commit
    finishRetry job task err
  | commitRetryable task err => inHandler job do
    call .commit
    finishRetry job task err
  | retryTime task err => inHandler job (finishRetry job task err)
  | publishRetry task err now => inHandler job do
    let _ ← call (.xadd job.message.streamName (retryMessage job.message task.attemptCount now))
    ackAndRaise job err
  | ackRetry err => inHandler job (ackAndRaise job err)
  | done r => ExceptT.mk (pure r)

/-! ## The program is the automaton -/

theorem view_of_op {p : Prog Op Op.Res (Except Exn Result)} {o : Op}
    {k : o.Res → Prog Op Op.Res (Except Exn Result)} {f : Phase → Prog Op Op.Res (Except Exn Result)}
    {k' : o.Res → Phase} (hp : p = .op o k) (hk : ∀ r, k r = f (k' r)) :
    p.view = (some ⟨o, k'⟩ : Option ((o : Op) × (o.Res → Phase))).map fun x => ⟨x.1, fun r => f (x.2 r)⟩ := by
  obtain rfl : k = fun r => f (k' r) := funext hk
  subst hp
  rfl

theorem op_congr {o : Op} {k k' : o.Res → Prog Op Op.Res (Except Exn Result)}
    (h : ∀ r, k r = k' r) : Prog.op o k = Prog.op o k' :=
  congrArg _ (funext h)

theorem maybeEnqueue_eq (result : Result) :
    maybeEnqueueEnrichmentAfterCoreCommit job.message result =
      if job.stage = .core ∧ result.enrichmentRequired = true then enqueue job result
      else pure result := rfl

theorem recovery_eq :
    (do
      if ← traceNeedsEnrichmentEnqueueRecovery job.message then
        finishRecovery job (maybeEnqueueEnrichmentAfterCoreCommit job.message (recovered job.traceId))
      else do
        ackMessage job.message
        return duplicate job.traceId) =
      (if job.stage = .core then selectTrace else ackDuplicate).prog job := by
  simp only [traceNeedsEnrichmentEnqueueRecovery, maybeEnqueue_eq, recovered]
  by_cases hs : job.stage = .core
  · simp only [hs, if_true, and_self]
    refine op_congr fun r => ?_
    rcases r with _ | _ | row <;> rfl
  · simp only [hs, if_false]
    rfl

theorem stageProcess_finishStage :
    (do let result ← stageProcess job; finishStage job result) = (do
      let analysis ← call (.analyse job.processor job.traceId)
      let _ ← call (.execute (.saveAnalysis job.key job.processor))
      finishSave job analysis) := by
  unfold stageProcess finishSave
  cases job.processor with
  | core =>
    refine op_congr fun r => ?_
    rcases r with _ | a
    · rfl
    refine op_congr fun r => ?_
    rcases r with _ | _
    · rfl
    show ExceptT.run ((traceNeedsEnrichment _ _ _ >>= _) >>= finishStage job) =
      ExceptT.run (traceNeedsEnrichment _ _ _ >>= _)
    unfold traceNeedsEnrichment
    split
    · refine op_congr fun r => ?_
      rcases r with _ | _ <;> rfl
    · refine op_congr fun r => ?_
      rcases r with _ | _
      · rfl
      refine op_congr fun r => ?_
      rcases r with _ | _ <;> rfl
  | enrichment =>
    refine op_congr fun r => ?_
    rcases r with _ | a
    · rfl
    refine op_congr fun r => ?_
    rcases r with _ | _
    · rfl
    refine op_congr fun r => ?_
    rcases r with _ | _ <;> rfl

theorem finishSave_eq (task : AnalysisTask) (analysis : JobLineResult) :
    inTry job task (finishSave job analysis) = (afterSave job task analysis).prog job := by
  unfold finishSave afterSave traceNeedsEnrichment
  cases job.processor with
  | core =>
    dsimp only
    split <;> rfl
  | enrichment => rfl

end Prog

end Phase

open Phase

theorem view_prog (job : Job) (φ : Phase) :
    Prog.view (φ.prog job) = (φ.view job).map fun x => ⟨x.1, fun r => (x.2 r).prog job⟩ := by
  cases φ with
  | claim =>
    refine view_of_op rfl fun r => ?_
    rcases r with _ | _ | _ <;> rfl
  | get =>
    refine view_of_op rfl fun r => ?_
    rcases r with _ | _ | task
    · rfl
    · rfl
    obtain ⟨_ | _ | _ | _ | _⟩ := task
    case succeeded => exact recovery_eq job
    all_goals rfl
  | selectTrace =>
    refine view_of_op rfl fun r => ?_
    rcases r with _ | _ | row
    · rfl
    · rfl
    simp only [plain, afterSelectTrace]
    show ExceptT.run (if row.needsEnrichmentEnqueue = true then _ else _) = _
    split <;> rfl
  | save task a =>
    refine view_of_op rfl fun r => ?_
    cases r with
    | error exc => cases exc <;> rfl
    | ok _ => exact finishSave_eq job task a
  | markSucceeded task result =>
    refine view_of_op rfl fun r => ?_
    rcases r with (_ | _ | _) | _ | _ <;> rfl
  | commitSucceeded task result =>
    refine view_of_op rfl fun r => ?_
    cases r with
    | error exc => cases exc <;> rfl
    | ok _ =>
      show inTry job task (maybeEnqueueEnrichmentAfterCoreCommit job.message result) = _
      simp only [maybeEnqueue_eq, guarded, afterCommitSucceeded]
      split <;> rfl
  | rollbackFailure task err =>
    refine view_of_op rfl fun r => ?_
    cases r with
    | error exc => rfl
    | ok _ =>
      show inHandler job (if task.maxAttempts ≤ task.attemptCount then _ else _) = prog job (if _ then _ else _)
      split <;> rfl
  | markTerminal task err =>
    refine view_of_op rfl fun r => ?_
    rcases r with _ | _ | _ <;> rfl
  | markRetryable task err =>
    refine view_of_op rfl fun r => ?_
    rcases r with _ | _ | _ <;> rfl
  | commitProcessing task =>
    refine view_of_op rfl fun r => ?_
    cases r with
    | error exc => cases exc <;> rfl
    | ok _ =>
      show inTry job task (do let result ← stageProcess job; finishStage job result) = _
      rw [stageProcess_finishStage]
      rfl
  | rollbackRaise exc =>
    refine view_of_op rfl fun r => ?_
    rcases r with _ | _ <;> rfl
  | done r => rfl
  | _ =>
    refine view_of_op rfl fun r => ?_
    rcases r with (_ | _ | _) | _ <;> rfl

/-- The automaton of the phases. -/
def phaseCode : Code Op Op.Res Job Phase where
  boot := Phase.boot
  view := Phase.view

/-- The program itself. -/
def workerCode : Code Op Op.Res Job (Prog Op Op.Res (Except Exn Result)) :=
  progCode fun job => (processStreamMessage job).run

theorem boot_prog (job : Job) : workerCode.boot job = (Phase.boot job).prog job := by
  show (processStreamMessage job).run = _
  unfold processStreamMessage Phase.boot
  split
  · rfl
  · split <;> rfl

def phaseHom : Code.Hom phaseCode workerCode where
  map job φ := φ.prog job
  boot := boot_prog
  view := view_prog

end AuditGateway.Analysis
