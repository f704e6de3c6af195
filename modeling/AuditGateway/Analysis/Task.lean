import Mathlib.Data.Nat.Basic
import Mathlib.Order.Basic
import Mathlib.Tactic.Common

/-!
# Analysis tasks and trace stage states

The rows the worker's protocol is about, and its SQL statements as functions of
one row: `analysis_tasks` (`task_store.py`) and the stage columns of `traces`
(`main.py`, `core_stage.py`, `enrichment_stage.py`). A statement gets `now`, the
start of its transaction; `none` is a `WHERE` clause that does not match.
-/

namespace AuditGateway.Analysis

/-- Microseconds, the resolution of `timestamptz`. -/
abbrev Time := Nat

abbrev second : Time := 1000000

abbrev TraceId := String

inductive AnalysisStage
  | core
  | enrichment
deriving DecidableEq, Repr

def AnalysisStage.value : AnalysisStage → String
  | core => "core"
  | enrichment => "enrichment"

inductive TaskStatus
  | queued
  | leased
  | succeeded
  | failedRetryable
  | failedTerminal
deriving DecidableEq, Repr

inductive TraceStageStatus
  | pending
  | processing
  | completed
  | failed
  | notRequired
deriving DecidableEq, Repr

/-- The primary key of `analysis_tasks`. -/
structure TaskKey where
  traceId : TraceId
  stage : AnalysisStage
deriving DecidableEq, Repr

/-- The id Redis gives a stream entry: milliseconds and a sequence number. -/
structure MessageId where
  ms : Nat
  seq : Nat
deriving DecidableEq, Repr

/-- A row of `analysis_tasks` without its key. -/
structure AnalysisTask where
  status : TaskStatus
  attemptCount : Nat := 0
  maxAttempts : Nat
  leaseOwner : String := ""
  leaseExpiresAt : Option Time := none
  streamName : String := ""
  streamMessageId : MessageId
  queuedAt : Time
  startedAt : Option Time := none
  completedAt : Option Time := none
  lastErrorCode : String := ""
  lastErrorMessage : String := ""
  updatedAt : Time
deriving DecidableEq, Repr

/-- The columns of a row of `traces` that the analysis stages use. -/
structure TraceRow where
  coreStatus : TraceStageStatus := .pending
  enrichmentRequired : Bool := false
  enrichmentStatus : TraceStageStatus := .notRequired
  coreQueuedAt : Option Time := none
  coreStartedAt : Option Time := none
  coreCompletedAt : Option Time := none
  enrichmentQueuedAt : Option Time := none
  enrichmentStartedAt : Option Time := none
  enrichmentCompletedAt : Option Time := none
  lastAnalysisErrorCode : String := ""
  updatedAt : Time := 0
deriving DecidableEq, Repr

/-! ## `AnalysisTaskStore` -/

/-- `insert_task`: a new row, or the row of the conflict with the message's stream
and id. `queued_at` is not null, so `COALESCE` keeps it. -/
def insertTask (stream : String) (id : MessageId) (queuedAt : Time) (maxAttempts : Nat) (now : Time) :
    Option AnalysisTask → AnalysisTask
  | none =>
    { status := .queued, maxAttempts := maxAttempts, streamName := stream, streamMessageId := id,
      queuedAt := queuedAt, updatedAt := now }
  | some row => { row with streamName := stream, streamMessageId := id, updatedAt := now }

/-- `lease_expires_at < now()`, which is not true of `NULL`. -/
def AnalysisTask.leaseExpired (row : AnalysisTask) (now : Time) : Bool :=
  match row.leaseExpiresAt with
  | some t => t < now
  | none => false

/-- The condition of `claim_task`. -/
def AnalysisTask.claimable (row : AnalysisTask) (now : Time) : Bool :=
  row.attemptCount < row.maxAttempts &&
    (row.status == .queued || row.status == .failedRetryable ||
      (row.status == .leased && row.leaseExpired now))

/-- `claim_task`. -/
def claimTask (worker : String) (leaseSeconds : Nat) (now : Time) (row : AnalysisTask) :
    Option AnalysisTask :=
  if row.claimable now then
    some { row with
      status := .leased
      leaseOwner := worker
      leaseExpiresAt := some (now + leaseSeconds * second)
      attemptCount := row.attemptCount + 1
      startedAt := row.startedAt <|> some now
      updatedAt := now }
  else none

/-- The condition of the three `mark_*` updates: the row is leased by this worker,
and the lease has not expired. -/
def AnalysisTask.leasedBy (row : AnalysisTask) (worker : String) (now : Time) : Bool :=
  row.status == .leased && row.leaseOwner == worker &&
    match row.leaseExpiresAt with
    | some t => now ≤ t
    | none => false

/-- What the three `mark_*` updates share: they end the lease they require. -/
def leasedUpdate (set : AnalysisTask → AnalysisTask) (worker : String) (now : Time)
    (row : AnalysisTask) : Option AnalysisTask :=
  if row.leasedBy worker now then
    some (set { row with leaseOwner := "", leaseExpiresAt := none, updatedAt := now })
  else none

def markSucceeded (worker : String) (now : Time) : AnalysisTask → Option AnalysisTask :=
  leasedUpdate (fun row => { row with status := .succeeded, completedAt := some now }) worker now

def markFailedRetryable (worker errorCode errorMessage : String) (now : Time) :
    AnalysisTask → Option AnalysisTask :=
  leasedUpdate (fun row => { row with
    status := .failedRetryable, lastErrorCode := errorCode, lastErrorMessage := errorMessage })
    worker now

def markFailedTerminal (worker errorCode errorMessage : String) (now : Time) :
    AnalysisTask → Option AnalysisTask :=
  leasedUpdate (fun row => { row with
    status := .failedTerminal, completedAt := some now,
    lastErrorCode := errorCode, lastErrorMessage := errorMessage })
    worker now

/-! ## The stage columns of `traces` -/

def markTraceStageProcessing (stage : AnalysisStage) (now : Time) (row : TraceRow) : TraceRow :=
  match stage with
  | .core =>
    { row with coreStatus := .processing, coreStartedAt := row.coreStartedAt <|> some now, updatedAt := now }
  | .enrichment =>
    { row with
      enrichmentStatus := .processing
      enrichmentStartedAt := row.enrichmentStartedAt <|> some now
      updatedAt := now }

def markTraceCoreFailed (errorCode : String) (now : Time) (row : TraceRow) : TraceRow :=
  { row with coreStatus := .failed, lastAnalysisErrorCode := errorCode, updatedAt := now }

def markTraceStageFailed (stage : AnalysisStage) (errorCode : String) (terminal : Bool) (now : Time)
    (row : TraceRow) : TraceRow :=
  match stage with
  | .core =>
    if !terminal then
      { row with coreStatus := .pending, lastAnalysisErrorCode := errorCode, updatedAt := now }
    else markTraceCoreFailed errorCode now row
  | .enrichment =>
    if terminal then
      { row with enrichmentStatus := .failed, lastAnalysisErrorCode := errorCode, updatedAt := now }
    else
      { row with enrichmentStatus := .pending, lastAnalysisErrorCode := errorCode, updatedAt := now }

def markTraceEnrichmentEnqueued (queuedAt : Time) (now : Time) (row : TraceRow) : TraceRow :=
  { row with
    enrichmentRequired := true
    enrichmentStatus := .pending
    enrichmentQueuedAt := some queuedAt
    updatedAt := now }

/-- `MarkTraceCoreQueued` of the gateway. -/
def markTraceCoreQueued (queuedAt : Time) (now : Time) (row : TraceRow) : TraceRow :=
  { row with coreQueuedAt := some queuedAt, updatedAt := now }

/-- `_update_trace_stage_state` of the core stage. -/
def updateTraceStageState (enrichmentRequired : Bool) (enrichmentStatus : TraceStageStatus)
    (enrichmentQueued : Bool) (lastErrorCode : String) (now : Time) (row : TraceRow) : TraceRow :=
  { row with
    coreStatus := .completed
    coreCompletedAt := some now
    lastAnalysisErrorCode := lastErrorCode
    enrichmentRequired := enrichmentRequired
    enrichmentStatus := enrichmentStatus
    enrichmentQueuedAt := if enrichmentQueued then some now else none
    updatedAt := now }

/-- `_mark_trace_enrichment_completed`. -/
def markTraceEnrichmentCompleted (now : Time) (row : TraceRow) : TraceRow :=
  { row with
    enrichmentStatus := .completed
    enrichmentCompletedAt := some now
    lastAnalysisErrorCode := ""
    updatedAt := now }

/-! ## How a task can change -/

/-- `succeeded` and `failed_terminal`. -/
def TaskStatus.terminal : TaskStatus → Bool
  | succeeded | failedTerminal => true
  | queued | leased | failedRetryable => false

/-- How any statement may change a task: the attempts only grow, their limit never
changes, and neither does a terminal status. -/
structure AnalysisTask.Le (row row' : AnalysisTask) : Prop where
  attempts : row.attemptCount ≤ row'.attemptCount
  maxAttempts : row'.maxAttempts = row.maxAttempts
  terminal : row.status.terminal = true → row'.status = row.status

/-- What every task row in the table satisfies. -/
structure AnalysisTask.WellFormed (row : AnalysisTask) : Prop where
  attempts : row.attemptCount ≤ row.maxAttempts
  lease : row.status = .leased → row.leaseExpiresAt ≠ none

namespace AnalysisTask

variable {row row' row'' : AnalysisTask} {worker : String} {now : Time}

theorem Le.refl (row : AnalysisTask) : row.Le row :=
  ⟨le_rfl, rfl, fun _ => rfl⟩

theorem Le.trans (h : row.Le row') (h' : row'.Le row'') : row.Le row'' where
  attempts := h.attempts.trans h'.attempts
  maxAttempts := h'.maxAttempts.trans h.maxAttempts
  terminal ht := by
    have hs := h.terminal ht
    exact (h'.terminal (hs ▸ ht)).trans hs

theorem leasedBy_iff : row.leasedBy worker now = true ↔
    row.status = .leased ∧ row.leaseOwner = worker ∧ ∃ t, row.leaseExpiresAt = some t ∧ now ≤ t := by
  unfold leasedBy
  cases row.leaseExpiresAt <;> simp [and_assoc]

theorem claimable_iff : row.claimable now = true ↔ row.attemptCount < row.maxAttempts ∧
    (row.status = .queued ∨ row.status = .failedRetryable ∨
      row.status = .leased ∧ ∃ t, row.leaseExpiresAt = some t ∧ t < now) := by
  unfold claimable leaseExpired
  cases row.leaseExpiresAt <;> simp [or_assoc]

theorem not_terminal_of_claimable (h : row.claimable now = true) : row.status.terminal = false := by
  obtain ⟨_, hs | hs | ⟨hs, _⟩⟩ := claimable_iff.1 h <;> rw [hs] <;> rfl

theorem not_terminal_of_leasedBy (h : row.leasedBy worker now = true) : row.status.terminal = false := by
  obtain ⟨hs, _⟩ := leasedBy_iff.1 h
  rw [hs]
  rfl

end AnalysisTask

section Statements

variable {worker errorCode errorMessage : String} {leaseSeconds : Nat} {now : Time}
  {row row' : AnalysisTask}

theorem insertTask_le (stream : String) (id : MessageId) (queuedAt : Time) (maxAttempts : Nat) :
    row.Le (insertTask stream id queuedAt maxAttempts now (some row)) :=
  ⟨le_rfl, rfl, fun _ => rfl⟩

theorem insertTask_wellFormed (stream : String) (id : MessageId) (queuedAt : Time) (maxAttempts : Nat)
    {old : Option AnalysisTask} (h : ∀ row, old = some row → row.WellFormed) :
    (insertTask stream id queuedAt maxAttempts now old).WellFormed := by
  cases old with
  | none => exact ⟨Nat.zero_le _, nofun⟩
  | some row => exact ⟨(h row rfl).attempts, (h row rfl).lease⟩

theorem claimTask_eq_some (h : claimTask worker leaseSeconds now row = some row') :
    row.claimable now = true ∧ row'.status = .leased ∧ row'.leaseOwner = worker ∧
      row'.attemptCount = row.attemptCount + 1 ∧ row'.maxAttempts = row.maxAttempts ∧
      row'.leaseExpiresAt = some (now + leaseSeconds * second) := by
  unfold claimTask at h
  split at h <;> [skip; cases h]
  rename_i hc
  obtain rfl := Option.some.inj h
  exact ⟨hc, rfl, rfl, rfl, rfl, rfl⟩

theorem claimTask_le (h : claimTask worker leaseSeconds now row = some row') : row.Le row' := by
  obtain ⟨hc, _, _, ha, hm, _⟩ := claimTask_eq_some h
  refine ⟨by omega, hm, fun ht => ?_⟩
  rw [AnalysisTask.not_terminal_of_claimable hc] at ht
  cases ht

theorem claimTask_wellFormed (h : claimTask worker leaseSeconds now row = some row') :
    row'.WellFormed := by
  obtain ⟨hc, _, _, ha, hm, hl⟩ := claimTask_eq_some h
  have hlt := (AnalysisTask.claimable_iff.1 hc).1
  exact ⟨by omega, fun _ => by simp [hl]⟩

variable {set : AnalysisTask → AnalysisTask}

theorem leasedUpdate_eq_some
    (h : leasedUpdate set worker now row = some row') :
    row.leasedBy worker now = true ∧
      row' = set { row with leaseOwner := "", leaseExpiresAt := none, updatedAt := now } := by
  unfold leasedUpdate at h
  split at h <;> [skip; cases h]
  rename_i hc
  exact ⟨hc, (Option.some.inj h).symm⟩

theorem markSucceeded_spec (h : markSucceeded worker now row = some row') :
    row.leasedBy worker now = true ∧ row'.status = .succeeded := by
  obtain ⟨hl, rfl⟩ := leasedUpdate_eq_some h
  exact ⟨hl, rfl⟩

theorem markFailedRetryable_spec (h : markFailedRetryable worker errorCode errorMessage now row = some row') :
    row.leasedBy worker now = true ∧ row'.status = .failedRetryable := by
  obtain ⟨hl, rfl⟩ := leasedUpdate_eq_some h
  exact ⟨hl, rfl⟩

theorem markFailedTerminal_spec (h : markFailedTerminal worker errorCode errorMessage now row = some row') :
    row.leasedBy worker now = true ∧ row'.status = .failedTerminal := by
  obtain ⟨hl, rfl⟩ := leasedUpdate_eq_some h
  exact ⟨hl, rfl⟩

theorem leasedUpdate_le
    (h : leasedUpdate set worker now row = some row') (ha : ∀ r, (set r).attemptCount = r.attemptCount)
    (hm : ∀ r, (set r).maxAttempts = r.maxAttempts) : row.Le row' := by
  obtain ⟨hl, rfl⟩ := leasedUpdate_eq_some h
  refine ⟨?_, hm _, fun ht => ?_⟩
  · rw [ha]
  · rw [AnalysisTask.not_terminal_of_leasedBy hl] at ht
    cases ht

theorem leasedUpdate_wellFormed
    (h : leasedUpdate set worker now row = some row') (ha : ∀ r, (set r).attemptCount = r.attemptCount)
    (hm : ∀ r, (set r).maxAttempts = r.maxAttempts) (hs : ∀ r, (set r).status ≠ .leased)
    (hw : row.WellFormed) : row'.WellFormed := by
  obtain ⟨_, rfl⟩ := leasedUpdate_eq_some h
  refine ⟨?_, fun hl => absurd hl (hs _)⟩
  rw [ha, hm]
  exact hw.attempts

end Statements

end AuditGateway.Analysis
