import AuditGateway.Analysis.Task
import AuditGateway.Python.Strip

/-!
# Redis streams and the messages in them

The entries of the analysis streams, what the worker reads from one
(`streams.py`, `messageFromEntry`) and what it publishes (`publishStreamMessage`
and its callers). An entry stays in its stream; an acknowledgement takes it out of
the pending list of the stream's consumer group, so that it is not delivered again.
-/

namespace AuditGateway.Analysis

open AuditGateway.Python

def streamCore : String := "analysis.core"

def streamEnrichment : String := "analysis.enrichment"

/-- The default of `dlq_stream_name`. -/
def streamDlq : String := "analysis.dlq"

/-- A time as text: text from outside, or an ISO format that the worker wrote. -/
inductive Stamp
  | text (s : String)
  | iso (t : Time)
deriving DecidableEq, Repr

/-- A value in the hints the worker writes. -/
inductive HintValue
  | text (s : String)
  | iso (t : Time)
  | id (m : MessageId)
deriving DecidableEq, Repr

/-- The `hints` field: text from outside, or a dictionary that the worker dumped. -/
inductive Hints
  | text (s : String)
  | dumped (fields : List (String × HintValue))
deriving DecidableEq, Repr

/-- The fields of an entry. From outside, any of them can be missing. -/
structure Payload where
  traceId : Option String := none
  stage : Option String := none
  enqueuedAt : Option Stamp := none
  attempt : Option String := none
  hints : Option Hints := none
deriving DecidableEq, Repr

structure Entry where
  stream : String
  id : MessageId
  payload : Payload
deriving DecidableEq, Repr

/-! ## Reading -/

/-- The fields of `StreamEnvelope` that the worker's control flow depends on. -/
structure StreamEnvelope where
  traceId : TraceId
  stage : AnalysisStage
  enqueuedAt : Stamp
  hints : Hints
deriving DecidableEq, Repr

structure StreamMessage where
  streamName : String
  messageId : MessageId
  envelope : StreamEnvelope
deriving DecidableEq, Repr

/-- The task a message is about. -/
def StreamMessage.key (m : StreamMessage) : TaskKey :=
  ⟨m.envelope.traceId, m.envelope.stage⟩

/-- The error of an unknown stage, with what its text is made of. -/
structure UnknownStageError where
  stream : String
  candidate : String
deriving DecidableEq, Repr

/-- `_default_stage_for_stream`. -/
def defaultStageForStream (stream : String) : AnalysisStage :=
  if stream = streamEnrichment then .enrichment else .core

/-- `_parse_stage`: an empty stage is the stream's own, an unknown one is an error. -/
def parseStage (stream : String) (raw : Option String) : Except UnknownStageError AnalysisStage :=
  let candidate := strip (raw.getD "")
  if candidate = "" then .ok (defaultStageForStream stream)
  else if candidate = AnalysisStage.core.value then .ok .core
  else if candidate = AnalysisStage.enrichment.value then .ok .enrichment
  else .error ⟨stream, candidate⟩

/-- `_message_from_entry`. -/
def messageFromEntry (e : Entry) : Except UnknownStageError StreamMessage := do
  let stage ← parseStage e.stream e.payload.stage
  return { streamName := e.stream
           messageId := e.id
           envelope :=
            { traceId := strip (e.payload.traceId.getD "")
              stage := stage
              enqueuedAt := e.payload.enqueuedAt.getD (.text "")
              hints := e.payload.hints.getD (.text "\x7b\x7d") } }

/-- `_messages_from_entries`: the messages of a batch, and the entries it
acknowledges because their stage is unknown. -/
def messagesFromEntries : List Entry → List StreamMessage × List MessageId
  | [] => ([], [])
  | e :: es =>
    let (messages, acked) := messagesFromEntries es
    match messageFromEntry e with
    | .ok m => (m :: messages, acked)
    | .error _ => (messages, e.id :: acked)

/-! ## Publishing -/

/-- `publish_stream_message`: the fields it adds to the stream. -/
def publishStreamMessage (traceId : TraceId) (stage : AnalysisStage) (enqueuedAt : Option Stamp)
    (attempt : Nat) (hints : List (String × HintValue)) : Payload where
  traceId := some traceId
  stage := some stage.value
  enqueuedAt := enqueuedAt
  attempt := some (toString attempt)
  hints := some (.dumped hints)

/-- `retry_backoff_seconds`. -/
def retryBackoffSeconds (attemptCount : Nat) : Nat :=
  min 300 (2 ^ max 1 attemptCount)

/-- What `requeue_retryable_stage_message` publishes. -/
def retryMessage (m : StreamMessage) (attemptCount : Nat) (now : Time) : Payload :=
  publishStreamMessage m.envelope.traceId m.envelope.stage none (attemptCount + 1)
    [("retry_after_seconds", .text (toString (retryBackoffSeconds attemptCount))),
     ("retry_not_before", .iso (now + retryBackoffSeconds attemptCount * second)),
     ("source_message_id", .id m.messageId),
     ("source_stream", .text m.streamName)]

/-- What `_process_stream_message` publishes to the dead letter queue. -/
def dlqMessage (m : StreamMessage) (attemptCount : Nat) (errorCode errorMessage : String) (now : Time) :
    Payload :=
  publishStreamMessage m.envelope.traceId m.envelope.stage (some (.iso now)) attemptCount
    [("error_code", .text errorCode),
     ("error_message", .text errorMessage),
     ("source_message_id", .id m.messageId),
     ("source_stream", .text m.streamName)]

/-- What `maybe_enqueue_enrichment_after_core_commit` publishes. -/
def enrichmentMessage (traceId : TraceId) (reasons : List String) : Payload :=
  publishStreamMessage traceId .enrichment none 1
    [("reasons", .text (",".intercalate reasons)),
     ("source_stage", .text AnalysisStage.core.value)]

/-! ## The streams -/

/-- The entries of all streams in the order they were added, and those that have
been acknowledged. -/
structure Redis where
  entries : List Entry
  acked : List (String × MessageId)

/-- The id `XADD` gives is above every id of the stream. -/
def Redis.Fresh (r : Redis) (stream : String) (id : MessageId) : Prop :=
  ∀ e ∈ r.entries, e.stream = stream → e.id.ms < id.ms ∨ (e.id.ms = id.ms ∧ e.id.seq < id.seq)

instance (r : Redis) (stream : String) (id : MessageId) : Decidable (r.Fresh stream id) := by
  unfold Redis.Fresh
  infer_instance

def Redis.xadd (r : Redis) (e : Entry) : Redis :=
  { r with entries := r.entries ++ [e] }

def Redis.xack (r : Redis) (stream : String) (id : MessageId) : Redis :=
  { r with acked := (stream, id) :: r.acked }

def Redis.Acked (r : Redis) (e : Entry) : Prop :=
  (e.stream, e.id) ∈ r.acked

instance (r : Redis) (e : Entry) : Decidable (r.Acked e) := by
  unfold Redis.Acked
  infer_instance

/-! ## The task of an entry -/

/-- The task an entry is about: none if its stage is unknown or its trace id blank. -/
def Entry.key (e : Entry) : Option TaskKey :=
  match messageFromEntry e with
  | .ok m => if m.envelope.traceId = "" then none else some m.key
  | .error _ => none

theorem messageFromEntry_eq_ok {e : Entry} {m : StreamMessage} (h : messageFromEntry e = .ok m) :
    m.streamName = e.stream ∧ m.messageId = e.id ∧
      m.envelope.traceId = strip (e.payload.traceId.getD "") ∧
      parseStage e.stream e.payload.stage = .ok m.envelope.stage := by
  unfold messageFromEntry at h
  cases hs : parseStage e.stream e.payload.stage with
  | error err =>
    rw [hs] at h
    cases h
  | ok stage =>
    rw [hs] at h
    obtain rfl := Except.ok.inj h
    exact ⟨rfl, rfl, rfl, rfl⟩

theorem key_of_message {e : Entry} {m : StreamMessage} (h : messageFromEntry e = .ok m)
    (ht : m.envelope.traceId ≠ "") : e.key = some m.key := by
  simp [Entry.key, h, ht]

theorem strip_traceId {e : Entry} {m : StreamMessage} (h : messageFromEntry e = .ok m) :
    strip m.envelope.traceId = m.envelope.traceId := by
  rw [(messageFromEntry_eq_ok h).2.2.1, strip_strip]

theorem parseStage_value (stream : String) (stage : AnalysisStage) :
    parseStage stream (some stage.value) = .ok stage := by
  have hs : strip stage.value = stage.value := by cases stage <;> decide
  simp only [parseStage, Option.getD_some, hs]
  cases stage <;> rfl

theorem key_publish {stream : String} {id : MessageId} {traceId : TraceId} {stage : AnalysisStage}
    {enqueuedAt : Option Stamp} {attempt : Nat} {hints : List (String × HintValue)}
    (hs : strip traceId = traceId) (ht : traceId ≠ "") :
    Entry.key ⟨stream, id, publishStreamMessage traceId stage enqueuedAt attempt hints⟩ =
      some ⟨traceId, stage⟩ := by
  simp [Entry.key, messageFromEntry, publishStreamMessage, parseStage_value, StreamMessage.key, hs, ht]

end AuditGateway.Analysis
