import AuditGateway.Analysis.Worker
import AuditGateway.Python.Json

/-!
# A batch of messages

`run_core_batch_once`: the entries of a batch are read (`batchMessages`), sorted
by whether they may be retried yet (`sortMessages`), and handed to a pool of
threads in a loop (`step`) until each of them has a result.

What one message comes to in its thread is given (`Handling`): `_handle` catches what
`_process_stream_message` raises, but not that no connection can be had, or that giving
it back fails. The schedule is a choice in each turn of the loop: which threads are done,
and what the clock shows. The loop reads the wall clock, while `wait` and `time.sleep` go by
another one, so that they may be over before the clock shows the time that was waited for
(`wake`).
-/

namespace AuditGateway.Analysis

open AuditGateway.Framework AuditGateway.Python

/-! ## Retry hints -/

/-- Microseconds since the epoch. -/
abbrev Instant := Int

/-- A `datetime`. -/
inductive Moment
  | naive
  | aware (t : Instant)
deriving DecidableEq, Repr

/-- The interpreter, and the ISO format of its `datetime`. -/
structure Clockwork where
  rt : Runtime
  /-- `datetime.fromisoformat`, or none where it raises `ValueError`. -/
  fromisoformat : Str → Option Moment
  isoformat : Time → Str
  /-- The longest time that `wait` and `time.sleep` take, before they raise `OverflowError`. -/
  longest : Instant

def pyErrorClass : PyError → String
  | .unicodeDecodeError => "UnicodeDecodeError"
  | .unicodeEncodeError => "UnicodeEncodeError"
  | .typeError => "TypeError"
  | .valueError => "ValueError"
  | .recursionError => "RecursionError"
  | .dataError => "DataError"
  | .fileNotFoundError => "FileNotFoundError"
  | .programLimitExceeded => "ProgramLimitExceeded"
  | .judgeUnavailable _ => "LLMJudgeUnavailable"

variable (cw : Clockwork)

/-- A value of hints that the worker has dumped. -/
def HintValue.json : HintValue → Json
  | .text s => .str s
  | .iso t => .str (cw.isoformat t)
  | .id m => .str (toString m.ms ++ "-" ++ toString m.seq)

/-- `_parse_hints`, which catches `TypeError` and `ValueError` with its subclasses. -/
def parseHints : Hints → Except Error Dict
  | .dumped fields => .ok (fields.map fun field => (field.1, field.2.json cw))
  | .text s =>
    match cw.rt.loads (if s = "" then "\x7b\x7d" else s) with
    | .value (.dict fields) => .ok fields
    | .value _ | .notJson => .ok []
    | .raises .typeError | .raises .valueError | .raises .unicodeDecodeError | .raises .unicodeEncodeError => .ok []
    | .raises e => .error ⟨pyErrorClass e, ""⟩

/-- The class of a value, as `AttributeError` names it. -/
def className : Json → String
  | .null => "NoneType"
  | .bool _ => "bool"
  | .int _ => "int"
  | .float _ => "float"
  | .str _ => "str"
  | .list _ => "list"
  | .dict _ => "dict"

/-- `_parse_stream_hint_timestamp`; the annotation says `str`, but any value gets here. -/
def parseStreamHintTimestamp (value : Json) : Except Error (Option Moment) :=
  match if value.truthy then value else .str [] with
  | .str s =>
    let raw := s.strip
    if raw = [] then .ok none
    else .ok (cw.fromisoformat (raw.flatMap fun c => if c = CodePoint.ofChar 'Z' then Str.ofString "+00:00" else [c]))
  | other => .error ⟨"AttributeError", "'" ++ className other ++ "' object has no attribute 'strip'"⟩

/-- `retry_not_before_for_message`. -/
def retryNotBeforeForMessage (hints : Dict) : Except Error (Option Moment) :=
  parseStreamHintTimestamp cw ((hints.find "retry_not_before").getD (.str []))

/-! ## Reading and sorting -/

/-- `_messages_from_entries`, with the hints of each message: an entry of an unknown stage is
acknowledged, which may fail. -/
def batchMessages (ack : MessageId → Option Error) : List Entry → Except Error (List (StreamMessage × Dict))
  | [] => .ok []
  | e :: entries =>
    match messageFromEntry e with
    | .error _ =>
      match ack e.id with
      | some err => .error err
      | none => batchMessages ack entries
    | .ok m => do
      let hints ← parseHints cw m.envelope.hints
      let messages ← batchMessages ack entries
      return (m, hints) :: messages

/-- When a message may be retried, if that is after `now`. -/
def delayOf (now : Instant) (hints : Dict) : Except Error (Option Instant) := do
  match ← retryNotBeforeForMessage cw hints with
  | none => return none
  | some .naive => throw ⟨"TypeError", "can't compare offset-naive and offset-aware datetimes"⟩
  | some (.aware t) => return if now < t then some t else none

/-- The loop that sorts the messages into those that are ready and those that are not yet due, from
index `i` on; `clock i` is what the clock shows for the message `i`. -/
def sortMessages (clock : Nat → Instant) :
    Nat → List (StreamMessage × Dict) → Except Error (List (Nat × StreamMessage) × List (Nat × StreamMessage × Instant))
  | _, [] => .ok ([], [])
  | i, (m, hints) :: messages => do
    let delay ← delayOf cw (clock i) hints
    let (ready, delayed) ← sortMessages clock (i + 1) messages
    return match delay with
      | none => ((i, m) :: ready, delayed)
      | some t => (ready, (i, m, t) :: delayed)

/-! ## The threads -/

/-- What handling a message comes to: no connection, the end of `_process_stream_message`, or an
error when the connection is given back after it. -/
inductive Handling
  | noConnection (err : Error)
  | returned (result : Result)
  | raised (exc : Exn)
  | notReleased (err : Error)
deriving DecidableEq, Repr

/-- Whether the message got to `_process_stream_message`. -/
def Handling.handed : Handling → Bool
  | noConnection _ => false
  | _ => true

inductive BatchResult
  | processed (result : Result)
  | error (traceId : TraceId) (errorType : String)
deriving DecidableEq, Repr

def Exn.className : Exn → String
  | leaseLost _ => "LeaseLostError"
  | enrichmentEnqueueRetryable _ => "EnrichmentEnqueueRetryable"
  | error e => e.className

/-- `_handle`. -/
def handle (m : StreamMessage) : Handling → Except Error BatchResult
  | .noConnection err | .notReleased err => .error err
  | .returned result => .ok (.processed result)
  | .raised exc => .ok (.error m.envelope.traceId exc.className)

/-- The variables of the loop. `handed` are the messages that get to `_process_stream_message`: the
executor waits for every thread it has started before the function is left, also by an exception. -/
structure Batch where
  ready : List (Nat × StreamMessage)
  delayed : List (Nat × StreamMessage × Instant)
  running : List (Nat × StreamMessage)
  results : List (Nat × BatchResult)
  handed : List Nat
  clock : Instant
  finished : Option (Except Error (List BatchResult))

/-- What the environment decides in one turn: the threads that are done when `wait` returns and
whether it had to block for them, and what the clock shows before and after. -/
structure Turn where
  done : List Nat
  blocks : Bool
  before : Instant
  after : Instant

namespace Batch

variable (handling : Nat → Handling) (workerLimit : Nat) (b : Batch)

def raise (err : Error) : Batch :=
  { b with finished := some (.error err) }

def submit : Batch :=
  let started := b.ready.take (workerLimit - b.running.length)
  { b with
    ready := b.ready.drop (workerLimit - b.running.length)
    running := b.running ++ started
    handed := b.handed ++ (started.map Prod.fst).filter fun i => (handling i).handed }

/-- `_release_due_messages`. -/
def release (now : Instant) : Batch :=
  { b with
    ready := b.ready ++ (b.delayed.filter fun x => x.2.2 ≤ now).map fun x => (x.1, x.2.1)
    delayed := b.delayed.filter fun x => ¬ x.2.2 ≤ now
    clock := now }

def nextRetryAt : Option Instant :=
  (b.delayed.map fun x => x.2.2).min?

/-- `future.result()` of the threads that are done; the first that raises ends the loop. -/
def resultsOf : List (Nat × StreamMessage) → Except Error (List (Nat × BatchResult))
  | [] => .ok []
  | (i, m) :: done => do
    let result ← handle m (handling i)
    let results ← resultsOf done
    return (i, result) :: results

def collect (done : List Nat) : Batch :=
  match resultsOf handling (b.running.filter fun x => x.1 ∈ done) with
  | .error err => b.raise err
  | .ok results =>
    { b with
      running := b.running.filter fun x => x.1 ∉ done
      results := b.results ++ results }

/-- The time to wait for is too long. -/
def Overflows (before : Instant) : Prop :=
  ∃ due ∈ b.nextRetryAt, cw.longest < due - before

instance (before : Instant) : Decidable (b.Overflows cw before) :=
  inferInstanceAs (Decidable (∃ due ∈ b.nextRetryAt, _))

/-- The time that is waited for has come. -/
def Due (after : Instant) : Prop :=
  ∃ due ∈ b.nextRetryAt, due ≤ after

instance (after : Instant) : Decidable (b.Due after) :=
  inferInstanceAs (Decidable (∃ due ∈ b.nextRetryAt, _))

/-- The turn while threads are running: `wait` returns once some are done, or a delayed message is due. -/
def waitTurn (t : Turn) : Option Batch :=
  if t.blocks ∧ b.Overflows cw t.before then some (b.raise ⟨"OverflowError", "timeout value is too large"⟩)
  else
    if (∃ x ∈ b.running, x.1 ∈ t.done) ∨ (t.blocks ∧ b.Due t.after) then
      let b := b.collect handling t.done
      some (if b.finished.isSome then b else b.release t.after)
    else none

/-- The turn while none is: the loop sleeps until a delayed message is due. -/
def sleepTurn (t : Turn) : Option Batch :=
  let b := b.release t.before
  if b.ready ≠ [] ∨ b.delayed = [] then some b
  else if b.Overflows cw t.before then
    some (b.raise ⟨"OverflowError", "timestamp too large to convert to C _PyTime_t"⟩)
  else if b.Due t.after then some (b.release t.after)
  else none

/-- One turn of the loop, or its end. -/
def step (t : Turn) : Option Batch :=
  if b.finished.isSome ∨ ¬ (b.clock ≤ t.before ∧ t.before ≤ t.after) then none
  else if b.ready = [] ∧ b.delayed = [] ∧ b.running = [] then
    some { b with finished := some (.ok ((b.results.mergeSort fun x y => x.1 ≤ y.1).map Prod.snd)) }
  else
    let b := b.submit handling workerLimit
    if b.running ≠ [] then b.waitTurn cw handling t else b.sleepTurn cw t

/-- `wait` or `time.sleep` is over, but the clock does not show the time that was waited for. -/
def wake (t : Turn) : Option Batch :=
  if b.finished.isSome ∨ ¬ (b.clock ≤ t.before ∧ t.before ≤ t.after) ∨
      (b.ready = [] ∧ b.delayed = [] ∧ b.running = []) then none
  else
    let b := b.submit handling workerLimit
    let b := if b.running = [] then b.release t.before else b
    if (b.running = [] → b.ready = []) ∧ b.delayed ≠ [] ∧ ¬ b.Overflows cw t.before ∧ ¬ b.Due t.after then
      some (b.release t.after)
    else none

end Batch

/-- The batch before the loop; what reading and sorting raise ends it. -/
def startBatch (ack : MessageId → Option Error) (clock : Nat → Instant) (now : Instant) (entries : List Entry) :
    Batch :=
  match batchMessages cw ack entries >>= sortMessages cw clock 0 with
  | .error err => ⟨[], [], [], [], [], now, some (.error err)⟩
  | .ok (ready, delayed) => ⟨ready, delayed, [], [], [], now, none⟩

/-- The loop of `run_core_batch_once` with any clock that is not set back; `worker_limit` is at least 1. -/
def schedule (handling : Nat → Handling) (maxInflight : Nat) : TransitionSystem Batch Turn where
  init b := b.finished = none
  step b t := (b.step cw handling (max 1 maxInflight) t).or (b.wake cw handling (max 1 maxInflight) t)

end AuditGateway.Analysis
