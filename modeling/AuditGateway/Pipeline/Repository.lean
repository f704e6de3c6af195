import AuditGateway.Framework.Keyed
import AuditGateway.Pipeline.Rules

/-!
# The tables of the analysis

`save_trace_analysis` of `repository.py` with the tables it writes to. A message is stored
once under its key, and referred to from the places of the traces where it occurs; a
`message_id` stands for a `message_key` here, which is unique and never changed. Times are
those that a statement sets to `now()`.

A call raises if Postgres does not take one of the texts it sends. The transaction is
rolled back then, so a failed call has no tables as its result.
-/

namespace AuditGateway.Pipeline

open AuditGateway.Framework AuditGateway.Python AuditGateway.Analysis

/-! ## Rows -/

/-- A row of `messages`. -/
structure MessageRow where
  role : Str
  modality : Modality
  contentText : Str
  contentTextHash : Str
  tokenCountEstimate : Nat
  firstTraceId : Str
  occurrenceCount : Nat := 1
deriving DecidableEq

/-- The primary key of `trace_messages`: a place in a trace. -/
structure Place where
  traceId : Str
  direction : Direction
  sequenceIndex : Nat
  sourcePath : Str
deriving DecidableEq

/-- The other columns of a row of `trace_messages`. -/
structure TraceMessageRow where
  messageKey : Str
  protocolItemType : ItemType
  mediaUrl : Str
  metadata : List (String × Str)
deriving DecidableEq

/-- The unique columns of `media_snapshot_jobs`. -/
structure SnapshotKey where
  traceId : Str
  sourceUrl : Str
  sourceContext : Str
  policyReason : Str
deriving DecidableEq

inductive SnapshotStatus
  | queued
  | downloaded
  | skipped
  | failed
deriving DecidableEq, Repr

/-- The unique columns of `analysis_results`. -/
structure ResultKey where
  traceId : Str
  stage : AnalysisStage
  producer : Str
  resultKey : Str
deriving DecidableEq

/-- The other columns of a row of `analysis_results`. -/
structure ResultRow where
  analyzerName : Str
  analyzerVersion : Str
  policyVersion : Str
  category : Str
  label : Str
  score : ℚ
  confidence : ℚ
  severity : Str
  resultJson : ResultJson
deriving DecidableEq

/-- A row of `trace_usage_facts`. -/
structure UsageFactRow where
  tokenFingerprint : Str
  username : Str
  model : Str
  routePattern : Str
  protocolFamily : Str
  requestStartedAt : Int
  requestCount : Int
  successCount : Int
  errorCount : Int
  streamCount : Int
  promptTokens : Int
  completionTokens : Int
  cachedTokens : Int
  totalTokens : Int
  reasoningTokens : Int
  requestBodyBytes : Int
  responseBodyBytes : Int
  updatedAt : Int
deriving DecidableEq

/-- A row of `usage_anomalies`. -/
structure AnomalyRow where
  alert : AnomalyAlert
  updatedAt : Int
deriving DecidableEq

/-- A row of `coverage_alerts`. -/
structure CoverageRow where
  alert : CoverageAlert
  occurrenceCount : Nat := 1
  lastSeenAt : Int
  updatedAt : Int
deriving DecidableEq

/-- The tables that the analysis of traces writes to. -/
structure Tables where
  messages : Keyed Str MessageRow
  traceMessages : Keyed Place TraceMessageRow
  snapshotJobs : Keyed SnapshotKey SnapshotStatus
  results : Keyed ResultKey ResultRow
  usageFacts : Keyed Str UsageFactRow
  anomalies : Keyed Str AnomalyRow
  coverageAlerts : Keyed Str CoverageRow
  /-- The traces whose `analysis_status` is `completed`. -/
  analysed : List Str

def Tables.empty : Tables where
  messages := .empty
  traceMessages := .empty
  snapshotJobs := .empty
  results := .empty
  usageFacts := .empty
  anomalies := .empty
  coverageAlerts := .empty
  analysed := []

/-! ## What is sent to Postgres -/

/-- The limits of the server that a text of a body can meet: the columns of an index entry
have to fit into a page. A row that is in the table already has met them. -/
structure Postgres where
  indexable : List Str → Bool

/-- A text as a parameter of a statement. -/
def dumpText (s : Str) : Except PyError Unit :=
  if ¬ Encodes s then .error .unicodeEncodeError
  else if 0 ∈ s then .error .dataError
  else .ok ()

/-- The texts of a statement. -/
def dumpTexts (texts : List Str) : Except PyError Unit :=
  texts.foldlM (fun _ s => dumpText s) ()

/-- The texts for which `jsonb` takes the escapes of `json.dumps`: no NUL, and surrogates only
in pairs. -/
def jsonbTakes : Str → Bool
  | [] => true
  | [c] => !c.isSurrogate && c != 0
  | c :: d :: s =>
    if 0xD800 ≤ c.val ∧ c.val ≤ 0xDBFF ∧ 0xDC00 ≤ d.val ∧ d.val ≤ 0xDFFF then jsonbTakes s
    else !c.isSurrogate && c != 0 && jsonbTakes (d :: s)

/-- The cast of a document with these texts to `jsonb`. -/
def castJsonb (texts : List Str) : Except PyError Unit :=
  if texts.all jsonbTakes then .ok () else .error .dataError

/-- An index entry with these columns. -/
def enterIndex (pg : Postgres) (columns : List Str) : Except PyError Unit :=
  if pg.indexable columns then .ok () else .error .programLimitExceeded

/-! ## Messages -/

def NormalizedMessage.place (m : NormalizedMessage) : Place where
  traceId := m.traceId
  direction := m.direction
  sequenceIndex := m.sequenceIndex
  sourcePath := m.sourcePath

def NormalizedMessage.row (m : NormalizedMessage) : MessageRow where
  role := m.role
  modality := m.modality
  contentText := m.contentText
  contentTextHash := m.contentTextHash
  tokenCountEstimate := m.tokenCountEstimate
  firstTraceId := m.traceId

def NormalizedMessage.occurrence (m : NormalizedMessage) : TraceMessageRow where
  messageKey := m.messageKey
  protocolItemType := m.protocolItemType
  mediaUrl := m.mediaUrl
  metadata := m.metadata

def MessageRow.seenAgain (row : MessageRow) : MessageRow :=
  { row with occurrenceCount := row.occurrenceCount + 1 }

/-- The three statements of the first loop: the message unless it is there, the place unless it
is taken, and one more occurrence of a message that was there if the place was free. -/
def Tables.storeMessage (T : Tables) (m : NormalizedMessage) : Tables :=
  let messagesRowIsNew := T.messages.find m.messageKey = none
  let placeIsNew := T.traceMessages.find m.place = none
  let messages := T.messages.insertNew m.messageKey m.row
  { T with
    messages := if placeIsNew ∧ ¬ messagesRowIsNew then messages.modify m.messageKey MessageRow.seenAgain else messages
    traceMessages := T.traceMessages.insertNew m.place m.occurrence }

/-- The texts that the statements for a message send. -/
def NormalizedMessage.texts (m : NormalizedMessage) : List Str :=
  [m.messageKey, m.role, m.modality.value, m.contentText, m.contentTextHash, m.traceId]

def NormalizedMessage.placeTexts (m : NormalizedMessage) : List Str :=
  [m.traceId, m.direction.value, m.sourcePath, m.protocolItemType.value, m.mediaUrl]

/-- The body of the first loop. -/
def saveMessage (pg : Postgres) (T : Tables) (m : NormalizedMessage) : Except PyError Tables := do
  dumpTexts m.texts
  enterIndex pg [m.role, m.modality.value]
  dumpTexts m.placeTexts
  castJsonb (m.metadata.map Prod.snd)
  return T.storeMessage m

/-- `_is_snapshot_queue_candidate`. -/
def isSnapshotQueueCandidate (rt : Runtime) (mediaUrl : Str) : Except PyError Bool := do
  if mediaUrl = [] then return false
  let scheme ← rt.urlScheme mediaUrl
  return scheme = Str.ofString "http" ∨ scheme = Str.ofString "https"

def NormalizedMessage.snapshotKey (m : NormalizedMessage) : SnapshotKey where
  traceId := m.traceId
  sourceUrl := m.mediaUrl
  sourceContext := m.sourcePath
  policyReason := "generated_or_referenced_media"

def SnapshotKey.texts (x : SnapshotKey) : List Str :=
  [x.traceId, x.sourceUrl, x.sourceContext, x.policyReason]

/-- The body of the second loop. -/
def saveSnapshotJob (rt : Runtime) (pg : Postgres) (T : Tables) (m : NormalizedMessage) : Except PyError Tables := do
  if ← isSnapshotQueueCandidate rt m.mediaUrl then
    dumpTexts m.snapshotKey.texts
    enterIndex pg m.snapshotKey.texts
    return { T with snapshotJobs := T.snapshotJobs.insertNew m.snapshotKey .queued }
  else return T

/-! ## Results, facts, anomalies and alerts -/

/-- `_analysis_result_identity`. -/
def AnalysisResult.identity (r : AnalysisResult) : ResultKey where
  traceId := r.traceId
  stage := r.stage.getD .core
  producer := if r.producer = [] then r.analyzerName else r.producer
  resultKey := if r.resultKey = [] then r.category ++ Str.ofString ":" ++ r.label else r.resultKey

def AnalysisResult.row (r : AnalysisResult) : ResultRow where
  analyzerName := r.analyzerName
  analyzerVersion := r.analyzerVersion
  policyVersion := r.policyVersion
  category := r.category
  label := r.label
  score := r.score
  confidence := r.confidence
  severity := r.severity
  resultJson := r.result

/-- The update of a result that is there already. -/
def ResultRow.replacedBy (new : ResultRow) (old : ResultRow) : ResultRow :=
  { old with
    analyzerVersion := new.analyzerVersion
    policyVersion := new.policyVersion
    score := new.score
    confidence := new.confidence
    severity := new.severity
    resultJson := new.resultJson }

def AnalysisResult.texts (r : AnalysisResult) : List Str :=
  [r.traceId, r.analyzerName, r.analyzerVersion, r.policyVersion, r.category, r.label, r.severity,
   AnalysisStage.text r.identity.stage, r.identity.producer, r.identity.resultKey]

def Tables.storeResult (T : Tables) (r : AnalysisResult) : Tables :=
  { T with results := T.results.upsert r.identity r.row r.row.replacedBy }

/-- The body of the third loop. -/
def saveResult (T : Tables) (r : AnalysisResult) : Except PyError Tables := do
  dumpTexts r.texts
  castJsonb r.result.texts
  return T.storeResult r

/-- The row of a usage fact. -/
def UsageAggregateDelta.fact (x : UsageAggregateDelta) (now : Int) : UsageFactRow where
  tokenFingerprint := x.tokenFingerprint
  username := x.username
  model := x.model
  routePattern := x.routePattern
  protocolFamily := x.protocolFamily
  requestStartedAt := x.requestStartedAt
  requestCount := x.requestCount
  successCount := x.successCount
  errorCount := x.errorCount
  streamCount := x.streamCount
  promptTokens := x.promptTokens
  completionTokens := x.completionTokens
  cachedTokens := x.cachedTokens
  totalTokens := x.totalTokens
  reasoningTokens := x.reasoningTokens
  requestBodyBytes := x.requestBodyBytes
  responseBodyBytes := x.responseBodyBytes
  updatedAt := now

def UsageAggregateDelta.texts (x : UsageAggregateDelta) (traceId : Str) : List Str :=
  [traceId, x.tokenFingerprint, x.username, x.model, x.routePattern, x.protocolFamily]

/-- `_save_trace_usage_fact`. -/
def saveTraceUsageFact (now : Int) (T : Tables) (traceId : Str) (x : UsageAggregateDelta) :
    Except PyError Tables := do
  dumpTexts (x.texts traceId)
  return { T with usageFacts := T.usageFacts.upsert traceId (x.fact now) fun _ => x.fact now }

/-- The trace that a delta is counted for. -/
def deltaTrace (traceIds : List Str) (x : UsageAggregateDelta) : Str :=
  match x.traceId, traceIds with
  | [], [traceId] => traceId
  | traceId, _ => traceId

/-- The loop over the deltas, of which only the first of each trace is stored. -/
def saveUsageFacts (now : Int) (traceIds : List Str) (T : Tables) (seen : List Str) :
    List UsageAggregateDelta → Except PyError Tables
  | [] => .ok T
  | x :: aggregates =>
    if deltaTrace traceIds x = [] ∨ deltaTrace traceIds x ∈ seen then
      saveUsageFacts now traceIds T seen aggregates
    else do
      let T ← saveTraceUsageFact now T (deltaTrace traceIds x) x
      saveUsageFacts now traceIds T (deltaTrace traceIds x :: seen) aggregates

def AnomalyAlert.texts (x : AnomalyAlert) : List Str :=
  [x.anomalyId, x.anomalyType.value, x.severity.value, x.tokenFingerprint, x.fingerprintDisplay, x.username,
   x.tokenNameSnapshot, x.model, x.routePattern, x.reason, x.detectorVersion] ++ x.sampleTraceIds

/-- The update of an anomaly that is there already. -/
def AnomalyAlert.over (new : AnomalyAlert) (now : Int) (old : AnomalyRow) : AnomalyRow where
  alert := { old.alert with
    severity := new.severity
    observedValue := new.observedValue
    thresholdValue := new.thresholdValue
    baselineValue := new.baselineValue
    sampleTraceIds := new.sampleTraceIds
    reason := new.reason }
  updatedAt := now

def Tables.storeAnomaly (now : Int) (T : Tables) (x : AnomalyAlert) : Tables :=
  { T with anomalies := T.anomalies.upsert x.anomalyId ⟨x, now⟩ (x.over now) }

def saveAnomaly (now : Int) (T : Tables) (x : AnomalyAlert) : Except PyError Tables := do
  dumpTexts x.texts
  return T.storeAnomaly now x

def CoverageAlert.texts (x : CoverageAlert) : List Str :=
  [x.alertId, x.alertCode, x.severity.value, x.method, x.routePattern, x.rawPath, x.contentType,
   x.protocolFamily, x.payloadShapeHash, x.normalizer, x.normalizerVersion, x.message] ++ x.sampleTraceIds

/-- The update of an alert that is there already. The order of the distinct samples is not
specified. -/
def CoverageAlert.over (new : CoverageAlert) (now : Int) (old : CoverageRow) : CoverageRow :=
  let samples := (old.alert.sampleTraceIds ++ new.sampleTraceIds).eraseDups
  { alert := { old.alert with
      sampleTraceIds := samples
      message := new.message
      affectedTraceCount := samples.length
      affectedTokenCount := max old.alert.affectedTokenCount new.affectedTokenCount
      affectedUserCount := max old.alert.affectedUserCount new.affectedUserCount }
    occurrenceCount := old.occurrenceCount + 1
    lastSeenAt := now
    updatedAt := now }

def Tables.storeCoverageAlert (now : Int) (T : Tables) (x : CoverageAlert) : Tables :=
  { T with coverageAlerts := T.coverageAlerts.upsert x.alertId ⟨x, 1, now, now⟩ (x.over now) }

def saveCoverageAlert (now : Int) (T : Tables) (x : CoverageAlert) : Except PyError Tables := do
  dumpTexts x.texts
  return T.storeCoverageAlert now x

/-! ## The whole of a trace -/

/-- The arguments of `save_trace_analysis`. -/
structure TraceAnalysis where
  messages : List NormalizedMessage
  results : List AnalysisResult
  aggregates : List UsageAggregateDelta
  anomalies : List AnomalyAlert := []
  coverageAlerts : List CoverageAlert := []

/-- `trace_ids`. -/
def TraceAnalysis.traceIds (a : TraceAnalysis) : List Str :=
  (a.messages.map (·.traceId) ++ a.results.map (·.traceId)).eraseDups

/-- `save_trace_analysis`. -/
def saveTraceAnalysis (rt : Runtime) (pg : Postgres) (now : Int) (T : Tables) (a : TraceAnalysis) :
    Except PyError Tables := do
  let T ← a.messages.foldlM (saveMessage pg) T
  let T ← a.messages.foldlM (saveSnapshotJob rt pg) T
  let T ← a.results.foldlM saveResult T
  let T ← saveUsageFacts now a.traceIds T [] a.aggregates
  let T ← a.anomalies.foldlM (saveAnomaly now) T
  let T ← a.coverageAlerts.foldlM (saveCoverageAlert now) T
  dumpTexts a.traceIds
  return { T with analysed := a.traceIds ++ T.analysed }

/-! ## When it returns, and with which tables -/

section Yields

variable (rt : Runtime) (pg : Postgres) (now : Int)

theorem dumpText_yields (s : Str) : Yields (dumpText s) (Storable s) () := by
  unfold dumpText Storable
  by_cases hs : Encodes s
  · by_cases h0 : 0 ∈ s
    · simpa [hs, h0] using Yields.throw (α := Unit) PyError.dataError ()
    · simpa [hs, h0] using Yields.pure (ε := PyError) ()
  · simpa [hs] using Yields.throw (α := Unit) PyError.unicodeEncodeError ()

theorem dumpTexts_yields (texts : List Str) : Yields (dumpTexts texts) (∀ s ∈ texts, Storable s) () :=
  Yields.foldlM (g := fun _ _ => ()) (fun _ s _ => dumpText_yields s) ()

theorem castJsonb_yields (texts : List Str) :
    Yields (castJsonb texts) (∀ s ∈ texts, jsonbTakes s = true) () :=
  (Yields.guard _).of_iff List.all_eq_true

theorem enterIndex_yields (columns : List Str) :
    Yields (enterIndex pg columns) (pg.indexable columns = true) () :=
  Yields.guard _

theorem jsonbTakes_of_storable {s : Str} (h : Storable s) : jsonbTakes s = true := by
  have hchar {c : CodePoint} (hc : Storable [c]) : (!c.isSurrogate && c != 0) = true := by
    have hs := hc.1 c List.mem_cons_self
    have h0 : c ≠ 0 := fun h => hc.2 (List.mem_singleton.2 h.symm)
    simp [hs, h0]
  fun_induction jsonbTakes s with
  | case1 => rfl
  | case2 c => exact hchar h
  | case3 c d s _ ih => exact ih (h.of_subset (by grind))
  | case4 c d s _ ih =>
    obtain ⟨hc, hs⟩ := storable_cons.1 h
    rw [hchar hc, ih hs]
    rfl

/-- The statements for a message take its texts. -/
structure NormalizedMessage.Savable (m : NormalizedMessage) : Prop where
  texts : ∀ s ∈ m.texts, Storable s
  index : pg.indexable [m.role, m.modality.value] = true
  placeTexts : ∀ s ∈ m.placeTexts, Storable s
  metadata : ∀ s ∈ m.metadata.map Prod.snd, jsonbTakes s = true

theorem saveMessage_yields (T : Tables) (m : NormalizedMessage) :
    Yields (saveMessage pg T m) (m.Savable pg) (T.storeMessage m) := by
  refine ((dumpTexts_yields m.texts).bind fun _ => (enterIndex_yields pg _).bind fun _ =>
    (dumpTexts_yields m.placeTexts).bind fun _ => (castJsonb_yields _).bind_pure).of_iff ?_
  exact ⟨fun ⟨h₁, h₂, h₃, h₄⟩ => ⟨h₁, h₂, h₃, h₄⟩, fun ⟨h₁, h₂, h₃, h₄⟩ => ⟨h₁, h₂, h₃, h₄⟩⟩

/-- The medium of a message is to be fetched. -/
def NormalizedMessage.Queued (m : NormalizedMessage) : Prop :=
  m.mediaUrl ≠ [] ∧
    (rt.urlScheme m.mediaUrl = .ok (Str.ofString "http") ∨ rt.urlScheme m.mediaUrl = .ok (Str.ofString "https"))

instance (m : NormalizedMessage) : Decidable (m.Queued rt) :=
  inferInstanceAs (Decidable (_ ∧ (_ ∨ _)))

/-- The URL of a medium can be parsed, and its job can be entered if it is to be fetched. -/
structure NormalizedMessage.Queueable (m : NormalizedMessage) : Prop where
  parses : m.mediaUrl ≠ [] → ∃ scheme, rt.urlScheme m.mediaUrl = .ok scheme
  texts : m.Queued rt → ∀ s ∈ m.snapshotKey.texts, Storable s
  index : m.Queued rt → pg.indexable m.snapshotKey.texts = true

def Tables.queueSnapshot (T : Tables) (m : NormalizedMessage) : Tables :=
  if m.Queued rt then { T with snapshotJobs := T.snapshotJobs.insertNew m.snapshotKey .queued } else T

theorem isSnapshotQueueCandidate_yields (m : NormalizedMessage) :
    Yields (isSnapshotQueueCandidate rt m.mediaUrl)
      (m.mediaUrl ≠ [] → ∃ scheme, rt.urlScheme m.mediaUrl = .ok scheme) (decide (m.Queued rt)) := by
  unfold isSnapshotQueueCandidate
  by_cases hurl : m.mediaUrl = []
  · rw [if_pos hurl]
    exact (Yields.pure false).congr (by simp [hurl]) (by simp [NormalizedMessage.Queued, hurl])
  · rw [if_neg hurl]
    refine (Yields.self (rt.urlScheme m.mediaUrl) []).bind_pure.congr (by simp [hurl]) fun hparses => ?_
    obtain ⟨scheme, hscheme⟩ := hparses hurl
    simp [NormalizedMessage.Queued, hurl, hscheme, Except.toOption]

theorem saveSnapshotJob_yields (T : Tables) (m : NormalizedMessage) :
    Yields (saveSnapshotJob rt pg T m) (m.Queueable rt pg) (T.queueSnapshot rt m) := by
  unfold saveSnapshotJob Tables.queueSnapshot
  by_cases hq : m.Queued rt
  · refine ((isSnapshotQueueCandidate_yields rt m).bind (Q := (∀ s ∈ m.snapshotKey.texts, Storable s) ∧
      pg.indexable m.snapshotKey.texts = true) fun _ => ?_).of_iff ?_
    · rw [decide_eq_true hq, if_pos hq]
      exact (dumpTexts_yields _).bind fun _ => (enterIndex_yields pg _).bind_pure
    · exact ⟨fun ⟨h₁, h₂, h₃⟩ => ⟨h₁, fun _ => h₂, fun _ => h₃⟩, fun ⟨h₁, h₂, h₃⟩ => ⟨h₁, h₂ hq, h₃ hq⟩⟩
  · refine ((isSnapshotQueueCandidate_yields rt m).bind (Q := True) fun _ => ?_).of_iff ?_
    · rw [decide_eq_false hq, if_neg hq]
      exact Yields.pure T
    · exact ⟨fun ⟨h, _⟩ => ⟨h, fun h' => absurd h' hq, fun h' => absurd h' hq⟩, fun h => ⟨h.parses, trivial⟩⟩

/-- The statement for a result takes its texts. -/
structure AnalysisResult.Savable (r : AnalysisResult) : Prop where
  texts : ∀ s ∈ r.texts, Storable s
  json : ∀ s ∈ r.result.texts, jsonbTakes s = true

theorem saveResult_yields (T : Tables) (r : AnalysisResult) :
    Yields (saveResult T r) r.Savable (T.storeResult r) := by
  refine ((dumpTexts_yields r.texts).bind fun _ => (castJsonb_yields _).bind_pure).of_iff ?_
  exact ⟨fun ⟨h₁, h₂⟩ => ⟨h₁, h₂⟩, fun ⟨h₁, h₂⟩ => ⟨h₁, h₂⟩⟩

/-- The deltas that are stored, with their traces. -/
def storedDeltas (traceIds seen : List Str) : List UsageAggregateDelta → List (Str × UsageAggregateDelta)
  | [] => []
  | x :: aggregates =>
    if deltaTrace traceIds x = [] ∨ deltaTrace traceIds x ∈ seen then storedDeltas traceIds seen aggregates
    else (deltaTrace traceIds x, x) :: storedDeltas traceIds (deltaTrace traceIds x :: seen) aggregates

def Tables.storeUsageFact (T : Tables) (x : Str × UsageAggregateDelta) : Tables :=
  { T with usageFacts := T.usageFacts.upsert x.1 (x.2.fact now) fun _ => x.2.fact now }

theorem saveUsageFacts_yields (traceIds : List Str) (T : Tables) (seen : List Str)
    (aggregates : List UsageAggregateDelta) :
    Yields (saveUsageFacts now traceIds T seen aggregates)
      (∀ x ∈ storedDeltas traceIds seen aggregates, ∀ s ∈ x.2.texts x.1, Storable s)
      ((storedDeltas traceIds seen aggregates).foldl (Tables.storeUsageFact now) T) := by
  induction aggregates generalizing T seen with
  | nil => exact (Yields.pure T).of_iff (by simp [storedDeltas])
  | cons x aggregates ih =>
    rw [saveUsageFacts, storedDeltas]
    split
    · exact ih T seen
    · refine ((dumpTexts_yields _).bind_pure.bind fun _ => ih _ _).of_iff ?_
      exact (List.forall_mem_cons (p := fun y : Str × UsageAggregateDelta => ∀ s ∈ y.2.texts y.1, Storable s)
        (a := (deltaTrace traceIds x, x))).symm

theorem saveAnomaly_yields (T : Tables) (x : AnomalyAlert) :
    Yields (saveAnomaly now T x) (∀ s ∈ x.texts, Storable s) (T.storeAnomaly now x) :=
  (dumpTexts_yields _).bind_pure

theorem saveCoverageAlert_yields (T : Tables) (x : CoverageAlert) :
    Yields (saveCoverageAlert now T x) (∀ s ∈ x.texts, Storable s) (T.storeCoverageAlert now x) :=
  (dumpTexts_yields _).bind_pure

/-- Postgres takes everything that is sent for an analysis. -/
structure TraceAnalysis.Savable (a : TraceAnalysis) : Prop where
  messages : ∀ m ∈ a.messages, m.Savable pg
  snapshots : ∀ m ∈ a.messages, m.Queueable rt pg
  results : ∀ r ∈ a.results, r.Savable
  facts : ∀ x ∈ storedDeltas a.traceIds [] a.aggregates, ∀ s ∈ x.2.texts x.1, Storable s
  anomalies : ∀ x ∈ a.anomalies, ∀ s ∈ x.texts, Storable s
  coverageAlerts : ∀ x ∈ a.coverageAlerts, ∀ s ∈ x.texts, Storable s
  traceIds : ∀ s ∈ a.traceIds, Storable s

/-- The tables after an analysis has been saved. -/
def Tables.saved (T : Tables) (a : TraceAnalysis) : Tables :=
  let T := a.messages.foldl Tables.storeMessage T
  let T := a.messages.foldl (Tables.queueSnapshot rt) T
  let T := a.results.foldl Tables.storeResult T
  let T := (storedDeltas a.traceIds [] a.aggregates).foldl (Tables.storeUsageFact now) T
  let T := a.anomalies.foldl (Tables.storeAnomaly now) T
  let T := a.coverageAlerts.foldl (Tables.storeCoverageAlert now) T
  { T with analysed := a.traceIds ++ T.analysed }

theorem saveTraceAnalysis_yields (T : Tables) (a : TraceAnalysis) :
    Yields (saveTraceAnalysis rt pg now T a) (a.Savable rt pg) (T.saved rt now a) := by
  refine ((Yields.foldlM (fun T m _ => saveMessage_yields pg T m) T).bind fun _ =>
    (Yields.foldlM (fun T m _ => saveSnapshotJob_yields rt pg T m) _).bind fun _ =>
    (Yields.foldlM (fun T r _ => saveResult_yields T r) _).bind fun _ =>
    (saveUsageFacts_yields now _ _ _ _).bind fun _ =>
    (Yields.foldlM (fun T x _ => saveAnomaly_yields now T x) _).bind fun _ =>
    (Yields.foldlM (fun T x _ => saveCoverageAlert_yields now T x) _).bind fun _ =>
    (dumpTexts_yields _).bind_pure).of_iff ?_
  exact ⟨fun ⟨h₁, h₂, h₃, h₄, h₅, h₆, h₇⟩ => ⟨h₁, h₂, h₃, h₄, h₅, h₆, h₇⟩,
    fun ⟨h₁, h₂, h₃, h₄, h₅, h₆, h₇⟩ => ⟨h₁, h₂, h₃, h₄, h₅, h₆, h₇⟩⟩

end Yields

/-! ## The tables one by one -/

section Saved

variable (rt : Runtime) (now : Int) (T : Tables)

theorem foldl_storeMessage (messages : List NormalizedMessage) :
    ∃ stored places, messages.foldl Tables.storeMessage T =
      { T with messages := stored, traceMessages := places } := by
  induction messages generalizing T with
  | nil => exact ⟨_, _, rfl⟩
  | cons m messages ih =>
    obtain ⟨stored, places, h⟩ := ih (T.storeMessage m)
    exact ⟨stored, places, h⟩

theorem foldl_queueSnapshot (messages : List NormalizedMessage) :
    ∃ jobs, messages.foldl (Tables.queueSnapshot rt) T = { T with snapshotJobs := jobs } := by
  induction messages generalizing T with
  | nil => exact ⟨_, rfl⟩
  | cons m messages ih =>
    obtain ⟨jobs, h⟩ := ih (T.queueSnapshot rt m)
    refine ⟨jobs, ?_⟩
    rw [List.foldl_cons, h, Tables.queueSnapshot]
    split <;> rfl

theorem foldl_storeResult (results : List AnalysisResult) :
    results.foldl Tables.storeResult T =
      { T with results := results.foldl (fun t r => t.upsert r.identity r.row r.row.replacedBy) T.results } := by
  induction results generalizing T with
  | nil => rfl
  | cons r results ih =>
    rw [List.foldl_cons, ih]
    rfl

theorem foldl_storeUsageFact (deltas : List (Str × UsageAggregateDelta)) :
    deltas.foldl (Tables.storeUsageFact now) T =
      { T with usageFacts :=
          deltas.foldl (fun t x => t.upsert x.1 (x.2.fact now) fun _ => x.2.fact now) T.usageFacts } := by
  induction deltas generalizing T with
  | nil => rfl
  | cons x deltas ih =>
    rw [List.foldl_cons, ih]
    rfl

theorem foldl_storeAnomaly (anomalies : List AnomalyAlert) :
    anomalies.foldl (Tables.storeAnomaly now) T =
      { T with anomalies :=
          anomalies.foldl (fun t x => t.upsert x.anomalyId ⟨x, now⟩ (x.over now)) T.anomalies } := by
  induction anomalies generalizing T with
  | nil => rfl
  | cons x anomalies ih =>
    rw [List.foldl_cons, ih]
    rfl

theorem foldl_storeCoverageAlert (alerts : List CoverageAlert) :
    alerts.foldl (Tables.storeCoverageAlert now) T =
      { T with coverageAlerts :=
          alerts.foldl (fun t x => t.upsert x.alertId ⟨x, 1, now, now⟩ (x.over now)) T.coverageAlerts } := by
  induction alerts generalizing T with
  | nil => rfl
  | cons x alerts ih =>
    rw [List.foldl_cons, ih]
    rfl

theorem saved_eq (a : TraceAnalysis) : T.saved rt now a =
    { messages := (a.messages.foldl Tables.storeMessage T).messages
      traceMessages := (a.messages.foldl Tables.storeMessage T).traceMessages
      snapshotJobs := (a.messages.foldl (Tables.queueSnapshot rt)
        (a.messages.foldl Tables.storeMessage T)).snapshotJobs
      results := a.results.foldl (fun t r => t.upsert r.identity r.row r.row.replacedBy) T.results
      usageFacts := (storedDeltas a.traceIds [] a.aggregates).foldl
        (fun t x => t.upsert x.1 (x.2.fact now) fun _ => x.2.fact now) T.usageFacts
      anomalies := a.anomalies.foldl (fun t x => t.upsert x.anomalyId ⟨x, now⟩ (x.over now)) T.anomalies
      coverageAlerts := a.coverageAlerts.foldl (fun t x => t.upsert x.alertId ⟨x, 1, now, now⟩ (x.over now))
        T.coverageAlerts
      analysed := a.traceIds ++ T.analysed } := by
  obtain ⟨stored, places, hstored⟩ := foldl_storeMessage T a.messages
  obtain ⟨jobs, hjobs⟩ := foldl_queueSnapshot rt { T with messages := stored, traceMessages := places } a.messages
  simp only [Tables.saved, hstored, hjobs, foldl_storeResult, foldl_storeUsageFact, foldl_storeAnomaly,
    foldl_storeCoverageAlert]

end Saved

end AuditGateway.Pipeline
