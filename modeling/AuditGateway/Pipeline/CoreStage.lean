import AuditGateway.Pipeline.CoreAnalysis

/-!
# The core stage

`CoreStageProcessor.process` (`core_stage.py`), from the evidence of a trace to its rows:
`process_job_line` and `process_trace` of `main.py` without a judge and without media
extraction. It is what the worker runs as the stage processor of core tasks; if it
raises, the attempt has failed and its transaction is rolled back.

The bodies are whatever the client and the upstream have sent. They are read as UTF-8, and
then as JSON, and their texts are hashed and stored.
-/

namespace AuditGateway.Pipeline

open AuditGateway.Framework AuditGateway.Python AuditGateway.Analysis

/-- The bytes that are stored under a ref. -/
abbrev EvidenceStore := Str → Option (List UInt8)

/-- `read_text`. -/
def readText (store : EvidenceStore) (ref : Str) : Except PyError Str :=
  match store ref with
  | none => .error .fileNotFoundError
  | some data =>
    match decodeUtf8 data with
    | none => .error .unicodeDecodeError
    | some text => .ok text.universalNewlines

/-- A body of a trace: the text under its ref, if it has one. -/
def readBody (store : EvidenceStore) (ref : Str) : Except PyError Str :=
  if ref = [] then .ok [] else readText store ref

inductive EnrichmentReason
  | llmJudge
  | mediaDerivation
deriving DecidableEq, Repr

/-- What `process_trace` returns. -/
structure TraceResult where
  acceptedTraceId : Str
  normalizedMessageCount : Nat
  analysisResultCount : Nat
  aggregateCount : Nat
  anomalyCount : Nat
  coverageAlertCount : Nat
  usageTotalTokens : Int
  enrichmentReasons : List EnrichmentReason
deriving DecidableEq

/-- `_messages_need_media_derivation`. -/
def messagesNeedMediaDerivation (messages : List NormalizedMessage) : Bool :=
  messages.any fun m => m.protocolItemType = .base64Media ∨ m.protocolItemType = .base64MediaExtracted

def coreEnrichmentReasons (messages : List NormalizedMessage) (workRelevance : WorkRelevanceAssessment) :
    List EnrichmentReason :=
  (if workRelevance.llmJudgeRequested then [.llmJudge] else []) ++
    (if messagesNeedMediaDerivation messages then [.mediaDerivation] else [])

section Process

variable (rt : Runtime) (pg : Postgres) (now : Int) (contexts : List ContextCatalogEntry) (llmJudge : Option Judge)

/-- `process_trace`, as the core stage calls it. -/
def processTrace (T : Tables) (job : TraceCapturedJob) (requestBody responseBody : Str) :
    Except PyError (Tables × TraceResult) := do
  let messages ← normalizeJsonTrace rt job none requestBody responseBody
  let workRelevance ← classifyWorkRelevance rt job messages contexts llmJudge false false
  let tokenAnomalies ← detectAnomalies rt job {}
  let workAnomalies ← detectWorkRelevanceAnomalies rt job workRelevance
  let coverageAlerts ← detectCoverageAlerts rt job messages
  let analysis : TraceAnalysis :=
    { messages
      results := coreResults job workRelevance
      aggregates := aggregateDeltas job
      anomalies := tokenAnomalies ++ workAnomalies
      coverageAlerts }
  let T ← saveTraceAnalysis rt pg now T analysis
  return (T, { acceptedTraceId := job.traceId
               normalizedMessageCount := analysis.messages.length
               analysisResultCount := analysis.results.length
               aggregateCount := analysis.aggregates.length
               anomalyCount := analysis.anomalies.length
               coverageAlertCount := analysis.coverageAlerts.length
               usageTotalTokens := job.usageTotalTokens
               enrichmentReasons := coreEnrichmentReasons messages workRelevance })

/-- `process_job_line`, as the core stage calls it. -/
def processJobLine (store : EvidenceStore) (T : Tables) (job : TraceCapturedJob) :
    Except PyError (Tables × TraceResult) := do
  let requestBody ← readBody store job.requestRawRef
  let responseBody ← readBody store job.responseRawRef
  processTrace rt pg now contexts llmJudge T job requestBody responseBody

/-- What the core stage returns, with what it sets in the trace's row. -/
structure CoreResult where
  result : TraceResult
  enrichmentReasons : List EnrichmentReason
  enrichmentRequired : Bool
deriving DecidableEq

/-- `_effective_enrichment_reasons`. -/
def effectiveEnrichmentReasons (reasons : List EnrichmentReason) : List EnrichmentReason :=
  reasons.filter fun reason => ¬ (reason = .llmJudge ∧ llmJudge.isNone)

/-- `_trace_needs_enrichment`. -/
def traceNeedsEnrichment (T : Tables) (traceId : Str) (reasons : List EnrichmentReason) : Bool :=
  !reasons.isEmpty || T.snapshotJobs.rows.any fun row => row.1.traceId = traceId

def coreResult (T : Tables) (traceId : Str) (result : TraceResult) : CoreResult where
  result := result
  enrichmentReasons := effectiveEnrichmentReasons llmJudge result.enrichmentReasons
  enrichmentRequired :=
    traceNeedsEnrichment T traceId (effectiveEnrichmentReasons llmJudge result.enrichmentReasons)

/-- `CoreStageProcessor.process`. The rows of `traces` are given by their jobs, and the columns
for the stages, which it updates at the end, are those of `Analysis`. -/
def coreProcess (store : EvidenceStore) (traces : Str → Option TraceCapturedJob) (T : Tables) (traceId : Str) :
    Except PyError (Tables × CoreResult) :=
  match traces traceId with
  | none => .error .valueError
  | some job => do
    let (T, result) ← processJobLine rt pg now contexts llmJudge store T job
    return (T, coreResult llmJudge T traceId result)

end Process

/-! ## When it completes -/

/-- The text of a body that is UTF-8. -/
def bodyText (data : List UInt8) : Str :=
  ((decodeUtf8 data).map Str.universalNewlines).getD []

/-- The evidence of a body is there: its bytes are stored under its ref, or there is no ref. -/
def HasBody (store : EvidenceStore) (ref : Str) (data : List UInt8) : Prop :=
  (ref = [] ∧ data = []) ∨ (ref ≠ [] ∧ store ref = some data)

instance (store : EvidenceStore) (ref : Str) (data : List UInt8) : Decidable (HasBody store ref data) :=
  inferInstanceAs (Decidable ((_ ∧ _) ∨ (_ ∧ _)))

theorem readBody_yields {store : EvidenceStore} {ref : Str} {data : List UInt8} (h : HasBody store ref data) :
    Yields (readBody store ref) (∃ text, decodeUtf8 data = some text) (bodyText data) := by
  unfold readBody bodyText
  obtain ⟨href, rfl⟩ | ⟨href, hdata⟩ := h
  · rw [if_pos href]
    exact (Yields.pure []).of_iff ⟨fun _ => ⟨[], rfl⟩, fun _ => trivial⟩
  · rw [if_neg href, readText, hdata]
    dsimp only
    cases decodeUtf8 data with
    | none =>
      refine (Yields.throw _ _).of_iff ?_
      simp
    | some text =>
      refine (Yields.pure _).of_iff ?_
      simp

/-- What the bodies of a trace have to be like for its core stage to complete. -/
structure Harmless (rt : Runtime) (pg : Postgres) (job : TraceCapturedJob) (requestData responseData : List UInt8) :
    Prop where
  requestText : ∃ text, decodeUtf8 requestData = some text
  responseText : ∃ text, decodeUtf8 responseData = some text
  requestLoads : bodyText requestData ≠ [] → Loads rt (bodyText requestData)
  responseLoads : bodyText responseData ≠ [] → Loads rt (bodyText responseData)
  eventsLoad : ∀ s ∈ sseAttempts rt (bodyText responseData), Loads rt s
  normalizes : Normalizes rt job.family (bodyDict rt (bodyText requestData)) (responseDict rt (bodyText responseData))
  accepted : ∀ m ∈ messagesOf rt job (bodyDict rt (bodyText requestData)) (responseDict rt (bodyText responseData)),
    m.Accepted rt pg

section Completes

variable {rt : Runtime} {pg : Postgres} {now : Int} {contexts : List ContextCatalogEntry}
  {llmJudge : Option Judge} {job : TraceCapturedJob} {requestData responseData : List UInt8}

/-- The result of a trace with these messages. -/
def traceResultOf (rt : Runtime) (contexts : List ContextCatalogEntry) (job : TraceCapturedJob)
    (messages : List NormalizedMessage) : TraceResult where
  acceptedTraceId := job.traceId
  normalizedMessageCount := messages.length
  analysisResultCount := (coreAnalysis rt contexts job messages).results.length
  aggregateCount := (coreAnalysis rt contexts job messages).aggregates.length
  anomalyCount := (coreAnalysis rt contexts job messages).anomalies.length
  coverageAlertCount := (coreAnalysis rt contexts job messages).coverageAlerts.length
  usageTotalTokens := job.usageTotalTokens
  enrichmentReasons := coreEnrichmentReasons messages (heuristicAssessment rt job messages contexts)

theorem processTrace_yields (hjob : job.Stored) (hne : job.traceId ≠ []) (hcontexts : ∀ x ∈ contexts, x.Stored)
    (T : Tables) (requestBody responseBody : Str) {messages : List NormalizedMessage}
    (hmessages : messages = messagesOf rt job (bodyDict rt requestBody) (responseDict rt responseBody)) :
    Yields (processTrace rt pg now contexts llmJudge T job requestBody responseBody)
      (((requestBody ≠ [] → Loads rt requestBody) ∧ (responseBody ≠ [] → Loads rt responseBody) ∧
        (∀ s ∈ sseAttempts rt responseBody, Loads rt s) ∧
        Normalizes rt job.family (bodyDict rt requestBody) (responseDict rt responseBody)) ∧
        ∀ m ∈ messages, m.Accepted rt pg)
      (T.saved rt now (coreAnalysis rt contexts job messages), traceResultOf rt contexts job messages) := by
  subst hmessages
  refine (normalizeJsonTrace_yields rt job requestBody responseBody).bind fun _ => ?_
  simp only [classifyWorkRelevance_heuristic]
  refine ((Yields.pure _).bind fun _ => (anomalies_yields rt hjob _).bind fun _ =>
    (anomalies_yields rt hjob _).bind fun _ => (detectCoverageAlerts_yields rt hjob _).bind fun _ =>
    (saveTraceAnalysis_yields rt pg now T _).bind_pure).of_iff ?_
  simp only [true_and]
  exact coreAnalysis_savable_iff hjob hne hcontexts fun m hm => messagesOf_common hm

variable (rt pg now llmJudge) in
theorem coreProcess_yields {store : EvidenceStore} {traces : Str → Option TraceCapturedJob} {traceId : Str}
    (T : Tables) (hrow : traces traceId = some job) (htrace : job.traceId = traceId) (hne : traceId ≠ [])
    (hjob : job.Stored) (hcontexts : ∀ x ∈ contexts, x.Stored)
    (hrequest : HasBody store job.requestRawRef requestData)
    (hresponse : HasBody store job.responseRawRef responseData) :
    ∃ result, Yields (coreProcess rt pg now contexts llmJudge store traces T traceId)
      (Harmless rt pg job requestData responseData)
      (T.saved rt now (coreAnalysis rt contexts job
        (messagesOf rt job (bodyDict rt (bodyText requestData))
          (responseDict rt (bodyText responseData)))), result) := by
  rw [coreProcess, hrow]
  have hline : Yields (processJobLine rt pg now contexts llmJudge store T job) _ _ :=
    (readBody_yields hrequest).bind fun _ => (readBody_yields hresponse).bind fun _ =>
      processTrace_yields hjob (htrace ▸ hne) hcontexts T _ _ rfl
  refine ⟨_, (hline.bind_pure (f := fun x => (x.1, coreResult llmJudge x.1 traceId x.2))).of_iff ?_⟩
  exact ⟨fun ⟨h₁, h₂, ⟨h₃, h₄, h₅, h₆⟩, h₇⟩ => ⟨h₁, h₂, h₃, h₄, h₅, h₆, h₇⟩,
    fun ⟨h₁, h₂, h₃, h₄, h₅, h₆, h₇⟩ => ⟨h₁, h₂, ⟨h₃, h₄, h₅, h₆⟩, h₇⟩⟩

theorem coreProcess_saved {store : EvidenceStore} {traces : Str → Option TraceCapturedJob} {traceId : Str}
    {T T' : Tables} {result : CoreResult} (hrow : traces traceId = some job) (hne : job.traceId ≠ [])
    (hjob : job.Stored) (hcontexts : ∀ x ∈ contexts, x.Stored)
    (h : coreProcess rt pg now contexts llmJudge store traces T traceId = .ok (T', result)) :
    ∃ messages, (∀ m ∈ messages, m.traceId = job.traceId) ∧
      T' = T.saved rt now (coreAnalysis rt contexts job messages) := by
  rw [coreProcess, hrow] at h
  have hline : Yields (processJobLine rt pg now contexts llmJudge store T job) _ _ :=
    (Yields.self (readBody store job.requestRawRef) []).bind fun _ =>
      (Yields.self (readBody store job.responseRawRef) []).bind fun _ =>
        processTrace_yields hjob hne hcontexts T _ _ rfl
  have heq := (hline.bind_pure (f := fun x => (x.1, coreResult llmJudge x.1 traceId x.2))).eq_of_ok h
  exact ⟨_, fun m hm => (messagesOf_common hm).traceId, (Prod.mk.inj heq.2).1⟩

/-- The core stage of a trace completes if and only if its bodies are harmless, and what it
commits then has the usage fact of the trace. -/
theorem core_completes_iff {store : EvidenceStore} {traces : Str → Option TraceCapturedJob} {traceId : Str}
    (T : Tables) (hrow : traces traceId = some job) (htrace : job.traceId = traceId) (hne : traceId ≠ [])
    (hjob : job.Stored) (hcontexts : ∀ x ∈ contexts, x.Stored)
    (hrequest : HasBody store job.requestRawRef requestData)
    (hresponse : HasBody store job.responseRawRef responseData) :
    (∃ T' result, coreProcess rt pg now contexts llmJudge store traces T traceId = .ok (T', result) ∧
      T'.usageFacts.find traceId = some (usageFactOf job now)) ↔ Harmless rt pg job requestData responseData := by
  obtain ⟨result, h⟩ := coreProcess_yields rt pg now llmJudge T hrow htrace hne hjob hcontexts hrequest hresponse
  constructor
  · rintro ⟨T', result', hok, _⟩
    exact h.returns_iff.1 ⟨_, hok⟩
  · intro hharmless
    refine ⟨_, _, h.ok hharmless, ?_⟩
    subst htrace
    exact usageFact_saved now T (fun m hm => (messagesOf_common hm).traceId) hne

end Completes

/-! ## A prompt that completes, and a body that does not -/

def promptJob : TraceCapturedJob where
  traceId := "trace_1"
  routePattern := "/v1/completions"
  protocolFamily := "openai_completions"
  captureMode := "raw_and_normalized"
  username := "ada"
  requestRawRef := "file:///raw/trace_1/request_body.bin"
  statusCode := 200

def promptBody : String := "\x7b\"prompt\":\"fix the api\"\x7d"

def promptRuntime : Runtime :=
  plainRuntime [(promptBody, .dict [("prompt", .str "fix the api")])]

def promptStore : EvidenceStore := fun ref =>
  if ref = promptJob.requestRawRef then some (bytes promptBody) else none

theorem promptJob_stored : promptJob.Stored := by
  constructor <;> decide

theorem core_completes_iff_prompt :
    Harmless promptRuntime ⟨fun _ => true⟩ promptJob (bytes promptBody) [] ∧
      ∃ T' result, coreProcess promptRuntime ⟨fun _ => true⟩ 0 [] none promptStore (fun _ => some promptJob)
        .empty "trace_1" = .ok (T', result) ∧
          T'.usageFacts.find (Str.ofString "trace_1") = some (usageFactOf promptJob 0) := by
  have h : (∃ T' result, coreProcess promptRuntime ⟨fun _ => true⟩ 0 [] none promptStore (fun _ => some promptJob)
      .empty "trace_1" = .ok (T', result) ∧
        T'.usageFacts.find (Str.ofString "trace_1") = some (usageFactOf promptJob 0)) ↔
      Harmless promptRuntime ⟨fun _ => true⟩ promptJob (bytes promptBody) [] :=
    core_completes_iff .empty rfl rfl (by decide) promptJob_stored (fun _ hx => nomatch hx)
      (by decide) (by decide)
  have hruns : (match coreProcess promptRuntime ⟨fun _ => true⟩ 0 [] none promptStore (fun _ => some promptJob)
      .empty "trace_1" with
      | .ok (T', _) => decide (T'.usageFacts.find (Str.ofString "trace_1") = some (usageFactOf promptJob 0))
      | .error _ => false) = true := by decide +kernel
  have hreturns : ∃ T' result, coreProcess promptRuntime ⟨fun _ => true⟩ 0 [] none promptStore
      (fun _ => some promptJob) .empty "trace_1" = .ok (T', result) ∧
        T'.usageFacts.find (Str.ofString "trace_1") = some (usageFactOf promptJob 0) := by
    split at hruns
    · exact ⟨_, _, ‹_›, of_decide_eq_true hruns⟩
    · cases hruns
  exact ⟨h.1 hreturns, hreturns⟩

/-- A response with one byte of audio. -/
def audioJob : TraceCapturedJob where
  traceId := "trace_2"
  routePattern := "/v1/audio/speech"
  protocolFamily := "openai_audio"
  captureMode := "raw_and_normalized"
  username := "ada"
  responseRawRef := "file:///raw/trace_2/response_body.bin"
  statusCode := 200

def audioStore : EvidenceStore := fun ref =>
  if ref = audioJob.responseRawRef then some [0xFF] else none

/-- The response body of this trace is not UTF-8, and its core stage raises, whatever the state of the database: no
attempt at it can complete. -/
theorem binary_body_fails : readBody audioStore audioJob.responseRawRef = .error .unicodeDecodeError ∧
    ∀ (rt : Runtime) (pg : Postgres) (now : Int) (contexts : List ContextCatalogEntry) (llmJudge : Option Judge)
      (T : Tables), coreProcess rt pg now contexts llmJudge audioStore (fun _ => some audioJob) T "trace_2" =
        .error .unicodeDecodeError := by
  have hrequest : readBody audioStore audioJob.requestRawRef = .ok [] := rfl
  have hresponse : readBody audioStore audioJob.responseRawRef = .error .unicodeDecodeError := by decide
  refine ⟨hresponse, fun rt pg now contexts llmJudge T => ?_⟩
  simp only [coreProcess, processJobLine, hrequest, hresponse]
  rfl

end AuditGateway.Pipeline
