import AuditGateway.Pipeline.AssessmentTexts
import AuditGateway.Analysis.Task

/-!
# What is derived from a trace

The analysis results, usage deltas, anomalies and coverage alerts of a trace (`rules.py`,
`aggregate_deltas` of `main.py`, and their types in `models.py`). Anomalies and alerts are
identified by hashes of texts of the job, so making one encodes them.
-/

namespace AuditGateway.Pipeline

open AuditGateway.Framework AuditGateway.Python AuditGateway.Analysis

/-- A job whose texts are those of a `traces` row. -/
structure TraceCapturedJob.Stored (job : TraceCapturedJob) : Prop where
  traceId : Storable job.traceId
  routePattern : Storable job.routePattern
  protocolFamily : Storable job.protocolFamily
  username : Storable job.username
  requestContentType : Storable job.requestContentType
  responseContentType : Storable job.responseContentType
  modelRequested : Storable job.modelRequested
  tokenFingerprint : Storable job.tokenFingerprint
  fingerprintDisplay : Storable job.fingerprintDisplay
  tokenNameSnapshot : Storable job.tokenNameSnapshot

/-! ## Results -/

def AnalysisStage.text : AnalysisStage → Str
  | .core => "core"
  | .enrichment => "enrichment"

/-- What a result has in its `result_json`. -/
inductive ResultJson
  | usage (promptTokens completionTokens totalTokens reasoningTokens cachedTokens : Int)
  | workRelevance (assessment : WorkRelevanceAssessment)
deriving DecidableEq

def ResultJson.texts : ResultJson → List Str
  | usage .. => []
  | workRelevance assessment => assessment.texts

structure AnalysisResult where
  traceId : Str
  analyzerName : Str
  analyzerVersion : Str
  policyVersion : Str := []
  category : Str
  label : Str
  score : ℚ
  confidence : ℚ
  severity : Str
  result : ResultJson
  stage : Option AnalysisStage := none
  producer : Str := []
  resultKey : Str := []
deriving DecidableEq

/-- `_usage_result`. -/
def usageResult (job : TraceCapturedJob) : AnalysisResult where
  traceId := job.traceId
  analyzerName := "usage_extraction"
  analyzerVersion := "normalizer_mvp_2026_04_28"
  category := "usage_extraction"
  label := if 0 < job.usageTotalTokens then "usage_from_gateway_job" else "usage_not_available"
  score := job.usageTotalTokens
  confidence := if 0 < job.usageTotalTokens then 1 else 0
  severity := []
  result := .usage job.usagePromptTokens job.usageCompletionTokens job.usageTotalTokens
    job.usageReasoningTokens job.usageCachedTokens

/-- `to_analysis_result`. -/
def WorkRelevanceAssessment.toAnalysisResult (x : WorkRelevanceAssessment) (stage : AnalysisStage)
    (producer resultKey : Str) : AnalysisResult where
  traceId := x.traceId
  analyzerName := "work_relevance"
  analyzerVersion := analyzerVersion
  category := "work_relevance"
  label := x.taskCategory
  score := x.workRelatedScore
  confidence := x.confidence
  severity := if x.needsReview then "review" else []
  result := .workRelevance x
  stage := some stage
  producer := producer
  resultKey := resultKey

/-! ## Usage -/

inductive BucketSize
  | hour
  | day
deriving DecidableEq, Repr

def hourMicros : Int := 3600000000

def BucketSize.micros : BucketSize → Int
  | hour => hourMicros
  | day => 24 * hourMicros

/-- `bucket_start_hour` and `bucket_start_day`. -/
def bucketStart (size : BucketSize) (time : Int) : Int :=
  time - time % size.micros

structure UsageAggregateDelta where
  bucketStart : Int
  bucketSize : BucketSize
  tokenFingerprint : Str
  newApiTokenId : Int
  username : Str
  tokenNameSnapshot : Str
  model : Str
  routePattern : Str
  protocolFamily : Str
  requestCount : Int
  successCount : Int
  errorCount : Int
  streamCount : Int
  promptTokens : Int
  completionTokens : Int
  totalTokens : Int
  reasoningTokens : Int
  cachedTokens : Int
  requestBodyBytes : Int
  responseBodyBytes : Int
  traceId : Str
  requestStartedAt : Int
deriving DecidableEq

/-- Whether the status of a trace counts as a success. -/
def TraceCapturedJob.Succeeded (job : TraceCapturedJob) : Prop :=
  (200 ≤ job.statusCode ∧ job.statusCode < 400) ∨ job.statusCode = 0

instance (job : TraceCapturedJob) : Decidable job.Succeeded :=
  inferInstanceAs (Decidable (_ ∨ _))

/-- The delta of a trace for one bucket size. -/
def aggregateDelta (job : TraceCapturedJob) (size : BucketSize) : UsageAggregateDelta where
  bucketStart := bucketStart size job.requestStartedAt
  bucketSize := size
  tokenFingerprint := job.tokenFingerprint
  newApiTokenId := job.newApiTokenId
  username := job.username
  tokenNameSnapshot := job.tokenNameSnapshot
  model := job.modelRequested
  routePattern := job.routePattern
  protocolFamily := job.protocolFamily
  requestCount := 1
  successCount := if job.Succeeded then 1 else 0
  errorCount := if job.Succeeded then 0 else 1
  streamCount := if job.stream then 1 else 0
  promptTokens := job.usagePromptTokens
  completionTokens := job.usageCompletionTokens
  totalTokens := job.usageTotalTokens
  reasoningTokens := job.usageReasoningTokens
  cachedTokens := job.usageCachedTokens
  requestBodyBytes := job.requestBodySize
  responseBodyBytes := job.responseBodySize
  traceId := job.traceId
  requestStartedAt := job.requestStartedAt

/-- `aggregate_deltas`. -/
def aggregateDeltas (job : TraceCapturedJob) : List UsageAggregateDelta :=
  [aggregateDelta job .hour, aggregateDelta job .day]

/-! ## Identities -/

/-- `stable_suffix`. -/
def stableSuffix (rt : Runtime) (parts : List Str) : Except PyError Str := do
  return (rt.sha256Hex (← encode (Str.join [0] parts))).take 16

/-- The suffix of parts that can be encoded. -/
def suffixOf (rt : Runtime) (parts : List Str) : Str :=
  (rt.sha256Hex (bytes (Str.join [0] parts))).take 16

inductive AnomalyType
  | highTraceTokens
  | longOutputAnomaly
  | offHoursHighUsage
  | nonWorkUse
deriving DecidableEq, Repr

def AnomalyType.value : AnomalyType → Str
  | highTraceTokens => "high_trace_tokens"
  | longOutputAnomaly => "long_output_anomaly"
  | offHoursHighUsage => "off_hours_high_usage"
  | nonWorkUse => "non_work_use"

inductive Severity
  | medium
  | high
deriving DecidableEq, Repr

def Severity.value : Severity → Str
  | medium => "medium"
  | high => "high"

/-- `anomaly_id`. -/
def anomalyId (rt : Runtime) (ruleKey traceId username : Str) : Except PyError Str := do
  return Str.ofString "anom_" ++ ruleKey ++ Str.ofString "_" ++ (← stableSuffix rt [ruleKey, traceId, username])

/-- The id of an anomaly of a job whose texts can be encoded. -/
def anomalyIdOf (rt : Runtime) (job : TraceCapturedJob) (type : AnomalyType) : Str :=
  Str.ofString "anom_" ++ type.value ++ Str.ofString "_" ++ suffixOf rt [type.value, job.traceId, job.username]

/-- `coverage_alert_id`. -/
def coverageAlertId (rt : Runtime) (alertCode routePattern payloadShapeHash : Str) : Except PyError Str := do
  return Str.ofString "cov_" ++ alertCode ++ Str.ofString "_" ++
    (← stableSuffix rt [alertCode, routePattern, payloadShapeHash])

/-! ## Anomalies -/

structure AnomalyAlert where
  anomalyId : Str
  anomalyType : AnomalyType
  severity : Severity
  tokenFingerprint : Str
  fingerprintDisplay : Str
  newApiTokenId : Int
  username : Str
  tokenNameSnapshot : Str
  windowStart : Int
  windowEnd : Int
  observedValue : ℚ
  thresholdValue : ℚ
  baselineValue : Option ℚ
  model : Str
  routePattern : Str
  sampleTraceIds : List Str
  reason : Str
  detectorVersion : Str
deriving DecidableEq

/-- The baselines of `AnalysisContext`; the core stage has none. -/
structure AnalysisContext where
  traceEffectiveTokensP95 : Option ℚ := none
  completionTokensP95 : Option ℚ := none
  localTimezoneOffsetHours : Int := 8

/-- What a rule finds. -/
structure Finding where
  anomalyType : AnomalyType
  severity : Severity
  observedValue : ℚ
  thresholdValue : ℚ
  reason : Str
  baselineValue : Option ℚ := none
deriving DecidableEq

/-- The alert of a finding with its id. -/
def Finding.alert (x : Finding) (job : TraceCapturedJob) (id : Str) : AnomalyAlert where
  anomalyId := id
  anomalyType := x.anomalyType
  severity := x.severity
  tokenFingerprint := job.tokenFingerprint
  fingerprintDisplay := job.fingerprintDisplay
  newApiTokenId := job.newApiTokenId
  username := job.username
  tokenNameSnapshot := job.tokenNameSnapshot
  windowStart := bucketStart .hour job.requestStartedAt
  windowEnd := job.requestStartedAt + 60000000
  observedValue := x.observedValue
  thresholdValue := x.thresholdValue
  baselineValue := x.baselineValue
  model := job.modelRequested
  routePattern := job.routePattern
  sampleTraceIds := [job.traceId]
  reason := x.reason
  detectorVersion := "rules_mvp_2026_06_03"

/-- `_anomaly`. -/
def anomaly (rt : Runtime) (job : TraceCapturedJob) (x : Finding) : Except PyError AnomalyAlert := do
  return x.alert job (← anomalyId rt x.anomalyType.value job.traceId job.username)

/-- `_effective_tokens`. -/
def effectiveTokens (job : TraceCapturedJob) : Int :=
  max (job.usagePromptTokens - job.usageCachedTokens) 0 + job.usageCompletionTokens

/-- A threshold, which a baseline can raise. -/
def raisedThreshold (threshold : ℚ) : Option ℚ → ℚ
  | none => threshold
  | some baseline => max (baseline * (3 / 2)) threshold

/-- `_is_off_hours`. -/
def isOffHours (time offsetHours : Int) : Bool :=
  let hour := (time + offsetHours * hourMicros) / hourMicros % 24
  23 ≤ hour || hour < 7

/-- The reason of a threshold that is met, with the threshold as `:.0f` prints it. -/
def thresholdReason (what : String) (observed : Int) (threshold : ℚ) : Str :=
  (what ++ " reached " ++ toString observed ++ ", meeting or exceeding " ++ toString (roundHalfEven threshold) :
    String)

/-- The findings of `detect_anomalies`. -/
def tokenFindings (job : TraceCapturedJob) (context : AnalysisContext) : List Finding :=
  let traceThreshold := raisedThreshold 40000 context.traceEffectiveTokensP95
  let outputThreshold := raisedThreshold 16000 context.completionTokensP95
  (if traceThreshold ≤ effectiveTokens job then
    [{ anomalyType := .highTraceTokens
       severity := .medium
       observedValue := effectiveTokens job
       thresholdValue := traceThreshold
       reason := thresholdReason "effective token usage" (effectiveTokens job) traceThreshold
       baselineValue := context.traceEffectiveTokensP95 }] else []) ++
  (if outputThreshold ≤ job.usageCompletionTokens then
    [{ anomalyType := .longOutputAnomaly
       severity := .medium
       observedValue := job.usageCompletionTokens
       thresholdValue := outputThreshold
       reason := thresholdReason "completion tokens" job.usageCompletionTokens outputThreshold
       baselineValue := context.completionTokensP95 }] else []) ++
  (if isOffHours job.requestStartedAt context.localTimezoneOffsetHours ∧ 20000 ≤ effectiveTokens job then
    [{ anomalyType := .offHoursHighUsage
       severity := .medium
       observedValue := effectiveTokens job
       thresholdValue := 20000
       reason := thresholdReason "off-hours effective token usage" (effectiveTokens job) 20000 }] else [])

/-- `detect_anomalies`. -/
def detectAnomalies (rt : Runtime) (job : TraceCapturedJob) (context : AnalysisContext) :
    Except PyError (List AnomalyAlert) :=
  (tokenFindings job context).mapM (anomaly rt job)

/-- `_work_relevance_reason`. -/
def workRelevanceReason (x : WorkRelevanceAssessment) (fallback : Str) : Str :=
  let detail := Str.join "; " (((x.evidence.map (·.reason)).filter (· ≠ [])).take 3)
  if detail ≠ [] then fallback ++ Str.ofString ": " ++ detail else fallback

/-- The findings of `detect_work_relevance_anomalies`. -/
def workRelevanceFindings (job : TraceCapturedJob) (x : WorkRelevanceAssessment) : List Finding :=
  if x.recommendedAction = .alertNonWork then
    [{ anomalyType := .nonWorkUse
       severity := .high
       observedValue := job.usageTotalTokens
       thresholdValue := 0
       reason := workRelevanceReason x "trace was classified as explicit non-work use" }]
  else []

/-- `detect_work_relevance_anomalies`. -/
def detectWorkRelevanceAnomalies (rt : Runtime) (job : TraceCapturedJob) (x : WorkRelevanceAssessment) :
    Except PyError (List AnomalyAlert) :=
  (workRelevanceFindings job x).mapM (anomaly rt job)

/-! ## Coverage -/

structure CoverageAlert where
  alertId : Str
  alertCode : Str
  severity : Severity
  method : Str
  routePattern : Str
  rawPath : Str
  contentType : Str
  protocolFamily : Str
  payloadShapeHash : Str
  normalizer : Str
  normalizerVersion : Str
  sampleTraceIds : List Str
  message : Str
  affectedTraceCount : Int
  affectedTokenCount : Int
  affectedUserCount : Int
deriving DecidableEq

/-- The texts that a normalization gap is recognised by. -/
def shapeParts (job : TraceCapturedJob) : List Str :=
  [job.routePattern, job.protocolFamily, job.requestContentType, job.responseContentType,
   Str.ofString (toString job.requestBodySize), Str.ofString (toString job.responseBodySize)]

def gapCode : Str := "normalization_gap"

/-- The alert of a trace without messages, with its shape and its id. -/
def gapAlert (job : TraceCapturedJob) (shape id : Str) : CoverageAlert where
  alertId := id
  alertCode := gapCode
  severity := .high
  method := "POST"
  routePattern := job.routePattern
  rawPath := job.routePattern
  contentType := if job.requestContentType = [] then job.responseContentType else job.requestContentType
  protocolFamily := job.protocolFamily
  payloadShapeHash := shape
  normalizer := job.protocolFamily
  normalizerVersion := "normalizer_mvp_2026_04_28"
  sampleTraceIds := [job.traceId]
  message := "route was marked raw_and_normalized but the worker extracted no normalized messages"
  affectedTraceCount := 1
  affectedTokenCount := if job.tokenFingerprint = [] then 0 else 1
  affectedUserCount := if job.username = [] then 0 else 1

/-- `detect_coverage_alerts`. -/
def detectCoverageAlerts (rt : Runtime) (job : TraceCapturedJob) (messages : List NormalizedMessage) :
    Except PyError (List CoverageAlert) := do
  if job.captureMode ≠ Str.ofString "raw_and_normalized" then return []
  if messages ≠ [] then return []
  let shape ← stableSuffix rt (shapeParts job)
  return [gapAlert job shape (← coverageAlertId rt gapCode job.routePattern shape)]

/-! ## For a job from the database nothing raises -/

section Yields

variable (rt : Runtime) {job : TraceCapturedJob}

theorem stableSuffix_yields {parts : List Str} (h : ∀ s ∈ parts, Storable s) :
    Yields (stableSuffix rt parts) True (suffixOf rt parts) := by
  have hparts : Encodes (Str.join [0] parts) :=
    Str.encodes_join (by decide) fun s hs => (h s hs).1
  exact (encode_yields _).bind_pure.of_iff (by simp [hparts])

theorem AnomalyType.value_storable (x : AnomalyType) : Storable x.value := by
  cases x <;> decide

theorem Severity.value_storable (x : Severity) : Storable x.value := by
  cases x <;> decide

theorem suffixOf_storable (parts : List Str) : Storable (suffixOf rt parts) :=
  (rt.sha256Hex_storable _).of_subset (List.take_subset _ _)

theorem anomaly_yields (hjob : job.Stored) (x : Finding) :
    Yields (anomaly rt job x) True (x.alert job (anomalyIdOf rt job x.anomalyType)) := by
  have hparts : ∀ s ∈ [x.anomalyType.value, job.traceId, job.username], Storable s := by
    simp only [List.forall_mem_cons, List.not_mem_nil, false_imp_iff, implies_true, and_true]
    exact ⟨x.anomalyType.value_storable, hjob.traceId, hjob.username⟩
  exact (stableSuffix_yields rt hparts).bind_pure.bind_pure

/-- The anomalies of some findings. -/
def alertsOf (job : TraceCapturedJob) (findings : List Finding) : List AnomalyAlert :=
  findings.map fun x => x.alert job (anomalyIdOf rt job x.anomalyType)

theorem anomalies_yields (hjob : job.Stored) (findings : List Finding) :
    Yields (findings.mapM (anomaly rt job)) True (alertsOf rt job findings) :=
  (Yields.mapM fun x _ => anomaly_yields rt hjob x).of_iff (by simp)

/-- The coverage alerts of a trace with these messages. -/
def coverageAlertsOf (job : TraceCapturedJob) (messages : List NormalizedMessage) : List CoverageAlert :=
  if job.captureMode ≠ Str.ofString "raw_and_normalized" then []
  else if messages ≠ [] then []
  else
    [gapAlert job (suffixOf rt (shapeParts job)) (Str.ofString "cov_" ++ gapCode ++ Str.ofString "_" ++
      suffixOf rt [gapCode, job.routePattern, suffixOf rt (shapeParts job)])]

theorem gapCode_storable : Storable gapCode := by
  decide

theorem detectCoverageAlerts_yields (hjob : job.Stored) (messages : List NormalizedMessage) :
    Yields (detectCoverageAlerts rt job messages) True (coverageAlertsOf rt job messages) := by
  have hshape : ∀ s ∈ shapeParts job, Storable s := by
    simp only [shapeParts, List.forall_mem_cons, List.not_mem_nil, false_imp_iff, implies_true, and_true]
    exact ⟨hjob.routePattern, hjob.protocolFamily, hjob.requestContentType, hjob.responseContentType,
      storable_toString_int _, storable_toString_int _⟩
  have hparts : ∀ s ∈ [gapCode, job.routePattern, suffixOf rt (shapeParts job)], Storable s := by
    simp only [List.forall_mem_cons, List.not_mem_nil, false_imp_iff, implies_true, and_true]
    exact ⟨gapCode_storable, hjob.routePattern, suffixOf_storable rt _⟩
  unfold detectCoverageAlerts coverageAlertsOf
  split
  · exact Yields.pure []
  · split
    · exact Yields.pure []
    · refine ((stableSuffix_yields rt hshape).bind (Q := True) fun _ => ?_).of_iff (by simp)
      exact (stableSuffix_yields rt hparts).bind_pure.bind_pure

end Yields

end AuditGateway.Pipeline
