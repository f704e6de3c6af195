import AuditGateway.Pipeline.Normalizers
import AuditGateway.Pipeline.Repository

/-!
# What the core stage saves of a trace

The results, deltas, anomalies and alerts that the core stage derives from a job and its
messages, and what Postgres needs to take them. The texts of a job come from the
database and those of the catalog as well, so it is only about the messages.
-/

namespace AuditGateway.Pipeline

open AuditGateway.Framework AuditGateway.Python AuditGateway.Analysis

/-- The results of a trace. -/
def coreResults (job : TraceCapturedJob) (workRelevance : WorkRelevanceAssessment) : List AnalysisResult :=
  [usageResult job,
   workRelevance.toAnalysisResult .core "heuristic_work_relevance" "work_relevance_primary"]

/-- The analysis of a trace with these messages. -/
def coreAnalysis (rt : Runtime) (contexts : List ContextCatalogEntry) (job : TraceCapturedJob)
    (messages : List NormalizedMessage) : TraceAnalysis where
  messages := messages
  results := coreResults job (heuristicAssessment rt job messages contexts)
  aggregates := aggregateDeltas job
  anomalies := alertsOf rt job (tokenFindings job {}) ++
    alertsOf rt job (workRelevanceFindings job (heuristicAssessment rt job messages contexts))
  coverageAlerts := coverageAlertsOf rt job messages

/-- The row of the usage fact of a trace. -/
def usageFactOf (job : TraceCapturedJob) (now : Int) : UsageFactRow :=
  (aggregateDelta job .hour).fact now

/-! ## What Postgres takes of it -/

/-- What Postgres needs of a message: it takes the role, the text and the URL, and the URL of a
medium can be parsed. -/
structure NormalizedMessage.Accepted (rt : Runtime) (pg : Postgres) (m : NormalizedMessage) : Prop where
  role : Storable m.role
  contentText : Storable m.contentText
  mediaUrl : Storable m.mediaUrl
  roleIndex : pg.indexable [m.role, m.modality.value] = true
  urlParses : m.mediaUrl ≠ [] → ∃ scheme, rt.urlScheme m.mediaUrl = .ok scheme
  urlIndex : m.Queued rt → pg.indexable m.snapshotKey.texts = true

section Savable

variable {rt : Runtime} {pg : Postgres} {job : TraceCapturedJob} {contexts : List ContextCatalogEntry}
  {messages : List NormalizedMessage}

theorem Modality.value_storable (x : Modality) : Storable x.value := by
  cases x <;> decide

theorem Direction.value_storable (x : Direction) : Storable x.value := by
  cases x <;> decide

theorem ItemType.value_storable (x : ItemType) : Storable x.value := by
  cases x <;> decide

theorem NormalizedMessage.Common.savable_iff {m : NormalizedMessage} (hjob : job.Stored) (hm : m.Common rt job) :
    m.Savable pg ∧ m.Queueable rt pg ↔ m.Accepted rt pg := by
  have htrace : Storable m.traceId := hm.traceId ▸ hjob.traceId
  have hkey : Storable m.messageKey := hm.messageKey ▸ rt.sha256Hex_storable _
  have hhash : Storable m.contentTextHash := hm.contentTextHash ▸ rt.sha256Hex_storable _
  constructor
  · rintro ⟨⟨htexts, hindex, hplace, _⟩, hparses, _, hurl⟩
    exact ⟨htexts _ (by simp [NormalizedMessage.texts]), htexts _ (by simp [NormalizedMessage.texts]),
      hplace _ (by simp [NormalizedMessage.placeTexts]), hindex, hparses, hurl⟩
  · rintro ⟨hrole, hcontent, hmedia, hindex, hparses, hurl⟩
    refine ⟨⟨?_, hindex, ?_, ?_⟩, hparses, fun _ => ?_, hurl⟩
    · simp only [NormalizedMessage.texts, List.forall_mem_cons, List.not_mem_nil, false_imp_iff, implies_true,
        and_true]
      exact ⟨hkey, hrole, m.modality.value_storable, hcontent, hhash, htrace⟩
    · simp only [NormalizedMessage.placeTexts, List.forall_mem_cons, List.not_mem_nil, false_imp_iff,
        implies_true, and_true]
      exact ⟨htrace, m.direction.value_storable, hm.sourcePath, m.protocolItemType.value_storable, hmedia⟩
    · rw [hm.metadata]
      simp only [List.map_cons, List.map_nil, List.forall_mem_cons, List.not_mem_nil, false_imp_iff,
        implies_true, and_true]
      exact ⟨jsonbTakes_of_storable hjob.routePattern, jsonbTakes_of_storable hjob.protocolFamily⟩
    · simp only [SnapshotKey.texts, NormalizedMessage.snapshotKey, List.forall_mem_cons, List.not_mem_nil,
        false_imp_iff, implies_true, and_true]
      exact ⟨htrace, hmedia, hm.sourcePath, by decide⟩

theorem heuristicAssessment_traceId : (heuristicAssessment rt job messages contexts).traceId = job.traceId := by
  simp only [heuristicAssessment]
  split
  · rfl
  · split <;> rfl

theorem usageResult_savable (hjob : job.Stored) : (usageResult job).Savable := by
  refine ⟨?_, fun s hs => nomatch hs⟩
  have hlabel : Storable (usageResult job).label := by
    unfold usageResult
    dsimp only
    split <;> decide
  have hkey : Storable (usageResult job).identity.resultKey := by
    show Storable (Str.ofString "usage_extraction" ++ Str.ofString ":" ++ (usageResult job).label)
    simp only [storable_append, hlabel, and_true]
    decide
  have hconst : ∀ s ∈ [(usageResult job).analyzerName, (usageResult job).analyzerVersion,
      (usageResult job).policyVersion, (usageResult job).category, (usageResult job).severity,
      AnalysisStage.text (usageResult job).identity.stage, (usageResult job).identity.producer], Storable s := by
    show ∀ s ∈ [Str.ofString "usage_extraction", Str.ofString "normalizer_mvp_2026_04_28", [],
      Str.ofString "usage_extraction", [], Str.ofString "core", Str.ofString "usage_extraction"], Storable s
    decide
  simp only [List.forall_mem_cons, List.not_mem_nil, false_imp_iff, implies_true, and_true] at hconst
  obtain ⟨h₁, h₂, h₃, h₄, h₅, h₆, h₇⟩ := hconst
  simp only [AnalysisResult.texts, List.forall_mem_cons, List.not_mem_nil, false_imp_iff, implies_true, and_true]
  exact ⟨hjob.traceId, h₁, h₂, h₃, h₄, hlabel, h₅, h₆, h₇, hkey⟩

variable {x : WorkRelevanceAssessment}

theorem toAnalysisResult_savable (hx : ∀ s ∈ x.texts, Storable s)
    (htrace : Storable x.traceId) {stage : AnalysisStage} {producer resultKey : Str}
    (hproducer : Storable producer) (hkey : Storable resultKey) (hne : producer ≠ [] ∧ resultKey ≠ []) :
    (x.toAnalysisResult stage producer resultKey).Savable := by
  refine ⟨?_, fun s hs => jsonbTakes_of_storable (hx s hs)⟩
  have hlabel : Storable x.taskCategory := hx _ (by simp [WorkRelevanceAssessment.texts])
  have hseverity : Storable (x.toAnalysisResult stage producer resultKey).severity := by
    unfold WorkRelevanceAssessment.toAnalysisResult
    dsimp only
    split <;> decide
  have hstage : Storable (AnalysisStage.text stage) := by
    cases stage <;> decide
  have hid : (x.toAnalysisResult stage producer resultKey).identity = ⟨x.traceId, stage, producer, resultKey⟩ := by
    simp [AnalysisResult.identity, WorkRelevanceAssessment.toAnalysisResult, hne]
  have hname : Storable (Str.ofString "work_relevance") := by decide
  have hversion : Storable analyzerVersion := by decide
  simp only [AnalysisResult.texts, hid, List.forall_mem_cons, List.not_mem_nil, false_imp_iff, implies_true,
    and_true]
  exact ⟨htrace, hname, hversion, storable_nil, hname, hlabel, hseverity, hstage, hproducer, hkey⟩

theorem alert_storable (hjob : job.Stored) {x : Finding} (hreason : Storable x.reason) :
    ∀ s ∈ (x.alert job (anomalyIdOf rt job x.anomalyType)).texts, Storable s := by
  have hid : Storable (anomalyIdOf rt job x.anomalyType) := by
    simp only [anomalyIdOf, storable_append, x.anomalyType.value_storable, suffixOf_storable, and_true]
    decide
  have hversion : Storable (Str.ofString "rules_mvp_2026_06_03") := by decide
  simp only [AnomalyAlert.texts, Finding.alert, List.forall_mem_append, List.forall_mem_cons, List.not_mem_nil,
    false_imp_iff, implies_true, and_true]
  exact ⟨⟨hid, x.anomalyType.value_storable, x.severity.value_storable, hjob.tokenFingerprint,
    hjob.fingerprintDisplay, hjob.username, hjob.tokenNameSnapshot, hjob.modelRequested, hjob.routePattern,
    hreason, hversion⟩, hjob.traceId⟩

theorem thresholdReason_storable {what : String} (h : Storable (Str.ofString what)) (observed : Int)
    (threshold : ℚ) : Storable (thresholdReason what observed threshold) := by
  have h₁ : Storable (Str.ofString " reached ") := by decide
  have h₂ : Storable (Str.ofString ", meeting or exceeding ") := by decide
  simp only [thresholdReason, Str.ofString_append, storable_append]
  exact ⟨⟨⟨⟨h, h₁⟩, storable_toString_int _⟩, h₂⟩, storable_toString_int _⟩

theorem tokenFindings_reason (job : TraceCapturedJob) (context : AnalysisContext) :
    ∀ x ∈ tokenFindings job context, Storable x.reason := by
  intro x hx
  simp only [tokenFindings, List.mem_append] at hx
  obtain (hx | hx) | hx := hx <;> split at hx
  all_goals first
    | cases hx
      done
    | obtain rfl := List.mem_singleton.1 hx
      exact thresholdReason_storable (by decide) _ _

theorem workRelevanceReason_storable (hx : ∀ s ∈ x.texts, Storable s) {fallback : Str}
    (hf : Storable fallback) : Storable (workRelevanceReason x fallback) := by
  have hreasons : ∀ s ∈ ((x.evidence.map (·.reason)).filter (· ≠ [])).take 3, Storable s := by
    intro s hs
    obtain ⟨e, he, rfl⟩ := List.mem_map.1 (List.mem_of_mem_filter (List.mem_of_mem_take hs))
    refine hx _ (List.mem_append_right _ (List.mem_flatMap.2 ⟨e, he, ?_⟩))
    simp [Evidence.texts]
  have hsep : Storable (Str.ofString "; ") := by decide
  have hcolon : Storable (Str.ofString ": ") := by decide
  simp only [workRelevanceReason]
  split
  · simp only [storable_append]
    exact ⟨⟨hf, hcolon⟩, Str.storable_join hsep hreasons⟩
  · exact hf

theorem workRelevanceFindings_reason (hx : ∀ s ∈ x.texts, Storable s) :
    ∀ y ∈ workRelevanceFindings job x, Storable y.reason := by
  intro y hy
  unfold workRelevanceFindings at hy
  split at hy
  · obtain rfl := List.mem_singleton.1 hy
    exact workRelevanceReason_storable hx (by decide)
  · cases hy

theorem alertsOf_storable (hjob : job.Stored) {findings : List Finding} (h : ∀ x ∈ findings, Storable x.reason) :
    ∀ x ∈ alertsOf rt job findings, ∀ s ∈ x.texts, Storable s := by
  intro y hy
  obtain ⟨x, hx, rfl⟩ := List.mem_map.1 hy
  exact alert_storable hjob (h x hx)

theorem gapAlert_storable (hjob : job.Stored) {shape id : Str} (hshape : Storable shape) (hid : Storable id) :
    ∀ s ∈ (gapAlert job shape id).texts, Storable s := by
  have hconst : ∀ s ∈ [gapCode, Str.ofString "POST", Str.ofString "normalizer_mvp_2026_04_28",
      Str.ofString "route was marked raw_and_normalized but the worker extracted no normalized messages"],
      Storable s := by decide
  simp only [List.forall_mem_cons, List.not_mem_nil, false_imp_iff, implies_true, and_true] at hconst
  obtain ⟨hcode, hmethod, hversion, hmessage⟩ := hconst
  have htype : Storable (gapAlert job shape id).contentType := by
    unfold gapAlert
    dsimp only
    split
    · exact hjob.responseContentType
    · exact hjob.requestContentType
  simp only [CoverageAlert.texts, List.forall_mem_append, List.forall_mem_cons, gapAlert, List.not_mem_nil,
    false_imp_iff, implies_true, and_true]
  exact ⟨⟨hid, hcode, Severity.value_storable _, hmethod, hjob.routePattern, hjob.routePattern, htype,
    hjob.protocolFamily, hshape, hjob.protocolFamily, hversion, hmessage⟩, hjob.traceId⟩

theorem coverageAlertsOf_storable (hjob : job.Stored) :
    ∀ x ∈ coverageAlertsOf rt job messages, ∀ s ∈ x.texts, Storable s := by
  intro x hx
  unfold coverageAlertsOf at hx
  split at hx
  · cases hx
  · split at hx
    · cases hx
    · obtain rfl := List.mem_singleton.1 hx
      refine gapAlert_storable hjob (suffixOf_storable rt _) ?_
      simp only [storable_append, suffixOf_storable, gapCode_storable, and_true]
      decide

theorem coreAnalysis_traceIds (hm : ∀ m ∈ messages, m.traceId = job.traceId) :
    (coreAnalysis rt contexts job messages).traceIds = [job.traceId] := by
  have hids : (coreAnalysis rt contexts job messages).messages.map (·.traceId) ++
      (coreAnalysis rt contexts job messages).results.map (·.traceId) =
        List.replicate (messages.length + 2) job.traceId := by
    rw [List.eq_replicate_iff]
    refine ⟨by simp [coreAnalysis, coreResults], ?_⟩
    simp only [List.forall_mem_append, List.forall_mem_map]
    refine ⟨hm, ?_⟩
    simp only [coreAnalysis, coreResults, List.forall_mem_cons, List.not_mem_nil, false_imp_iff, implies_true,
      and_true]
    exact ⟨rfl, heuristicAssessment_traceId⟩
  rw [TraceAnalysis.traceIds, hids, List.replicate_succ, List.eraseDups_cons]
  simp

theorem storedDeltas_coreAnalysis (hm : ∀ m ∈ messages, m.traceId = job.traceId) (hne : job.traceId ≠ []) :
    storedDeltas (coreAnalysis rt contexts job messages).traceIds []
      (coreAnalysis rt contexts job messages).aggregates =
      [(job.traceId, aggregateDelta job .hour)] := by
  have htrace (size : BucketSize) : deltaTrace [job.traceId] (aggregateDelta job size) = job.traceId := by
    unfold deltaTrace
    split
    · rename_i h
      exact (List.cons.inj h).1.symm
    · rfl
  rw [coreAnalysis_traceIds hm]
  simp [coreAnalysis, aggregateDeltas, storedDeltas, htrace, hne]

theorem aggregateDelta_storable (hjob : job.Stored) (size : BucketSize) :
    ∀ s ∈ (aggregateDelta job size).texts job.traceId, Storable s := by
  simp only [UsageAggregateDelta.texts, aggregateDelta, List.forall_mem_cons, List.not_mem_nil, false_imp_iff,
    implies_true, and_true]
  exact ⟨hjob.traceId, hjob.tokenFingerprint, hjob.username, hjob.modelRequested, hjob.routePattern,
    hjob.protocolFamily⟩

theorem coreAnalysis_savable_iff (hjob : job.Stored) (hne : job.traceId ≠ []) (hcontexts : ∀ x ∈ contexts, x.Stored)
    (hm : ∀ m ∈ messages, m.Common rt job) :
    (coreAnalysis rt contexts job messages).Savable rt pg ↔ ∀ m ∈ messages, m.Accepted rt pg := by
  have htrace : ∀ m ∈ messages, m.traceId = job.traceId := fun m hmem => (hm m hmem).traceId
  constructor
  · intro h m hmem
    exact ((hm m hmem).savable_iff hjob).1 ⟨h.messages m hmem, h.snapshots m hmem⟩
  · intro h
    have hassessment := heuristicAssessment_storable rt job
      (fun m hmem => (h m hmem).contentText) hcontexts
    refine ⟨fun m hmem => (((hm m hmem).savable_iff hjob).2 (h m hmem)).1,
      fun m hmem => (((hm m hmem).savable_iff hjob).2 (h m hmem)).2, ?_, ?_, ?_, ?_, ?_⟩
    · simp only [coreAnalysis, coreResults, List.forall_mem_cons, List.not_mem_nil, false_imp_iff, implies_true,
        and_true]
      refine ⟨usageResult_savable hjob, toAnalysisResult_savable hassessment ?_ ?_ ?_ ?_⟩
      · exact heuristicAssessment_traceId ▸ hjob.traceId
      · decide
      · decide
      · decide
    · rw [storedDeltas_coreAnalysis htrace hne]
      exact List.forall_mem_singleton.2 (aggregateDelta_storable hjob .hour)
    · exact List.forall_mem_append.2 ⟨alertsOf_storable hjob (tokenFindings_reason job _),
        alertsOf_storable hjob (workRelevanceFindings_reason hassessment)⟩
    · exact coverageAlertsOf_storable hjob
    · rw [coreAnalysis_traceIds htrace]
      exact List.forall_mem_singleton.2 hjob.traceId

theorem usageFacts_saved (now : Int) (T : Tables) (hm : ∀ m ∈ messages, m.traceId = job.traceId)
    (hne : job.traceId ≠ []) (traceId : Str) :
    (T.saved rt now (coreAnalysis rt contexts job messages)).usageFacts.find traceId =
      if traceId = job.traceId then some (usageFactOf job now) else T.usageFacts.find traceId := by
  rw [saved_eq, storedDeltas_coreAnalysis hm hne, List.foldl_cons, List.foldl_nil, Keyed.find_upsert, usageFactOf]
  cases T.usageFacts.find job.traceId <;> rfl

theorem usageFact_saved (now : Int) (T : Tables) (hm : ∀ m ∈ messages, m.traceId = job.traceId)
    (hne : job.traceId ≠ []) :
    (T.saved rt now (coreAnalysis rt contexts job messages)).usageFacts.find job.traceId =
      some (usageFactOf job now) := by
  rw [usageFacts_saved now T hm hne, if_pos rfl]

end Savable

end AuditGateway.Pipeline
