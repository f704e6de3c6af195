import AuditGateway.Pipeline.MediaExtraction

/-!
# The enrichment stage

`EnrichmentStageProcessor.process` (`enrichment_stage.py`): media are taken out of the
request, and if the core stage has asked for it a judge assesses the trace once more. What
it writes to the database is committed together, or not at all; its files stay.
-/

namespace AuditGateway.Pipeline

open AuditGateway.Framework AuditGateway.Python AuditGateway.Analysis

/-- The value of `llm_judge_requested` in a result. -/
def ResultJson.llmJudgeRequested : ResultJson → Bool
  | usage .. => false
  | workRelevance assessment => assessment.llmJudgeRequested

/-- `_core_requested_llm_judge`: what the newest assessment of the core stage says. -/
def coreRequestedLlmJudge (T : Tables) (traceId : Str) : Bool :=
  let rows := T.results.rows.filter fun row =>
    row.1.traceId = traceId ∧ row.1.stage = .core ∧ row.2.category = Str.ofString "work_relevance"
  rows.getLast?.any fun row => row.2.resultJson.llmJudgeRequested

/-- `_assessment_used_llm_judge`. -/
def assessmentUsedLlmJudge (x : WorkRelevanceAssessment) : Bool :=
  x.evidence.any fun item => item.kind = .llmJudge ∧ item.source = .llmJudge

/-- What `llm_judge_metadata` returns of an assessment that had to do without the judge. -/
structure LlmMetadata where
  errorType : Str
  fallbackCount : Nat
deriving DecidableEq

/-- `llm_judge_metadata`. -/
def llmJudgeMetadata (x : WorkRelevanceAssessment) : Option LlmMetadata :=
  match x.evidence.filter (·.kind = .llmUnavailable) with
  | [] => none
  | item :: items =>
    some { errorType := if item.category = [] then "unknown" else item.category
           fallbackCount := (item :: items).length }

/-- What the enrichment stage returns. `judged` is the assessment it has saved. -/
structure EnrichmentResult where
  acceptedTraceId : Str
  analysisResultCount : Nat
  mediaAssetsExtracted : Nat
  llmMetadata : Option LlmMetadata
  judged : Option WorkRelevanceAssessment

/-- What is saved of an assessment by the judge. -/
def judgedAnalysis (x : WorkRelevanceAssessment) (anomalies : List AnomalyAlert) : TraceAnalysis where
  messages := []
  results := [x.toAnalysisResult .enrichment "llm_judge" "work_relevance_secondary"]
  aggregates := []
  anomalies := anomalies

section Process

variable (rt : Runtime) (pg : Postgres) (env : Surroundings) (now : Int) (contexts : List ContextCatalogEntry)
  (llmJudge : Option Judge)

/-- A statement of the transaction. -/
def statement (run : EnrichmentState → EnrichmentState) : Enrich Unit :=
  operation env run fun _ => id

/-- A row of `raw_evidence_objects` is inserted. -/
def insertRawEvidence (row : RawEvidenceRow) : Enrich Unit :=
  statement env fun s => { s with rawEvidence := s.rawEvidence ++ [row] }

/-- `save_media_assets`. -/
def saveMediaAssets (traceId derivedFrom : Str) (assets : List MediaAsset) : Enrich Unit :=
  assets.forM fun asset => insertRawEvidence env
    { traceId
      objectType := asset.objectType
      objectRef := asset.objectRef
      storageBackend := env.storageBackend
      contentType := asset.mediaType
      sizeBytes := asset.sizeBytes
      variant := .derivedMedia
      derivedFromObjectRef := derivedFrom
      createdAt := now }

/-- `save_derived_evidence_object`, of a copy of the request. -/
def saveDerivedEvidenceObject (traceId ref contentType derivedFrom : Str) : Enrich Unit :=
  insertRawEvidence env
    { traceId
      objectType := "request_body"
      objectRef := ref
      storageBackend := env.storageBackend
      contentType := .str contentType
      sizeBytes := 0
      variant := .sanitized
      derivedFromObjectRef := derivedFrom
      createdAt := now }

/-- `save_trace_analysis`, any statement of which can fail. -/
def saveAnalysis (analysis : TraceAnalysis) : Enrich Unit := do
  statement env id
  let T ← MonadExcept.ofExcept (saveTraceAnalysis rt pg now (← get).tables analysis)
  modify fun s => { s with tables := T }

/-- A body of a trace. -/
def readTraceBody (ref : Str) : Enrich Str :=
  if ref = [] then pure [] else readEvidence env ref

/-- The `extraction_context` of a trace: it has one if its request has been stored. -/
def extractionContextOf (job : TraceCapturedJob) : Option (Extractor Enrich) :=
  if job.requestRawRef = [] then none else some (mediaExtractor rt env (job.requestRawRef.beforeLast 47))

/-- The rows of the media that have been extracted, and of the copy of the request. -/
def saveExtraction (job : TraceCapturedJob) (traceId : Str) : Enrich Unit :=
  if job.requestRawRef = [] then pure ()
  else do
    let s ← get
    saveMediaAssets env now traceId job.requestRawRef s.assets
    if s.replacements ≠ [] then
      let sanitizedRef ← writeSanitizedCopy env job.requestRawRef
      saveDerivedEvidenceObject env now traceId sanitizedRef
        (if job.requestContentType = [] then "application/json" else job.requestContentType) job.requestRawRef

/-- The first half of `default_process_enrichment`: the trace and its messages, with the media extracted. -/
def extractTrace (traces : Str → Option TraceCapturedJob) (traceId : Str) :
    Enrich (TraceCapturedJob × List NormalizedMessage) := do
  statement env id
  match traces traceId with
  | none => throw .valueError
  | some job =>
    let requestBody ← readTraceBody env job.requestRawRef
    let responseBody ← readTraceBody env job.responseRawRef
    let messages ← normalizeJsonTrace rt job (extractionContextOf rt env job) requestBody responseBody
    saveExtraction env now job traceId
    return (job, messages)

/-- The second half of `default_process_enrichment`: the assessment that it saves. -/
def judgeTrace (job : TraceCapturedJob) (traceId : Str) (messages : List NormalizedMessage) :
    Enrich (Option WorkRelevanceAssessment) :=
  if llmJudge.isNone then pure none
  else do
    statement env id
    if ¬ coreRequestedLlmJudge (← get).tables traceId then return none
    statement env id
    let assessment ← MonadExcept.ofExcept (classifyWorkRelevance rt job messages contexts llmJudge true true)
    if ¬ assessmentUsedLlmJudge assessment then return none
    let anomalies ← MonadExcept.ofExcept (detectWorkRelevanceAnomalies rt job assessment)
    saveAnalysis rt pg env now (judgedAnalysis assessment anomalies)
    return some assessment

/-- `default_process_enrichment`. -/
def defaultProcessEnrichment (traces : Str → Option TraceCapturedJob) (traceId : Str) : Enrich EnrichmentResult := do
  let (job, messages) ← extractTrace rt env now traces traceId
  let mediaAssetsExtracted := (← get).assets.length
  let judged ← judgeTrace rt pg env now contexts llmJudge job traceId messages
  return { acceptedTraceId := traceId
           analysisResultCount := judged.toList.length
           mediaAssetsExtracted
           llmMetadata := judged.bind llmJudgeMetadata
           judged }

/-- `EnrichmentStageProcessor.process`. -/
def enrichmentProcess (traces : Str → Option TraceCapturedJob) (traceId : Str) : Enrich EnrichmentResult := do
  let result ← defaultProcessEnrichment rt pg env now contexts llmJudge traces traceId
  statement env id
  return result

/-- What a run leaves behind: what it has returned, if it has been committed, and the tables
and files. -/
structure EnrichmentRun where
  committed : Option EnrichmentResult
  state : EnrichmentState

/-- The transaction of a run ends. If the run has raised, or the transaction does not commit, the
tables are what they were. -/
def EnrichmentRun.ending (commits : Bool) (start : EnrichmentState) :
    Except PyError EnrichmentResult × EnrichmentState → EnrichmentRun
  | (.ok result, s) =>
    if commits then ⟨some result, s⟩
    else ⟨none, { s with tables := start.tables, rawEvidence := start.rawEvidence }⟩
  | (.error _, s) => ⟨none, { s with tables := start.tables, rawEvidence := start.rawEvidence }⟩

/-- A run of the stage from the tables and files of a trace. -/
def enrichmentRun (commits : Bool) (traces : Str → Option TraceCapturedJob) (traceId : Str) (start : EnrichmentState) :
    EnrichmentRun :=
  .ending commits start ((enrichmentProcess rt pg env now contexts llmJudge traces traceId).outcome start)

end Process

/-! ## What a run does to the files and the tables -/

section Run

variable {rt : Runtime} {pg : Postgres} {env : Surroundings} {now : Int} {contexts : List ContextCatalogEntry}
  {llmJudge : Option Judge} {traces : Str → Option TraceCapturedJob} {traceId : Str} {job : TraceCapturedJob}

section Keeps

variable {P : EnrichmentState → Prop}

theorem extractionContextOf_keeps (hextractor : ∀ dir, ExtractorKeeps P (mediaExtractor rt env dir)) :
    ∀ x ∈ extractionContextOf rt env job, ExtractorKeeps P x := by
  intro x hx
  unfold extractionContextOf at hx
  split at hx
  · cases hx
  · obtain rfl := Option.some.inj hx
    exact hextractor _

variable (hcount : ∀ s, P s → P { s with operations := s.operations + 1 })

include hcount

theorem statement_keeps {run : EnrichmentState → EnrichmentState} (hrun : ∀ s, P s → P (run s)) :
    (statement env run).Keeps P :=
  operation_keeps hcount hrun fun _ _ h => h

theorem readTraceBody_keeps (ref : Str) : (readTraceBody env ref).Keeps P := by
  unfold readTraceBody
  split
  · exact .pure _
  · exact readEvidence_keeps hcount ref

theorem saveMediaAssets_keeps (hinsert : ∀ s rows, P s → P { s with rawEvidence := rows }) (derivedFrom : Str)
    (assets : List MediaAsset) :
    (saveMediaAssets env now traceId derivedFrom assets).Keeps P :=
  .forM fun _ _ => statement_keeps hcount fun s h => hinsert s _ h

theorem saveExtraction_keeps (hinsert : ∀ s rows, P s → P { s with rawEvidence := rows })
    (hcopy : job.requestRawRef ≠ [] → (writeSanitizedCopy env job.requestRawRef).Keeps P) :
    (saveExtraction env now job traceId).Keeps P := by
  unfold saveExtraction
  split
  · exact .pure _
  · rename_i href
    refine Effectful.Keeps.get.bind fun s => (saveMediaAssets_keeps hcount hinsert _ _).bind fun _ => ?_
    split
    · exact (hcopy href).bind fun ref => statement_keeps hcount fun s h => hinsert s _ h
    · exact .pure _

theorem saveAnalysis_keeps (htables : ∀ s T, P s → P { s with tables := T }) (analysis : TraceAnalysis) :
    (saveAnalysis rt pg env now analysis).Keeps P :=
  (statement_keeps hcount fun _ h => h).bind fun _ => Effectful.Keeps.get.bind fun _ =>
    (Effectful.Keeps.ofExcept _).bind fun _ => .update fun s h => htables s _ h

theorem judgeTrace_keeps (htables : ∀ s T, P s → P { s with tables := T }) (messages : List NormalizedMessage) :
    (judgeTrace rt pg env now contexts llmJudge job traceId messages).Keeps P := by
  have hstatement : (statement env id).Keeps P := statement_keeps hcount fun _ h => h
  unfold judgeTrace
  split
  · exact .pure _
  · refine hstatement.bind fun _ => Effectful.Keeps.get.bind fun s => ?_
    split
    · exact .pure _
    · refine hstatement.bind fun _ => (Effectful.Keeps.ofExcept _).bind fun x => ?_
      split
      · exact .pure _
      · exact (Effectful.Keeps.ofExcept _).bind fun _ => (saveAnalysis_keeps hcount htables _).bind fun _ => .pure _

theorem extractTrace_keeps (hextractor : ∀ dir, ExtractorKeeps P (mediaExtractor rt env dir))
    (hsave : ∀ job, traces traceId = some job → (saveExtraction env now job traceId).Keeps P) :
    (extractTrace rt env now traces traceId).Keeps P := by
  refine (statement_keeps hcount fun _ h => h).bind fun _ => ?_
  cases hrow : traces traceId with
  | none => exact .throw _
  | some job =>
    refine (readTraceBody_keeps hcount _).bind fun requestBody => (readTraceBody_keeps hcount _).bind
      fun responseBody => ?_
    exact (normalizeJsonTrace_keeps rt job (extractionContextOf_keeps hextractor) requestBody responseBody).bind
      fun _ => (hsave job hrow).bind fun _ => .pure _

theorem enrichmentProcess_keeps (htables : ∀ s T, P s → P { s with tables := T })
    (hextractor : ∀ dir, ExtractorKeeps P (mediaExtractor rt env dir))
    (hsave : ∀ job, traces traceId = some job → (saveExtraction env now job traceId).Keeps P) :
    (enrichmentProcess rt pg env now contexts llmJudge traces traceId).Keeps P := by
  refine Effectful.Keeps.bind ((extractTrace_keeps hcount hextractor hsave).bind fun (job, messages) => ?_)
    fun _ => (statement_keeps hcount fun _ h => h).bind fun _ => .pure _
  exact Effectful.Keeps.get.bind fun _ => (judgeTrace_keeps hcount htables messages).bind fun _ => .pure _

end Keeps

/-- The request of a trace is stored where the gateway stores it, or not at all. -/
def StoredByGateway (job : TraceCapturedJob) : Prop :=
  job.requestRawRef ≠ [] → ∃ dir, job.requestRawRef = gatewayRef dir .requestBody

theorem enrichmentProcess_intact {store : EvidenceStore}
    (hjob : ∀ job, traces traceId = some job → StoredByGateway job) :
    (enrichmentProcess rt pg env now contexts llmJudge traces traceId).Keeps (Intact store) := by
  refine enrichmentProcess_keeps (fun _ h => h) (fun _ _ h => h) (extractor_intact rt env) fun job hrow => ?_
  refine saveExtraction_keeps (fun _ h => h) (fun _ _ h => h) fun href => ?_
  obtain ⟨dir, hdir⟩ := hjob job hrow href
  rw [hdir]
  exact writeSanitizedCopy_intact env dir

/-- The tables after a run that returns. -/
def enrichedTables (rt : Runtime) (now : Int) (T : Tables) (job : TraceCapturedJob) :
    Option WorkRelevanceAssessment → Tables
  | none => T
  | some x => T.saved rt now (judgedAnalysis x (alertsOf rt job (workRelevanceFindings job x)))

theorem saveAnalysis_gives (T : Tables) (analysis : TraceAnalysis) :
    (saveAnalysis rt pg env now analysis).Gives (·.tables = T) fun _ s => s.tables = T.saved rt now analysis := by
  have hstatement : (statement env id).Gives (·.tables = T) fun _ s => s.tables = T :=
    .of_keeps (statement_keeps (fun _ h => h) fun _ h => h)
  refine hstatement.bind fun _ => Effectful.Gives.get.bind fun s₀ => Effectful.Gives.ofExcept.bind fun T' => ?_
  refine .of_fact fun hsaved => .update fun s hs => ?_
  obtain ⟨rfl, rfl⟩ := hs
  exact ((saveTraceAnalysis_yields rt pg now _ _).eq_of_ok hsaved).2

theorem judgeTrace_gives (hjob : job.Stored) (T : Tables) (messages : List NormalizedMessage) :
    (judgeTrace rt pg env now contexts llmJudge job traceId messages).Gives (·.tables = T)
      fun judged s => s.tables = enrichedTables rt now T job judged := by
  have hstatement : (statement env id).Gives (·.tables = T) fun _ s => s.tables = T :=
    .of_keeps (statement_keeps (fun _ h => h) fun _ h => h)
  unfold judgeTrace
  split
  · exact .pure fun _ h => h
  · refine hstatement.bind fun _ => (Effectful.Gives.of_keeps .get).bind fun s => ?_
    split
    · exact .pure fun _ h => h
    · refine hstatement.bind fun _ => (Effectful.Gives.of_keeps (.ofExcept _)).bind fun x => ?_
      split
      · exact .pure fun _ h => h
      · refine Effectful.Gives.ofExcept.bind fun anomalies => .of_fact fun hanomalies => ?_
        obtain rfl := ((anomalies_yields rt hjob _).eq_of_ok hanomalies).2
        exact (saveAnalysis_gives T _).bind fun _ => .pure fun _ h => h

theorem extractTrace_gives (T : Tables) : (extractTrace rt env now traces traceId).Gives (·.tables = T)
    fun read s => traces traceId = some read.1 ∧ s.tables = T := by
  have hextractor (dir : Str) : ExtractorKeeps (·.tables = T) (mediaExtractor rt env dir) :=
    extractor_tables rt env dir T
  have hread (ref : Str) : (readTraceBody env ref).Keeps (·.tables = T) := readTraceBody_keeps (fun _ h => h) ref
  refine (Effectful.Gives.of_keeps (statement_keeps (fun _ h => h) fun _ h => h)).bind fun _ => ?_
  cases hrow : traces traceId with
  | none => exact .throw _
  | some job =>
    refine (Effectful.Gives.of_keeps (hread _)).bind fun requestBody =>
      (Effectful.Gives.of_keeps (hread _)).bind fun responseBody => (Effectful.Gives.of_keeps
        (normalizeJsonTrace_keeps rt job (extractionContextOf_keeps hextractor) requestBody responseBody)).bind
        fun messages => ?_
    have hextraction : (saveExtraction env now job traceId).Keeps (·.tables = T) :=
      saveExtraction_keeps (fun _ h => h) (fun _ _ h => h) fun _ => writeSanitizedCopy_tables env _ T
    exact (Effectful.Gives.of_keeps hextraction).bind fun _ => .pure fun _ h => ⟨rfl, h⟩

theorem enrichmentProcess_gives (hjob : ∀ job, traces traceId = some job → job.Stored) (T : Tables) :
    (enrichmentProcess rt pg env now contexts llmJudge traces traceId).Gives (·.tables = T)
      fun result s => ∃ job, traces traceId = some job ∧ s.tables = enrichedTables rt now T job result.judged := by
  refine Effectful.Gives.bind ((extractTrace_gives T).bind fun read => .of_fact fun hrow => ?_)
    fun _ => (Effectful.Gives.of_keeps (statement_keeps (fun _ h => h) fun _ h => h)).bind fun _ => .pure fun _ h => h
  exact (Effectful.Gives.of_keeps .get).bind fun _ =>
    (judgeTrace_gives (hjob _ hrow) T read.2).bind fun _ => .pure fun _ h => ⟨_, hrow, h⟩

end Run

/-! ## Rows of the core stage -/

/-- Every row that the core stage has committed is as it was. -/
structure OnlyAppends (T T' : Tables) : Prop where
  messages : T'.messages.Includes T.messages
  traceMessages : T'.traceMessages.Includes T.traceMessages
  usageFacts : T'.usageFacts.Includes T.usageFacts
  coverageAlerts : T'.coverageAlerts.Includes T.coverageAlerts
  anomalies : T'.anomalies.Includes T.anomalies
  coreResults {key : ResultKey} {row : ResultRow} : key.stage = .core → T.results.find key = some row →
    T'.results.find key = some row

theorem OnlyAppends.refl (T : Tables) : OnlyAppends T T :=
  ⟨.refl _, .refl _, .refl _, .refl _, .refl _, fun _ h => h⟩

section Appends

variable {rt : Runtime} {now : Int} {T : Tables} {job : TraceCapturedJob} {x : WorkRelevanceAssessment}

theorem identity_judged : (x.toAnalysisResult .enrichment "llm_judge" "work_relevance_secondary").identity =
    ⟨x.traceId, .enrichment, "llm_judge", "work_relevance_secondary"⟩ := by
  have hne : Str.ofString "llm_judge" ≠ [] ∧ Str.ofString "work_relevance_secondary" ≠ [] := by decide
  simp [AnalysisResult.identity, WorkRelevanceAssessment.toAnalysisResult, hne]

theorem saved_judged (anomalies : List AnomalyAlert) : T.saved rt now (judgedAnalysis x anomalies) =
    { T with
      results := T.results.upsert ⟨x.traceId, .enrichment, "llm_judge", "work_relevance_secondary"⟩
        (x.toAnalysisResult .enrichment "llm_judge" "work_relevance_secondary").row
        (x.toAnalysisResult .enrichment "llm_judge" "work_relevance_secondary").row.replacedBy
      anomalies := anomalies.foldl (fun t y => t.upsert y.anomalyId ⟨y, now⟩ (y.over now)) T.anomalies
      analysed := (judgedAnalysis x anomalies).traceIds ++ T.analysed } := by
  rw [saved_eq]
  simp only [judgedAnalysis, List.foldl_nil, List.foldl_cons, storedDeltas, identity_judged]

theorem onlyAppends_saved_iff (hlater : ∀ id row, T.anomalies.find id = some row → row.updatedAt < now) :
    OnlyAppends T (T.saved rt now (judgedAnalysis x (alertsOf rt job (workRelevanceFindings job x)))) ↔
      (x.recommendedAction = .alertNonWork → T.anomalies.find (anomalyIdOf rt job .nonWorkUse) = none) := by
  rw [saved_judged]
  have hcore {row row' : ResultRow} {f : ResultRow → ResultRow} {key : ResultKey} (hkey : key.stage = .core)
      (hrow : T.results.find key = some row) :
      (T.results.upsert ⟨x.traceId, .enrichment, "llm_judge", "work_relevance_secondary"⟩ row' f).find key =
        some row := by
    rw [Keyed.find_upsert, if_neg, hrow]
    rintro rfl
    cases hkey
  by_cases hfound : x.recommendedAction = .alertNonWork
  · rw [workRelevanceFindings, if_pos hfound]
    simp only [alertsOf, List.map_cons, List.map_nil, List.foldl_cons, List.foldl_nil, Finding.alert, hfound,
      forall_true_left]
    constructor
    · intro h
      by_contra hsome
      obtain ⟨row, hrow⟩ := Option.ne_none_iff_exists'.1 hsome
      -- The row has been updated, so it is not the row that it was.
      have hkept := h.anomalies _ _ hrow
      rw [Keyed.find_upsert, if_pos rfl, hrow] at hkept
      have hupdated := congrArg AnomalyRow.updatedAt (Option.some.inj hkept)
      exact absurd (hlater _ _ hrow) (by rw [← hupdated]; exact lt_irrefl now)
    · intro hnone
      refine ⟨.refl _, .refl _, .refl _, .refl _, fun id row hrow => ?_, hcore⟩
      rw [Keyed.find_upsert, if_neg, hrow]
      rintro rfl
      rw [hnone] at hrow
      cases hrow
  · rw [workRelevanceFindings, if_neg hfound]
    exact iff_of_true ⟨.refl _, .refl _, .refl _, .refl _, .refl _, hcore⟩ fun h => absurd h hfound

end Appends

/-! ## Verdicts that are saved -/

/-- The judge is asked about the messages of a trace, and its answer makes the assessment `x`. -/
def ByVerdict (rt : Runtime) (job : TraceCapturedJob) (messages : List NormalizedMessage)
    (contexts : List ContextCatalogEntry) (llmJudge : Option Judge) (x : WorkRelevanceAssessment) : Prop :=
  let found := signals rt messages contexts
  found.intent.text ≠ [] ∧ ¬ found.Aliased rt job ∧ ∃ judge reason v, llmJudge = some judge ∧
    found.llmInvocationReason job = some reason ∧ judge (found.bundle rt job) = .ok v ∧
    x = judgedAssessment rt job found reason v

section Verdicts

variable {rt : Runtime} {pg : Postgres} {env : Surroundings} {now : Int} {contexts : List ContextCatalogEntry}
  {llmJudge : Option Judge} {job : TraceCapturedJob} {traceId : Str} {messages : List NormalizedMessage}
  {x : WorkRelevanceAssessment} {s s' : EnrichmentState}

theorem evidence_kind {e : Evidence} (h : e ∈ (signals rt messages contexts).evidence rt) : e.kind ≠ .llmJudge := by
  have hkeyword {text : Str} {keywords : Keywords} {kind : EvidenceKind} {weight : ℚ}
      (h : e ∈ keywordEvidence text keywords kind weight) : e.kind = kind := by
    obtain ⟨entry, -, he⟩ := List.mem_filterMap.1 h
    simp only [categoryEvidence] at he
    split at he
    · cases he
    · rw [← Option.some.inj he]
  simp only [Signals.evidence, signals, List.mem_append, List.mem_map] at h
  obtain ((⟨m, -, rfl⟩ | h) | h) | h := h
  · exact EvidenceKind.noConfusion
  all_goals
    rw [hkeyword h]
    exact EvidenceKind.noConfusion

theorem byVerdict_iff : classifyWorkRelevance rt job messages contexts llmJudge true true = .ok x ∧
    assessmentUsedLlmJudge x = true ↔ ByVerdict rt job messages contexts llmJudge x := by
  have hunaided : (∀ e ∈ x.evidence, e.kind ≠ .llmJudge) → assessmentUsedLlmJudge x ≠ true := by
    simp +contextual [assessmentUsedLlmJudge]
  constructor
  · rintro ⟨h, hused⟩
    have hnot := fun hkind => hunaided hkind hused
    unfold classifyWorkRelevance at h
    dsimp only at h
    split at h
    · cases h
      exact (hnot (by simp [noTextAssessment])).elim
    · rename_i htext
      split at h
      · cases h
        exact (hnot fun e he => evidence_kind he).elim
      · rename_i haliased
        split at h
        · rename_i judge reason _ hreason
          split at h
          · rename_i v hv
            cases h
            exact ⟨htext, haliased, judge, reason, v, rfl, hreason, hv, rfl⟩
          · cases h
        · cases h
          refine (hnot fun e he => ?_).elim
          simp only [scoredAssessment, Signals.scored] at he
          split at he
          · rw [List.mem_singleton.1 he]
            nofun
          · exact evidence_kind he
  · rintro ⟨htext, haliased, judge, reason, v, rfl, hreason, hv, rfl⟩
    refine ⟨?_, by simp [assessmentUsedLlmJudge, judgedAssessment, Verdict.evidence]⟩
    simp only [classifyWorkRelevance, if_neg htext, if_neg haliased, hreason, hv]

theorem statement_eq_ok {run : EnrichmentState → EnrichmentState} {u : Unit} :
    (statement env run).outcome s = (.ok u, s') ↔
      env.fault s.operations = none ∧ run { s with operations := s.operations + 1 } = s' := by
  unfold statement operation
  cases hfault : env.fault s.operations <;> simp [Effectful.outcome_bind, hfault]

theorem saveAnalysis_eq_ok {analysis : TraceAnalysis} {u : Unit} :
    (saveAnalysis rt pg env now analysis).outcome s = (.ok u, s') ↔ env.fault s.operations = none ∧
      analysis.Savable rt pg ∧
      { s with operations := s.operations + 1, tables := s.tables.saved rt now analysis } = s' := by
  have hsave : ∀ T', saveTraceAnalysis rt pg now s.tables analysis = .ok T' ↔
      analysis.Savable rt pg ∧ T' = s.tables.saved rt now analysis := fun T' =>
    have hyields := saveTraceAnalysis_yields rt pg now s.tables analysis
    ⟨fun h => hyields.eq_of_ok h, fun ⟨h, heq⟩ => heq ▸ hyields.ok h⟩
  simp [saveAnalysis, Effectful.outcome_bind_eq_ok, statement_eq_ok, Effectful.outcome_ofExcept, hsave]

theorem judgeTrace_eq_some_iff (hjob : job.Stored) :
    (judgeTrace rt pg env now contexts llmJudge job traceId messages).outcome s = (.ok (some x), s') ↔
      coreRequestedLlmJudge s.tables traceId = true ∧ ByVerdict rt job messages contexts llmJudge x ∧
        (judgedAnalysis x (alertsOf rt job (workRelevanceFindings job x))).Savable rt pg ∧
        (∀ i < 3, env.fault (s.operations + i) = none) ∧
        { s with
          operations := s.operations + 3
          tables := s.tables.saved rt now
            (judgedAnalysis x (alertsOf rt job (workRelevanceFindings job x))) } = s' := by
  have hanomalies : detectWorkRelevanceAnomalies rt job x = .ok (alertsOf rt job (workRelevanceFindings job x)) :=
    (anomalies_yields rt hjob _).ok trivial
  constructor
  · intro h
    unfold judgeTrace at h
    split at h
    · simp at h
    obtain ⟨_, s₁, h₁, h⟩ := Effectful.outcome_bind_eq_ok.1 h
    obtain ⟨hfault₀, rfl⟩ := statement_eq_ok.1 h₁
    obtain ⟨_, s₂, h₂, h⟩ := Effectful.outcome_bind_eq_ok.1 h
    cases h₂
    split at h
    · simp at h
    rename_i hcore
    obtain ⟨_, s₃, h₃, h⟩ := Effectful.outcome_bind_eq_ok.1 h
    obtain ⟨hfault₁, rfl⟩ := statement_eq_ok.1 h₃
    obtain ⟨y, s₄, h₄, h⟩ := Effectful.outcome_bind_eq_ok.1 h
    rw [Effectful.outcome_ofExcept] at h₄
    obtain ⟨hclassify, rfl⟩ := Prod.mk.inj h₄
    split at h
    · simp at h
    rename_i hused
    obtain ⟨anomalies, s₅, h₅, h⟩ := Effectful.outcome_bind_eq_ok.1 h
    obtain ⟨_, s₆, h₆, h⟩ := Effectful.outcome_bind_eq_ok.1 h
    cases h
    rw [Effectful.outcome_ofExcept, hanomalies] at h₅
    cases h₅
    obtain ⟨hfault₂, hsavable, rfl⟩ := saveAnalysis_eq_ok.1 h₆
    refine ⟨not_not.1 hcore, byVerdict_iff.1 ⟨hclassify, not_not.1 hused⟩, hsavable, fun i hi => ?_, rfl⟩
    obtain rfl | rfl | rfl : i = 0 ∨ i = 1 ∨ i = 2 := by omega
    exacts [hfault₀, hfault₁, hfault₂]
  · rintro ⟨hcore, hverdict, hsavable, hfault, rfl⟩
    obtain ⟨hclassify, hused⟩ := byVerdict_iff.2 hverdict
    obtain ⟨-, -, judge, _, _, rfl, -⟩ := hverdict
    have hfault₀ : env.fault s.operations = none := hfault 0 (by omega)
    simp [judgeTrace, Effectful.outcome_bind_eq_ok, statement_eq_ok, saveAnalysis_eq_ok,
      Effectful.outcome_ofExcept, hcore,
      hclassify, hused, hanomalies, hsavable, hfault₀, hfault 1, hfault 2, add_assoc, -bind_pure_comp]

end Verdicts

/-! ## Every run -/

section Runs

variable {rt : Runtime} {pg : Postgres} {env : Surroundings} {now : Int} {contexts : List ContextCatalogEntry}
  {llmJudge : Option Judge} {commits : Bool} {traces : Str → Option TraceCapturedJob} {traceId : Str}
  {start : EnrichmentState}

theorem EnrichmentRun.ending_store (x : Except PyError EnrichmentResult × EnrichmentState) :
    (ending commits start x).state.store = x.2.store := by
  obtain ⟨_ | result, s⟩ := x
  · rfl
  · cases commits <;> rfl

theorem EnrichmentRun.ending_cases (x : Except PyError EnrichmentResult × EnrichmentState) :
    (∃ result s, x = (.ok result, s) ∧ commits = true ∧ ending commits start x = ⟨some result, s⟩) ∨
      (ending commits start x).state.tables = start.tables := by
  obtain ⟨_ | result, s⟩ := x
  · exact .inr rfl
  · cases commits with
    | true => exact .inl ⟨result, s, rfl, rfl, rfl⟩
    | false => exact .inr rfl

theorem enrichmentRun_intact (hjob : ∀ job, traces traceId = some job → StoredByGateway job) :
    Intact start.store (enrichmentRun rt pg env now contexts llmJudge commits traces traceId start).state := by
  have hkept : Intact start.store ((enrichmentProcess rt pg env now contexts llmJudge traces
      traceId).outcome start).2 :=
    enrichmentProcess_intact hjob start fun _ _ => rfl
  intro dir object
  rw [enrichmentRun, EnrichmentRun.ending_store]
  exact hkept dir object

theorem enrichmentProcess_returns_iff {judged : Option WorkRelevanceAssessment} {s' : EnrichmentState} :
    (∃ result, (enrichmentProcess rt pg env now contexts llmJudge traces traceId).outcome start = (.ok result, s') ∧
      result.judged = judged) ↔
    ∃ job messages s s₁, (extractTrace rt env now traces traceId).outcome start = (.ok (job, messages), s) ∧
      (judgeTrace rt pg env now contexts llmJudge job traceId messages).outcome s = (.ok judged, s₁) ∧
      env.fault s₁.operations = none ∧ { s₁ with operations := s₁.operations + 1 } = s' := by
  simp only [enrichmentProcess, defaultProcessEnrichment, Effectful.outcome_bind_eq_ok, Effectful.outcome_get,
    Effectful.outcome_pure, statement_eq_ok]
  constructor
  · rintro ⟨result, ⟨_, s₂, ⟨read, s, hread, _, _, hget, judged', s₁, hjudge, hdone⟩, _, s₃, hlast, hresult⟩, rfl⟩
    cases hget
    cases hdone
    cases hresult
    exact ⟨read.1, read.2, s, s₂, hread, hjudge, hlast⟩
  · rintro ⟨job, messages, s, s₁, hread, hjudge, hlast⟩
    exact ⟨_, ⟨_, _, ⟨_, _, hread, _, _, rfl, _, _, hjudge, rfl⟩, (), _, hlast, rfl⟩, rfl⟩

/-- In every run of the enrichment stage, however it ends: the rows that the core stage has committed and the objects
of the gateway are as they were, if and only if the trace has no anomaly of non-work use yet, or no such verdict is
committed: the first half fails, the core stage has not asked for a judge, the judge does not find non-work use, its
findings can not be stored, or one of the four statements fails or the transaction does. -/
theorem enrichment_only_appends_iff
    (hjob : ∀ job, traces traceId = some job → job.Stored ∧ StoredByGateway job)
    (hlater : ∀ id row, start.tables.anomalies.find id = some row → row.updatedAt < now) :
    (OnlyAppends start.tables (enrichmentRun rt pg env now contexts llmJudge commits traces
      traceId start).state.tables ∧
      Intact start.store (enrichmentRun rt pg env now contexts llmJudge commits traces traceId start).state) ↔
    ∀ job messages s x, (extractTrace rt env now traces traceId).outcome start = (.ok (job, messages), s) →
      coreRequestedLlmJudge start.tables traceId = true →
      ByVerdict rt job messages contexts llmJudge x → x.recommendedAction = .alertNonWork →
      (judgedAnalysis x (alertsOf rt job (workRelevanceFindings job x))).Savable rt pg →
      (∀ i < 4, env.fault (s.operations + i) = none) → commits = true →
      start.tables.anomalies.find (anomalyIdOf rt job .nonWorkUse) = none := by
  rw [and_iff_left (enrichmentRun_intact fun job h => (hjob job h).2), enrichmentRun]
  constructor
  · intro h job messages s x hread hcore hverdict haction hsavable hfault hcommits
    obtain ⟨hrow, htables⟩ := extractTrace_gives start.tables start rfl _ _ hread
    rw [← htables] at hcore
    obtain ⟨result, hrun, -⟩ := enrichmentProcess_returns_iff.2 ⟨job, messages, s, _, hread,
      (judgeTrace_eq_some_iff (hjob job hrow).1).2 ⟨hcore, hverdict, hsavable, fun i hi => hfault i (by omega), rfl⟩,
      hfault 3 (by omega), rfl⟩
    rw [hrun, EnrichmentRun.ending, if_pos hcommits, ← htables] at h
    rw [← htables] at hlater ⊢
    exact (onlyAppends_saved_iff hlater).1 h haction
  · intro h
    obtain ⟨result, s', hout, hcommits, hrun⟩ | htables := EnrichmentRun.ending_cases
      ((enrichmentProcess rt pg env now contexts llmJudge traces traceId).outcome start)
    · rw [hrun]
      obtain ⟨job, messages, s, s₁, hread, hjudge, hlast, rfl⟩ := enrichmentProcess_returns_iff.1 ⟨result, hout, rfl⟩
      obtain ⟨hrow, htables⟩ := extractTrace_gives start.tables start rfl _ _ hread
      cases hjudged : result.judged with
      | none =>
        have hkept := judgeTrace_gives (hjob job hrow).1 start.tables messages s htables _ _ hjudge
        rw [hjudged] at hkept
        show OnlyAppends start.tables s₁.tables
        rw [hkept]
        exact .refl _
      | some x =>
        rw [hjudged] at hjudge
        obtain ⟨hcore, hverdict, hsavable, hfault, rfl⟩ := (judgeTrace_eq_some_iff (hjob job hrow).1).1 hjudge
        rw [htables] at hcore ⊢
        refine (onlyAppends_saved_iff hlater).2 fun haction => ?_
        refine h job messages s x hread hcore hverdict haction hsavable (fun i hi => ?_) hcommits
        obtain hi | rfl := Nat.lt_succ_iff_lt_or_eq.1 hi
        exacts [hfault i hi, hlast]
    · rw [htables]
      exact .refl _

end Runs

/-! ## A verdict on a party -/

def partyJob : TraceCapturedJob where
  traceId := "trace_1"
  routePattern := "/v1/completions"
  protocolFamily := "openai_completions"
  captureMode := "raw_and_normalized"
  username := "ada"
  requestRawRef := gatewayRef "file:///raw/trace_1" .requestBody
  usageTotalTokens := 20000
  statusCode := 200

def partyBody : String := "\x7b\"prompt\":\"party\"\x7d"

def partyRuntime : Runtime :=
  plainRuntime [(partyBody, .dict [("prompt", .str "party")])]

def partyStore : EvidenceStore := fun ref =>
  if ref = partyJob.requestRawRef then some (bytes partyBody) else none

def partyTables : Tables :=
  match coreProcess partyRuntime ⟨fun _ => true⟩ 0 [] none partyStore (fun _ => some partyJob) .empty "trace_1" with
  | .ok (T, _) => T
  | .error _ => .empty

/-- Nothing fails. -/
def calm : Surroundings := ⟨fun _ => none, fun _ => none, "filesystem"⟩

/-- A judge that always says the same. -/
def constantJudge (decision : Decision) (reason : Str) : Judge := fun _ => .ok
  { decision
    recommendedAction := decision.action
    confidence := 9 / 10
    taskCategory := "unknown"
    taskDomain := "general"
    reason
    paired := rfl
    confidence_mem := by norm_num }

def partyStart : EnrichmentState := ⟨partyStore, partyTables, [], [], [], 0, 0⟩

def partyRun (decision : Decision) (reason : Str) : EnrichmentRun :=
  enrichmentRun partyRuntime ⟨fun _ => true⟩ calm 1 [] (some (constantJudge decision reason)) true
    (fun _ => some partyJob) "trace_1" partyStart

theorem partyJob_stored : partyJob.Stored := by
  constructor <;> decide

theorem partyRun_evaluated : (∀ row ∈ partyStart.tables.anomalies.rows, row.2.updatedAt < 1) ∧
    ((partyRun .workRelated "team").committed.bind (·.judged)).map (·.recommendedAction) = some .allow ∧
    (match partyStart.tables.anomalies.find (anomalyIdOf partyRuntime partyJob .nonWorkUse),
      (partyRun .nonWorkRelated "fun").state.tables.anomalies.find
        (anomalyIdOf partyRuntime partyJob .nonWorkUse) with
      | some row, some row' =>
        decide (row.updatedAt = 0 ∧ row'.updatedAt = 1 ∧ row.alert.reason ≠ row'.alert.reason)
      | _, _ => false) = true := by
  decide +kernel

/-- If the judge takes it for work, nothing of the core stage is changed. -/
theorem enrichment_only_appends_iff_party : (partyRun .workRelated "team").committed.isSome = true ∧
    OnlyAppends partyStart.tables (partyRun .workRelated "team").state.tables ∧
    Intact partyStart.store (partyRun .workRelated "team").state := by
  obtain ⟨hlater, haction, -⟩ := partyRun_evaluated
  refine ⟨?_, ?_⟩
  · cases hcommitted : (partyRun .workRelated "team").committed with
    | none =>
      rw [hcommitted] at haction
      cases haction
    | some result => rfl
  unfold partyRun
  refine (enrichment_only_appends_iff ?_ ?_).2 ?_
  · rintro job hjob
    obtain rfl := Option.some.inj hjob
    exact ⟨partyJob_stored, fun _ => ⟨_, rfl⟩⟩
  · exact fun id row hrow => hlater _ (Keyed.mem_of_find hrow)
  · rintro job messages s x - - ⟨-, -, judge, reason, v, hjudge, -, hv, rfl⟩ hnonWork
    cases hjudge
    cases hv
    cases hnonWork

/-- The judge finds the same as the core stage, and the anomaly of the core stage gets the reason
of the judge. -/
theorem verdict_overwrites_anomaly : ∃ row row',
    partyStart.tables.anomalies.find (anomalyIdOf partyRuntime partyJob .nonWorkUse) = some row ∧
      (partyRun .nonWorkRelated "fun").state.tables.anomalies.find
        (anomalyIdOf partyRuntime partyJob .nonWorkUse) = some row' ∧
      row.updatedAt = 0 ∧ row'.updatedAt = 1 ∧ row.alert.reason ≠ row'.alert.reason := by
  have hrows := partyRun_evaluated.2.2
  split at hrows
  · rename_i row row' hrow hrow'
    exact ⟨row, row', hrow, hrow', of_decide_eq_true hrows⟩
  · cases hrows

end AuditGateway.Pipeline
