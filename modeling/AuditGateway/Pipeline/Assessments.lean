import AuditGateway.Pipeline.Sse
import AuditGateway.Pipeline.WorkRelevance

/-!
# The decisions of assessments

`classify_work_relevance` has five ways to return: without a text, by an alias of the catalog, by a verdict, by scores,
and by the fallback from a judge that has failed, which overrides what the scores say.

* `assessment_legal`: every one of them gives a decision with its action, and scores between 0 and 1.
* `non_work_flagged_iff`: when a text with a keyword against work is flagged, if there is no verdict. The
  fallback does not do so for a request of high cost that matches nothing in the catalog.
-/

namespace AuditGateway.Pipeline

open AuditGateway.Python

/-! ## Rounding keeps bounds -/

theorem le_roundHalfEven {x : ℚ} {n : Int} (h : (n : ℚ) ≤ x) : n ≤ roundHalfEven x := by
  have hfloor : n ≤ ⌊x⌋ := Int.le_floor.2 h
  unfold roundHalfEven
  dsimp only
  split
  · exact hfloor
  · split
    · omega
    · split <;> omega

theorem roundHalfEven_le {x : ℚ} {n : Int} (h : x ≤ n) : roundHalfEven x ≤ n := by
  have hfloor : ⌊x⌋ ≤ n := Int.floor_le_iff.2 (lt_of_le_of_lt h (by linarith))
  unfold roundHalfEven
  dsimp only
  split
  · exact hfloor
  · rename_i hhalf
    -- If the bound is reached from below, nothing is left to be rounded up.
    have hlt : ⌊x⌋ < n := by
      refine lt_of_le_of_ne hfloor fun heq => hhalf ?_
      rw [heq]
      linarith
    split
    · omega
    · split <;> omega

theorem le_round3 {x : ℚ} (n : Int) (h : (n : ℚ) / 1000 ≤ x) : (n : ℚ) / 1000 ≤ round3 x := by
  have hscaled : (n : ℚ) ≤ x * 1000 := by linarith
  have hround : (n : ℚ) ≤ roundHalfEven (x * 1000) := Int.cast_le.2 (le_roundHalfEven hscaled)
  rw [round3]
  linarith

/-- A number from 0 to 1. -/
def InUnit (x : ℚ) : Prop := 0 ≤ x ∧ x ≤ 1

theorem InUnit.round3 {x : ℚ} (h : InUnit x) : InUnit (round3 x) := by
  constructor
  · have hzero := le_round3 0 (x := x) (by simpa using h.1)
    simpa using hzero
  · have hround : roundHalfEven (x * 1000) ≤ 1000 := roundHalfEven_le (by push_cast; linarith [h.2])
    have hcast : (roundHalfEven (x * 1000) : ℚ) ≤ 1000 := by exact_mod_cast hround
    rw [Pipeline.round3]
    linarith

theorem InUnit.max {x y : ℚ} (hx : InUnit x) (hy : InUnit y) : InUnit (max x y) :=
  ⟨le_max_of_le_left hx.1, max_le hx.2 hy.2⟩

/-! ## Weights -/

/-- No evidence has a negative weight. -/
def Weighted (evidence : List Evidence) : Prop := ∀ e ∈ evidence, 0 ≤ e.weight

theorem weightOf_inUnit {kinds : List EvidenceKind} {evidence : List Evidence} (h : Weighted evidence) :
    InUnit (weightOf kinds evidence) := by
  refine ⟨le_min zero_le_one (List.sum_nonneg ?_), min_le_left _ _⟩
  exact List.forall_mem_map.2 fun e he => h e (List.mem_of_mem_filter he)

theorem le_weightOf (kinds : List EvidenceKind) {evidence : List Evidence} (h : Weighted evidence) {e : Evidence}
    (he : e ∈ evidence) (hkind : e.kind ∈ kinds) (hone : e.weight ≤ 1) : e.weight ≤ weightOf kinds evidence := by
  refine le_min hone (List.single_le_sum ?_ _ ?_)
  · exact List.forall_mem_map.2 fun e he => h e (List.mem_of_mem_filter he)
  · exact List.mem_map_of_mem (List.mem_filter.2 ⟨he, decide_eq_true hkind⟩)

theorem keywordEvidence_weight {text : Str} {keywords : Keywords} {kind : EvidenceKind} {weight : ℚ} {e : Evidence}
    (he : e ∈ keywordEvidence text keywords kind weight) : e.kind = kind ∧ e.weight = weight := by
  obtain ⟨⟨category, terms⟩, -, heq⟩ := List.mem_filterMap.1 he
  unfold categoryEvidence at heq
  dsimp only at heq
  split at heq
  · cases heq
  · obtain rfl := Option.some.inj heq
    exact ⟨rfl, rfl⟩

theorem contextEvidence_weight (x : MatchPayload) : 0 ≤ (contextEvidence x).weight := by
  unfold contextEvidence
  cases x.strength <;> norm_num

theorem signals_weighted (rt : Runtime) (messages : List NormalizedMessage) (contexts : List ContextCatalogEntry) :
    Weighted ((signals rt messages contexts).evidence rt) := by
  intro e he
  simp only [Signals.evidence, List.mem_append] at he
  obtain ((he | he) | he) | he := he
  · obtain ⟨x, -, rfl⟩ := List.mem_map.1 he
    exact contextEvidence_weight x
  · rw [(keywordEvidence_weight he).2]
    norm_num
  · rw [(keywordEvidence_weight he).2]
    norm_num
  · rw [(keywordEvidence_weight he).2]
    norm_num

theorem scored_weighted (rt : Runtime) (messages : List NormalizedMessage) (contexts : List ContextCatalogEntry) :
    Weighted ((signals rt messages contexts).scored rt) := by
  unfold Signals.scored
  split
  · intro e he
    rw [List.mem_singleton.1 he]
  · exact signals_weighted rt messages contexts

/-! ## Legal assessments -/

/-- The scores of an assessment, and of a decision by scores. -/
structure Scores.InUnit (x : Scores) : Prop where
  work : Pipeline.InUnit x.work
  nonWork : Pipeline.InUnit x.nonWork
  risk : Pipeline.InUnit x.risk

theorem scoreEvidence_inUnit {evidence : List Evidence} (h : Weighted evidence) : (scoreEvidence evidence).InUnit :=
  ⟨(weightOf_inUnit h).round3, (weightOf_inUnit h).round3, (weightOf_inUnit h).round3⟩

/-- The decision and its action are a pair of `VALID_DECISION_ACTIONS`, a review is asked for exactly if the action is
one, and the scores are between 0 and 1. -/
structure WorkRelevanceAssessment.Legal (x : WorkRelevanceAssessment) : Prop where
  paired : x.recommendedAction = x.decision.action
  needsReview : x.needsReview = true ↔ x.recommendedAction = .reviewConflict
  work : InUnit x.workRelatedScore
  personal : InUnit x.personalUseScore
  confidence : InUnit x.confidence

theorem decisionFromScores_legal {score : Scores} (h : score.InUnit) :
    (decisionFromScores score).action = (decisionFromScores score).decision.action ∧
      ((decisionFromScores score).needsReview = true ↔ (decisionFromScores score).action = .reviewConflict) ∧
      InUnit (decisionFromScores score).confidence := by
  unfold decisionFromScores
  split
  · exact ⟨rfl, by decide, by norm_num [InUnit]⟩
  · split
    · exact ⟨rfl, by simp, h.risk⟩
    · split
      · exact ⟨rfl, by simp, h.nonWork⟩
      · split
        · exact ⟨rfl, by simp, h.work⟩
        · exact ⟨rfl, by decide, by norm_num [InUnit]⟩

theorem noTextAssessment_legal (job : TraceCapturedJob) : (noTextAssessment job).Legal := by
  have hzero : InUnit 0 := ⟨le_rfl, zero_le_one⟩
  have hscore : Scores.InUnit ⟨0, 0, 0, 0, 1⟩ := ⟨hzero, hzero, hzero⟩
  obtain ⟨hpaired, hreview, hconfidence⟩ := decisionFromScores_legal hscore
  exact ⟨hpaired, hreview, hzero, hzero, hconfidence⟩

theorem aliasAssessment_legal (rt : Runtime) (job : TraceCapturedJob) (x : Signals) :
    (aliasAssessment rt job x).Legal := by
  refine ⟨rfl, by simp [aliasAssessment], ?_, ?_, ?_⟩ <;> norm_num [aliasAssessment, InUnit]

theorem scoredAssessment_legal (rt : Runtime) (job : TraceCapturedJob) (messages : List NormalizedMessage)
    (contexts : List ContextCatalogEntry) : (scoredAssessment rt job (signals rt messages contexts)).Legal := by
  have hscore := scoreEvidence_inUnit (scored_weighted rt messages contexts)
  obtain ⟨hpaired, hreview, hconfidence⟩ := decisionFromScores_legal hscore
  exact ⟨hpaired, hreview, hscore.work, hscore.nonWork.max hscore.risk, hconfidence⟩

theorem heuristicAssessment_legal (rt : Runtime) (job : TraceCapturedJob) (messages : List NormalizedMessage)
    (contexts : List ContextCatalogEntry) : (heuristicAssessment rt job messages contexts).Legal := by
  unfold heuristicAssessment
  dsimp only
  split
  · exact noTextAssessment_legal job
  · split
    · exact aliasAssessment_legal rt job _
    · exact scoredAssessment_legal rt job messages contexts

theorem judgedAssessment_legal (rt : Runtime) (job : TraceCapturedJob) (x : Signals) (reason : LlmReason)
    (v : Verdict) : (judgedAssessment rt job x reason v).Legal := by
  have hhalf : InUnit (1 / 2) := by norm_num [InUnit]
  have hzero : InUnit 0 := ⟨le_rfl, zero_le_one⟩
  have hmax : InUnit (max (7 / 10) v.confidence) := InUnit.max (by norm_num [InUnit]) v.confidence_mem
  refine ⟨v.paired, by simp [judgedAssessment], ?_, ?_, v.confidence_mem⟩
  · show InUnit v.workScore
    unfold Verdict.workScore
    cases v.decision with
    | workRelated => exact hmax
    | nonWorkRelated => exact hzero
    | needsReview => exact hhalf
    | unknown => exact hzero
  · show InUnit v.personalScore
    unfold Verdict.personalScore
    cases v.decision with
    | workRelated => exact hzero
    | nonWorkRelated => exact hmax
    | needsReview => exact hhalf
    | unknown => exact hzero

theorem conservativeLlmFallback_legal {x : WorkRelevanceAssessment} (h : x.Legal) (reason : LlmReason)
    (errorType : Str) : (conservativeLlmFallback x reason errorType).Legal := by
  cases reason with
  | mixedSignals => exact ⟨rfl, by simp [conservativeLlmFallback], h.work, h.personal, h.confidence⟩
  | highCostUnknown => exact ⟨rfl, by simp [conservativeLlmFallback], h.work, h.personal, h.confidence⟩
  | mediumWeakSignals => exact ⟨h.paired, h.needsReview, h.work, h.personal, h.confidence⟩

variable {rt : Runtime} {job : TraceCapturedJob} {messages : List NormalizedMessage}
  {contexts : List ContextCatalogEntry} {llmJudge : Option Judge} {allowLlm strictLlmErrors : Bool}
  {x : WorkRelevanceAssessment}

/-- The ways in which the classification returns. -/
inductive Classified (rt : Runtime) (job : TraceCapturedJob) (messages : List NormalizedMessage)
    (contexts : List ContextCatalogEntry) (llmJudge : Option Judge) (allowLlm : Bool) : WorkRelevanceAssessment → Prop
  | noText : (signals rt messages contexts).intent.text = [] →
      Classified rt job messages contexts llmJudge allowLlm (noTextAssessment job)
  | aliased : (signals rt messages contexts).Aliased rt job →
      Classified rt job messages contexts llmJudge allowLlm (aliasAssessment rt job (signals rt messages contexts))
  | judged {judge : Judge} {reason : LlmReason} {v : Verdict} : allowLlm = true → llmJudge = some judge →
      (signals rt messages contexts).llmInvocationReason job = some reason →
      judge ((signals rt messages contexts).bundle rt job) = .ok v →
      Classified rt job messages contexts llmJudge allowLlm
        (judgedAssessment rt job (signals rt messages contexts) reason v)
  | fallback {judge : Judge} {reason : LlmReason} {errorType : Str} : allowLlm = true → llmJudge = some judge →
      (signals rt messages contexts).llmInvocationReason job = some reason →
      judge ((signals rt messages contexts).bundle rt job) = .error errorType →
      Classified rt job messages contexts llmJudge allowLlm
        (conservativeLlmFallback (heuristicAssessment rt job messages contexts) reason errorType)
  | scored : (allowLlm = true → llmJudge ≠ none → (signals rt messages contexts).llmInvocationReason job = none) →
      Classified rt job messages contexts llmJudge allowLlm (scoredAssessment rt job (signals rt messages contexts))

theorem classifyWorkRelevance_cases
    (h : classifyWorkRelevance rt job messages contexts llmJudge allowLlm strictLlmErrors = .ok x) :
    Classified rt job messages contexts llmJudge allowLlm x := by
  unfold classifyWorkRelevance at h
  dsimp only at h
  split at h
  · rename_i htext
    obtain rfl := Except.ok.inj h
    exact .noText htext
  · split at h
    · rename_i haliased
      obtain rfl := Except.ok.inj h
      exact .aliased haliased
    · split at h
      · rename_i judge reason hreason
        split at h
        · rename_i v hv
          obtain rfl := Except.ok.inj h
          exact .judged rfl rfl hreason hv
        · rename_i errorType herror
          split at h
          · cases h
          · obtain rfl := Except.ok.inj h
            exact .fallback rfl rfl hreason herror
      · rename_i hnone
        obtain rfl := Except.ok.inj h
        refine .scored fun hallow hjudge => ?_
        obtain ⟨judge, hjudge⟩ := Option.ne_none_iff_exists'.1 hjudge
        by_contra hreason
        obtain ⟨reason, hreason⟩ := Option.ne_none_iff_exists'.1 hreason
        exact hnone judge reason hallow hjudge hreason

/-- Every assessment is a legal verdict. -/
theorem assessment_legal (rt : Runtime) (job : TraceCapturedJob) (messages : List NormalizedMessage)
    (contexts : List ContextCatalogEntry) (llmJudge : Option Judge) (allowLlm strictLlmErrors : Bool)
    (x : WorkRelevanceAssessment)
    (h : classifyWorkRelevance rt job messages contexts llmJudge allowLlm strictLlmErrors = .ok x) : x.Legal := by
  cases classifyWorkRelevance_cases h with
  | noText _ => exact noTextAssessment_legal job
  | aliased _ => exact aliasAssessment_legal rt job _
  | judged _ _ _ _ => exact judgedAssessment_legal rt job _ _ _
  | fallback _ _ _ _ => exact conservativeLlmFallback_legal (heuristicAssessment_legal rt job messages contexts) _ _
  | scored _ => exact scoredAssessment_legal rt job messages contexts

/-- A message of a user. -/
def userMessage (text : Str) : NormalizedMessage where
  traceId := "t"
  direction := .request
  sequenceIndex := 0
  role := "user"
  modality := .text
  contentText := text
  contentTextHash := []
  mediaUrl := []
  sourcePath := "$.messages[0]"
  protocolItemType := .openaiChatMessage
  tokenCountEstimate := 1
  metadata := []
  messageKey := []

/-- A job of a trace with a number of tokens. -/
def countedJob (usageTotalTokens : Int) : TraceCapturedJob where
  traceId := "t"
  routePattern := "/v1/chat/completions"
  protocolFamily := "openai_chat"
  captureMode := "raw"
  username := "u"
  usageTotalTokens

theorem assessment_legal_game :
    (heuristicAssessment (plainRuntime []) (countedJob 100) [userMessage "game"] []).Legal :=
  assessment_legal (plainRuntime []) (countedJob 100) [userMessage "game"] [] none false false _
    (classifyWorkRelevance_heuristic _ _ _ _ _ _)

/-! ## Texts that speak against work -/

/-- A keyword against work, or one of high risk, occurs in the text. -/
def HasKeyword (text : Str) : Prop :=
  ∃ entry ∈ nonWorkKeywords ++ highRiskKeywords, ∃ term ∈ entry.2, text.contains (Str.ofString term) = true

instance (text : Str) : Decidable (HasKeyword text) :=
  inferInstanceAs (Decidable (∃ entry ∈ nonWorkKeywords ++ highRiskKeywords, ∃ term ∈ entry.2, _))

/-- The assessment is the one by a verdict. -/
def Judged (rt : Runtime) (job : TraceCapturedJob) (messages : List NormalizedMessage)
    (contexts : List ContextCatalogEntry) (llmJudge : Option Judge) (allowLlm : Bool) : Prop :=
  allowLlm = true ∧ ((signals rt messages contexts).llmInvocationReason job).isSome = true ∧
    ∃ judge v, llmJudge = some judge ∧ judge ((signals rt messages contexts).bundle rt job) = .ok v

theorem keywordEvidence_ne_nil {text : Str} {keywords : Keywords} (kind : EvidenceKind) (weight : ℚ)
    {entry : String × List String} (hentry : entry ∈ keywords) {term : String} (hterm : term ∈ entry.2)
    (h : text.contains (Str.ofString term) = true) : keywordEvidence text keywords kind weight ≠ [] := by
  obtain ⟨category, terms⟩ := entry
  have hmatched : (terms.map Str.ofString).filter text.contains ≠ [] :=
    List.ne_nil_of_mem (List.mem_filter.2 ⟨List.mem_map_of_mem hterm, h⟩)
  have hsome : ∃ e, categoryEvidence text kind weight category terms = some e := ⟨_, if_neg hmatched⟩
  obtain ⟨e, he⟩ := hsome
  exact List.ne_nil_of_mem (List.mem_filterMap.2 ⟨_, hentry, he⟩)

theorem HasKeyword.evidence (messages : List NormalizedMessage) (contexts : List ContextCatalogEntry)
    (h : HasKeyword (signals rt messages contexts).intent.text) :
    (signals rt messages contexts).nonWorkEvidence ≠ [] ∨ (signals rt messages contexts).riskEvidence ≠ [] := by
  obtain ⟨entry, hentry, term, hterm, hcontains⟩ := h
  obtain hentry | hentry := List.mem_append.1 hentry
  · exact .inl (keywordEvidence_ne_nil _ _ hentry hterm hcontains)
  · exact .inr (keywordEvidence_ne_nil _ _ hentry hterm hcontains)

theorem HasKeyword.ne_nil {text : Str} (h : HasKeyword text) : text ≠ [] := by
  rintro rfl
  exact absurd h (by decide)

theorem decisionFromScores_flags {score : Scores} (h : 7 / 10 ≤ score.nonWork ∨ 8 / 10 ≤ score.risk) :
    (decisionFromScores score).decision = .nonWorkRelated ∨ (decisionFromScores score).decision = .needsReview := by
  unfold decisionFromScores
  split
  · exact .inr rfl
  · split
    · exact .inl rfl
    · split
      · exact .inl rfl
      · rename_i hrisk hnonWork
        exact absurd h (not_or.2 ⟨hnonWork, hrisk⟩)

theorem le_score {kind : EvidenceKind} {weight : ℚ} {text : Str} {keywords : Keywords} (n : Int)
    (hweight : weight = n / 1000) (hone : weight ≤ 1) (h : keywordEvidence text keywords kind weight ≠ [])
    (hsub : ∀ e ∈ keywordEvidence text keywords kind weight, e ∈ (signals rt messages contexts).evidence rt) :
    weight ≤ round3 (weightOf [kind] ((signals rt messages contexts).scored rt)) := by
  obtain ⟨e, he⟩ := List.exists_mem_of_ne_nil _ h
  obtain ⟨hkind, he_weight⟩ := keywordEvidence_weight he
  have hscored : (signals rt messages contexts).scored rt = (signals rt messages contexts).evidence rt :=
    if_neg (List.ne_nil_of_mem (hsub e he))
  have hle := le_weightOf [kind] (signals_weighted rt messages contexts) (hsub e he) (by simp [hkind])
    (he_weight ▸ hone)
  rw [he_weight, hweight] at hle
  rw [hscored, hweight]
  exact le_round3 n hle

theorem scoredAssessment_flags (job : TraceCapturedJob)
    (h : (signals rt messages contexts).nonWorkEvidence ≠ [] ∨ (signals rt messages contexts).riskEvidence ≠ []) :
    (scoredAssessment rt job (signals rt messages contexts)).decision = .nonWorkRelated ∨
      (scoredAssessment rt job (signals rt messages contexts)).decision = .needsReview := by
  refine decisionFromScores_flags ?_
  obtain h | h := h
  · left
    have hsub : ∀ e ∈ (signals rt messages contexts).nonWorkEvidence,
        e ∈ (signals rt messages contexts).evidence rt := by
      intro e he
      simp [Signals.evidence, he]
    exact le_trans (by norm_num) (le_score 800 (by norm_num) (by norm_num) h hsub)
  · right
    have hsub : ∀ e ∈ (signals rt messages contexts).riskEvidence,
        e ∈ (signals rt messages contexts).evidence rt := by
      intro e he
      simp [Signals.evidence, he]
    exact le_trans (by norm_num) (le_score 1000 (by norm_num) le_rfl h hsub)

theorem llmInvocationReason_of_evidence (job : TraceCapturedJob) {x : Signals}
    (h : x.nonWorkEvidence ≠ [] ∨ x.riskEvidence ≠ []) :
    x.llmInvocationReason job =
      if x.strongMatches ≠ [] ∨ x.weakMatches ≠ [] then some .mixedSignals
      else if tokenTier job.usageTotalTokens = .high then some .highCostUnknown else none := by
  have hevidence : x.nonWorkEvidence ++ x.riskEvidence ≠ [] := by
    intro hnil
    obtain ⟨hnonWork, hrisk⟩ := List.append_eq_nil_iff.1 hnil
    exact h.elim (· hnonWork) (· hrisk)
  unfold Signals.llmInvocationReason
  by_cases hmatch : x.strongMatches ≠ [] ∨ x.weakMatches ≠ []
  · rw [if_pos ⟨hevidence, hmatch⟩, if_pos hmatch]
  · obtain ⟨hstrong, hweak⟩ := not_or.1 hmatch
    rw [not_not] at hstrong hweak
    simp [hstrong, hweak]

/-- Without a verdict, a text with a keyword is flagged, except if a judge that was to be asked because of the costs
alone has failed. -/
theorem non_work_flagged_iff (rt : Runtime) (job : TraceCapturedJob) (messages : List NormalizedMessage)
    (contexts : List ContextCatalogEntry) (llmJudge : Option Judge) (allowLlm strictLlmErrors : Bool)
    (x : WorkRelevanceAssessment)
    (h : classifyWorkRelevance rt job messages contexts llmJudge allowLlm strictLlmErrors = .ok x)
    (hkeyword : HasKeyword (signals rt messages contexts).intent.text)
    (hverdict : ¬ Judged rt job messages contexts llmJudge allowLlm) :
    (x.decision = .nonWorkRelated ∨ x.decision = .needsReview) ↔
      (allowLlm = true → llmJudge ≠ none → tokenTier job.usageTotalTokens = .high →
        (signals rt messages contexts).strongMatches ≠ [] ∨ (signals rt messages contexts).weakMatches ≠ []) := by
  have hevidence := hkeyword.evidence messages contexts
  have hreason := llmInvocationReason_of_evidence job hevidence
  cases classifyWorkRelevance_cases h with
  | noText htext => exact absurd htext hkeyword.ne_nil
  | aliased haliased => exact absurd haliased fun haliased => hevidence.elim (· haliased.2.1) (· haliased.2.2.1)
  | @judged judge reason v hallow hjudge hasked hv =>
    exact absurd ⟨hallow, by simp [hasked], judge, v, hjudge, hv⟩ hverdict
  | @fallback judge reason errorType hallow hjudge hasked herror =>
    rw [hreason] at hasked
    by_cases hmatch : (signals rt messages contexts).strongMatches ≠ [] ∨
      (signals rt messages contexts).weakMatches ≠ []
    · rw [if_pos hmatch] at hasked
      obtain rfl := Option.some.inj hasked
      exact ⟨fun _ _ _ _ => hmatch, fun _ => .inr rfl⟩
    · rw [if_neg hmatch] at hasked
      split at hasked
      · rename_i htier
        obtain rfl := Option.some.inj hasked
        constructor
        · rintro (hdecision | hdecision) <;> cases hdecision
        · intro hall
          exact absurd (hall hallow (by simp [hjudge]) htier) hmatch
      · cases hasked
  | scored hnone =>
    refine ⟨fun _ hallow hjudge htier => ?_, fun _ => scoredAssessment_flags job hevidence⟩
    by_contra hmatch
    have hsome := hnone hallow hjudge
    rw [hreason, if_neg hmatch, if_pos htier] at hsome
    cases hsome

theorem signals_game : (signals (plainRuntime []) [userMessage "game"] []).intent.text = "game" := by
  decide

theorem hasKeyword_game : HasKeyword (signals (plainRuntime []) [userMessage "game"] []).intent.text := by
  rw [signals_game]
  decide

theorem non_work_flagged_iff_game :
    (heuristicAssessment (plainRuntime []) (countedJob 20000) [userMessage "game"] []).decision = .nonWorkRelated ∨
      (heuristicAssessment (plainRuntime []) (countedJob 20000) [userMessage "game"] []).decision = .needsReview :=
  (non_work_flagged_iff (plainRuntime []) (countedJob 20000) [userMessage "game"] [] none false false _
    (classifyWorkRelevance_heuristic _ _ _ _ _ _) hasKeyword_game
    (fun h => absurd h.1 (by decide))).2 fun h => absurd h (by decide)

/-- A judge that never answers. -/
def unavailableJudge : Judge := fun _ => .error "timeout"

/-- The same request is only recorded if there is a judge, and it does not answer. -/
theorem high_cost_game_recorded :
    ∃ x, classifyWorkRelevance (plainRuntime []) (countedJob 20000) [userMessage "game"] [] (some unavailableJudge)
        true false = .ok x ∧
      HasKeyword (signals (plainRuntime []) [userMessage "game"] []).intent.text ∧
      ¬ Judged (plainRuntime []) (countedJob 20000) [userMessage "game"] [] (some unavailableJudge) true ∧
      x.decision = .unknown ∧ x.recommendedAction = .recordOnly := by
  have htext : (signals (plainRuntime []) [userMessage "game"] []).intent.text ≠ [] := by
    rw [signals_game]
    decide
  have haliased : ¬ (signals (plainRuntime []) [userMessage "game"] []).Aliased (plainRuntime []) (countedJob 20000) :=
    fun h => h.1 (by decide)
  have hreason : (signals (plainRuntime []) [userMessage "game"] []).llmInvocationReason (countedJob 20000) =
      some .highCostUnknown := by
    have hevidence := HasKeyword.evidence [userMessage "game"] [] hasKeyword_game
    rw [llmInvocationReason_of_evidence _ hevidence]
    rfl
  refine ⟨conservativeLlmFallback (heuristicAssessment (plainRuntime []) (countedJob 20000) [userMessage "game"] [])
    .highCostUnknown "timeout", ?_, hasKeyword_game, ?_, rfl, rfl⟩
  · unfold classifyWorkRelevance
    dsimp only
    rw [if_neg htext, if_neg haliased, hreason]
    rfl
  · rintro ⟨-, -, judge, v, hjudge, hv⟩
    obtain rfl := Option.some.inj hjudge
    cases hv

end AuditGateway.Pipeline
