import AuditGateway.Pipeline.Intent

/-!
# The work relevance of a trace

`classify_work_relevance` of `work_relevance.py`: the intent of a trace is searched for
the terms of the context catalog and for keywords, what is found is scored, and the
scores give a decision. Where the signals ask for it, and if there is one, the judge
decides instead. Scores are rationals: they are sums of a few decimals, and rounded to
three places before they are compared.
-/

namespace AuditGateway.Pipeline

open AuditGateway.Python

/-! ## The vocabulary of verdicts (`verdict_vocab.py`) -/

inductive Decision
  | workRelated
  | nonWorkRelated
  | needsReview
  | unknown
deriving DecidableEq, Repr

def Decision.value : Decision → Str
  | workRelated => "work_related"
  | nonWorkRelated => "non_work_related"
  | needsReview => "needs_review"
  | unknown => "unknown"

inductive Action
  | allow
  | alertNonWork
  | reviewConflict
  | recordOnly
deriving DecidableEq, Repr

def Action.value : Action → Str
  | allow => "allow"
  | alertNonWork => "alert_non_work"
  | reviewConflict => "review_conflict"
  | recordOnly => "record_only"

/-- `VALID_DECISION_ACTIONS`: each decision has one action. -/
def Decision.action : Decision → Action
  | workRelated => .allow
  | nonWorkRelated => .alertNonWork
  | needsReview => .reviewConflict
  | unknown => .recordOnly

/-- A verdict of the judge, as `_build_verdict` has checked it. -/
structure Verdict where
  decision : Decision
  recommendedAction : Action
  confidence : ℚ
  taskCategory : Str
  taskDomain : Str
  reason : Str
  paired : recommendedAction = decision.action
  confidence_mem : 0 ≤ confidence ∧ confidence ≤ 1

/-! ## What is searched for -/

def analyzerVersion : Str := "work_relevance_mvp_2026_06_03"

/-- A table of keywords, by category. -/
abbrev Keywords := List (String × List String)

def taskKeywords : Keywords :=
  [("debugging", ["debug", "bug", "error", "failure", "stack trace", "regression", "fix"]),
   ("coding", ["code", "implement", "function", "class", "api", "test", "refactor", "sql"]),
   ("code_review", ["review", "pull request", "diff", "regression risk"]),
   ("documentation", ["document", "readme", "docs", "write-up", "guide"]),
   ("data_analysis", ["analyze", "csv", "spreadsheet", "metric", "dashboard"]),
   ("operations", ["deploy", "incident", "oncall", "alert", "runbook"]),
   ("research", ["research", "compare", "evaluate", "investigate"]),
   ("product_design", ["product", "requirements", "user story", "wireframe"]),
   ("translation", ["translate", "localize"]),
   ("meeting_summary", ["meeting", "minutes", "summary"]),
   ("customer_support", ["customer", "support ticket", "refund"])]

def nonWorkKeywords : Keywords :=
  [("personal_chat", ["birthday", "friend", "dating", "vacation", "party", "personal", "relationship"]),
   ("entertainment", ["game", "joke", "lyrics", "movie", "roleplay"]),
   ("shopping", ["shopping", "buy", "coupon", "discount", "wishlist"]),
   ("travel", ["trip", "hotel", "flight", "itinerary", "tourist"]),
   ("job_search", ["resume", "cv", "interview", "job application", "recruiter", "cover letter"]),
   ("side_business", ["freelance", "private app", "external client", "side business", "my client"])]

def highRiskKeywords : Keywords :=
  [("policy_violation", ["bypass login", "bypass rate limit", "extract private", "steal", "credential",
    "phishing", "fraud"])]

/-- The fields of `ContextCatalogEntry` that the classification reads. -/
structure ContextCatalogEntry where
  contextType : Str
  name : Str
  keywords : List Str
  aliases : List Str
  active : Bool
deriving DecidableEq

/-! ## Evidence -/

inductive EvidenceKind
  | workContext
  | workTask
  | nonWork
  | highRisk
  | insufficient
  | llmJudge
  | llmUnavailable
deriving DecidableEq, Repr

def EvidenceKind.value : EvidenceKind → Str
  | workContext => "work_context"
  | workTask => "work_task"
  | nonWork => "non_work"
  | highRisk => "high_risk"
  | insufficient => "insufficient"
  | llmJudge => "llm_judge"
  | llmUnavailable => "llm_unavailable"

inductive EvidenceSource
  | catalogAlias
  | catalogName
  | catalogKeyword
  | keyword
  | fallback
  | llmJudge
deriving DecidableEq, Repr

def EvidenceSource.value : EvidenceSource → Str
  | catalogAlias => "catalog_alias"
  | catalogName => "catalog_name"
  | catalogKeyword => "catalog_keyword"
  | keyword => "keyword"
  | fallback => "fallback"
  | llmJudge => "llm_judge"

structure Evidence where
  kind : EvidenceKind
  category : Str
  weight : ℚ
  source : EvidenceSource
  snippet : Str
  reason : Str
  taskDomain : Option Str := none
deriving DecidableEq

inductive Strength
  | strong
  | weak
deriving DecidableEq, Repr

def Strength.value : Strength → Str
  | strong => "strong"
  | weak => "weak"

structure CatalogMatch where
  context : ContextCatalogEntry
  matchedTerms : List Str
  strength : Strength
deriving DecidableEq

/-- A match as it is stored. -/
structure MatchPayload where
  contextType : Str
  name : Str
  matchedTerms : List Str
  source : EvidenceSource
  strength : Strength
deriving DecidableEq

/-- `_normalized_terms`. -/
def normalizedTerms (rt : Runtime) (values : List Str) : List Str :=
  ((values.map fun value => rt.lower value.strip).filter (· ≠ [])).eraseDups

/-- The terms of an entry that occur in the text, if there are any. -/
def catalogMatch (rt : Runtime) (text : Str) (strength : Strength) (values : ContextCatalogEntry → List Str)
    (context : ContextCatalogEntry) : Option CatalogMatch :=
  let matchedTerms := (normalizedTerms rt (values context)).filter text.contains
  if context.active ∧ matchedTerms ≠ [] then some { context, matchedTerms, strength } else none

/-- The first list that `_catalog_matches` returns. -/
def strongMatches (rt : Runtime) (text : Str) (contexts : List ContextCatalogEntry) : List CatalogMatch :=
  contexts.filterMap (catalogMatch rt text .strong fun context => context.aliases ++ [context.name])

/-- The second list that `_catalog_matches` returns. -/
def weakMatches (rt : Runtime) (text : Str) (contexts : List ContextCatalogEntry) : List CatalogMatch :=
  contexts.filterMap (catalogMatch rt text .weak (·.keywords))

/-- `_match_payload`. -/
def matchPayload (rt : Runtime) (x : CatalogMatch) : MatchPayload where
  contextType := x.context.contextType
  name := x.context.name
  matchedTerms := x.matchedTerms
  source :=
    if x.matchedTerms.any (· ∈ normalizedTerms rt x.context.aliases) then .catalogAlias
    else if rt.lower x.context.name.strip ∈ x.matchedTerms then .catalogName
    else .catalogKeyword
  strength := x.strength

/-- An entry of the list that `_context_evidence` returns. -/
def contextEvidence (x : MatchPayload) : Evidence where
  kind := .workContext
  category := "context_catalog"
  weight := match x.strength with
    | .strong => 9 / 10
    | .weak => 35 / 100
  source := x.source
  snippet := Str.join ", " x.matchedTerms
  reason := Str.ofString "Matched active context_catalog entry " ++ x.name ++ Str.ofString "."

/-- The evidence of a category of keywords, if any of them occurs in the text. -/
def categoryEvidence (text : Str) (kind : EvidenceKind) (weight : ℚ) (category : String)
    (terms : List String) : Option Evidence :=
  let matched := (terms.map Str.ofString).filter text.contains
  if matched = [] then none
  else
    some { kind
           category
           weight
           source := .keyword
           snippet := Str.join ", " (matched.take 5)
           reason := Str.ofString "Matched " ++ Str.ofString category ++ Str.ofString " terms: " ++
             Str.join ", " matched ++ Str.ofString "." }

/-- `_keyword_evidence`. -/
def keywordEvidence (text : Str) (keywords : Keywords) (kind : EvidenceKind) (weight : ℚ) : List Evidence :=
  keywords.filterMap fun (category, terms) => categoryEvidence text kind weight category terms

/-! ## Scores -/

structure Scores where
  work : ℚ
  nonWork : ℚ
  risk : ℚ
  conflict : ℚ
  uncertainty : ℚ
deriving DecidableEq

/-- The nearest integer, and the even one of two that are equally near. -/
def roundHalfEven (x : ℚ) : Int :=
  let below := ⌊x⌋
  if x - below < 1 / 2 then below
  else if 1 / 2 < x - below then below + 1
  else if below % 2 = 0 then below else below + 1

/-- `round(x, 3)`. -/
def round3 (x : ℚ) : ℚ :=
  roundHalfEven (x * 1000) / 1000

/-- The sum of the weights of some kinds, at most 1. -/
def weightOf (kinds : List EvidenceKind) (evidence : List Evidence) : ℚ :=
  min 1 (((evidence.filter (·.kind ∈ kinds)).map (·.weight)).sum)

/-- `_score_evidence`. -/
def scoreEvidence (evidence : List Evidence) : Scores :=
  let work := weightOf [.workContext, .workTask] evidence
  let nonWork := weightOf [.nonWork] evidence
  let risk := weightOf [.highRisk] evidence
  let uncertainty := if evidence = [] then 1 else max 0 (1 - max work (max nonWork risk))
  { work := round3 work
    nonWork := round3 nonWork
    risk := round3 risk
    conflict := round3 (min work (max nonWork risk))
    uncertainty := round3 uncertainty }

/-- The priorities of `_best_category`. -/
def EvidenceKind.priority : EvidenceKind → Nat
  | highRisk => 4
  | nonWork => 3
  | workTask => 2
  | workContext => 1
  | _ => 0

/-- The comparison by which `max` in `_best_category` replaces what it has found. -/
def Evidence.lt (x y : Evidence) : Bool :=
  x.kind.priority < y.kind.priority || (x.kind.priority == y.kind.priority && x.weight < y.weight)

/-- The first of the greatest. -/
def bestEvidence : List Evidence → Option Evidence
  | [] => none
  | x :: evidence => some (evidence.foldl (fun best y => if best.lt y then y else best) x)

/-- `_best_category`. -/
def bestCategory (evidence : List Evidence) : Str :=
  match bestEvidence evidence with
  | none => "unknown"
  | some best =>
    match best.kind with
    | .highRisk => "policy_violation"
    | .insufficient | .workContext => "unknown"
    | _ => best.category

/-- The values that `_decision_from_scores` returns. -/
structure Outcome where
  decision : Decision
  action : Action
  needsReview : Bool
  confidence : ℚ
deriving DecidableEq

/-- `_decision_from_scores`. -/
def decisionFromScores (score : Scores) : Outcome :=
  if 1 / 2 ≤ score.conflict then ⟨.needsReview, .reviewConflict, true, 65 / 100⟩
  else if 8 / 10 ≤ score.risk then ⟨.nonWorkRelated, .alertNonWork, false, score.risk⟩
  else if 7 / 10 ≤ score.nonWork then ⟨.nonWorkRelated, .alertNonWork, false, score.nonWork⟩
  else if 7 / 10 ≤ score.work ∧ score.nonWork < 3 / 10 ∧ score.risk < 3 / 10 then
    ⟨.workRelated, .allow, false, score.work⟩
  else ⟨.unknown, .recordOnly, false, 25 / 100⟩

/-! ## Assessments -/

inductive TokenTier
  | low
  | medium
  | high
deriving DecidableEq, Repr

/-- `token_tier`. -/
def tokenTier (totalTokens : Int) : TokenTier :=
  if totalTokens ≤ 2000 then .low else if 20000 ≤ totalTokens then .high else .medium

/-- Why the judge is asked. -/
inductive LlmReason
  | mixedSignals
  | highCostUnknown
  | mediumWeakSignals
deriving DecidableEq, Repr

def LlmReason.value : LlmReason → Str
  | mixedSignals => "mixed_signals"
  | highCostUnknown => "high_cost_unknown"
  | mediumWeakSignals => "medium_weak_signals"

structure WorkRelevanceAssessment where
  traceId : Str
  taskCategory : Str
  workRelatedScore : ℚ
  personalUseScore : ℚ
  confidence : ℚ
  matchedContext : List MatchPayload
  evidence : List Evidence
  needsReview : Bool
  decision : Decision
  recommendedAction : Action
  scoreBreakdown : Scores
  llmJudgeRequested : Bool
  llmJudgeReason : Option LlmReason
deriving DecidableEq

/-- What the classification finds before it decides. -/
structure Signals where
  intent : ExtractedIntent
  strongMatches : List CatalogMatch
  weakMatches : List CatalogMatch
  taskEvidence : List Evidence
  nonWorkEvidence : List Evidence
  riskEvidence : List Evidence

def signals (rt : Runtime) (messages : List NormalizedMessage) (contexts : List ContextCatalogEntry) : Signals :=
  let intent := extractUserIntent rt messages
  { intent
    strongMatches := strongMatches rt intent.text contexts
    weakMatches := weakMatches rt intent.text contexts
    taskEvidence := keywordEvidence intent.text taskKeywords .workTask (45 / 100)
    nonWorkEvidence := keywordEvidence intent.text nonWorkKeywords .nonWork (8 / 10)
    riskEvidence := keywordEvidence intent.text highRiskKeywords .highRisk 1 }

namespace Signals

/-- `matched_context`. -/
def matchedContext (rt : Runtime) (x : Signals) : List MatchPayload :=
  (x.strongMatches ++ x.weakMatches).map (matchPayload rt)

/-- `evidence`, before anything is added to it. -/
def evidence (rt : Runtime) (x : Signals) : List Evidence :=
  (x.matchedContext rt).map contextEvidence ++ x.taskEvidence ++ x.nonWorkEvidence ++ x.riskEvidence

/-- The condition of the fast path: an alias of the catalog occurs and nothing speaks against work. -/
def Aliased (rt : Runtime) (job : TraceCapturedJob) (x : Signals) : Prop :=
  tokenTier job.usageTotalTokens ≠ .high ∧ x.nonWorkEvidence = [] ∧ x.riskEvidence = [] ∧
    ∃ m ∈ x.strongMatches, (matchPayload rt m).source = .catalogAlias

instance (rt : Runtime) (job : TraceCapturedJob) (x : Signals) : Decidable (x.Aliased rt job) :=
  inferInstanceAs (Decidable (_ ∧ _))

/-- `_llm_invocation_reason`. -/
def llmInvocationReason (job : TraceCapturedJob) (x : Signals) : Option LlmReason :=
  if x.nonWorkEvidence ++ x.riskEvidence ≠ [] ∧ (x.strongMatches ≠ [] ∨ x.weakMatches ≠ []) then
    some .mixedSignals
  else if tokenTier job.usageTotalTokens = .high ∧ x.strongMatches = [] then some .highCostUnknown
  else if tokenTier job.usageTotalTokens = .medium ∧ x.weakMatches ≠ [] then some .mediumWeakSignals
  else none

end Signals

/-- The assessment of a trace without text. -/
def noTextAssessment (job : TraceCapturedJob) : WorkRelevanceAssessment :=
  let score : Scores := ⟨0, 0, 0, 0, 1⟩
  let outcome := decisionFromScores score
  { traceId := job.traceId
    taskCategory := "unknown"
    workRelatedScore := 0
    personalUseScore := 0
    confidence := outcome.confidence
    matchedContext := []
    evidence := [{ kind := .insufficient
                   category := "no_text"
                   weight := 0
                   source := .fallback
                   snippet := []
                   reason := "No normalized text was available for work relevance classification." }]
    needsReview := outcome.needsReview
    decision := outcome.decision
    recommendedAction := outcome.action
    scoreBreakdown := score
    llmJudgeRequested := false
    llmJudgeReason := none }

/-- The assessment of the fast path. -/
def aliasAssessment (rt : Runtime) (job : TraceCapturedJob) (x : Signals) : WorkRelevanceAssessment where
  traceId := job.traceId
  taskCategory := bestCategory (x.evidence rt)
  workRelatedScore := 95 / 100
  personalUseScore := 0
  confidence := 95 / 100
  matchedContext := x.strongMatches.map (matchPayload rt)
  evidence := x.evidence rt
  needsReview := false
  decision := .workRelated
  recommendedAction := .allow
  scoreBreakdown := ⟨95 / 100, 0, 0, 0, 5 / 100⟩
  llmJudgeRequested := false
  llmJudgeReason := none

/-- The evidence that is scored: there is always some. -/
def Signals.scored (rt : Runtime) (x : Signals) : List Evidence :=
  if x.evidence rt = [] then
    [{ kind := .insufficient
       category := "no_match"
       weight := 0
       source := .fallback
       snippet := x.intent.text.take 120
       reason := "No catalog context or known task category matched." }]
  else x.evidence rt

/-- The assessment by scores. -/
def scoredAssessment (rt : Runtime) (job : TraceCapturedJob) (x : Signals) : WorkRelevanceAssessment :=
  let score := scoreEvidence (x.scored rt)
  let outcome := decisionFromScores score
  { traceId := job.traceId
    taskCategory := bestCategory (x.scored rt)
    workRelatedScore := score.work
    personalUseScore := max score.nonWork score.risk
    confidence := outcome.confidence
    matchedContext := x.matchedContext rt
    evidence := x.scored rt
    needsReview := outcome.needsReview
    decision := outcome.decision
    recommendedAction := outcome.action
    scoreBreakdown := score
    llmJudgeRequested := (x.llmInvocationReason job).isSome
    llmJudgeReason := x.llmInvocationReason job }

/-- `classify_work_relevance` without a judge. -/
def heuristicAssessment (rt : Runtime) (job : TraceCapturedJob) (messages : List NormalizedMessage)
    (contexts : List ContextCatalogEntry) : WorkRelevanceAssessment :=
  let x := signals rt messages contexts
  if x.intent.text = [] then noTextAssessment job
  else if x.Aliased rt job then aliasAssessment rt job x
  else scoredAssessment rt job x

/-! ## The judge -/

/-- What the judge is given (`_build_llm_bundle`). -/
structure LlmBundle where
  traceId : Str
  tokenTier : TokenTier
  usageTotalTokens : Int
  modelRequested : Str
  intent : ExtractedIntent
  strong : List MatchPayload
  weak : List MatchPayload
  nonWorkEvidence : List Evidence
deriving DecidableEq

/-- A judge gives a verdict, or raises an exception with an error type. -/
abbrev Judge := LlmBundle → Except Str Verdict

def Signals.bundle (rt : Runtime) (job : TraceCapturedJob) (x : Signals) : LlmBundle where
  traceId := job.traceId
  tokenTier := Pipeline.tokenTier job.usageTotalTokens
  usageTotalTokens := job.usageTotalTokens
  modelRequested := job.modelRequested
  intent := x.intent
  strong := x.strongMatches.map (matchPayload rt)
  weak := x.weakMatches.map (matchPayload rt)
  nonWorkEvidence := x.nonWorkEvidence ++ x.riskEvidence

/-- The two scores that `_adapt_llm_result` gives a verdict. -/
def Verdict.workScore (v : Verdict) : ℚ :=
  match v.decision with
  | .workRelated => max (7 / 10) v.confidence
  | .needsReview => 1 / 2
  | _ => 0

def Verdict.personalScore (v : Verdict) : ℚ :=
  match v.decision with
  | .nonWorkRelated => max (7 / 10) v.confidence
  | .needsReview => 1 / 2
  | _ => 0

def Verdict.scores (v : Verdict) : Scores where
  work := round3 v.workScore
  nonWork := round3 v.personalScore
  risk := 0
  conflict := round3 (min v.workScore v.personalScore)
  uncertainty := round3 (max 0 (1 - v.confidence))

/-- The evidence that a verdict adds. -/
def Verdict.evidence (v : Verdict) (intent : ExtractedIntent) : Evidence where
  kind := .llmJudge
  category := v.decision.value
  weight := v.confidence
  source := .llmJudge
  snippet := intent.text.take 120
  reason := if v.reason = [] then "LLM judge adapted work relevance decision." else v.reason
  taskDomain := some v.taskDomain

/-- The assessment by a verdict. -/
def judgedAssessment (rt : Runtime) (job : TraceCapturedJob) (x : Signals) (reason : LlmReason)
    (v : Verdict) : WorkRelevanceAssessment where
  traceId := job.traceId
  taskCategory := v.taskCategory
  workRelatedScore := v.workScore
  personalUseScore := v.personalScore
  confidence := v.confidence
  matchedContext := x.matchedContext rt
  evidence := x.evidence rt ++ [v.evidence x.intent]
  needsReview := v.recommendedAction = .reviewConflict
  decision := v.decision
  recommendedAction := v.recommendedAction
  scoreBreakdown := v.scores
  llmJudgeRequested := true
  llmJudgeReason := some reason

/-- `_llm_unavailable_evidence`. -/
def llmUnavailableEvidence (errorType : Str) : Evidence where
  kind := .llmUnavailable
  category := errorType
  weight := 0
  source := .llmJudge
  snippet := errorType
  reason := Str.ofString "LLM judge unavailable due to " ++ errorType ++ Str.ofString "."

/-- `_conservative_llm_fallback`, from the assessment without a judge. -/
def conservativeLlmFallback (x : WorkRelevanceAssessment) (reason : LlmReason) (errorType : Str) :
    WorkRelevanceAssessment :=
  let degraded := { x with
    evidence := x.evidence ++ [llmUnavailableEvidence errorType]
    llmJudgeRequested := true
    llmJudgeReason := some reason }
  match reason with
  | .mixedSignals =>
    { degraded with needsReview := true, decision := .needsReview, recommendedAction := .reviewConflict }
  | .highCostUnknown =>
    { degraded with needsReview := false, decision := .unknown, recommendedAction := .recordOnly }
  | .mediumWeakSignals => degraded

/-- `classify_work_relevance`. -/
def classifyWorkRelevance (rt : Runtime) (job : TraceCapturedJob) (messages : List NormalizedMessage)
    (contexts : List ContextCatalogEntry) (llmJudge : Option Judge) (allowLlm strictLlmErrors : Bool) :
    Except PyError WorkRelevanceAssessment :=
  let x := signals rt messages contexts
  if x.intent.text = [] then .ok (noTextAssessment job)
  else if x.Aliased rt job then .ok (aliasAssessment rt job x)
  else
    match allowLlm, llmJudge, x.llmInvocationReason job with
    | true, some judge, some reason =>
      match judge (x.bundle rt job) with
      | .ok verdict => .ok (judgedAssessment rt job x reason verdict)
      | .error errorType =>
        if strictLlmErrors then .error (.judgeUnavailable errorType)
        else .ok (conservativeLlmFallback (heuristicAssessment rt job messages contexts) reason errorType)
    | _, _, _ => .ok (scoredAssessment rt job x)

theorem classifyWorkRelevance_heuristic (rt : Runtime) (job : TraceCapturedJob)
    (messages : List NormalizedMessage) (contexts : List ContextCatalogEntry) (llmJudge : Option Judge)
    (strictLlmErrors : Bool) :
    classifyWorkRelevance rt job messages contexts llmJudge false strictLlmErrors =
      .ok (heuristicAssessment rt job messages contexts) := by
  simp only [classifyWorkRelevance, heuristicAssessment]
  split
  · rfl
  · split <;> rfl

end AuditGateway.Pipeline
