import AuditGateway.Analysis.Routing
import AuditGateway.Pipeline.EnrichmentStage

/-!
# One usage fact per analysed trace

The workers and the tables together: when an execution commits, what its stage processor has
written comes into the tables in the same transaction that marks the task as succeeded. The
core stage emits a delta for the hour and one for the day of a trace, and stores one usage fact.
-/

namespace AuditGateway.Pipeline

open AuditGateway.Framework AuditGateway.Python AuditGateway.Analysis

/-! ## Traces -/

/-- The columns of a row of `traces` that a job is made from. The gateway writes them when it
inserts the row, and nobody changes them. -/
structure CapturedTrace where
  routePattern : Str
  protocolFamily : Str
  captureMode : Str
  usernameSnapshot : Str
  requestRawRef : Str
  responseRawRef : Str
  modelRequested : Str
  usagePromptTokens : Int
  usageCompletionTokens : Int
  usageTotalTokens : Int
  usageReasoningTokens : Int
  usageCachedTokens : Int
  tokenFingerprint : Str
  fingerprintDisplay : Str
  newApiTokenIdSnapshot : Int
  tokenNameSnapshot : Str
  statusCode : Int
  stream : Bool
  requestStartedAt : Int
  requestBodySize : Int
  responseBodySize : Int

/-- The job of a trace: `load_trace_job_json` and `parse_job`. The content types are not read. -/
def loadTraceJob (traceId : Str) (row : CapturedTrace) : TraceCapturedJob where
  traceId := traceId
  routePattern := row.routePattern
  protocolFamily := row.protocolFamily
  captureMode := row.captureMode
  username := row.usernameSnapshot
  requestRawRef := row.requestRawRef
  responseRawRef := row.responseRawRef
  modelRequested := row.modelRequested
  usagePromptTokens := row.usagePromptTokens
  usageCompletionTokens := row.usageCompletionTokens
  usageTotalTokens := row.usageTotalTokens
  usageReasoningTokens := row.usageReasoningTokens
  usageCachedTokens := row.usageCachedTokens
  tokenFingerprint := row.tokenFingerprint
  fingerprintDisplay := row.fingerprintDisplay
  newApiTokenId := row.newApiTokenIdSnapshot
  tokenNameSnapshot := row.tokenNameSnapshot
  statusCode := row.statusCode
  stream := row.stream
  requestStartedAt := row.requestStartedAt
  requestBodySize := row.requestBodySize
  responseBodySize := row.responseBodySize

/-- The rows of `traces` by trace id, with texts that Postgres has taken. -/
structure CapturedTraces where
  find : Str → Option CapturedTrace
  stored : ∀ {traceId row}, find traceId = some row → (loadTraceJob traceId row).Stored

/-- The jobs of the traces. -/
def CapturedTraces.jobs (traces : CapturedTraces) (traceId : Str) : Option TraceCapturedJob :=
  (traces.find traceId).map (loadTraceJob traceId)

/-- The usage fact counts one request, as a success or an error, and has the values of the trace. -/
structure UsageFactRow.Agrees (fact : UsageFactRow) (row : CapturedTrace) : Prop where
  requestCount : fact.requestCount = 1
  outcomeCount : fact.successCount + fact.errorCount = 1
  tokens : fact.promptTokens = row.usagePromptTokens ∧ fact.completionTokens = row.usageCompletionTokens ∧
    fact.totalTokens = row.usageTotalTokens ∧ fact.reasoningTokens = row.usageReasoningTokens ∧
    fact.cachedTokens = row.usageCachedTokens
  bytes : fact.requestBodyBytes = row.requestBodySize ∧ fact.responseBodyBytes = row.responseBodySize
  model : fact.model = row.modelRequested
  user : fact.username = row.usernameSnapshot ∧ fact.tokenFingerprint = row.tokenFingerprint
  route : fact.routePattern = row.routePattern ∧ fact.protocolFamily = row.protocolFamily
  startedAt : fact.requestStartedAt = row.requestStartedAt

theorem usageFactOf_agrees (traceId : Str) (row : CapturedTrace) (now : Int) :
    (usageFactOf (loadTraceJob traceId row) now).Agrees row := by
  refine ⟨rfl, ?_, ⟨rfl, rfl, rfl, rfl, rfl⟩, ⟨rfl, rfl⟩, rfl, ⟨rfl, rfl⟩, ⟨rfl, rfl⟩, rfl⟩
  simp only [usageFactOf, UsageAggregateDelta.fact, aggregateDelta]
  split <;> rfl

/-! ## Stage processors in the workers -/

/-- What an execution of a stage processor is given: the time its transaction started, the
catalog, the judge, the files, and which of its operations fail. -/
structure StageInput where
  now : Int
  contexts : List ContextCatalogEntry
  contexts_stored : ∀ x ∈ contexts, x.Stored
  llmJudge : Option Judge
  store : EvidenceStore
  surroundings : Surroundings

section System

variable (rt : Runtime) (pg : Postgres) (traces : CapturedTraces) (d : Decoding)

/-- The tables after a stage processor has returned; none if it raises. -/
def stageTables (x : StageWrite) (input : StageInput) (T : Tables) : Option Tables :=
  match x.processor with
  | .core =>
    match coreProcess rt pg input.now input.contexts input.llmJudge input.store traces.jobs T
        (Str.ofString x.key.traceId) with
    | .ok (T', _) => some T'
    | .error _ => none
  | .enrichment =>
    match (enrichmentProcess rt pg input.surroundings input.now input.contexts input.llmJudge traces.jobs
        (Str.ofString x.key.traceId)).outcome { store := input.store, tables := T, rawEvidence := [] } with
    | (.ok _, s) => some s.tables
    | (.error _, _) => none

/-- The stage writes that a step has committed. -/
def committedWrite (c c' : WorkerConfig) : Step → Option StageWrite
  | .exec e _ =>
    if c'.world.durable.writes e = c.world.durable.writes e then none else c'.world.durable.writes e
  | _ => none

def analysisSystem : TransitionSystem (WorkerConfig × Tables) (Step × StageInput) where
  init s := (workers d).init s.1 ∧ s.2.usageFacts = .empty
  step s a :=
    ((workers d).step s.1 a.1).bind fun c' =>
      match committedWrite s.1 c' a.1 with
      | none => some (c', s.2)
      | some x => (stageTables rt pg traces x a.2 s.2).map fun T => (c', T)

end System

/-! ## What a stage does to the usage facts -/

section Facts

variable {rt : Runtime} {pg : Postgres} {traces : CapturedTraces} {d : Decoding} {input : StageInput}
  {T T' : Tables} {t : TraceId}

theorem jobs_eq_some {traceId : Str} {job : TraceCapturedJob} (h : traces.jobs traceId = some job) :
    ∃ row, traces.find traceId = some row ∧ job = loadTraceJob traceId row := by
  obtain ⟨row, hrow, rfl⟩ := Option.map_eq_some_iff.1 h
  exact ⟨row, hrow, rfl⟩

theorem stageTables_core {key : TaskKey} (h : stageTables rt pg traces ⟨key, .core⟩ input T = some T')
    (ht : key.traceId ≠ "") : ∃ row, traces.find (Str.ofString key.traceId) = some row ∧
      ∀ traceId, T'.usageFacts.find traceId =
        if traceId = Str.ofString key.traceId then
          some (usageFactOf (loadTraceJob (Str.ofString key.traceId) row) input.now)
        else T.usageFacts.find traceId := by
  have hne : Str.ofString key.traceId ≠ [] := fun hnil => ht (Str.ofString_injective hnil)
  unfold stageTables at h
  dsimp only at h
  split at h
  · rename_i T₁ result hok
    obtain rfl := Option.some.inj h
    cases hrow : traces.jobs (Str.ofString key.traceId) with
    | none =>
      rw [coreProcess, hrow] at hok
      cases hok
    | some job =>
      obtain ⟨row, hfind, rfl⟩ := jobs_eq_some hrow
      obtain ⟨messages, hm, rfl⟩ := coreProcess_saved hrow hne (traces.stored hfind) input.contexts_stored hok
      exact ⟨row, hfind, usageFacts_saved input.now T hm hne⟩
  · cases h

theorem usageFacts_enriched (now : Int) (job : TraceCapturedJob) (judged : Option WorkRelevanceAssessment) :
    (enrichedTables rt now T job judged).usageFacts = T.usageFacts := by
  cases judged with
  | none => rfl
  | some x => rw [enrichedTables, saved_judged]

theorem stageTables_enrichment {key : TaskKey} (h : stageTables rt pg traces ⟨key, .enrichment⟩ input T = some T') :
    T'.usageFacts = T.usageFacts := by
  unfold stageTables at h
  dsimp only at h
  split at h
  · rename_i result s hok
    obtain rfl := Option.some.inj h
    have hstored : ∀ job, traces.jobs (Str.ofString key.traceId) = some job → job.Stored := by
      intro job hrow
      obtain ⟨row, hfind, rfl⟩ := jobs_eq_some hrow
      exact traces.stored hfind
    obtain ⟨job, -, htables⟩ := enrichmentProcess_gives hstored T _ rfl result s hok
    rw [htables, usageFacts_enriched]
  · cases h

end Facts

/-! ## Over every run -/

section Runs

variable {rt : Runtime} {pg : Postgres} {traces : CapturedTraces} {d : Decoding} {T T' : Tables}
  {c c' : PhaseConfig} {s : WorkerConfig × Tables}

/-- A trace has a usage fact, its own, if its core task has succeeded, and none otherwise. -/
def Counted (traces : CapturedTraces) (s : Durable) (T : Tables) : Prop :=
  ∀ t : TraceId,
    (s.HasStatus ⟨t, .core⟩ .succeeded → ∃ row now, traces.find (Str.ofString t) = some row ∧
      T.usageFacts.find (Str.ofString t) = some (usageFactOf (loadTraceJob (Str.ofString t) row) now)) ∧
    (¬ s.HasStatus ⟨t, .core⟩ .succeeded → T.usageFacts.find (Str.ofString t) = none)

theorem Counted.of_eq {s s' : Durable} (h : Counted traces s T)
    (hst : ∀ t, s'.HasStatus ⟨t, .core⟩ .succeeded ↔ s.HasStatus ⟨t, .core⟩ .succeeded)
    (hT : T'.usageFacts = T.usageFacts) : Counted traces s' T' := by
  intro t
  rw [hst, hT]
  exact h t

theorem Counted.core {s s' : Durable} {input : StageInput} {key : TaskKey} (h : Counted traces s T)
    (hkey : key.stage = .core) (ht : key.traceId ≠ "")
    (hst : ∀ κ, s'.HasStatus κ .succeeded ↔ κ = key ∨ s.HasStatus κ .succeeded)
    (hT : stageTables rt pg traces ⟨key, .core⟩ input T = some T') : Counted traces s' T' := by
  obtain ⟨row, hrow, hfind⟩ := stageTables_core hT ht
  obtain ⟨t₀, stage⟩ := key
  obtain rfl : stage = .core := hkey
  intro t
  rw [hst, hfind]
  by_cases htt : t = t₀
  · subst htt
    simp only [if_true, true_or, forall_true_left, not_true_eq_false, false_imp_iff, and_true]
    exact ⟨row, input.now, hrow, rfl⟩
  · have hne : Str.ofString t ≠ Str.ofString t₀ := fun heq => htt (Str.ofString_injective heq)
    have hκ : (⟨t, .core⟩ : TaskKey) ≠ ⟨t₀, .core⟩ := fun heq => htt (TaskKey.mk.inj heq).1
    simp only [if_neg hne, hκ, false_or]
    exact h t

theorem Counted.step {a : Step} {input : StageInput} (h : Counted traces c.world.durable T)
    (hmove : Move c c' a) (honce : Once c) (hrouted : c.world.durable.Routed)
    (hT : (match committedWrite (phaseHom.mapConfig c) (phaseHom.mapConfig c') a with
      | none => some T
      | some x => stageTables rt pg traces x input T) = some T') : Counted traces c'.world.durable T' := by
  obtain ⟨hw, hst⟩ | ⟨e, ch, job, rfl, hnone, hw, hin, ht, _, hst⟩ := hmove.commits honce hrouted
  · have hwrite : committedWrite (phaseHom.mapConfig c) (phaseHom.mapConfig c') a = none := by
      cases a <;> simp [committedWrite, hw]
    rw [hwrite] at hT
    obtain rfl := Option.some.inj hT
    exact h.of_eq (fun t => hst _) rfl
  · have hwrite : committedWrite (phaseHom.mapConfig c) (phaseHom.mapConfig c') (.exec e ch) =
        some ⟨job.key, job.processor⟩ := by
      simp [committedWrite, hw, hnone]
    rw [hwrite] at hT
    obtain ⟨hstage, hprocessor⟩ | ⟨hstage, hprocessor⟩ := processor_of_stage hin
    · rw [hprocessor] at hT
      exact h.core hstage ht hst hT
    · rw [hprocessor] at hT
      refine h.of_eq (fun t => ?_) (stageTables_enrichment hT)
      rw [hst, or_iff_right]
      intro hkey
      have hcore : job.stage = .core := congrArg TaskKey.stage hkey.symm
      rw [hstage] at hcore
      cases hcore

theorem analysisSystem_step {a : Step × StageInput} {s' : WorkerConfig × Tables}
    (h : (analysisSystem rt pg traces d).step s a = some s') : (workers d).step s.1 a.1 = some s'.1 ∧
      (match committedWrite s.1 s'.1 a.1 with
      | none => some s.2
      | some x => stageTables rt pg traces x a.2 s.2) = some s'.2 := by
  obtain ⟨c', hc', hT⟩ := Option.bind_eq_some_iff.1 h
  cases hw : committedWrite s.1 c' a.1 with
  | none =>
    rw [hw] at hT
    obtain rfl := Option.some.inj hT
    exact ⟨hc', by rw [hw]⟩
  | some x =>
    rw [hw] at hT
    obtain ⟨T, hsaved, rfl⟩ := Option.map_eq_some_iff.1 hT
    refine ⟨hc', ?_⟩
    rw [hw]
    exact hsaved

theorem counted_reachable (hs : (analysisSystem rt pg traces d).ReachableBy (fun _ a => GatewayPublishes a.1) s) :
    ∃ p, (phases d).ReachableBy (fun _ a => GatewayPublishes a) p ∧ s.1 = phaseHom.mapConfig p ∧
      Counted traces p.world.durable s.2 := by
  refine hs.induct (P := fun s => ∃ p, (phases d).ReachableBy (fun _ a => GatewayPublishes a) p ∧
    s.1 = phaseHom.mapConfig p ∧ Counted traces p.world.durable s.2) ?_ ?_
  · rintro ⟨c, T⟩ ⟨hi, hT⟩
    have hstart : (workers d).ReachableBy (fun _ a => GatewayPublishes a) c := .init hi
    obtain ⟨p, hp, rfl⟩ := phaseHom.reachable hstart
    refine ⟨p, hp, rfl, fun t => ⟨?_, fun _ => ?_⟩⟩
    · rintro ⟨row, hrow, _⟩
      have hnone : p.world.durable.tasks = fun _ => none := hi.1.tasks
      rw [hnone] at hrow
      cases hrow
    · have hempty : T.usageFacts = .empty := hT
      rw [hempty, Keyed.find_empty]
  · rintro ⟨c, T⟩ ⟨a, input⟩ ⟨c', T'⟩ _ ⟨p, hp, hc, hcounted⟩ ha hstep
    obtain rfl : c = phaseHom.mapConfig p := hc
    obtain ⟨hstep, hT⟩ := analysisSystem_step hstep
    have hmap : (p.step (machine d) phaseCode a).map phaseHom.mapConfig = some c' :=
      (phaseHom.step_mapConfig p a).symm.trans hstep
    obtain ⟨p', hp', rfl⟩ := Option.map_eq_some_iff.1 hmap
    exact ⟨p', .step hp ha hp', rfl, hcounted.step (move_of_step (inv_reachable hp) hp') (once_reachable hp)
      (routed_reachable hp) hT⟩

/-- In every state reached, under any interleaving of executions with retries, duplicates, failures
and crashes: there is a usage fact of a trace if and only if its core task has succeeded; it is the
only one, counts one request, and has the values of the trace. -/
theorem one_usage_fact_per_trace
    (hs : (analysisSystem rt pg traces d).ReachableBy (fun _ a => GatewayPublishes a.1) s) (t : TraceId) :
    ((∃ fact, (Str.ofString t, fact) ∈ s.2.usageFacts.rows) ↔
      s.1.world.durable.HasStatus ⟨t, .core⟩ .succeeded) ∧
    ∀ fact, (Str.ofString t, fact) ∈ s.2.usageFacts.rows →
      s.2.usageFacts.rows.filter (fun row => row.1 = Str.ofString t) = [(Str.ofString t, fact)] ∧
      ∃ row, traces.find (Str.ofString t) = some row ∧ fact.Agrees row := by
  obtain ⟨p, _, hp, hcounted⟩ := counted_reachable hs
  obtain ⟨hyes, hno⟩ := hcounted t
  rw [hp, phaseHom.mapConfig_world]
  simp only [Keyed.mem_iff_find]
  refine ⟨⟨?_, ?_⟩, ?_⟩
  · rintro ⟨fact, hfact⟩
    by_contra hst
    rw [hno hst] at hfact
    cases hfact
  · intro hst
    obtain ⟨row, now, _, hfact⟩ := hyes hst
    exact ⟨_, hfact⟩
  · intro fact hfact
    refine ⟨Keyed.filter_key_of_find hfact, ?_⟩
    by_cases hst : p.world.durable.HasStatus ⟨t, .core⟩ .succeeded
    · obtain ⟨row, now, hrow, hfact'⟩ := hyes hst
      obtain rfl := Option.some.inj (hfact.symm.trans hfact')
      exact ⟨row, hrow, usageFactOf_agrees _ row now⟩
    · rw [hno hst] at hfact
      cases hfact

end Runs

/-! ## A run -/

/-- The trace of `promptJob`. -/
def promptTrace : CapturedTrace where
  routePattern := promptJob.routePattern
  protocolFamily := promptJob.protocolFamily
  captureMode := promptJob.captureMode
  usernameSnapshot := promptJob.username
  requestRawRef := promptJob.requestRawRef
  responseRawRef := []
  modelRequested := []
  usagePromptTokens := 0
  usageCompletionTokens := 0
  usageTotalTokens := 0
  usageReasoningTokens := 0
  usageCachedTokens := 0
  tokenFingerprint := []
  fingerprintDisplay := []
  newApiTokenIdSnapshot := 0
  tokenNameSnapshot := []
  statusCode := 200
  stream := false
  requestStartedAt := 0
  requestBodySize := 0
  responseBodySize := 0

def promptTraces : CapturedTraces where
  find traceId := if traceId = promptJob.traceId then some promptTrace else none
  stored h := by
    split at h
    · rename_i htrace
      obtain rfl := Option.some.inj h
      subst htrace
      exact promptJob_stored
    · cases h

def promptSteps : List Step :=
  [.env (.captureTrace "trace_1"), .env (.publish streamCore (publishTraceCaptured "trace_1" "" "\x7b\x7d") ⟨1, 0⟩),
   .start 0 { entry := ⟨streamCore, ⟨1, 0⟩, publishTraceCaptured "trace_1" "" "\x7b\x7d"⟩, workerId := "w" }] ++
  List.replicate 11 (.exec 0 {})

def promptInput : StageInput := ⟨0, [], fun _ hx => (nomatch hx), none, promptStore, calm⟩

theorem one_usage_fact_per_trace_prompt : ∃ s : WorkerConfig × Tables,
    (analysisSystem promptRuntime ⟨fun _ => true⟩ promptTraces .bare).ReachableBy
      (fun _ a => GatewayPublishes a.1) s ∧
    s.1.world.durable.HasStatus ⟨"trace_1", .core⟩ .succeeded ∧
    ∃ fact, s.2.usageFacts.rows.filter (fun row => row.1 = Str.ofString "trace_1") = [(Str.ofString "trace_1", fact)] ∧
      fact.Agrees promptTrace := by
  have hrun : ((analysisSystem promptRuntime ⟨fun _ => true⟩ promptTraces .bare).runBy
      (fun _ a => GatewayPublishes a.1) (.empty, .empty) (promptSteps.map (·, promptInput))).any
        (fun s => decide (s.1.world.durable.HasStatus ⟨"trace_1", .core⟩ .succeeded)) = true := by
    decide +kernel
  obtain ⟨s, hs, hst⟩ := (Option.any_eq_true _ _).1 hrun
  have hinit : (analysisSystem promptRuntime ⟨fun _ => true⟩ promptTraces .bare).init (.empty, .empty) :=
    ⟨WorkerConfig.init_empty .bare, rfl⟩
  have hreach := (TransitionSystem.ReachableBy.init hinit).leads (TransitionSystem.leads_runBy hs)
  have hst := of_decide_eq_true hst
  obtain ⟨hiff, hfacts⟩ := one_usage_fact_per_trace hreach "trace_1"
  obtain ⟨fact, hfact⟩ := hiff.2 hst
  obtain ⟨hone, row, hrow, hagrees⟩ := hfacts fact hfact
  have hfind : promptTraces.find (Str.ofString "trace_1") = some promptTrace := rfl
  obtain rfl := Option.some.inj (hfind.symm.trans hrow)
  exact ⟨s, hreach, hst, fact, hone, hagrees⟩

end AuditGateway.Pipeline
