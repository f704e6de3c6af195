import AuditGateway.Pipeline.WorkRelevance

/-!
# The texts of an assessment

An assessment is stored with everything it is based on: the entries of the catalog that
matched, the keywords, and a piece of the intent.

* `heuristicAssessment_storable`: without a judge, all of it can be stored if the texts
  of the messages and of the catalog can.
-/

namespace AuditGateway.Pipeline

open AuditGateway.Python

def Evidence.texts (x : Evidence) : List Str :=
  [x.kind.value, x.category, x.source.value, x.snippet, x.reason] ++ x.taskDomain.toList

def MatchPayload.texts (x : MatchPayload) : List Str :=
  [x.contextType, x.name, x.source.value, x.strength.value] ++ x.matchedTerms

/-- The texts under `result` of an assessment's analysis result. -/
def WorkRelevanceAssessment.texts (x : WorkRelevanceAssessment) : List Str :=
  [x.taskCategory, x.decision.value, x.recommendedAction.value, (x.llmJudgeReason.map LlmReason.value).getD []] ++
    x.matchedContext.flatMap MatchPayload.texts ++ x.evidence.flatMap Evidence.texts

/-- An entry of the catalog as the database has it. -/
structure ContextCatalogEntry.Stored (x : ContextCatalogEntry) : Prop where
  contextType : Storable x.contextType
  name : Storable x.name
  keywords : ∀ s ∈ x.keywords, Storable s
  aliases : ∀ s ∈ x.aliases, Storable s

section Storable

variable {rt : Runtime} {text : Str}

theorem Decision.value_storable (x : Decision) : Storable x.value := by
  cases x <;> decide

theorem Action.value_storable (x : Action) : Storable x.value := by
  cases x <;> decide

theorem EvidenceKind.value_storable (x : EvidenceKind) : Storable x.value := by
  cases x <;> decide

theorem EvidenceSource.value_storable (x : EvidenceSource) : Storable x.value := by
  cases x <;> decide

theorem Strength.value_storable (x : Strength) : Storable x.value := by
  cases x <;> decide

theorem LlmReason.value_storable (x : LlmReason) : Storable x.value := by
  cases x <;> decide

theorem Evidence.texts_storable {x : Evidence} (hc : Storable x.category) (hs : Storable x.snippet)
    (hr : Storable x.reason) (hd : x.taskDomain = none) : ∀ s ∈ x.texts, Storable s := by
  simp only [texts, hd, Option.toList_none, List.append_nil, List.forall_mem_cons, List.not_mem_nil,
    false_imp_iff, implies_true, and_true]
  exact ⟨x.kind.value_storable, hc, x.source.value_storable, hs, hr⟩

theorem normalizedTerms_storable {values : List Str} (h : ∀ s ∈ values, Storable s) :
    ∀ s ∈ normalizedTerms rt values, Storable s := by
  intro s hs
  obtain ⟨hs, _⟩ := List.mem_filter.1 (List.mem_eraseDups.1 hs)
  obtain ⟨value, hvalue, rfl⟩ := List.mem_map.1 hs
  exact rt.lower_storable _ ((h value hvalue).of_subset (Str.strip_subset value))

theorem catalogMatch_eq_some {strength : Strength} {values : ContextCatalogEntry → List Str}
    {context : ContextCatalogEntry} {x : CatalogMatch}
    (h : catalogMatch rt text strength values context = some x) :
    x.context = context ∧ x.matchedTerms ⊆ normalizedTerms rt (values context) := by
  simp only [catalogMatch] at h
  split at h
  · obtain rfl := Option.some.inj h
    exact ⟨rfl, List.filter_subset_self _⟩
  · cases h

theorem matchPayload_storable {x : CatalogMatch} (hc : x.context.Stored)
    (ht : ∀ s ∈ x.matchedTerms, Storable s) : ∀ s ∈ (matchPayload rt x).texts, Storable s := by
  simp only [MatchPayload.texts, List.forall_mem_append, List.forall_mem_cons, List.not_mem_nil,
    false_imp_iff, implies_true, and_true]
  exact ⟨⟨hc.contextType, hc.name, EvidenceSource.value_storable _, Strength.value_storable _⟩, ht⟩

theorem comma_storable : Storable (Str.ofString ", ") := by
  decide

theorem contextEvidence_storable {x : MatchPayload} (h : ∀ s ∈ x.texts, Storable s) :
    ∀ s ∈ (contextEvidence x).texts, Storable s := by
  have hname : Storable x.name := h _ (by simp [MatchPayload.texts])
  have hterms : ∀ s ∈ x.matchedTerms, Storable s := fun s hs => h s (by simp [MatchPayload.texts, hs])
  refine Evidence.texts_storable ?_ (Str.storable_join comma_storable hterms) ?_ rfl
  · show Storable (Str.ofString "context_catalog")
    decide
  · simp only [contextEvidence, storable_append, hname]
    decide

/-- The categories and terms of a table can be stored. -/
def Keywords.Stored (keywords : Keywords) : Prop :=
  ∀ row ∈ keywords, Storable (Str.ofString row.1) ∧ ∀ term ∈ row.2, Storable (Str.ofString term)

instance (keywords : Keywords) : Decidable keywords.Stored :=
  inferInstanceAs (Decidable (∀ _ ∈ _, _))

theorem keywordEvidence_storable {keywords : Keywords} {kind : EvidenceKind} {weight : ℚ}
    (h : keywords.Stored) : ∀ x ∈ keywordEvidence text keywords kind weight, ∀ s ∈ x.texts, Storable s := by
  intro x hx
  obtain ⟨⟨category, terms⟩, hrow, hx⟩ := List.mem_filterMap.1 hx
  obtain ⟨hcategory, hterms⟩ := h _ hrow
  simp only [categoryEvidence] at hx
  split at hx
  · cases hx
  · obtain rfl := Option.some.inj hx
    have hmatched : ∀ s ∈ (terms.map Str.ofString).filter text.contains, Storable s := by
      intro s hs
      obtain ⟨term, hterm, rfl⟩ := List.mem_map.1 (List.mem_of_mem_filter hs)
      exact hterms term hterm
    refine Evidence.texts_storable hcategory ?_ ?_ rfl
    · exact Str.storable_join comma_storable fun s hs => hmatched s (List.mem_of_mem_take hs)
    · simp only [storable_append, hcategory, Str.storable_join comma_storable hmatched, and_true]
      decide

variable {contexts : List ContextCatalogEntry}

theorem signals_matchedContext_storable (rt : Runtime) (messages : List NormalizedMessage)
    (h : ∀ x ∈ contexts, x.Stored) :
    ∀ x ∈ (signals rt messages contexts).strongMatches ++ (signals rt messages contexts).weakMatches,
      ∀ s ∈ (matchPayload rt x).texts, Storable s := by
  intro x hx
  have hvalues (values : ContextCatalogEntry → List Str) (strength : Strength)
      (hv : ∀ c ∈ contexts, ∀ s ∈ values c, Storable s)
      (hx : x ∈ contexts.filterMap (catalogMatch rt (signals rt messages contexts).intent.text strength values)) :
      ∀ s ∈ (matchPayload rt x).texts, Storable s := by
    obtain ⟨context, hcontext, hmatch⟩ := List.mem_filterMap.1 hx
    obtain ⟨rfl, hterms⟩ := catalogMatch_eq_some hmatch
    exact matchPayload_storable (h _ hcontext) fun s hs =>
      normalizedTerms_storable (hv _ hcontext) s (hterms hs)
  obtain hx | hx := List.mem_append.1 hx
  · refine hvalues _ .strong (fun c hc s hs => ?_) hx
    obtain hs | hs := List.mem_append.1 hs
    · exact (h c hc).aliases s hs
    · exact List.mem_singleton.1 hs ▸ (h c hc).name
  · exact hvalues _ .weak (fun c hc s hs => (h c hc).keywords s hs) hx

variable {messages : List NormalizedMessage}

theorem signals_evidence_storable
    (h : ∀ x ∈ contexts, x.Stored) :
    ∀ x ∈ (signals rt messages contexts).evidence rt, ∀ s ∈ x.texts, Storable s := by
  rw [Signals.evidence, List.forall_mem_append, List.forall_mem_append, List.forall_mem_append]
  refine ⟨⟨⟨fun x hx => ?_, ?_⟩, ?_⟩, ?_⟩
  · obtain ⟨_, hpayload, rfl⟩ := List.mem_map.1 hx
    obtain ⟨m, hm, rfl⟩ := List.mem_map.1 hpayload
    exact contextEvidence_storable (signals_matchedContext_storable rt _ h m hm)
  · exact keywordEvidence_storable (by decide)
  · exact keywordEvidence_storable (by decide)
  · exact keywordEvidence_storable (by decide)

theorem bestEvidence_mem {evidence : List Evidence} {x : Evidence} (h : bestEvidence evidence = some x) :
    x ∈ evidence := by
  cases evidence with
  | nil => cases h
  | cons y evidence =>
    obtain rfl := Option.some.inj h
    induction evidence generalizing y with
    | nil => exact List.mem_singleton.2 rfl
    | cons z evidence ih =>
      rw [List.foldl_cons]
      split
      · exact List.mem_cons_of_mem _ (ih z rfl)
      · have hmem := ih y rfl
        grind

theorem bestCategory_storable {evidence : List Evidence} (h : ∀ x ∈ evidence, ∀ s ∈ x.texts, Storable s) :
    Storable (bestCategory evidence) := by
  unfold bestCategory
  split
  · decide
  · rename_i best hbest
    split
    · decide
    · decide
    · decide
    · exact h best (bestEvidence_mem hbest) _ (by simp [Evidence.texts])

theorem WorkRelevanceAssessment.texts_storable {x : WorkRelevanceAssessment} (hc : Storable x.taskCategory)
    (hm : ∀ m ∈ x.matchedContext, ∀ s ∈ m.texts, Storable s)
    (he : ∀ e ∈ x.evidence, ∀ s ∈ e.texts, Storable s) : ∀ s ∈ x.texts, Storable s := by
  simp only [texts, List.forall_mem_append, List.forall_mem_cons, List.mem_flatMap, List.not_mem_nil,
    false_imp_iff, implies_true, and_true]
  refine ⟨⟨⟨hc, x.decision.value_storable, x.recommendedAction.value_storable, ?_⟩, ?_⟩, ?_⟩
  · cases x.llmJudgeReason with
    | none => exact storable_nil
    | some reason => exact reason.value_storable
  · rintro s ⟨m, hm', hs⟩
    exact hm m hm' s hs
  · rintro s ⟨e, he', hs⟩
    exact he e he' s hs

theorem scored_storable
    (hm : ∀ m ∈ messages, Storable m.contentText) (h : ∀ x ∈ contexts, x.Stored) :
    ∀ x ∈ (signals rt messages contexts).scored rt, ∀ s ∈ x.texts, Storable s := by
  unfold Signals.scored
  split
  · refine List.forall_mem_singleton.2 (Evidence.texts_storable ?_ ?_ ?_ rfl)
    · show Storable (Str.ofString "no_match")
      decide
    · exact (extractUserIntent_storable rt hm).of_subset (List.take_subset _ _)
    · show Storable (Str.ofString "No catalog context or known task category matched.")
      decide
  · exact signals_evidence_storable h

theorem heuristicAssessment_storable (rt : Runtime) (job : TraceCapturedJob)
    (hm : ∀ m ∈ messages, Storable m.contentText)
    (h : ∀ x ∈ contexts, x.Stored) : ∀ s ∈ (heuristicAssessment rt job messages contexts).texts, Storable s := by
  have hcontext := signals_matchedContext_storable rt messages h
  simp only [heuristicAssessment]
  split
  · refine WorkRelevanceAssessment.texts_storable ?_ (fun _ hx => by cases hx)
      (List.forall_mem_singleton.2 (by decide))
    show Storable (Str.ofString "unknown")
    decide
  · split
    · refine WorkRelevanceAssessment.texts_storable (bestCategory_storable (signals_evidence_storable h)) ?_
        (signals_evidence_storable h)
      intro m hm'
      obtain ⟨x, hx, rfl⟩ := List.mem_map.1 hm'
      exact hcontext x (List.mem_append_left _ hx)
    · refine WorkRelevanceAssessment.texts_storable (bestCategory_storable (scored_storable hm h)) ?_
        (scored_storable hm h)
      intro m hm'
      obtain ⟨x, hx, rfl⟩ := List.mem_map.1 hm'
      exact hcontext x hx

end Storable

end AuditGateway.Pipeline
