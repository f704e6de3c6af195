import AuditGateway.Analysis.Local

/-!
# What holds of the durable state

`Change.sound` and `Outside.sound`: the protocol keeps `Sound`, given what the
execution relies on at its control point. `Local.stable`: what an execution relies
on is kept by the others.
-/

namespace AuditGateway.Analysis

variable {e e' : ExecId} {job : Job} {φ : Phase} {s s' : Durable} {w w' : World} {κ : TaskKey}

theorem Delivered.published (hd : Delivered job s) (hne : job.traceId ≠ "") : s.Published job.key := by
  obtain ⟨en, hen, hstream, hm⟩ := hd
  exact ⟨en, hen, hstream, key_of_message hm hne⟩

theorem Delivered.evolves (hd : Delivered job s) (hs : Evolves s s') : Delivered job s' := by
  obtain ⟨en, hen, h⟩ := hd
  exact ⟨en, hs.entries.subset hen, h⟩

/-! ## Where a task can have succeeded -/

theorem hasStatus_update {row : AnalysisTask} {status : TaskStatus} {tasks : TaskKey → Option AnalysisTask}
    {κ' : TaskKey} (h : ∃ r, Function.update tasks κ' (some row) κ = some r ∧ r.status = status) :
    (κ = κ' ∧ row.status = status) ∨ ∃ r, tasks κ = some r ∧ r.status = status := by
  obtain ⟨r, hr, hst⟩ := h
  obtain ⟨rfl, rfl⟩ | ⟨_, hr⟩ := update_eq_some hr
  · exact .inl ⟨rfl, hst⟩
  · exact .inr ⟨r, hr, hst⟩

theorem Change.status_back (h : Change e job φ s s') {status : TaskStatus} (ht : status.terminal = true)
    (h' : s'.HasStatus κ status) :
    s.HasStatus κ status ∨ κ = job.key ∧ ((status = .succeeded ∧ ∃ task result, φ = .commitSucceeded task result) ∨
      (status = .failedTerminal ∧ ∃ task err, φ = .commitTerminal task err)) := by
  cases h with
  | refl | processing | enqueued | publish | ack => exact .inl h'
  | insert queuedAt now hr =>
    obtain ⟨rfl, rfl⟩ | h := hasStatus_update h'
    · cases hrow : s.tasks job.key with
      | none =>
        rw [hrow] at ht
        cases ht
      | some row => exact .inl ⟨row, hrow, rfl⟩
    · exact .inl h
  | claim hrow hclaim =>
    obtain ⟨rfl, rfl⟩ | h := hasStatus_update h'
    · rw [(claimTask_eq_some hclaim).2.1] at ht
      cases ht
    · exact .inl h
  | succeeded task result hrow hr hmark =>
    obtain ⟨rfl, rfl⟩ | h := hasStatus_update h'
    · exact .inr ⟨rfl, .inl ⟨(markSucceeded_spec hmark).2, task, result, rfl⟩⟩
    · exact .inl h
  | terminal task err hrow hr hmark =>
    obtain ⟨rfl, rfl⟩ | h := hasStatus_update h'
    · exact .inr ⟨rfl, .inr ⟨(markFailedTerminal_spec hmark).2, task, err, rfl⟩⟩
    · exact .inl h
  | retryable task err hrow hr hmark =>
    obtain ⟨rfl, rfl⟩ | h := hasStatus_update h'
    · rw [(markFailedRetryable_spec hmark).2] at ht
      cases ht
    · exact .inl h

theorem not_succeeded_of_leased {row : AnalysisTask} {worker : String} {now : Time}
    (hrow : s.tasks κ = some row) (hl : row.leasedBy worker now = true) : ¬ s.HasStatus κ .succeeded := by
  rintro ⟨row', hrow', hst⟩
  obtain rfl := Option.some.inj (hrow.symm.trans hrow')
  rw [(AnalysisTask.leasedBy_iff.1 hl).1] at hst
  cases hst

/-! ## What an operation makes of the row of a trace -/

theorem key_core (h : job.stage = .core) : job.key = ⟨job.traceId, .core⟩ := by
  rw [← h]
  rfl

theorem key_enrichment (h : job.stage = .enrichment) : job.key = ⟨job.traceId, .enrichment⟩ := by
  rw [← h]
  rfl

theorem published_of_enqueued (hφ : φ = .recoverCommit ∨ ∃ task result, φ = .commitEnqueued task result)
    (hl : φ.Local e job w) : w.durable.Published ⟨job.traceId, .enrichment⟩ := by
  obtain rfl | ⟨task, result, rfl⟩ := hφ
  · exact hl.1.2.2.2
  · exact hl.2.1.2.2.2

theorem Change.required_back (h : Change e job φ w.durable s') (hs : Sound w.durable)
    (hd : Delivered job w.durable) (hne : φ.live = true → job.traceId ≠ "") (hl : φ.Local e job w)
    {t : TraceId} {r' : TraceRow} (hr' : s'.traces t = some r') (hreq : r'.enrichmentRequired = true) :
    (∃ r, w.durable.traces t = some r ∧ r.enrichmentRequired = true ∧
        r'.needsEnrichmentEnqueue = r.needsEnrichmentEnqueue) ∨
      s'.Published ⟨t, .enrichment⟩ ∨
      (job.key = ⟨t, .core⟩ ∧ s'.HasStatus ⟨t, .core⟩ .succeeded ∧ r'.needsEnrichmentEnqueue = true ∧
        ¬ w.durable.HasStatus ⟨t, .core⟩ .succeeded) := by
  have hev := h.evolves
  have hpubl : φ.live = true → job.stage = .enrichment → s'.Published ⟨job.traceId, .enrichment⟩ :=
    fun hlive hst => key_enrichment hst ▸ (hd.published (hne hlive)).evolves hev
  cases h with
  | refl | insert | claim | publish | ack => exact .inl ⟨r', hr', hreq, rfl⟩
  | processing task now hr =>
    obtain ⟨rfl, rfl⟩ | ⟨_, hr'⟩ := update_eq_some hr'
    · cases hst : job.stage with
      | core =>
        rw [hst] at hreq
        exact .inl ⟨_, hr, hreq, rfl⟩
      | enrichment => exact .inr (.inl (hpubl rfl hst))
    · exact .inl ⟨r', hr', hreq, rfl⟩
  | enqueued queuedAt now hφ hr =>
    obtain ⟨rfl, rfl⟩ | ⟨_, hr'⟩ := update_eq_some hr'
    · exact .inr (.inl ((published_of_enqueued hφ hl).evolves hev))
    · exact .inl ⟨r', hr', hreq, rfl⟩
  | succeeded task result hrow hr hmark =>
    obtain ⟨rfl, rfl⟩ | ⟨_, hr'⟩ := update_eq_some hr'
    · obtain ⟨hleased, hst'⟩ := markSucceeded_spec hmark
      have hnot := not_succeeded_of_leased hrow hleased
      cases hst : job.stage with
      | enrichment => exact .inr (.inl (hpubl rfl hst))
      | core =>
        obtain hproc | hproc := job.processor_cases
        · refine .inr (.inr ⟨key_core hst, ?_, ?_, key_core hst ▸ hnot⟩)
          · rw [← key_core hst]
            exact ⟨_, Function.update_self .., hst'⟩
          · simp only [stageTrace, hproc, updateTraceStageState] at hreq
            simp [stageTrace, hproc, updateTraceStageState, TraceRow.needsEnrichmentEnqueue, hreq]
        · simp only [stageTrace, hproc, markTraceEnrichmentCompleted] at hreq
          obtain hpub | hsucc := hs.required hr hreq
          · exact .inr (.inl (hpub.evolves hev))
          · exact absurd (key_core hst ▸ hsucc) hnot
    · exact .inl ⟨r', hr', hreq, rfl⟩
  | terminal task err hrow hr hmark | retryable task err hrow hr hmark =>
    obtain ⟨rfl, rfl⟩ | ⟨_, hr'⟩ := update_eq_some hr'
    · cases hst : job.stage with
      | core =>
        rw [hst] at hreq
        exact .inl ⟨_, hr, hreq, rfl⟩
      | enrichment => exact .inr (.inl (hpubl rfl hst))
    · exact .inl ⟨r', hr', hreq, rfl⟩

/-! ## The protocol keeps it -/

theorem Change.rows (h : Change e job φ s s') (hs : Sound s) {row' : AnalysisTask}
    (hrow' : s'.tasks κ = some row') : row'.WellFormed ∧ ∃ r, s.traces κ.traceId = some r := by
  cases h with
  | refl | processing | enqueued | publish | ack => exact ⟨hs.rows hrow', hs.inserted hrow'⟩
  | insert queuedAt now hr =>
    obtain ⟨rfl, rfl⟩ | ⟨_, hrow'⟩ := update_eq_some hrow'
    · exact ⟨insertTask_wellFormed _ _ _ _ fun row hrow => hs.rows hrow, _, hr⟩
    · exact ⟨hs.rows hrow', hs.inserted hrow'⟩
  | claim hrow hclaim =>
    obtain ⟨rfl, rfl⟩ | ⟨_, hrow'⟩ := update_eq_some hrow'
    · exact ⟨claimTask_wellFormed hclaim, hs.inserted hrow⟩
    · exact ⟨hs.rows hrow', hs.inserted hrow'⟩
  | succeeded task x hrow hr hmark | terminal task x hrow hr hmark | retryable task x hrow hr hmark =>
    obtain ⟨rfl, rfl⟩ | ⟨_, hrow'⟩ := update_eq_some hrow'
    · exact ⟨leasedUpdate_wellFormed hmark (fun _ => rfl) (fun _ => rfl) (fun _ => nofun) (hs.rows hrow),
        _, hr⟩
    · exact ⟨hs.rows hrow', hs.inserted hrow'⟩

theorem Change.sound (h : Change e job φ w.durable s') (hs : Sound w.durable)
    (hd : Delivered job w.durable) (hne : φ.live = true → job.traceId ≠ "") (hl : φ.Local e job w) :
    Sound s' where
  rows hrow' := (h.rows hs hrow').1
  inserted hrow' := by
    obtain ⟨r, hr⟩ := (h.rows hs hrow').2
    exact h.evolves.trace hr
  required hr' hreq := by
    obtain ⟨r, hr, hreq, _⟩ | hpub | ⟨_, hst, _⟩ := h.required_back hs hd hne hl hr' hreq
    · exact (hs.required hr hreq).imp (·.evolves h.evolves) (·.evolves rfl h.evolves)
    · exact .inl hpub
    · exact .inr hst
  unqueued hr' hst hreq hpub := by
    obtain ⟨r, hr, hreq', hneeds⟩ | hpub' | ⟨_, _, hneeds, _⟩ := h.required_back hs hd hne hl hr' hreq
    · rw [hneeds]
      have hpub' : ¬ w.durable.Published _ := fun hp => hpub (hp.evolves h.evolves)
      obtain hp | hst' := hs.required hr hreq'
      · exact absurd hp hpub'
      · exact hs.unqueued hr hst' hreq' hpub'
    · exact absurd hpub' hpub
    · exact hneeds

theorem Outside.sound {act : EnvAction} (h : Outside act s s') (hs : Sound s) : Sound s' := by
  have hev := h.evolves
  have hback : ∀ {t r'}, s'.traces t = some r' → r'.enrichmentRequired = true →
      ∃ r, s.traces t = some r ∧ r.enrichmentRequired = true ∧
        r'.needsEnrichmentEnqueue = r.needsEnrichmentEnqueue := by
    intro t r' hr' hreq
    obtain ⟨r, _, _, hr, rfl⟩ | ⟨_, _, rfl⟩ := h.trace_back hr'
    · exact ⟨r, hr, hreq, rfl⟩
    · cases hreq
  have htasks : s'.tasks = s.tasks := by cases h <;> rfl
  refine ⟨?_, ?_, ?_, ?_⟩
  · intro κ row hrow
    exact hs.rows (htasks ▸ hrow)
  · intro κ row hrow
    obtain ⟨r, hr⟩ := hs.inserted (htasks ▸ hrow)
    exact hev.trace hr
  · intro t r hr hreq
    obtain ⟨r, hr, hreq, _⟩ := hback hr hreq
    exact (hs.required hr hreq).imp (·.evolves hev) (·.evolves rfl hev)
  · intro t r' hr' hst hreq hpub
    obtain ⟨r, hr, hreq, hneeds⟩ := hback hr' hreq
    rw [hneeds]
    refine hs.unqueued hr ?_ hreq fun hp => hpub (hp.evolves hev)
    rw [Durable.HasStatus, htasks] at hst
    exact hst

/-! ## What an execution relies on is stable -/

theorem Change.settled (h : Change e job φ w.durable s') (hs : Sound w.durable)
    (hd : Delivered job w.durable) (hne : φ.live = true → job.traceId ≠ "") (hl : φ.Local e job w)
    {t : TraceId} (hst : w.durable.HasStatus ⟨t, .core⟩ .succeeded) (hset : w.durable.Settled t) :
    s'.Settled t := by
  intro r' hr' hreq
  obtain ⟨r, hr, hreq', _⟩ | hpub | ⟨_, _, _, hnot⟩ := h.required_back hs hd hne hl hr' hreq
  · exact (hset r hr hreq').evolves h.evolves
  · exact hpub
  · exact absurd hst hnot

theorem Outside.settled {act : EnvAction} (h : Outside act s s') {t : TraceId} (hset : s.Settled t) : s'.Settled t := by
  intro r' hr' hreq
  obtain ⟨r, _, _, hr, rfl⟩ | ⟨_, _, rfl⟩ := h.trace_back hr'
  · exact (hset r hr hreq).evolves h.evolves
  · cases hreq

theorem Phase.Local.stable (h : φ.Local e job w) (hr : World.Respects e' w w') (he : e ≠ e')
    (hev : Evolves w.durable w'.durable)
    (hset : ∀ t, w.durable.HasStatus ⟨t, .core⟩ .succeeded → w.durable.Settled t → w'.durable.Settled t) :
    φ.Local e job w' := by
  have hsettled : w.durable.HasStatus job.key .succeeded →
      (job.stage = .core → w.durable.Settled job.traceId) → job.stage = .core →
      w'.durable.Settled job.traceId := by
    intro hst h hcore
    exact hset _ (key_core hcore ▸ hst) (h hcore)
  cases φ with
  | ackInvalid => exact ⟨h.1.respects hr he, h.2⟩
  | sleep | insert | done => exact World.Holds.respects h hr he
  | claim | get => exact ⟨h.1.respects hr he, h.2.evolves hev⟩
  | selectTrace | recoverPublish =>
    exact ⟨h.1.respects hr he, h.2.1.evolves hev, h.2.2.1.evolves rfl hev, h.2.2.2⟩
  | recoverMark | recoverAck => exact ⟨h.1.respects hr he, h.2.evolves hev⟩
  | recoverCommit =>
    obtain ⟨hen, id, u, hf⟩ := h
    exact ⟨hen.evolves hev, id, u, hf.respects hr he⟩
  | ackDuplicate =>
    obtain ⟨hc, hft | ⟨hst, hset'⟩⟩ := h
    · exact ⟨hc.respects hr he, .inl (hft.evolves rfl hev)⟩
    · exact ⟨hc.respects hr he, .inr ⟨hst.evolves rfl hev, hsettled hst hset'⟩⟩
  | markProcessing | analyse | save => exact ⟨h.1.respects hr he, h.2.evolves hev⟩
  | commitProcessing | markSucceeded | commitSucceeded =>
    obtain ⟨hc, u, hf⟩ := h
    exact ⟨hc.evolves hev, u, hf.respects hr he⟩
  | selectMedia | updateState | complete =>
    obtain ⟨hc, hp, u, hf⟩ := h
    exact ⟨hc.evolves hev, hp, u, hf.respects hr he⟩
  | publishEnrichment =>
    exact ⟨h.1.respects hr he, h.2.1.evolves hev, h.2.2.1.evolves rfl hev, h.2.2.2⟩
  | markEnqueued => exact ⟨h.1.respects hr he, h.2.1.evolves hev, h.2.2.evolves hev⟩
  | commitEnqueued =>
    obtain ⟨hc, hen, id, u, hf⟩ := h
    exact ⟨hc.evolves hev, hen.evolves hev, id, u, hf.respects hr he⟩
  | ackProcessed =>
    exact ⟨h.1.respects hr he, h.2.1.evolves rfl hev, hsettled h.2.1 h.2.2⟩
  | rollbackRaise => trivial
  | rollbackFailure => exact Durable.Claimed.evolves h hev
  | dlqTime | publishDlq | markRetryable | retryTime | publishRetry =>
    exact ⟨h.1.respects hr he, h.2.1.evolves hev, h.2.2⟩
  | markTerminal =>
    exact ⟨h.1.respects hr he, h.2.1.evolves hev, h.2.2.1, h.2.2.2.evolves hev⟩
  | failTerminal | commitTerminal =>
    obtain ⟨hc, hmax, hdlq, u, hf⟩ := h
    exact ⟨hc.evolves hev, hmax, hdlq.evolves hev, u, hf.respects hr he⟩
  | ackTerminal => exact ⟨h.1.respects hr he, h.2.1.evolves rfl hev, h.2.2.evolves hev⟩
  | failRetryable | commitRetryable =>
    obtain ⟨hc, hlt, u, hf⟩ := h
    exact ⟨hc.evolves hev, hlt, u, hf.respects hr he⟩
  | ackRetry => exact ⟨h.1.respects hr he, h.2.evolves hev⟩

end AuditGateway.Analysis
