import AuditGateway.Analysis.Invariant

/-!
# When the stage statuses of a trace only move forward

The stage columns of `traces` are written without a look at them. A task that has
finished protects them only against executions that need its lease:

`statuses_move_back` has two runs in which a finished status is lost.
`statuses_move_forward` says that there is no other way: if the statements
`markTraceStageProcessing`, `markTraceEnrichmentEnqueued` and `updateTraceStageState`
run only while the task they could set back is not finished (`Orderly`), and every
message is in the stream of its stage, then finished statuses stay.

The lock on the trace's row carries the condition from the statement to its commit
(`Guarded`): a task finishes in a transaction that changes the row of its trace.
-/

namespace AuditGateway.Analysis

open AuditGateway.Framework

/-- The statement does not set back the status of a stage that is finished. -/
def Statement.Timely (s : Durable) : Statement → Prop
  | markTraceStageProcessing t .core => ¬ s.HasStatus ⟨t, .core⟩ .succeeded
  | markTraceStageProcessing t .enrichment => ¬ s.Terminal ⟨t, .enrichment⟩
  | markTraceEnrichmentEnqueued t _ | updateTraceStageState t .. => ¬ s.Terminal ⟨t, .enrichment⟩
  | _ => True

instance (s : Durable) (stmt : Statement) : Decidable (stmt.Timely s) := by
  unfold Statement.Timely
  split <;> infer_instance

/-- The message is in the stream of its stage. -/
def StreamMessage.InItsStream (m : StreamMessage) : Prop :=
  m.envelope.stage = defaultStageForStream m.streamName

instance (m : StreamMessage) : Decidable m.InItsStream := by
  unfold StreamMessage.InItsStream
  infer_instance

/-- The next operation, if it is a statement, is timely. -/
def timelyOp (s : Durable) : Option Op → Prop
  | some (.execute stmt) => stmt.Timely s
  | _ => True

instance (s : Durable) (o : Option Op) : Decidable (timelyOp s o) := by
  unfold timelyOp
  split <;> infer_instance

/-- The step delivers a message of the stream's stage, or runs a timely statement. -/
def Orderly {P : Type} (C : Code Op Op.Res Job P) (c : Config World Op Op.Res ExecId Job P) : Step → Prop
  | .exec e _ => timelyOp c.world.durable (c.nextOp C e)
  | .start _ x =>
    match messageFromEntry x.entry with
    | .ok m => m.InItsStream
    | .error _ => True
  | _ => True

instance {P : Type} (C : Code Op Op.Res Job P) (c : Config World Op Op.Res ExecId Job P) (a : Step) :
    Decidable (Orderly C c a) :=
  match a with
  | .exec e _ => inferInstanceAs (Decidable (timelyOp c.world.durable (c.nextOp C e)))
  | .start _ x =>
    match h : messageFromEntry x.entry with
    | .ok m => decidable_of_iff m.InItsStream (by simp [Orderly, h])
    | .error _ => isTrue (by simp [Orderly, h])
  | .crash _ | .env _ => isTrue trivial

variable {d : Decoding} {c c' : PhaseConfig} {a : Step} {e e' : ExecId} {job job' : Job} {φ φ' : Phase}
  {s s' : Durable} {w : World} {κ : TaskKey}

/-! ## The row lock from the statement to the commit -/

namespace Phase

/-- The control points at which an execution has changed the row of its trace. -/
def holdsTrace : Phase → Bool
  | recoverCommit | commitProcessing _ | markSucceeded .. | commitSucceeded .. | commitEnqueued ..
  | commitTerminal .. | commitRetryable .. => true
  | _ => false

theorem Local.dirty (h : φ.Local e job w) (hφ : φ.holdsTrace = true) :
    ∃ v, w.db.traces.dirty job.traceId = some (e, v) := by
  have hof : ∀ {p u set}, w.Follows e job p u → p.set = some set →
      ∃ v, w.db.traces.dirty job.traceId = some (e, v) := by
    intro p u set hf hp
    have htr := hf.trace
    rw [hp] at htr
    obtain ⟨now, r, _, hu⟩ := htr
    have hh := hf.holds.traces
    rw [hu] at hh
    exact ⟨_, hh.dirty⟩
  cases φ with
  | recoverCommit =>
    obtain ⟨_, _, _, hf⟩ := h
    exact hof hf rfl
  | commitProcessing | markSucceeded | commitSucceeded =>
    obtain ⟨_, _, hf⟩ := h
    exact hof hf rfl
  | commitEnqueued =>
    obtain ⟨_, _, _, _, hf⟩ := h
    exact hof hf rfl
  | commitTerminal =>
    obtain ⟨_, _, _, _, hf⟩ := h
    exact hof hf rfl
  | commitRetryable =>
    obtain ⟨_, _, _, hf⟩ := h
    exact hof hf rfl
  | _ => cases hφ

/-- What the statement that an execution is about to commit found is still so. -/
def Guarded (job : Job) (s : Durable) : Phase → Prop
  | commitProcessing _ => (Statement.markTraceStageProcessing job.traceId job.stage).Timely s
  | recoverCommit | commitEnqueued .. => ¬ s.Terminal ⟨job.traceId, .enrichment⟩
  | markSucceeded .. | commitSucceeded .. => job.processor = .core → ¬ s.Terminal ⟨job.traceId, .enrichment⟩
  | _ => True

end Phase

theorem Change.status_held (h : Change e job φ s s') {status : TaskStatus} (ht : status.terminal = true)
    (h' : s'.HasStatus κ status) : s.HasStatus κ status ∨ κ = job.key ∧ φ.holdsTrace = true := by
  obtain h' | ⟨hkey, ⟨_, _, _, rfl⟩ | ⟨_, _, _, rfl⟩⟩ := h.status_back ht h'
  · exact .inl h'
  · exact .inr ⟨hkey, rfl⟩
  · exact .inr ⟨hkey, rfl⟩

theorem Phase.Guarded.of_change (hg : φ.Guarded job w.durable) (hl : φ.Local e job w)
    (hl' : φ'.Local e' job' w) (he : e ≠ e') (h : Change e' job' φ' w.durable s') : φ.Guarded job s' := by
  have hheld : φ.holdsTrace = true → φ'.holdsTrace = true → job'.traceId ≠ job.traceId := by
    intro hφ hφ' ht
    obtain ⟨v, hv⟩ := hl.dirty hφ
    obtain ⟨v', hv'⟩ := hl'.dirty hφ'
    rw [ht, hv] at hv'
    exact he (Prod.mk.inj (Option.some.inj hv')).1
  have hterm : φ.holdsTrace = true → ∀ {stage}, ¬ w.durable.Terminal ⟨job.traceId, stage⟩ →
      ¬ s'.Terminal ⟨job.traceId, stage⟩ := by
    intro hφ stage hnot hst
    obtain ⟨row, hrow, ht⟩ := hst
    obtain hst | ⟨hkey, hφ'⟩ := h.status_held ht ⟨row, hrow, rfl⟩
    · exact hnot (hst.terminal ht)
    · exact hheld hφ hφ' (congrArg TaskKey.traceId hkey).symm
  cases φ with
  | commitProcessing task =>
    simp only [Guarded, Statement.Timely] at hg ⊢
    cases hstage : job.stage with
    | core =>
      rw [hstage] at hg
      intro hst
      obtain hst | ⟨hkey, hφ'⟩ := h.status_held rfl hst
      · exact hg hst
      · exact hheld rfl hφ' (congrArg TaskKey.traceId hkey).symm
    | enrichment =>
      rw [hstage] at hg
      exact hterm rfl hg
  | recoverCommit | commitEnqueued => exact hterm rfl hg
  | markSucceeded | commitSucceeded => exact fun hp => hterm rfl (hg hp)
  | _ => trivial

theorem Phase.Guarded.step {o : Op} {k : o.Res → Phase} {r : o.Res} (hview : φ.view job = some ⟨o, k⟩)
    (hl : φ.Local e job w) (hchange : Change e job φ w.durable s') (hok : timelyOp w.durable (some o))
    (hg : φ.Guarded job w.durable) : (k r).Guarded job s' := by
  cases φ with
  | get =>
    cases hview
    rcases r with _ | _ | task
    · trivial
    · trivial
    show (afterGet job (some task)).Guarded job s'
    unfold afterGet
    split
    · split <;> trivial
    · trivial
    · trivial
  | selectTrace =>
    cases hview
    rcases r with _ | _ | row
    · trivial
    · trivial
    show (afterSelectTrace (some row)).Guarded job s'
    simp only [afterSelectTrace]
    split <;> trivial
  | claim =>
    cases hview
    rcases r with _ | _ | task <;> trivial
  | save task result =>
    cases hview
    rcases r with (_ | _ | _) | _
    · trivial
    · trivial
    · trivial
    show (afterSave job task result).Guarded job s'
    unfold afterSave
    split
    · split <;> trivial
    · trivial
  | rollbackFailure task err =>
    cases hview
    rcases r with _ | _
    · trivial
    simp only [plain]
    split <;> trivial
  | markTerminal | markRetryable =>
    cases hview
    rcases r with _ | _ | _ <;> trivial
  | commitSucceeded task result =>
    cases hview
    rcases r with (_ | _ | _) | _
    · trivial
    · trivial
    · trivial
    show (afterCommitSucceeded job task result).Guarded job s'
    unfold afterCommitSucceeded
    split <;> trivial
  | markProcessing | recoverMark | markEnqueued =>
    cases hview
    cases hchange with
    | enqueued _ _ hφ => obtain h | ⟨_, _, h⟩ := hφ <;> cases h
    | publish hφ => cases hφ
    | ack hφ => cases hφ
    | refl =>
      rcases r with (_ | _ | _) | _
      · trivial
      · trivial
      · trivial
      · exact hok
  | updateState =>
    cases hview
    cases hchange with
    | enqueued _ _ hφ => obtain h | ⟨_, _, h⟩ := hφ <;> cases h
    | publish hφ => cases hφ
    | ack hφ => cases hφ
    | refl =>
      rcases r with (_ | _ | _) | _
      · trivial
      · trivial
      · trivial
      · exact fun _ => hok
  | complete =>
    cases hview
    rcases r with (_ | _ | _) | _
    · trivial
    · trivial
    · trivial
    · intro hp
      rw [hl.2.1] at hp
      cases hp
  | markSucceeded =>
    cases hview
    cases hchange with
    | enqueued _ _ hφ => obtain h | ⟨_, _, h⟩ := hφ <;> cases h
    | publish hφ => cases hφ
    | ack hφ => cases hφ
    | refl =>
      rcases r with (_ | _ | _) | _ | _
      · trivial
      · trivial
      · trivial
      · trivial
      · exact hg
  | done => cases hview
  | _ =>
    cases hview
    rcases r with (_ | _ | _) | _ <;> trivial

/-! ## What the statuses say -/

/-- A finished status is that of a finished task. -/
structure Durable.Truthful (s : Durable) : Prop where
  core {t : TraceId} {r : TraceRow} : s.traces t = some r → r.coreStatus = .completed →
    s.HasStatus ⟨t, .core⟩ .succeeded
  enrichment {t : TraceId} {r : TraceRow} : s.traces t = some r →
    r.enrichmentStatus = .completed ∨ r.enrichmentStatus = .failed → s.Terminal ⟨t, .enrichment⟩

/-- Finished statuses stay. -/
def TraceRow.Forward (r r' : TraceRow) : Prop :=
  (r.coreStatus = .completed → r'.coreStatus = .completed) ∧
    (r.enrichmentStatus = .completed ∨ r.enrichmentStatus = .failed → r'.enrichmentStatus = r.enrichmentStatus)

theorem TraceRow.Forward.refl (r : TraceRow) : r.Forward r :=
  ⟨id, fun _ => rfl⟩

variable {r r' : TraceRow}

theorem TraceRow.Forward.trans {r'' : TraceRow} (h : r.Forward r') (h' : r'.Forward r'') :
    r.Forward r'' := by
  refine ⟨fun hr => h'.1 (h.1 hr), fun hr => ?_⟩
  have h1 := h.2 hr
  exact (h'.2 (h1 ▸ hr)).trans h1

/-- The new row of a trace moves forward, and what it says is true. -/
def Durable.Advances (s' : Durable) (t : TraceId) (r r' : TraceRow) : Prop :=
  r.Forward r' ∧ (r'.coreStatus = .completed → s'.HasStatus ⟨t, .core⟩ .succeeded) ∧
    (r'.enrichmentStatus = .completed ∨ r'.enrichmentStatus = .failed → s'.Terminal ⟨t, .enrichment⟩)

variable {t : TraceId}

theorem Durable.Truthful.advances_refl (hs : s.Truthful) (hev : Evolves s s')
    (hr : s.traces t = some r) : s'.Advances t r r :=
  ⟨.refl r, fun h => (hs.core hr h).evolves rfl hev, fun h => (hs.enrichment hr h).evolves hev⟩

variable {row : AnalysisTask}

theorem not_terminal_of_leased {worker : String} {now : Time}
    (hrow : s.tasks κ = some row) (hl : row.leasedBy worker now = true) : ¬ s.Terminal κ := by
  rintro ⟨row', hrow', ht⟩
  obtain rfl := Option.some.inj (hrow.symm.trans hrow')
  rw [AnalysisTask.not_terminal_of_leasedBy hl] at ht
  cases ht

theorem processor_of_stage (h : job.message.InItsStream) :
    (job.stage = .core ∧ job.processor = .core) ∨ (job.stage = .enrichment ∧ job.processor = .enrichment) := by
  have h : job.stage = defaultStageForStream job.message.streamName := h
  rw [h, Job.processor, buildStageProcessor, defaultStageForStream]
  split
  · exact .inr ⟨rfl, rfl⟩
  · exact .inl ⟨rfl, rfl⟩

theorem advances_failed {worker errorCode : String} {now now' : Time}
    {terminal : Bool} (hs : s.Truthful) (hev : Evolves s s') (hr : s.traces job.traceId = some r)
    (hrow : s.tasks job.key = some row) (hl : row.leasedBy worker now = true)
    (hterm : terminal = true → s'.Terminal job.key) :
    s'.Advances job.traceId r (markTraceStageFailed job.stage errorCode terminal now' r) := by
  obtain ⟨⟨hcore, henr⟩, hcore', henr'⟩ := hs.advances_refl hev hr
  cases hst : job.stage with
  | core =>
    have hnot : r.coreStatus ≠ .completed := fun h =>
      not_succeeded_of_leased hrow hl (key_core hst ▸ hs.core hr h)
    cases terminal <;> exact ⟨⟨fun h => absurd h hnot, henr⟩, nofun, henr'⟩
  | enrichment =>
    have hnot : ¬ (r.enrichmentStatus = .completed ∨ r.enrichmentStatus = .failed) := fun h =>
      not_terminal_of_leased hrow hl (key_enrichment hst ▸ hs.enrichment hr h)
    cases terminal with
    | true => exact ⟨⟨hcore, fun h => absurd h hnot⟩, hcore', fun _ => key_enrichment hst ▸ hterm rfl⟩
    | false => exact ⟨⟨hcore, fun h => absurd h hnot⟩, hcore', by rintro (h | h) <;> cases h⟩

theorem advances_processing {now : Time} (hs : s.Truthful) (hev : Evolves s s')
    (hr : s.traces job.traceId = some r)
    (hg : (Statement.markTraceStageProcessing job.traceId job.stage).Timely s) :
    s'.Advances job.traceId r (markTraceStageProcessing job.stage now r) := by
  obtain ⟨⟨hcore, henr⟩, hcore', henr'⟩ := hs.advances_refl hev hr
  cases hst : job.stage with
  | core =>
    rw [hst] at hg
    exact ⟨⟨fun h => absurd (hs.core hr h) hg, henr⟩, nofun, henr'⟩
  | enrichment =>
    rw [hst] at hg
    exact ⟨⟨hcore, fun h => absurd (hs.enrichment hr h) hg⟩, hcore', by rintro (h | h) <;> cases h⟩

theorem advances_stageTrace {result : Result} {worker : String}
    {now now' : Time} (hs : s.Truthful) (hev : Evolves s s') (hin : job.message.InItsStream)
    (hr : s.traces job.traceId = some r) (hrow : s.tasks job.key = some row)
    (hl : row.leasedBy worker now = true) (hsucc : s'.HasStatus job.key .succeeded)
    (hg : job.processor = .core → ¬ s.Terminal ⟨job.traceId, .enrichment⟩) :
    s'.Advances job.traceId r (stageTrace job result now' r) := by
  obtain ⟨⟨hcore, henr⟩, hcore', henr'⟩ := hs.advances_refl hev hr
  obtain ⟨hst, hp⟩ | ⟨hst, hp⟩ := processor_of_stage hin
  · simp only [stageTrace, hp]
    refine ⟨⟨fun _ => rfl, fun h => absurd (hs.enrichment hr h) (hg hp)⟩, fun _ => key_core hst ▸ hsucc, ?_⟩
    simp only [updateTraceStageState]
    split <;> rintro (h | h) <;> cases h
  · simp only [stageTrace, hp]
    refine ⟨⟨hcore, fun h => ?_⟩, hcore', fun _ => key_enrichment hst ▸ hsucc.terminal rfl⟩
    exact absurd (key_enrichment hst ▸ hs.enrichment hr h) (not_terminal_of_leased hrow hl)

theorem Change.advances (h : Change e job φ s s') (hs : s.Truthful) (hin : job.message.InItsStream)
    (hg : φ.Guarded job s) (hr' : s'.traces t = some r') :
    ∃ r, s.traces t = some r ∧ s'.Advances t r r' := by
  have hev := h.evolves
  have hkeep : s.traces t = some r' → ∃ r, s.traces t = some r ∧ s'.Advances t r r' :=
    fun hr => ⟨r', hr, hs.advances_refl hev hr⟩
  cases h with
  | refl | insert | claim | publish | ack => exact hkeep hr'
  | processing task now hr =>
    obtain ⟨rfl, rfl⟩ | ⟨_, hr'⟩ := update_eq_some hr'
    · exact ⟨_, hr, advances_processing hs hev hr hg⟩
    · exact hkeep hr'
  | enqueued queuedAt now hφ hr =>
    obtain ⟨rfl, rfl⟩ | ⟨_, hr'⟩ := update_eq_some hr'
    · have hnot : ¬ s.Terminal ⟨job.traceId, .enrichment⟩ := by
        obtain rfl | ⟨_, _, rfl⟩ := hφ <;> exact hg
      obtain ⟨⟨hcore, _⟩, hcore', _⟩ := hs.advances_refl hev hr
      exact ⟨_, hr, ⟨hcore, fun h => absurd (hs.enrichment hr h) hnot⟩, hcore', by rintro (h | h) <;> cases h⟩
    · exact hkeep hr'
  | succeeded task result hrow hr hmark =>
    obtain ⟨rfl, rfl⟩ | ⟨_, hr'⟩ := update_eq_some hr'
    · obtain ⟨hl, hst⟩ := markSucceeded_spec hmark
      exact ⟨_, hr, advances_stageTrace hs hev hin hr hrow hl ⟨_, Function.update_self .., hst⟩ hg⟩
    · exact hkeep hr'
  | terminal task err hrow hr hmark =>
    obtain ⟨rfl, rfl⟩ | ⟨_, hr'⟩ := update_eq_some hr'
    · obtain ⟨hl, hst⟩ := markFailedTerminal_spec hmark
      exact ⟨_, hr, advances_failed hs hev hr hrow hl fun _ => ⟨_, Function.update_self .., by rw [hst]; rfl⟩⟩
    · exact hkeep hr'
  | retryable task err hrow hr hmark =>
    obtain ⟨rfl, rfl⟩ | ⟨_, hr'⟩ := update_eq_some hr'
    · exact ⟨_, hr, advances_failed hs hev hr hrow (markFailedRetryable_spec hmark).1 nofun⟩
    · exact hkeep hr'

theorem Outside.advances {act : EnvAction} (h : Outside act s s') (hs : s.Truthful)
    (hr' : s'.traces t = some r') :
    (∃ r, s.traces t = some r ∧ s'.Advances t r r') ∨
      (s.traces t = none ∧ r'.coreStatus = .pending ∧ r'.enrichmentStatus = .notRequired) := by
  obtain ⟨r, _, _, hr, rfl⟩ | ⟨hnone, _, rfl⟩ := h.trace_back hr'
  · exact .inl ⟨r, hr, hs.advances_refl h.evolves hr⟩
  · exact .inr ⟨hnone, rfl, rfl⟩

/-! ## Runs -/

structure Forward (c : PhaseConfig) : Prop where
  truthful : c.world.durable.Truthful
  inItsStream {e : ExecId} {th : Thread Job Phase} : c.threads e = some th → th.info.message.InItsStream
  guarded {e : ExecId} {job : Job} {φ : Phase} :
    c.threads e = some ⟨job, some φ⟩ → φ.Guarded job c.world.durable

theorem Durable.Truthful.of_advances (h : ∀ {t r'}, s'.traces t = some r' →
    (∃ r, s.traces t = some r ∧ s'.Advances t r r') ∨
      (s.traces t = none ∧ r'.coreStatus = .pending ∧ r'.enrichmentStatus = .notRequired)) : s'.Truthful := by
  refine ⟨?_, ?_⟩
  · intro t r' hr' hst
    obtain ⟨r, _, ha⟩ | ⟨_, hc, _⟩ := h hr'
    · exact ha.2.1 hst
    · rw [hc] at hst
      cases hst
  · intro t r' hr' hst
    obtain ⟨r, _, ha⟩ | ⟨_, _, he⟩ := h hr'
    · exact ha.2.2 hst
    · rw [he] at hst
      obtain h | h := hst <;> cases h

theorem Forward.advances (hc : Forward c) (h : Move c c' a)
    (hr' : c'.world.durable.traces t = some r') :
    (∃ r, c.world.durable.traces t = some r ∧ c'.world.durable.Advances t r r') ∨
      (c.world.durable.traces t = none ∧ r'.coreStatus = .pending ∧ r'.enrichmentStatus = .notRequired) := by
  cases h with
  | exec hth _ _ _ _ _ _ hchange =>
    exact .inl (hchange.advances hc.truthful (hc.inItsStream hth) (hc.guarded hth) hr')
  | outside houtside => exact houtside.advances hc.truthful hr'
  | crash _ hworld | start _ _ _ hworld =>
    rw [hworld] at hr' ⊢
    exact .inl ⟨r', hr', hc.truthful.advances_refl (.refl _) hr'⟩

theorem Phase.guarded_boot : (Phase.boot job).Guarded job s := by
  unfold Phase.boot
  split
  · trivial
  · split <;> trivial

theorem Phase.Guarded.outside (hg : φ.Guarded job s) (h : s'.tasks = s.tasks) : φ.Guarded job s' := by
  have hterm : ∀ κ, s'.Terminal κ ↔ s.Terminal κ := fun κ => by rw [Durable.Terminal, h]; rfl
  have hsucc : ∀ κ, s'.HasStatus κ .succeeded ↔ s.HasStatus κ .succeeded := fun κ => by
    rw [Durable.HasStatus, h]
    rfl
  cases φ with
  | commitProcessing task =>
    simp only [Guarded, Statement.Timely] at hg ⊢
    cases hst : job.stage <;> rw [hst] at hg
    · exact mt (hsucc _).1 hg
    · exact mt (hterm _).1 hg
  | recoverCommit | commitEnqueued => exact mt (hterm _).1 hg
  | markSucceeded | commitSucceeded => exact fun hp => mt (hterm _).1 (hg hp)
  | _ => trivial

theorem Forward.move (hc : Forward c) (hinv : Inv c) (h : Move c c' a) (hok : Orderly phaseCode c a) :
    Forward c' := by
  have htruthful : c'.world.durable.Truthful := .of_advances (hc.advances h)
  cases h with
  | exec hth hview _ hlocal _ _ _ hchange _ hthreads =>
    refine ⟨htruthful, ?_, ?_⟩
    · intro e' th' he'
      rw [hthreads] at he'
      obtain ⟨_, rfl⟩ | ⟨_, he'⟩ := update_eq_some he'
      · have hin := hc.inItsStream hth
        exact hin
      · exact hc.inItsStream he'
    · intro e' job' φ' he'
      rw [hthreads] at he'
      obtain ⟨_, hx⟩ | ⟨hne, he'⟩ := update_eq_some he'
      · obtain ⟨rfl, hφ⟩ := Thread.mk.inj hx
        obtain rfl := Option.some.inj hφ
        have hok : timelyOp c.world.durable (c.nextOp phaseCode _) := hok
        rw [nextOp_of_view hth hview] at hok
        exact (hc.guarded hth).step hview hlocal hchange hok
      · exact (hc.guarded he').of_change (hinv.locals he') hlocal hne hchange
  | outside houtside htables _ hthreads =>
    have htasks : c'.world.durable.tasks = c.world.durable.tasks := congrArg Table.committed htables.1
    exact ⟨htruthful, fun he => hc.inItsStream (hthreads ▸ he),
      fun he => (hc.guarded (hthreads ▸ he)).outside htasks⟩
  | crash hth hworld hthreads =>
    refine ⟨htruthful, ?_, ?_⟩
    · intro e' th' he'
      rw [hthreads] at he'
      obtain ⟨_, rfl⟩ | ⟨_, he'⟩ := update_eq_some he'
      · have hin := hc.inItsStream hth
        exact hin
      · exact hc.inItsStream he'
    · intro e' job' φ' he'
      rw [hthreads] at he'
      obtain ⟨_, hx⟩ | ⟨_, he'⟩ := update_eq_some he'
      · cases hx
      · exact (hc.guarded he').outside (by rw [hworld]; rfl)
  | start hth _ hx hworld hthreads =>
    refine ⟨htruthful, ?_, ?_⟩
    · intro e' th' he'
      rw [hthreads] at he'
      obtain ⟨_, rfl⟩ | ⟨_, he'⟩ := update_eq_some he'
      · simp only [Orderly, hx] at hok
        exact hok
      · exact hc.inItsStream he'
    · intro e' job' φ' he'
      rw [hthreads] at he'
      obtain ⟨_, hx⟩ | ⟨_, he'⟩ := update_eq_some he'
      · obtain ⟨rfl, hφ⟩ := Thread.mk.inj hx
        obtain rfl := Option.some.inj hφ
        exact Phase.guarded_boot
      · exact (hc.guarded he').outside (by rw [hworld]; rfl)

theorem forward_reachable (h : (phases d).ReachableBy (Orderly phaseCode) c) : Forward c := by
  refine h.induct ?_ fun s a s' hs hc hok hstep =>
    hc.move (inv_reachable hs) (move_of_step (inv_reachable hs) hstep) hok
  rintro s ⟨hw, hth, _⟩
  have hnone : ∀ e, s.threads e = none := fun e => by rw [hth]
  have htraces : s.world.durable.traces = fun _ => none := hw.traces
  refine ⟨⟨?_, ?_⟩, ?_, ?_⟩ <;>
  · intros
    simp_all

theorem orderly_mapConfig : Orderly workerCode (phaseHom.mapConfig c) a = Orderly phaseCode c a := by
  cases a <;> simp only [Orderly, phaseHom.nextOp_mapConfig, phaseHom.mapConfig_world]

/-- In every run all of whose steps are orderly, a core stage that is completed stays
completed, and an enrichment that is completed or has failed stays what it is. -/
theorem statuses_move_forward {c c' : WorkerConfig} (hc : (workers d).ReachableBy (Orderly workerCode) c)
    (hl : (workers d).Leads (Orderly workerCode) c c') {t : TraceId} {r : TraceRow}
    (hr : c.world.durable.traces t = some r) :
    ∃ r', c'.world.durable.traces t = some r' ∧ (r.coreStatus = .completed → r'.coreStatus = .completed) ∧
      (r.enrichmentStatus = .completed ∨ r.enrichmentStatus = .failed →
        r'.enrichmentStatus = r.enrichmentStatus) := by
  obtain ⟨p, hp, rfl⟩ := phaseHom.reachable hc
  obtain ⟨p', hp', rfl⟩ := phaseHom.leads hl
  simp only [orderly_mapConfig] at hp hp'
  refine hp'.induct hp (P := fun q => ∃ r', q.world.durable.traces t = some r' ∧ r.Forward r') ?_
    ⟨r, hr, .refl r⟩
  rintro q a q' hq ⟨r₁, hr₁, hfor⟩ _ hstep
  have hmove := move_of_step (inv_reachable hq) hstep
  obtain ⟨r₂, hr₂⟩ := hmove.evolves.trace hr₁
  obtain ⟨r₁', hr₁', ha⟩ | ⟨hnone, _⟩ := (forward_reachable hq).advances hmove hr₂
  · obtain rfl := Option.some.inj (hr₁.symm.trans hr₁')
    exact ⟨r₂, hr₂, hfor.trans ha.1⟩
  · rw [hr₁] at hnone
    cases hnone

def redelivered : List Step :=
  .start 1 { entry := bareEntry streamCore ⟨1, 0⟩ "t", workerId := "b" } :: List.replicate 6 (.exec 1 {})

def processedCore : List Step :=
  captured "t" ++ [.start 0 { entry := bareEntry streamCore ⟨1, 0⟩ "t", workerId := "a" }] ++
    List.replicate 11 (.exec 0 {})

theorem statuses_move_forward_redelivered : ∃ c c' r', (workers .bare).Leads (Orderly workerCode) c c' ∧
    (∃ r, c.world.durable.traces "t" = some r ∧ r.coreStatus = .completed) ∧
    c'.world.durable.traces "t" = some r' ∧ r'.coreStatus = .completed := by
  have hrun : (((workers .bare).runBy (Orderly workerCode) WorkerConfig.empty processedCore).bind fun c =>
      ((workers .bare).runBy (Orderly workerCode) c redelivered).map fun _ =>
        (c.world.durable.traces "t").map TraceRow.coreStatus) = some (some .completed) := by decide
  obtain ⟨c, hc, hrun⟩ := Option.bind_eq_some_iff.1 hrun
  obtain ⟨c', hc', hr⟩ := Option.map_eq_some_iff.1 hrun
  obtain ⟨r, hr, hst⟩ := Option.map_eq_some_iff.1 hr
  have hreach := (TransitionSystem.ReachableBy.init (WorkerConfig.init_empty .bare)).leads
    (TransitionSystem.leads_runBy hc)
  obtain ⟨r', hr', hcore, _⟩ := statuses_move_forward hreach (TransitionSystem.leads_runBy hc') hr
  exact ⟨c, c', r', TransitionSystem.leads_runBy hc', ⟨r, hr, hst⟩, hr', hcore hst⟩

def takenOver : List Step :=
  captured "t" ++
  [.start 0 { entry := bareEntry streamCore ⟨1, 0⟩ "t", workerId := "a", leaseSeconds := 1 }] ++
  List.replicate 3 (.exec 0 {}) ++
  [.env (.tick (2 * second)), .start 1 { entry := bareEntry streamCore ⟨1, 0⟩ "t", workerId := "b" }] ++
  List.replicate 11 (.exec 1 { now := 2 * second })

def overtaken : List Step :=
  captured "t" ++ [.start 0 { entry := bareEntry streamCore ⟨1, 0⟩ "t", workerId := "a" }] ++
  List.replicate 12 (.exec 0 { hasMedia := true, id := ⟨2, 0⟩ }) ++
  [.start 1 { entry := ⟨streamEnrichment, ⟨2, 0⟩, enrichmentMessage "t" []⟩, workerId := "b" }] ++
  List.replicate 10 (.exec 1 {})

/-- A completed core stage is set back to processing, and a completed enrichment to
pending, by an execution that goes on. -/
theorem statuses_move_back :
    (∃ c c', (workers .bare).Reachable c ∧ (workers .bare).Leads (fun _ _ => True) c c' ∧
      (c.world.durable.traces "t").map TraceRow.coreStatus = some .completed ∧
      (c'.world.durable.traces "t").map TraceRow.coreStatus = some .processing) ∧
    (∃ c c', (workers .bare).Reachable c ∧ (workers .bare).Leads (fun _ _ => True) c c' ∧
      (c.world.durable.traces "t").map TraceRow.enrichmentStatus = some .completed ∧
      (c'.world.durable.traces "t").map TraceRow.enrichmentStatus = some .pending) := by
  have hcore : ((runWorkers .bare takenOver).bind fun c =>
      ((workers .bare).run c (List.replicate 2 (.exec 0 { now := 2 * second }))).map fun c' =>
        ((c.world.durable.traces "t").map TraceRow.coreStatus,
          (c'.world.durable.traces "t").map TraceRow.coreStatus)) =
      some (some .completed, some .processing) := by decide
  have henrichment : ((runWorkers .bare overtaken).bind fun c =>
      ((workers .bare).run c (List.replicate 2 (.exec 0 {}))).map fun c' =>
        ((c.world.durable.traces "t").map TraceRow.enrichmentStatus,
          (c'.world.durable.traces "t").map TraceRow.enrichmentStatus)) =
      some (some .completed, some .pending) := by decide
  exact ⟨exists_leads hcore, exists_leads henrichment⟩

end AuditGateway.Analysis
