import AuditGateway.Analysis.AtMostOnce
import AuditGateway.Analysis.Forward

/-!
# Which stage commits for which task

A stage processor is chosen by the stream of a message, its task by the stage that the
message names. The gateway publishes for the core stage in its stream, and what the workers
publish keeps the stage of a message in the stream of that stage; so if nobody else
publishes, the writes of the core processor are those of core tasks.
-/

namespace AuditGateway.Analysis

open AuditGateway.Framework

/-- What the gateway adds to the stream of the core stage (`PublishTraceCaptured`). -/
def publishTraceCaptured (traceId enqueuedAt hints : String) : Payload where
  traceId := some traceId
  stage := some AnalysisStage.core.value
  enqueuedAt := if enqueuedAt = "" then none else some (.text enqueuedAt)
  attempt := some "1"
  hints := some (.text hints)

/-- The step publishes nothing that the gateway does not. -/
def GatewayPublishes : Step → Prop
  | .env (.publish stream payload _) =>
    stream = streamCore ∧ payload.stage = some AnalysisStage.core.value
  | _ => True

instance (a : Step) : Decidable (GatewayPublishes a) := by
  unfold GatewayPublishes
  split <;> infer_instance

/-- Every message that can be delivered is in the stream of its stage. -/
def Durable.Routed (s : Durable) : Prop :=
  ∀ entry ∈ s.redis.entries, entry.stream ≠ streamDlq →
    ∀ m, messageFromEntry entry = .ok m → m.InItsStream

variable {d : Decoding} {c c' : PhaseConfig} {a : Step} {e : ExecId} {job : Job} {φ : Phase} {s s' : Durable}
  {κ : TaskKey}

theorem Durable.Routed.of_entries (h : s.Routed) (he : s'.redis.entries = s.redis.entries) : s'.Routed := by
  intro entry hentry
  exact h entry (he ▸ hentry)

theorem Durable.Routed.xadd {entry : Entry} (h : s.Routed) (he : s'.redis.entries = s.redis.entries ++ [entry])
    (hentry : entry.stream ≠ streamDlq → ∀ m, messageFromEntry entry = .ok m → m.InItsStream) : s'.Routed := by
  intro entry' hentry'
  rw [he, List.mem_append, List.mem_singleton] at hentry'
  obtain hentry' | rfl := hentry'
  · exact h entry' hentry'
  · exact hentry

theorem Delivered.inItsStream (h : Delivered job s) (hs : s.Routed) : job.message.InItsStream := by
  obtain ⟨entry, hentry, hstream, hm⟩ := h
  exact hs entry hentry hstream _ hm

theorem inItsStream_publish {stream : String} {id : MessageId} {stage : AnalysisStage} {payload : Payload}
    (hp : payload.stage = some stage.value) (hs : stage = defaultStageForStream stream)
    {m : StreamMessage} (hm : messageFromEntry ⟨stream, id, payload⟩ = .ok m) : m.InItsStream := by
  obtain ⟨hstream, _, _, hstage⟩ := messageFromEntry_eq_ok hm
  dsimp only at hstream hstage
  rw [hp, parseStage_value] at hstage
  rw [StreamMessage.InItsStream, hstream, ← hs]
  exact (Except.ok.inj hstage).symm

theorem Change.routed (h : Change e job φ s s') (hs : s.Routed) (hin : job.message.InItsStream) : s'.Routed := by
  cases h with
  | refl | insert | claim | processing | enqueued | succeeded | terminal | retryable | ack => exact hs.of_entries rfl
  | publish hφ hid =>
    refine hs.xadd rfl fun hstream m hm => ?_
    cases φ with
    | recoverPublish | publishEnrichment task result =>
      cases hφ
      exact inItsStream_publish rfl rfl hm
    | publishDlq task err now =>
      cases hφ
      exact absurd rfl hstream
    | publishRetry task err now =>
      cases hφ
      exact inItsStream_publish rfl hin hm
    | _ => cases hφ

theorem Outside.routed {act : EnvAction} (h : Outside act s s') (hp : GatewayPublishes (.env act)) (hs : s.Routed) :
    s'.Routed := by
  cases h with
  | tick | capture | queued | discard => exact hs.of_entries rfl
  | publish =>
    obtain ⟨rfl, hstage⟩ := hp
    exact hs.xadd rfl fun _ m hm => inItsStream_publish hstage rfl hm

theorem routed_reachable (h : (phases d).ReachableBy (fun _ a => GatewayPublishes a) c) :
    c.world.durable.Routed := by
  refine h.induct (P := fun c => c.world.durable.Routed) ?_ fun c a c' hc hs ha hstep => ?_
  · rintro c ⟨hw, _, _⟩ entry hentry
    have hnil : c.world.durable.redis.entries = [] := hw.entries
    rw [hnil] at hentry
    cases hentry
  · cases move_of_step (inv_reachable hc) hstep with
    | exec _ _ _ _ _ hdelivered _ hchange => exact hchange.routed hs (hdelivered.inItsStream hs)
    | outside houtside => exact houtside.routed ha hs
    | crash _ hworld | start _ _ _ hworld =>
      rw [hworld]
      exact hs.of_entries rfl

/-! ## The step in which a task succeeds -/

theorem Change.commits (h : Change e job φ s s') :
    (s'.writes = s.writes ∧ ∀ κ, s'.HasStatus κ .succeeded → s.HasStatus κ .succeeded) ∨
      (s'.writes = Function.update s.writes e (some ⟨job.key, job.processor⟩) ∧ φ.live = true ∧
        s'.HasStatus job.key .succeeded ∧ ¬ s.HasStatus job.key .succeeded ∧
        ∀ κ, s'.HasStatus κ .succeeded → κ = job.key ∨ s.HasStatus κ .succeeded) := by
  have hback {κ : TaskKey} (h' : s'.HasStatus κ .succeeded) : s.HasStatus κ .succeeded ∨ κ = job.key ∧
      ∃ task result, φ = .commitSucceeded task result := by
    obtain hold | ⟨hκ, ⟨_, hφ⟩ | ⟨hst, _⟩⟩ := h.status_back rfl h'
    · exact .inl hold
    · exact .inr ⟨hκ, hφ⟩
    · cases hst
  cases h with
  | refl | processing | enqueued | publish | ack => exact .inl ⟨rfl, fun _ h' => h'⟩
  | insert | claim | terminal | retryable =>
    refine .inl ⟨rfl, fun κ h' => ?_⟩
    obtain hold | ⟨_, _, _, hφ⟩ := hback h'
    · exact hold
    · cases hφ
  | succeeded task result hrow hr hmark =>
    obtain ⟨hleased, hst⟩ := markSucceeded_spec hmark
    exact .inr ⟨rfl, rfl, ⟨_, Function.update_self .., hst⟩, not_succeeded_of_leased hrow hleased,
      fun κ h' => (hback h').symm.imp_left And.left⟩

theorem Outside.tasks {act : EnvAction} (h : Outside act s s') : s'.tasks = s.tasks := by
  cases h <;> rfl

theorem Move.commits (h : Move c c' a) (hc : Once c) (hs : c.world.durable.Routed) :
    (c'.world.durable.writes = c.world.durable.writes ∧
      ∀ κ, c'.world.durable.HasStatus κ .succeeded ↔ c.world.durable.HasStatus κ .succeeded) ∨
    ∃ (e : ExecId) (ch : Choice) (job : Job), a = .exec e ch ∧ c.world.durable.writes e = none ∧
      c'.world.durable.writes = Function.update c.world.durable.writes e (some ⟨job.key, job.processor⟩) ∧
      job.message.InItsStream ∧ job.traceId ≠ "" ∧ ¬ c.world.durable.HasStatus job.key .succeeded ∧
      ∀ κ, c'.world.durable.HasStatus κ .succeeded ↔ κ = job.key ∨ c.world.durable.HasStatus κ .succeeded := by
  have hkept {κ : TaskKey} (hκ : c.world.durable.HasStatus κ .succeeded) :
      c'.world.durable.HasStatus κ .succeeded := hκ.evolves rfl h.evolves
  cases h with
  | exec hth hview hperf hlocal hlocal' hdelivered hlive hchange =>
    obtain ⟨hw, hback⟩ | ⟨hw, hφ, hst, hnot, hback⟩ := hchange.commits
    · exact .inl ⟨hw, fun κ => ⟨hback κ, hkept⟩⟩
    · refine .inr ⟨_, _, _, rfl, ?_, hw, hdelivered.inItsStream hs, hlive hφ, hnot, fun κ => ⟨hback κ, ?_⟩⟩
      · -- Whoever has committed before had the same task, which had succeeded then.
        by_contra hsome
        obtain ⟨x, hx⟩ := Option.ne_none_iff_exists'.1 hsome
        obtain ⟨th, hth', hkey⟩ := hc.owner hx
        obtain rfl := Option.some.inj (hth.symm.trans hth')
        exact hnot (hkey ▸ hc.succeeded hx)
      · rintro (rfl | hκ)
        · exact hst
        · exact hkept hκ
  | outside houtside =>
    have htasks := houtside.tasks
    refine .inl ⟨houtside.writes, fun κ => ?_⟩
    rw [Durable.HasStatus, Durable.HasStatus, htasks]
  | crash _ hworld | start _ _ _ hworld =>
    rw [hworld]
    exact .inl ⟨rfl, fun _ => Iff.rfl⟩

/-! ## Traces apart -/

/-- The row of a trace, and its tasks. -/
def Durable.ofTrace (s : Durable) (t : TraceId) : Option TraceRow × (AnalysisStage → Option AnalysisTask) :=
  (s.traces t, fun stage => s.tasks ⟨t, stage⟩)

/-- The step is not one of an execution for the trace, nor the one in which the gateway notes that it has published for
it. -/
def elsewhere (t : TraceId) (c : WorkerConfig) : Step → Bool
  | .exec e _ => (c.threads e).all fun th => th.info.traceId ≠ t
  | .env (.markTraceCoreQueued t' _ _) => t' ≠ t
  | _ => true

variable {t : TraceId} {r : TraceRow}

theorem Change.ofTrace (h : Change e job φ s s') (ht : t ≠ job.traceId) : s'.ofTrace t = s.ofTrace t := by
  have hkey (stage : AnalysisStage) : (⟨t, stage⟩ : TaskKey) ≠ job.key := fun hκ => ht (congrArg TaskKey.traceId hκ)
  cases h <;> simp [Durable.ofTrace, Function.update_of_ne, hkey, ht]

theorem Outside.ofTrace {act : EnvAction} (h : Outside act s s') (hr : s.traces t = some r)
    (ha : ∀ queuedAt now, act ≠ .markTraceCoreQueued t queuedAt now) : s'.ofTrace t = s.ofTrace t := by
  cases h with
  | capture hnone =>
    refine congrArg (·, _) (Function.update_of_ne ?_ _ _)
    rintro rfl
    cases hnone.symm.trans hr
  | queued =>
    refine congrArg (·, _) (Function.update_of_ne ?_ _ _)
    rintro rfl
    exact ha _ _ rfl
  | _ => rfl

theorem Move.ofTrace (h : Move c c' a) (hr : c.world.durable.traces t = some r)
    (ha : elsewhere t (phaseHom.mapConfig c) a = true) :
    c'.world.durable.ofTrace t = c.world.durable.ofTrace t := by
  cases h with
  | exec hth _ _ _ _ _ _ hchange =>
    refine hchange.ofTrace (Ne.symm ?_)
    simpa [elsewhere, Code.Hom.mapConfig, Code.Hom.mapThread, hth] using ha
  | outside houtside =>
    refine houtside.ofTrace hr ?_
    rintro _ _ rfl
    simp [elsewhere] at ha
  | crash _ hworld | start _ _ _ hworld =>
    rw [hworld]
    rfl

/-- Executions for other traces, crashes, deliveries and what the gateway does for other traces leave the row of a trace
and its tasks as they are, over every run. -/
theorem other_traces_kept {c c' : WorkerConfig} (hc : (workers d).Reachable c)
    (hr : c.world.durable.traces t = some r) (hl : (workers d).Leads (fun c a => elsewhere t c a) c c') :
    c'.world.durable.ofTrace t = c.world.durable.ofTrace t := by
  obtain ⟨p, hp, rfl⟩ := phases_of_workers hc
  obtain ⟨p', hp', rfl⟩ := phaseHom.leads hl
  clear hl
  induction hp' with
  | refl => rfl
  | tail hl hstep ih =>
    obtain ⟨a, ha, hstep⟩ := hstep
    have hq := hp.leads (Relation.ReflTransGen.mono (fun _ _ ⟨a, _, h⟩ => ⟨a, trivial, h⟩) _ _ hl)
    exact ((move_of_step (inv_reachable hq) hstep).ofTrace ((congrArg Prod.fst ih).trans hr) ha).trans ih

/-- A trace that waits while another one is analysed. -/
theorem other_traces_kept_waiting : ∃ c c', runWorkers .bare [.env (.captureTrace "u")] = some c ∧
    (workers .bare).runBy (fun c a => elsewhere "u" c a) c staleCommit = some c' ∧
    c'.world.durable.ofTrace "u" = c.world.durable.ofTrace "u" := by
  have hrun : ((runWorkers .bare [.env (.captureTrace "u")]).bind fun c =>
      ((workers .bare).runBy (fun c a => elsewhere "u" c a) c staleCommit).map fun _ =>
        (c.world.durable.traces "u").isSome) = some true := by decide
  obtain ⟨c, hc, hrun⟩ := Option.bind_eq_some_iff.1 hrun
  obtain ⟨c', hc', hrow⟩ := Option.map_eq_some_iff.1 hrun
  obtain ⟨r, hr⟩ := Option.isSome_iff_exists.1 hrow
  exact ⟨c, c', hc, hc', other_traces_kept (reachable_runWorkers hc) hr (TransitionSystem.leads_runBy hc')⟩

end AuditGateway.Analysis
