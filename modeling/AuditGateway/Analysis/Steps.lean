import AuditGateway.Analysis.Local

/-!
# Every operation follows the protocol

`exec_local`: from a control point whose facts hold, an operation of an execution
leads, however it ends, to a control point whose facts hold, and does to the durable
state what `Change` allows there. The lemmas before it treat the operations that
occur at several control points.
-/

namespace AuditGateway.Analysis

/-- The facts hold at the next control point, and the protocol allows the step. -/
def Leads (e : ExecId) (job : Job) (φ : Phase) (w : World) (φ' : Phase) (w' : World) : Prop :=
  φ'.Local e job w' ∧ Change e job φ w.durable w'.durable

variable {d : Decoding} {e : ExecId} {ch : Choice} {w w' : World} {job : Job} {u : Uncommitted}
  {φ : Phase} {task : AnalysisTask} {p : Plan}

open Phase

theorem leads_done {x : Except Exn Result} (hc : w'.Clean e) (hd : w'.durable = w.durable) :
    Leads e job φ w (done x) w' :=
  ⟨hc, hd ▸ .refl⟩

theorem local_caught (exc : Exn) (hc : w'.durable.Claimed job.key task) :
    (caught task exc).Local e job w' := by
  cases exc with
  | error err => exact hc
  | _ => trivial

theorem leads_caught (exc : Exn) (hc : w.durable.Claimed job.key task) (hd : w'.durable = w.durable) :
    Leads e job φ w (caught task exc) w' :=
  ⟨local_caught exc (hd ▸ hc), hd ▸ .refl⟩

theorem perform_inTransaction {o : Op} {r : o.Res} (ho : o.inTransaction = true)
    (h : perform d e o ch w = some (r, w')) :
    (∃ err, r = .error (.error err) ∧ w' = refused e o w) ∨ effect d e o ch w = some (r, w') := by
  obtain h | h | ⟨_, _, ho', _⟩ := perform_cases h
  · exact .inl h
  · exact .inr h
  · rw [ho] at ho'
    cases ho'

/-! ## Operations on Redis and the clock -/

theorem leads_ack {x : Except Exn Result}
    {r : Op.Res (.xack job.message.streamName job.message.messageId)} (hφ : φ.acks = true)
    (hc : w.Clean e)
    (h : perform d e (.xack job.message.streamName job.message.messageId) ch w = some (r, w')) :
    Leads e job φ w (plain (fun _ => done x) r) w' := by
  obtain ⟨err, rfl, rfl⟩ | heff | ⟨err, r', _, rfl, heff⟩ := perform_cases h
  · exact leads_done (refused_clean _ hc) (refused_durable _)
  · obtain ⟨hc', rfl, hd⟩ := xack_spec heff hc
    exact ⟨hc', hd ▸ .ack hφ⟩
  · obtain ⟨hc', _, hd⟩ := xack_spec heff hc
    exact ⟨hc', hd ▸ .ack hφ⟩

/-- A look at the clock, a wait, or what a stage computes. -/
def Op.quiet : Op → Bool
  | sleepForRetryBackoff _ | now | analyse .. => true
  | _ => false

theorem quiet_spec {o : Op} {r : o.Res} (ho : o.quiet = true) (hc : w.Clean e)
    (h : perform d e o ch w = some (r, w')) : w'.Clean e ∧ w'.durable = w.durable := by
  have hquiet : ∀ {r'}, effect d e o ch w = some (r', w') → w' = w.withRedis e w.redis := by
    intro r' heff
    cases o with
    | sleepForRetryBackoff m =>
      simp only [effect] at heff
      split at heff
      · exact (Prod.mk.inj (Option.some.inj heff)).2.symm
      · split at heff <;> [skip; cases heff]
        exact (Prod.mk.inj (Option.some.inj heff)).2.symm
      · exact (Prod.mk.inj (Option.some.inj heff)).2.symm
    | now | analyse => exact (Prod.mk.inj (Option.some.inj heff)).2.symm
    | _ => cases ho
  obtain ⟨err, rfl, rfl⟩ | heff | ⟨err, r', _, rfl, heff⟩ := perform_cases h
  · exact ⟨refused_clean _ hc, refused_durable _⟩
  · exact hquiet heff ▸ ⟨hc.withRedis _, rfl⟩
  · exact hquiet heff ▸ ⟨hc.withRedis _, rfl⟩

theorem xadd_cases (job : Job) (φ : Phase) {stream : String} {payload : Payload}
    {r : Op.Res (.xadd stream payload)}
    (hφ : φ.publishes job = some (stream, payload)) (hc : w.Clean e)
    (h : perform d e (.xadd stream payload) ch w = some (r, w')) :
    w'.Clean e ∧ Change e job φ w.durable w'.durable ∧ ((∃ err, r = .error (.error err)) ∨
      ∃ id, r = .ok id ∧ w'.durable.redis.entries = w.durable.redis.entries ++ [⟨stream, id, payload⟩]) := by
  obtain ⟨err, rfl, rfl⟩ | heff | ⟨err, r', _, rfl, heff⟩ := perform_cases h
  · exact ⟨refused_clean _ hc, (refused_durable _).symm ▸ .refl, .inl ⟨err, rfl⟩⟩
  · obtain ⟨hc', rfl, hid, hd⟩ := xadd_spec heff hc
    refine ⟨hc', hd ▸ .publish hφ hid, .inr ⟨ch.id, rfl, ?_⟩⟩
    rw [hd]
    rfl
  · obtain ⟨hc', _, hid, hd⟩ := xadd_spec heff hc
    exact ⟨hc', hd ▸ .publish hφ hid, .inl ⟨err, rfl⟩⟩

/-! ## Statements -/

section

variable {s : Statement} {r : Op.Res (.execute s)} {set : Time → TraceRow → TraceRow} {φ' : Phase}
  (h : w.Follows e job p u) (hp : p.set = none) (hs : s.First u ↔ u.trace = none)
  (hset : ∀ now st, s.effect e now st u = Statement.effect.onTrace st u job.traceId (set now))

include h hp hs hset

theorem set_cases (hi : w.durable.Inserted job.key) (hperf : perform d e (.execute s) ch w = some (r, w')) :
    (∃ err, r = .error (.error err) ∧ w' = refused e (.execute s) w) ∨
      r = .ok true ∧ w'.durable = w.durable ∧ ∃ u', w'.Follows e job { p with set := some set } u' := by
  obtain hrefused | heff := perform_inTransaction rfl hperf
  · exact .inl hrefused
  · obtain ⟨row, hrow⟩ := hi.2
    exact .inr (h.execute_set hp hs hset hrow heff)

theorem guarded_set (hc : w.durable.Claimed job.key task) (hperf : perform d e (.execute s) ch w = some (r, w'))
    (hlocal : ∀ u', w'.durable = w.durable → w'.Follows e job { p with set := some set } u' → φ'.Local e job w') :
    Leads e job φ w (guarded task (fun _ => φ') r) w' := by
  obtain ⟨err, rfl, rfl⟩ | ⟨rfl, hd, u', hf⟩ := set_cases h hp hs hset hc.1 hperf
  · exact leads_caught (.error err) hc (refused_durable _)
  · exact ⟨hlocal u' hd hf, hd ▸ .refl⟩

theorem plain_set (hi : w.durable.Inserted job.key) (hperf : perform d e (.execute s) ch w = some (r, w'))
    (hlocal : ∀ u', w'.durable = w.durable → w'.Follows e job { p with set := some set } u' → φ'.Local e job w') :
    Leads e job φ w (plain (fun _ => φ') r) w' := by
  obtain ⟨err, rfl, rfl⟩ | ⟨rfl, hd, u', hf⟩ := set_cases h hp hs hset hi hperf
  · exact leads_done rollback_clean (refused_durable _)
  · exact ⟨hlocal u' hd hf, hd ▸ .refl⟩

end

theorem plain_mark {s : Statement} {r : Op.Res (.execute s)}
    {mark : Time → AnalysisTask → Option AnalysisTask} {φ' : Phase} {exc : Exn} (hc : w.Clean e)
    (hs : s.First {} ↔ ({} : Uncommitted).task = none)
    (hmark : ∀ now st, s.effect e now st {} = Statement.effect.onTask st {} job.key (mark now))
    (hperf : perform d e (.execute s) ch w = some (r, w'))
    (hlocal : ∀ u', w'.durable = w.durable → w'.Follows e job { mark := some mark } u' →
      φ'.Local e job w') :
    Leads e job φ w (plain (fun marked => if marked then φ' else done (.error exc)) r) w' := by
  obtain ⟨err, rfl, rfl⟩ | heff := perform_inTransaction rfl hperf
  · exact leads_done rollback_clean (refused_durable _)
  · obtain ⟨hd, ⟨rfl, u', hf⟩ | ⟨rfl, hf⟩⟩ := (hc.follows job).execute_mark rfl hs hmark heff
    · exact ⟨hlocal u' hd hf, hd ▸ .refl⟩
    · exact leads_done hf.clean hd

theorem commit_cases {r : Op.Res .commit} (h : perform d e .commit ch w = some (r, w')) :
    w'.Clean e ∧ ((∃ err, r = .error (.error err) ∧ w'.durable = w.durable) ∨
      w' = w.withDb e (w.db.commit e) ∧ (r = .ok () ∨ ∃ err, r = .error (.error err))) := by
  obtain ⟨err, rfl, rfl⟩ | heff | ⟨err, r', _, rfl, heff⟩ := perform_cases h
  · exact ⟨rollback_clean, .inl ⟨err, rfl, refused_durable _⟩⟩
  · obtain ⟨rfl, rfl⟩ := Prod.mk.inj (Option.some.inj heff)
    exact ⟨commit_clean, .inr ⟨rfl, .inl rfl⟩⟩
  · obtain ⟨_, rfl⟩ := Prod.mk.inj (Option.some.inj heff)
    exact ⟨commit_clean, .inr ⟨rfl, .inr ⟨err, rfl⟩⟩⟩

/-! ## The control points -/

theorem local_afterGet (hc : w'.Clean e) (hi : w'.durable.Inserted job.key) :
    (afterGet job (w'.durable.tasks job.key)).Local e job w' := by
  obtain ⟨row, hrow⟩ := hi.1
  simp only [afterGet, hrow, Option.map_some]
  cases hs : row.status with
  | succeeded =>
    dsimp only
    split
    · rename_i hcore
      exact ⟨hc, hi, ⟨row, hrow, hs⟩, hcore⟩
    · rename_i hcore
      exact ⟨hc, .inr ⟨⟨row, hrow, hs⟩, fun h => absurd h hcore⟩⟩
  | failedTerminal => exact ⟨hc, .inl ⟨row, hrow, hs⟩⟩
  | queued | leased | failedRetryable => exact hc

theorem local_afterSelectTrace (hs : Sound w'.durable) (hc : w'.Clean e)
    (hi : w'.durable.Inserted job.key) (hst : w'.durable.HasStatus job.key .succeeded)
    (hcore : job.stage = .core) :
    (afterSelectTrace (w'.durable.traces job.traceId)).Local e job w' := by
  obtain ⟨r, hr⟩ := hi.2
  have hr : w'.durable.traces job.traceId = some r := hr
  have hkey : job.key = ⟨job.traceId, .core⟩ := by rw [← hcore]; rfl
  simp only [afterSelectTrace, hr]
  split
  · exact ⟨hc, hi, hst, hcore⟩
  · rename_i hn
    refine ⟨hc, .inr ⟨hst, fun _ r' hr' hreq => ?_⟩⟩
    obtain rfl := Option.some.inj (hr.symm.trans hr')
    by_contra hpub
    exact hn (hs.unqueued hr (hkey ▸ hst) hreq hpub)

theorem local_afterSave (hc : w'.durable.Claimed job.key task) (analysis : JobLineResult)
    (hf : w'.Follows e job { write := true } u) : (afterSave job task analysis).Local e job w' := by
  unfold afterSave
  split
  · rename_i hproc
    split
    · exact ⟨hc, hproc, u, hf⟩
    · exact ⟨hc, hproc, u, hf⟩
  · rename_i hproc
    exact ⟨hc, hproc, u, hf⟩

theorem local_afterCommitSucceeded {result : Result} {row row' : AnalysisTask} {r : TraceRow} {now now' : Time}
    (hs : Sound w.durable) (hclean : w'.Clean e) (hc : w'.durable.Claimed job.key task)
    (hrow : w.durable.tasks job.key = some row)
    (hmark : Analysis.markSucceeded job.workerId now row = some row')
    (hr : w.durable.traces job.traceId = some r) (hev : Evolves w.durable w'.durable)
    (hrow' : w'.durable.tasks job.key = some row')
    (hr' : w'.durable.traces job.traceId = some (stageTrace job result now' r)) :
    (afterCommitSucceeded job task result).Local e job w' := by
  obtain ⟨hleased, hst'⟩ := markSucceeded_spec hmark
  have hst : w'.durable.HasStatus job.key .succeeded := ⟨row', hrow', hst'⟩
  unfold afterCommitSucceeded
  split
  · rename_i h
    exact ⟨hclean, hc, hst, h.1⟩
  · rename_i h
    refine ⟨hclean, hst, fun hcore r₁ hr₁ hreq₁ => ?_⟩
    obtain rfl := Option.some.inj (hr'.symm.trans hr₁)
    have hres : result.enrichmentRequired = false := by simpa [hcore] using h
    cases hproc : job.processor with
    | core => simp [stageTrace, hproc, updateTraceStageState, hres] at hreq₁
    | enrichment =>
      -- Only a message with the wrong stage for its stream gets here; the row is as it was.
      have hold : r.enrichmentRequired = true := by
        simpa [stageTrace, hproc, markTraceEnrichmentCompleted] using hreq₁
      obtain hpub | ⟨row₁, hrow₁, hst₁⟩ := hs.required hr hold
      · exact hpub.evolves hev
      · have hkey : job.key = ⟨job.traceId, .core⟩ := by rw [← hcore]; rfl
        rw [hkey] at hrow
        obtain rfl := Option.some.inj (hrow.symm.trans hrow₁)
        rw [(AnalysisTask.leasedBy_iff.1 hleased).1] at hst₁
        cases hst₁

theorem leads_commitSucceeded {result : Result} {r : Op.Res .commit} (hs : Sound w.durable)
    (hl : (commitSucceeded task result).Local e job w) (h : perform d e .commit ch w = some (r, w')) :
    Leads e job (commitSucceeded task result) w
      (guarded task (fun _ => afterCommitSucceeded job task result) r) w' := by
  obtain ⟨hc, u, hf⟩ := hl
  obtain ⟨hclean, ⟨err, rfl, hd⟩ | ⟨rfl, hr⟩⟩ := commit_cases h
  · exact leads_caught (.error err) hc hd
  · obtain ⟨now, row, row', now', tr, hrow, hmark, htr, hd⟩ := hf.commit_mark
    have hch : Change e job (commitSucceeded task result) w.durable (w.withDb e (w.db.commit e)).durable := by
      rw [hd]
      exact .succeeded task result hrow htr hmark
    have hc' := hc.evolves hch.evolves
    refine ⟨?_, hch⟩
    obtain rfl | ⟨err, rfl⟩ := hr
    · have htr' : (w.withDb e (w.db.commit e)).durable.traces job.traceId =
          some (stageTrace job result now' tr) := by
        rw [hd]
        exact Function.update_self ..
      refine local_afterCommitSucceeded hs hclean hc' hrow hmark htr hch.evolves ?_ htr'
      rw [hd]
      exact Function.update_self ..
    · exact local_caught (.error err) hc'

theorem commit_set_cases {r : Op.Res .commit} {set : Time → TraceRow → TraceRow}
    (hf : w.Follows e job { set := some set } u) (h : perform d e .commit ch w = some (r, w'))
    (hch : ∀ now row, w.durable.traces job.traceId = some row → Change e job φ w.durable
      { w.durable with traces := Function.update w.durable.traces job.traceId (some (set now row)) }) :
    w'.Clean e ∧ Change e job φ w.durable w'.durable ∧ (r = .ok () ∨ ∃ err, r = .error (.error err)) := by
  obtain ⟨hclean, ⟨err, rfl, hd⟩ | ⟨rfl, hr⟩⟩ := commit_cases h
  · exact ⟨hclean, hd ▸ .refl, .inr ⟨err, rfl⟩⟩
  · obtain ⟨now, row, hrow, hd⟩ := hf.commit_set
    exact ⟨hclean, hd ▸ hch now row hrow, hr⟩

theorem commit_mark_cases {r : Op.Res .commit} {set : Time → TraceRow → TraceRow}
    {mark : Time → AnalysisTask → Option AnalysisTask}
    (hf : w.Follows e job { mark := some mark, set := some set } u)
    (h : perform d e .commit ch w = some (r, w'))
    (hch : ∀ now row row' now' tr, w.durable.tasks job.key = some row → mark now row = some row' →
      w.durable.traces job.traceId = some tr → Change e job φ w.durable
        { w.durable with
          tasks := Function.update w.durable.tasks job.key (some row')
          traces := Function.update w.durable.traces job.traceId (some (set now' tr)) }) :
    w'.Clean e ∧ Change e job φ w.durable w'.durable ∧ ((∃ err, r = .error (.error err)) ∨
      r = .ok () ∧ ∃ now row row', mark now row = some row' ∧ w'.durable.tasks job.key = some row') := by
  obtain ⟨hclean, ⟨err, rfl, hd⟩ | ⟨rfl, hr⟩⟩ := commit_cases h
  · exact ⟨hclean, hd ▸ .refl, .inl ⟨err, rfl⟩⟩
  · obtain ⟨now, row, row', now', tr, hrow, hmark, htr, hd⟩ := hf.commit_mark
    refine ⟨hclean, hd ▸ hch now row row' now' tr hrow hmark htr, ?_⟩
    obtain rfl | ⟨err, rfl⟩ := hr
    · refine .inr ⟨rfl, now, row, row', hmark, ?_⟩
      rw [hd]
      exact Function.update_self ..
    · exact .inl ⟨err, rfl⟩

theorem rollback_spec {r : Op.Res .rollback} (h : perform d e .rollback ch w = some (r, w')) :
    w'.Clean e ∧ w'.durable = w.durable := by
  obtain ⟨err, rfl, rfl⟩ | heff | ⟨err, r', _, rfl, heff⟩ := perform_cases h
  · exact ⟨rollback_clean, refused_durable _⟩
  · obtain ⟨_, rfl⟩ := Prod.mk.inj (Option.some.inj heff)
    exact ⟨rollback_clean, rfl⟩
  · obtain ⟨_, rfl⟩ := Prod.mk.inj (Option.some.inj heff)
    exact ⟨rollback_clean, rfl⟩

theorem stageTrace_core (hproc : job.processor = .core) (reasons : List String) (required : Bool)
    (now : Time) (st : Durable) :
    Statement.effect (.updateTraceStageState job.traceId required
      (if required then .pending else .notRequired) false "") e now st u =
      Statement.effect.onTrace st u job.traceId (stageTrace job (coreResult job reasons required) now) := by
  have : stageTrace job (coreResult job reasons required) now = updateTraceStageState required
      (if required then .pending else .notRequired) false "" now := by
    funext r
    simp only [stageTrace, hproc]
    rfl
  rw [this]
  rfl

theorem stageTrace_enrichment (hproc : job.processor = .enrichment) (result : Result) (now : Time)
    (st : Durable) :
    Statement.effect (.markTraceEnrichmentCompleted job.traceId) e now st u =
      Statement.effect.onTrace st u job.traceId (stageTrace job result now) := by
  have : stageTrace job result now = markTraceEnrichmentCompleted now := by
    funext r
    simp only [stageTrace, hproc]
  rw [this]
  rfl

theorem Delivered.strip {s : Durable} (hd : Delivered job s) : Python.strip job.traceId = job.traceId := by
  obtain ⟨en, _, _, hm⟩ := hd
  exact strip_traceId hm

theorem Delivered.publishes_dlq {s : Durable} {stream : String} {payload : Payload} (hd : Delivered job s)
    (hφ : φ.publishes job = some (stream, payload)) (hdlq : stream = streamDlq) :
    ∃ task err now, φ = .publishDlq task err now := by
  cases φ with
  | publishDlq task err now => exact ⟨task, err, now, rfl⟩
  | recoverPublish | publishEnrichment =>
    obtain ⟨rfl, _⟩ := Prod.mk.inj (Option.some.inj hφ)
    exact absurd hdlq (by decide)
  | publishRetry =>
    obtain ⟨en, -, hstream, hm⟩ := hd
    obtain ⟨rfl, _⟩ := Prod.mk.inj (Option.some.inj hφ)
    exact absurd ((messageFromEntry_eq_ok hm).1 ▸ hdlq) hstream
  | _ => cases hφ

theorem mem_of_entries_append {s s' : Durable} {en : Entry}
    (h : s'.redis.entries = s.redis.entries ++ [en]) : en ∈ s'.redis.entries := by
  rw [h]
  exact List.mem_append_right _ (List.mem_singleton_self _)

theorem published_enrichment {s s' : Durable} {id : MessageId} {reasons : List String}
    (hd : Delivered job s) (hne : job.traceId ≠ "")
    (hen : s'.redis.entries = s.redis.entries ++ [⟨streamEnrichment, id, enrichmentMessage job.traceId reasons⟩]) :
    s'.Published ⟨job.traceId, .enrichment⟩ := by
  refine ⟨_, mem_of_entries_append hen, ?_, key_publish hd.strip hne⟩
  show streamEnrichment ≠ streamDlq
  decide

theorem exec_local {o : Op} {k : o.Res → Phase} {r : o.Res} (hs : Sound w.durable)
    (hd : Delivered job w.durable) (hne : φ.live = true → job.traceId ≠ "")
    (hl : φ.Local e job w) (hv : φ.view job = some ⟨o, k⟩) (h : perform d e o ch w = some (r, w')) :
    Leads e job φ w (k r) w' := by
  cases φ with
  | ackInvalid | ackDuplicate | ackProcessed | ackTerminal | ackRetry | recoverAck =>
    cases hv
    exact leads_ack rfl hl.1 h
  | sleep =>
    cases hv
    obtain ⟨hclean, hd⟩ := quiet_spec rfl hl h
    cases r with
    | ok _ => exact ⟨hclean, hd ▸ .refl⟩
    | error exc => exact leads_done hclean hd
  | insert =>
    cases hv
    obtain ⟨err, rfl, rfl⟩ | heff | ⟨err, r', _, rfl, heff⟩ := perform_cases h
    · exact leads_done rollback_clean (refused_durable _)
    · obtain ⟨hc, ⟨exc, rfl, hd⟩ | ⟨rfl, queuedAt, now, tr, htr, hd⟩⟩ := insertTask_spec heff hl
      · exact leads_done hc hd
      · refine ⟨⟨hc, ?_, tr, ?_⟩, hd ▸ .insert queuedAt now htr⟩
        · rw [hd]
          exact ⟨_, Function.update_self ..⟩
        · rw [hd]
          exact htr
    · obtain ⟨hc, ⟨exc, _, hd⟩ | ⟨_, queuedAt, now, tr, htr, hd⟩⟩ := insertTask_spec heff hl
      · exact leads_done hc hd
      · exact ⟨hc, hd ▸ .insert queuedAt now htr⟩
  | claim =>
    cases hv
    obtain ⟨err, rfl, rfl⟩ | heff | ⟨err, r', _, rfl, heff⟩ := perform_cases h
    · exact leads_done rollback_clean (refused_durable _)
    · obtain ⟨hc, ⟨rfl, hd⟩ | ⟨now, row, row', hrow, hclaim, rfl, hd⟩⟩ := claimTask_spec heff hl.1
      · exact ⟨⟨hc, hd ▸ hl.2⟩, hd ▸ .refl⟩
      · have hch : Change e job .claim w.durable w'.durable := hd ▸ .claim hrow hclaim
        refine ⟨⟨hc, hl.2.evolves hch.evolves, ?_, (claimTask_wellFormed hclaim).attempts, row', ?_, le_rfl, rfl⟩, hch⟩
        · obtain ⟨_, _, _, ha, _⟩ := claimTask_eq_some hclaim
          omega
        · rw [hd]
          exact Function.update_self ..
    · obtain ⟨hc, ⟨_, hd⟩ | ⟨now, row, row', hrow, hclaim, _, hd⟩⟩ := claimTask_spec heff hl.1
      · exact leads_done hc hd
      · exact ⟨hc, hd ▸ .claim hrow hclaim⟩
  | get =>
    cases hv
    obtain ⟨err, rfl, rfl⟩ | heff := perform_inTransaction rfl h
    · exact leads_done rollback_clean (refused_durable _)
    · obtain ⟨hc, rfl, hd⟩ := getTask_spec heff hl.1
      refine ⟨?_, hd ▸ .refl⟩
      rw [← hd]
      exact local_afterGet hc (hd ▸ hl.2)
  | selectTrace =>
    cases hv
    obtain ⟨err, rfl, rfl⟩ | heff := perform_inTransaction rfl h
    · exact leads_done rollback_clean (refused_durable _)
    · obtain ⟨hc, rfl, hd⟩ := selectTrace_spec heff hl.1
      obtain ⟨_, hi, hst, hcore⟩ := hl
      refine ⟨?_, hd ▸ .refl⟩
      rw [← hd] at hs hi hst ⊢
      exact local_afterSelectTrace hs hc hi hst hcore
  | recoverPublish =>
    cases hv
    obtain ⟨hc, hi, hst, hcore⟩ := hl
    obtain ⟨hc', hch, ⟨err, rfl⟩ | ⟨id, rfl, hen⟩⟩ := xadd_cases job .recoverPublish rfl hc h
    · exact ⟨hc', hch⟩
    · exact ⟨⟨hc', hi.evolves hch.evolves, hst.evolves rfl hch.evolves, hcore,
        published_enrichment hd (hne rfl) hen⟩, hch⟩
  | recoverMark id =>
    cases hv
    refine plain_set (hl.1.follows job) rfl .rfl (fun _ _ => rfl) hl.2.1 h fun u' hd hf => ?_
    exact ⟨hd ▸ hl.2, id, u', hf⟩
  | recoverCommit =>
    cases hv
    obtain ⟨hen, id, u, hf⟩ := hl
    obtain ⟨hc, hch, rfl | ⟨err, rfl⟩⟩ := commit_set_cases hf h fun now row hrow =>
      .enqueued _ now (.inl rfl) hrow
    · exact ⟨⟨hc, hen.evolves hch.evolves⟩, hch⟩
    · exact ⟨hc, hch⟩
  | markProcessing task =>
    cases hv
    refine guarded_set (hl.1.follows job) rfl .rfl (fun _ _ => rfl) hl.2 h fun u' hd hf => ?_
    exact ⟨hd ▸ hl.2, u', hf⟩
  | commitProcessing task =>
    cases hv
    obtain ⟨hc, u, hf⟩ := hl
    obtain ⟨hclean, hch, rfl | ⟨err, rfl⟩⟩ := commit_set_cases hf h fun now row hrow =>
      .processing task now hrow
    · exact ⟨⟨hclean, hc.evolves hch.evolves⟩, hch⟩
    · exact ⟨local_caught (.error err) (hc.evolves hch.evolves), hch⟩
  | analyse task =>
    cases hv
    obtain ⟨hclean, hd⟩ := quiet_spec rfl hl.1 h
    cases r with
    | ok a => exact ⟨⟨hclean, hd ▸ hl.2⟩, hd ▸ .refl⟩
    | error exc => exact leads_caught exc hl.2 hd
  | save task a =>
    cases hv
    obtain ⟨err, rfl, rfl⟩ | heff := perform_inTransaction rfl h
    · exact leads_caught (.error err) hl.2 (refused_durable _)
    · obtain ⟨rfl, hd, u', hf⟩ := World.Follows.execute_save hl.1 heff
      exact ⟨local_afterSave (hd ▸ hl.2) a hf, hd ▸ .refl⟩
  | selectMedia task reasons =>
    cases hv
    obtain ⟨hc, hproc, u, hf⟩ := hl
    obtain ⟨err, rfl, rfl⟩ | heff := perform_inTransaction rfl h
    · exact leads_caught (.error err) hc (refused_durable _)
    · obtain ⟨hh, rfl, hd⟩ := selectMedia_spec heff hf.holds
      exact ⟨⟨hd ▸ hc, hproc, u, hh, hd ▸ hf.task, hd ▸ hf.trace, hf.write⟩, hd ▸ .refl⟩
  | updateState task reasons required =>
    cases hv
    obtain ⟨hc, hproc, u, hf⟩ := hl
    refine guarded_set hf rfl .rfl (stageTrace_core hproc reasons required) hc h fun u' hd hf => ?_
    · exact ⟨hd ▸ hc, u', hf⟩
  | complete task =>
    cases hv
    obtain ⟨hc, hproc, u, hf⟩ := hl
    refine guarded_set hf rfl .rfl (stageTrace_enrichment hproc (enrichmentResult job)) hc h fun u' hd hf => ?_
    · exact ⟨hd ▸ hc, u', hf⟩
  | markSucceeded task result =>
    cases hv
    obtain ⟨hc, u, hf⟩ := hl
    obtain ⟨err, rfl, rfl⟩ | heff := perform_inTransaction rfl h
    · exact leads_caught (.error err) hc (refused_durable _)
    · obtain ⟨hd, ⟨rfl, u', hf'⟩ | ⟨rfl, hf'⟩⟩ := hf.execute_mark rfl .rfl (fun _ _ => rfl) heff
      · exact ⟨⟨hd ▸ hc, u', hf'⟩, hd ▸ .refl⟩
      · exact ⟨trivial, hd ▸ .refl⟩
  | commitSucceeded task result =>
    cases hv
    exact leads_commitSucceeded hs hl h
  | publishEnrichment task result =>
    cases hv
    obtain ⟨hclean, hc, hst, hcore⟩ := hl
    obtain ⟨hc', hch, ⟨err, rfl⟩ | ⟨id, rfl, hen⟩⟩ := xadd_cases job (.publishEnrichment task result) rfl hclean h
    · exact ⟨trivial, hch⟩
    · exact ⟨⟨hc', hc.evolves hch.evolves, hc.1.evolves hch.evolves, hst.evolves rfl hch.evolves, hcore,
        published_enrichment hd (hne rfl) hen⟩, hch⟩
  | markEnqueued task result id =>
    cases hv
    obtain ⟨hclean, hc, hen⟩ := hl
    refine guarded_set (hclean.follows job) rfl .rfl (fun _ _ => rfl) hc h fun u' hd hf => ?_
    exact ⟨hd ▸ hc, hd ▸ hen, id, u', hf⟩
  | commitEnqueued task result =>
    cases hv
    obtain ⟨hc, hen, id, u, hf⟩ := hl
    obtain ⟨hclean, hch, rfl | ⟨err, rfl⟩⟩ := commit_set_cases hf h fun now row hrow =>
      .enqueued _ now (.inr ⟨task, result, rfl⟩) hrow
    · obtain ⟨_, hst, _, hpub⟩ := hen.evolves hch.evolves
      exact ⟨⟨hclean, hst, fun _ _ _ _ => hpub⟩, hch⟩
    · exact ⟨local_caught (.error err) (hc.evolves hch.evolves), hch⟩
  | rollbackRaise exc =>
    cases hv
    obtain ⟨hclean, hd⟩ := rollback_spec h
    cases r with
    | ok _ => exact leads_done hclean hd
    | error exc' => exact leads_done hclean hd
  | rollbackFailure task err =>
    cases hv
    obtain ⟨hclean, hd⟩ := rollback_spec h
    cases r with
    | ok _ =>
      refine ⟨?_, hd ▸ .refl⟩
      simp only [plain]
      split
      · rename_i hmax
        exact ⟨hclean, hd ▸ hl, hmax⟩
      · rename_i hmax
        exact ⟨hclean, hd ▸ hl, not_le.1 hmax⟩
    | error exc' => exact leads_done hclean hd
  | dlqTime task err | retryTime task err =>
    cases hv
    obtain ⟨hclean, hd⟩ := quiet_spec rfl hl.1 h
    cases r with
    | ok now => exact ⟨⟨hclean, hd ▸ hl.2⟩, hd ▸ .refl⟩
    | error exc => exact leads_done hclean hd
  | publishDlq task err now =>
    cases hv
    obtain ⟨hclean, hc, hmax⟩ := hl
    obtain ⟨hc', hch, ⟨err, rfl⟩ | ⟨id, rfl, hen⟩⟩ := xadd_cases job (.publishDlq task err now) rfl hclean h
    · exact ⟨hc', hch⟩
    · exact ⟨⟨hc', hc.evolves hch.evolves, hmax, _, mem_of_entries_append hen, rfl,
        key_publish hd.strip (hne rfl)⟩, hch⟩
  | markTerminal task err =>
    cases hv
    obtain ⟨hclean, hc, hmax, hdlq⟩ := hl
    refine plain_mark hclean .rfl (fun _ _ => rfl) h fun u' hd hf => ?_
    exact ⟨hd ▸ hc, hmax, hd ▸ hdlq, u', hf⟩
  | failTerminal task err =>
    cases hv
    obtain ⟨hc, hmax, hdlq, u, hf⟩ := hl
    refine plain_set hf rfl .rfl (fun _ _ => rfl) hc.1 h fun u' hd hf => ?_
    exact ⟨hd ▸ hc, hmax, hd ▸ hdlq, u', hf⟩
  | commitTerminal task err =>
    cases hv
    obtain ⟨hc, hmax, hdlq, u, hf⟩ := hl
    obtain ⟨hclean, hch, ⟨err', rfl⟩ | ⟨rfl, now, row, row', hmark, hrow'⟩⟩ := commit_mark_cases hf h
      fun now row row' now' tr hrow hmark htr => .terminal task err hrow htr hmark
    · exact ⟨hclean, hch⟩
    · exact ⟨⟨hclean, ⟨row', hrow', (markFailedTerminal_spec hmark).2⟩, hdlq.evolves hch.evolves⟩, hch⟩
  | markRetryable task err =>
    cases hv
    obtain ⟨hclean, hc, hlt⟩ := hl
    refine plain_mark hclean .rfl (fun _ _ => rfl) h fun u' hd hf => ?_
    exact ⟨hd ▸ hc, hlt, u', hf⟩
  | failRetryable task err =>
    cases hv
    obtain ⟨hc, hlt, u, hf⟩ := hl
    refine plain_set hf rfl .rfl (fun _ _ => rfl) hc.1 h fun u' hd hf => ?_
    exact ⟨hd ▸ hc, hlt, u', hf⟩
  | commitRetryable task err =>
    cases hv
    obtain ⟨hc, hlt, u, hf⟩ := hl
    obtain ⟨hclean, hch, ⟨err', rfl⟩ | ⟨rfl, _⟩⟩ := commit_mark_cases hf h
      fun now row row' now' tr hrow hmark htr => .retryable task err hrow htr hmark
    · exact ⟨hclean, hch⟩
    · exact ⟨⟨hclean, hc.evolves hch.evolves, hlt⟩, hch⟩
  | publishRetry task err now =>
    cases hv
    obtain ⟨hclean, hc, hlt⟩ := hl
    obtain ⟨hc', hch, ⟨err, rfl⟩ | ⟨id, rfl, hen⟩⟩ := xadd_cases job (.publishRetry task err now) rfl hclean h
    · exact ⟨hc', hch⟩
    · obtain ⟨en, hmem, _, hmsg⟩ := hd
      exact ⟨⟨hc', _, _, en, _, hen, hmem, hmsg, List.mem_singleton_self _, rfl,
        key_publish (strip_traceId hmsg) (hne rfl), _, _, rfl⟩, hch⟩
  | done x => cases hv

end AuditGateway.Analysis
