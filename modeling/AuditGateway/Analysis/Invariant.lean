import AuditGateway.Analysis.Steps
import AuditGateway.Analysis.Sound

/-!
# The invariant of the workers

`Inv` holds in every state the workers reach (`inv_reachable`): the durable state is
sound, and every execution may rely on the facts of its control point. `Move` is what
a step of the whole system can be, in terms of the protocol; `move_of_step` is how the
invariants of single claims are proved, from the moves and not from the code.
-/

namespace AuditGateway.Analysis

open AuditGateway.Framework

variable {d : Decoding} {c c' : PhaseConfig} {a : Step}

structure Inv (c : PhaseConfig) : Prop where
  sound : Sound c.world.durable
  fresh {e : ExecId} : c.threads e = none → c.world.Clean e ∧ c.world.db.txnStart e = none
  delivered {e : ExecId} {th : Thread Job Phase} : c.threads e = some th → Delivered th.info c.world.durable
  live {e : ExecId} {job : Job} {φ : Phase} :
    c.threads e = some ⟨job, some φ⟩ → φ.live = true → job.traceId ≠ ""
  locals {e : ExecId} {job : Job} {φ : Phase} : c.threads e = some ⟨job, some φ⟩ → φ.Local e job c.world

/-- What a step of the system can be. -/
inductive Move (c c' : PhaseConfig) : Step → Prop
  | exec {d : Decoding} {e : ExecId} {ch : Choice} {job : Job} {φ : Phase} {o : Op} {k : o.Res → Phase}
      {r : o.Res} (hth : c.threads e = some ⟨job, some φ⟩) (hview : φ.view job = some ⟨o, k⟩)
      (hperf : perform d e o ch c.world = some (r, c'.world))
      (hlocal : φ.Local e job c.world) (hlocal' : (k r).Local e job c'.world)
      (hdelivered : Delivered job c.world.durable) (hlive : φ.live = true → job.traceId ≠ "")
      (hchange : Change e job φ c.world.durable c'.world.durable)
      (hrespects : World.Respects e c.world c'.world)
      (hthreads : c'.threads = Function.update c.threads e (some ⟨job, some (k r)⟩))
      (hhistory : c'.history = c.history ++ [⟨e, job, o, r⟩]) : Move c c' (.exec e ch)
  | outside {a : EnvAction} (houtside : Outside a c.world.durable c'.world.durable)
      (htables : c'.world.db.tasks = c.world.db.tasks ∧ c'.world.db.traces.dirty = c.world.db.traces.dirty ∧
        c'.world.db.analysis = c.world.db.analysis ∧ c'.world.db.txnStart = c.world.db.txnStart)
      (htraces : ∀ t v, c.world.db.traces.dirty t = some v →
        c'.world.db.traces.committed t = c.world.db.traces.committed t)
      (hthreads : c'.threads = c.threads) (hhistory : c'.history = c.history) : Move c c' (.env a)
  | crash {e : ExecId} {th : Thread Job Phase} (hth : c.threads e = some th)
      (hworld : c'.world = { c.world with db := c.world.db.rollback e })
      (hthreads : c'.threads = Function.update c.threads e (some ⟨th.info, none⟩))
      (hhistory : c'.history = c.history) : Move c c' (.crash e)
  | start {e : ExecId} {x : Delivery} {job : Job} (hth : c.threads e = none)
      (hdelivered : Delivered job c.world.durable) (hx : messageFromEntry x.entry = .ok job.message)
      (hworld : c'.world = c.world.withRedis e c.world.redis)
      (hthreads : c'.threads = Function.update c.threads e (some ⟨job, some (Phase.boot job)⟩))
      (hhistory : c'.history = c.history) : Move c c' (.start e x)

/-! ## Steps are moves -/

theorem outside_of_env {a : EnvAction} {w w' : World} (h : envStep a w = some w') :
    Outside a w.durable w'.durable ∧ (w'.db.tasks = w.db.tasks ∧ w'.db.traces.dirty = w.db.traces.dirty ∧
      w'.db.analysis = w.db.analysis ∧ w'.db.txnStart = w.db.txnStart) ∧
      ∀ t v, w.db.traces.dirty t = some v → w'.db.traces.committed t = w.db.traces.committed t := by
  cases a with
  | tick t =>
    simp only [envStep] at h
    split at h <;> [skip; cases h]
    obtain rfl := Option.some.inj h
    exact ⟨.tick, ⟨rfl, rfl, rfl, rfl⟩, fun _ _ _ => rfl⟩
  | captureTrace t =>
    simp only [envStep] at h
    split at h <;> [skip; cases h]
    rename_i hnone hdirty
    obtain rfl := Option.some.inj h
    refine ⟨.capture hnone, ⟨rfl, rfl, rfl, rfl⟩, fun t' v hv => ?_⟩
    have ht : t' ≠ t := by
      rintro rfl
      rw [hdirty] at hv
      cases hv
    exact Function.update_of_ne ht _ _
  | markTraceCoreQueued t queuedAt now =>
    simp only [envStep] at h
    split at h <;> [skip; cases h]
    rename_i hrow hdirty
    split at h <;> [skip; cases h]
    obtain rfl := Option.some.inj h
    refine ⟨.queued hrow, ⟨rfl, rfl, rfl, rfl⟩, fun t' v hv => ?_⟩
    have ht : t' ≠ t := by
      rintro rfl
      rw [hdirty] at hv
      cases hv
    exact Function.update_of_ne ht _ _
  | publish stream payload id =>
    simp only [envStep] at h
    split at h <;> [skip; cases h]
    rename_i hcond
    obtain rfl := Option.some.inj h
    exact ⟨.publish hcond.1 hcond.2, ⟨rfl, rfl, rfl, rfl⟩, fun _ _ _ => rfl⟩
  | discard entry =>
    simp only [envStep] at h
    split at h <;> [cases h; skip]
    rename_i hm
    split at h <;> [skip; cases h]
    rename_i hcond
    obtain rfl := Option.some.inj h
    exact ⟨.discard hcond.1 hcond.2.1 hm, ⟨rfl, rfl, rfl, rfl⟩, fun _ _ _ => rfl⟩

variable {e : ExecId} {job : Job}

theorem deliver_eq_some {x : Delivery} {w w' : World}
    (h : deliver e x w = some (job, w')) :
    Delivered job w.durable ∧ messageFromEntry x.entry = .ok job.message ∧
      w' = w.withRedis e w.redis := by
  unfold deliver at h
  split at h <;> [cases h; skip]
  rename_i hm
  split at h <;> [skip; cases h]
  rename_i hcond
  obtain ⟨rfl, rfl⟩ := Prod.mk.inj (Option.some.inj h)
  exact ⟨⟨x.entry, hcond.1, hcond.2.1, hm⟩, hm, rfl⟩

theorem move_of_step (hc : Inv c) (h : (phases d).step c a = some c') : Move c c' a := by
  cases a with
  | exec e ch =>
    obtain ⟨job, φ, o, k, r, w', hth, hview, hperf, rfl⟩ := exec_step h
    have hl := exec_local hc.sound (hc.delivered hth) (hc.live hth) (hc.locals hth) hview hperf
    exact .exec hth hview hperf (hc.locals hth) hl.1 (hc.delivered hth) (hc.live hth) hl.2
      (perform_respects hperf) rfl rfl
  | crash e =>
    obtain ⟨th, hth, rfl⟩ := crash_step h
    exact .crash hth rfl rfl rfl
  | env a =>
    obtain ⟨w', hw', rfl⟩ := env_step h
    obtain ⟨ho, ht, hd⟩ := outside_of_env hw'
    exact .outside ho ht hd rfl rfl
  | start e x =>
    obtain ⟨job, w', hth, hx, rfl⟩ := start_step h
    obtain ⟨hdel, hm, rfl⟩ := deliver_eq_some hx
    exact .start hth hdel hm rfl rfl rfl

/-! ## Moves keep the invariant -/

theorem Move.evolves (h : Move c c' a) : Evolves c.world.durable c'.world.durable := by
  cases h with
  | exec _ _ _ _ _ _ _ hchange => exact hchange.evolves
  | outside houtside => exact houtside.evolves
  | crash _ hworld =>
    rw [hworld]
    exact .refl _
  | start _ _ _ hworld =>
    rw [hworld]
    exact .refl _

theorem Move.thread_info (h : Move c c' a) {th : Thread Job Phase}
    (hth : c.threads e = some th) : ∃ th', c'.threads e = some th' ∧ th'.info = th.info := by
  have hupdate : ∀ {e₁ th₁}, c'.threads = Function.update c.threads e₁ (some th₁) →
      (∀ th₀, c.threads e₁ = some th₀ → th₁.info = th₀.info) →
      ∃ th', c'.threads e = some th' ∧ th'.info = th.info := by
    intro e₁ th₁ hthreads hinfo
    rw [hthreads]
    by_cases he : e = e₁
    · subst he
      exact ⟨th₁, Function.update_self .., hinfo th hth⟩
    · exact ⟨th, by rw [Function.update_of_ne he, hth], rfl⟩
  cases h with
  | exec hth₁ _ _ _ _ _ _ _ _ hthreads =>
    refine hupdate hthreads fun th₀ h₀ => ?_
    obtain rfl := Option.some.inj (hth₁.symm.trans h₀)
    rfl
  | outside _ _ _ hthreads => exact ⟨th, hthreads ▸ hth, rfl⟩
  | crash hth₁ _ hthreads =>
    refine hupdate hthreads fun th₀ h₀ => ?_
    obtain rfl := Option.some.inj (hth₁.symm.trans h₀)
    rfl
  | start hth₁ _ _ _ hthreads =>
    refine hupdate hthreads fun th₀ h₀ => ?_
    rw [hth₁] at h₀
    cases h₀

theorem local_boot {w : World} (h : w.Clean e) : (Phase.boot job).Local e job w := by
  unfold Phase.boot
  split
  · rename_i hs
    exact ⟨h, hs⟩
  · split <;> exact h

theorem live_boot {s : Durable} (hd : Delivered job s) (h : (Phase.boot job).live = true) :
    job.traceId ≠ "" := by
  unfold Phase.boot at h
  split at h
  · cases h
  · rename_i hs
    rw [hd.strip] at hs
    exact hs

theorem live_of_view {φ : Phase} {o : Op} {k : o.Res → Phase} {r : o.Res}
    (hv : φ.view job = some ⟨o, k⟩) (h : (k r).live = true) : φ.live = true := by
  cases φ with
  | ackInvalid =>
    cases hv
    cases r <;> cases h
  | done => cases hv
  | _ => rfl

theorem Inv.of_thread (hc : Inv c) {th : Thread Job Phase}
    (hthreads : c'.threads = Function.update c.threads e (some th)) (hsound : Sound c'.world.durable)
    (hresp : World.Respects e c.world c'.world) (hev : Evolves c.world.durable c'.world.durable)
    (hset : ∀ t, c.world.durable.HasStatus ⟨t, .core⟩ .succeeded → c.world.durable.Settled t →
      c'.world.durable.Settled t)
    (hdel : Delivered th.info c'.world.durable)
    (hlive : ∀ φ, th.state = some φ → φ.live = true → th.info.traceId ≠ "")
    (hlocal : ∀ φ, th.state = some φ → φ.Local e th.info c'.world) : Inv c' := by
  have hother : ∀ {e'}, c'.threads e' = none → e' ≠ e ∧ c.threads e' = none := by
    intro e' he'
    rw [hthreads] at he'
    by_cases hne : e' = e
    · subst hne
      rw [Function.update_self] at he'
      cases he'
    · exact ⟨hne, by rwa [Function.update_of_ne hne] at he'⟩
  refine ⟨hsound, ?_, ?_, ?_, ?_⟩
  · intro e' he'
    obtain ⟨hne, he'⟩ := hother he'
    obtain ⟨hclean, htxn⟩ := hc.fresh he'
    exact ⟨hclean.respects hresp hne, (hresp.txnStart hne).trans htxn⟩
  · intro e' th' he'
    rw [hthreads] at he'
    obtain ⟨_, rfl⟩ | ⟨_, he'⟩ := update_eq_some he'
    · exact hdel
    · exact (hc.delivered he').evolves hev
  · intro e' job φ he'
    rw [hthreads] at he'
    obtain ⟨_, rfl⟩ | ⟨_, he'⟩ := update_eq_some he'
    · exact hlive φ rfl
    · exact hc.live he'
  · intro e' job φ he'
    rw [hthreads] at he'
    obtain ⟨rfl, rfl⟩ | ⟨hne, he'⟩ := update_eq_some he'
    · exact hlocal φ rfl
    · exact (hc.locals he').stable hresp hne hev hset

theorem Inv.of_outside (hc : Inv c) (hthreads : c'.threads = c.threads)
    (hsound : Sound c'.world.durable) (hresp : ∀ e, World.Respects e c.world c'.world)
    (hev : Evolves c.world.durable c'.world.durable)
    (hset : ∀ t, c.world.durable.Settled t → c'.world.durable.Settled t) : Inv c' := by
  have hne : ∀ e : ExecId, e ≠ e + 1 := fun e => Nat.ne_of_lt (Nat.lt_succ_self e)
  refine ⟨hsound, ?_, ?_, ?_, ?_⟩
  · intro e he
    obtain ⟨hclean, htxn⟩ := hc.fresh (hthreads ▸ he)
    exact ⟨hclean.respects (hresp (e + 1)) (hne e), ((hresp (e + 1)).txnStart (hne e)).trans htxn⟩
  · intro e th he
    exact (hc.delivered (hthreads ▸ he)).evolves hev
  · intro e job φ he
    exact hc.live (hthreads ▸ he)
  · intro e job φ he
    exact (hc.locals (hthreads ▸ he)).stable (hresp (e + 1)) (hne e) hev fun t _ => hset t

theorem Inv.move (hc : Inv c) (h : Move c c' a) : Inv c' := by
  have hev := h.evolves
  cases h with
  | exec hth hview hperf hlocal hlocal' hdelivered hlive hchange hrespects hthreads hhistory =>
    refine hc.of_thread hthreads (hchange.sound hc.sound hdelivered hlive hlocal) hrespects hev
      (fun t => hchange.settled hc.sound hdelivered hlive hlocal) (hdelivered.evolves hev) ?_ ?_
    · intro φ' hφ' hl
      obtain rfl := Option.some.inj hφ'
      exact hlive (live_of_view hview hl)
    · intro φ' hφ'
      obtain rfl := Option.some.inj hφ'
      exact hlocal'
  | outside houtside htables htraces hthreads hhistory =>
    refine hc.of_outside hthreads (houtside.sound hc.sound) (fun e => ⟨?_, ⟨?_, ?_⟩, ?_, ?_⟩) hev
      fun t => houtside.settled
    · exact htables.1 ▸ .refl e _
    · intro u _ t v
      rw [htables.2.1]
    · intro u _ t v hv
      exact htraces t _ hv
    · exact htables.2.2.1 ▸ .refl e _
    · intro u _
      rw [htables.2.2.2]
  | @crash e th hth hworld hthreads hhistory =>
    have hdur : c'.world.durable = c.world.durable := by rw [hworld]; rfl
    have hnone : ∀ φ, (⟨th.info, none⟩ : Thread Job Phase).state ≠ some φ := by simp
    refine hc.of_thread hthreads (hdur ▸ hc.sound) ?_ hev (fun t _ hset => hdur ▸ hset)
      ((hc.delivered hth).evolves hev) (fun φ h => absurd h (hnone φ)) fun φ h => absurd h (hnone φ)
    rw [hworld]
    exact ⟨Table.rollback_respects, Table.rollback_respects, Table.rollback_respects,
      fun hu => Function.update_of_ne hu _ _⟩
  | start hth hdelivered hx hworld hthreads hhistory =>
    have hdur : c'.world.durable = c.world.durable := by rw [hworld]; rfl
    refine hc.of_thread hthreads (hdur ▸ hc.sound) ?_ hev (fun t _ hset => hdur ▸ hset)
      (hdur ▸ hdelivered) ?_ ?_
    · rw [hworld]
      exact .of_db rfl
    · intro φ hφ hl
      obtain rfl := Option.some.inj hφ
      exact live_boot hdelivered hl
    · intro φ hφ
      obtain rfl := Option.some.inj hφ
      rw [hworld]
      exact local_boot ((hc.fresh hth).1.withRedis _)

theorem inv_init (h : (phases d).init c) : Inv c := by
  obtain ⟨hw, hth, _⟩ := h
  have hnone : ∀ e, c.threads e = none := fun e => by rw [hth]
  have htasks : c.world.durable.tasks = fun _ => none := hw.tasks
  have htraces : c.world.durable.traces = fun _ => none := hw.traces
  refine ⟨⟨?_, ?_, ?_, ?_⟩, ?_, ?_, ?_, ?_⟩
  · intro κ row hrow
    rw [htasks] at hrow
    cases hrow
  · intro κ row hrow
    rw [htasks] at hrow
    cases hrow
  · intro t r hr
    rw [htraces] at hr
    cases hr
  · intro t r hr
    rw [htraces] at hr
    cases hr
  · intro e _
    refine ⟨⟨fun k v => ?_, fun k v => ?_, fun k v => ?_⟩, by rw [hw.txnStart]⟩
    · simp [hw.tasksClean]
    · simp [hw.tracesClean]
    · simp [hw.analysisClean]
  · intro e th he
    rw [hnone] at he
    cases he
  · intro e job φ he
    rw [hnone] at he
    cases he
  · intro e job φ he
    rw [hnone] at he
    cases he

theorem inv_reachable {ok : PhaseConfig → Step → Prop} (h : (phases d).ReachableBy ok c) : Inv c :=
  h.induct (fun _ hi => inv_init hi) fun _ _ _ _ hc _ hs => hc.move (move_of_step hc hs)

/-! ## From the phases to the program -/

theorem nextOp_of_view {φ : Phase} {o : Op} {k : o.Res → Phase}
    (hth : c.threads e = some ⟨job, some φ⟩) (hview : φ.view job = some ⟨o, k⟩) :
    c.nextOp phaseCode e = some o := by
  have hnext : Thread.next phaseCode ⟨job, some φ⟩ = some ⟨o, k⟩ := by
    rw [Thread.next, phaseCode_view]
    exact hview
  rw [Config.nextOp, hth, Option.bind_some, hnext]
  rfl

theorem phases_of_workers {c : WorkerConfig} (h : (workers d).Reachable c) :
    ∃ p, (phases d).Reachable p ∧ c = phaseHom.mapConfig p :=
  phaseHom.reachable h

end AuditGateway.Analysis
