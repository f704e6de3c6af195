import AuditGateway.Analysis.Invariant

/-!
# Stage effects are committed at most once

The writes of a stage processor become visible with the commit that marks its task
as succeeded, and that update needs a task that is leased. So an execution whose
lease has expired, or that shares its worker id with the one that holds it, can
commit its writes only if no other has: afterwards the task has succeeded, and stays so.
-/

namespace AuditGateway.Analysis

open AuditGateway.Framework

variable {d : Decoding} {c c' : PhaseConfig} {a : Step}

structure Once (c : PhaseConfig) : Prop where
  succeeded {e : ExecId} {x : StageWrite} :
    c.world.durable.writes e = some x → c.world.durable.HasStatus x.key .succeeded
  owner {e : ExecId} {x : StageWrite} : c.world.durable.writes e = some x →
    ∃ th, c.threads e = some th ∧ th.info.key = x.key
  unique {e e' : ExecId} {x x' : StageWrite} : c.world.durable.writes e = some x →
    c.world.durable.writes e' = some x' → x.key = x'.key → e = e'

theorem Change.writes_back {e : ExecId} {job : Job} {φ : Phase} {s s' : Durable}
    (h : Change e job φ s s') :
    s'.writes = s.writes ∨ (s'.writes = Function.update s.writes e (some ⟨job.key, job.processor⟩) ∧
      s'.HasStatus job.key .succeeded ∧ ¬ s.HasStatus job.key .succeeded) := by
  cases h with
  | refl | insert | claim | processing | enqueued | terminal | retryable | publish | ack => exact .inl rfl
  | succeeded task result hrow hr hmark =>
    obtain ⟨hleased, hst⟩ := markSucceeded_spec hmark
    exact .inr ⟨rfl, ⟨_, Function.update_self .., hst⟩, not_succeeded_of_leased hrow hleased⟩

theorem Outside.writes {act : EnvAction} {s s' : Durable} (h : Outside act s s') : s'.writes = s.writes := by
  cases h <;> rfl

theorem Move.writes_back (h : Move c c' a) :
    c'.world.durable.writes = c.world.durable.writes ∨
      ∃ e job φ, c.threads e = some ⟨job, some φ⟩ ∧
        c'.world.durable.writes = Function.update c.world.durable.writes e (some ⟨job.key, job.processor⟩) ∧
        c'.world.durable.HasStatus job.key .succeeded ∧ ¬ c.world.durable.HasStatus job.key .succeeded := by
  cases h with
  | exec hth _ _ _ _ _ _ hchange =>
    obtain h | h := hchange.writes_back
    · exact .inl h
    · exact .inr ⟨_, _, _, hth, h⟩
  | outside houtside => exact .inl houtside.writes
  | crash _ hworld | start _ _ _ hworld =>
    rw [hworld]
    exact .inl rfl

theorem Once.move (hc : Once c) (h : Move c c' a) : Once c' := by
  obtain hw | ⟨e₀, job, φ, hth, hw, hst, hnot⟩ := h.writes_back
  · refine ⟨?_, ?_, ?_⟩
    · intro e x hx
      exact (hc.succeeded (hw ▸ hx)).evolves rfl h.evolves
    · intro e x hx
      obtain ⟨th, hth, hkey⟩ := hc.owner (hw ▸ hx)
      obtain ⟨th', hth', hinfo⟩ := h.thread_info hth
      exact ⟨th', hth', hinfo ▸ hkey⟩
    · intro e e' x x' hx hx'
      exact hc.unique (hw ▸ hx) (hw ▸ hx')
  · -- Before this commit the task had not succeeded, so nobody had committed writes for it.
    have hfirst : ∀ {e x}, c.world.durable.writes e = some x → x.key ≠ job.key := by
      intro e x hx hkey
      exact hnot (hkey ▸ hc.succeeded hx)
    refine ⟨?_, ?_, ?_⟩
    · intro e x hx
      rw [hw] at hx
      obtain ⟨_, rfl⟩ | ⟨_, hx⟩ := update_eq_some hx
      · exact hst
      · exact (hc.succeeded hx).evolves rfl h.evolves
    · intro e x hx
      rw [hw] at hx
      obtain ⟨rfl, rfl⟩ | ⟨_, hx⟩ := update_eq_some hx
      · obtain ⟨th', hth', hinfo⟩ := h.thread_info hth
        exact ⟨th', hth', hinfo ▸ rfl⟩
      · obtain ⟨th, hth, hkey⟩ := hc.owner hx
        obtain ⟨th', hth', hinfo⟩ := h.thread_info hth
        exact ⟨th', hth', hinfo ▸ hkey⟩
    · intro e e' x x' hx hx' hkey
      rw [hw] at hx hx'
      obtain ⟨he, rfl⟩ | ⟨_, hold⟩ := update_eq_some hx <;>
        obtain ⟨he', rfl⟩ | ⟨_, hold'⟩ := update_eq_some hx'
      · exact he.trans he'.symm
      · exact absurd hkey.symm (hfirst hold')
      · exact absurd hkey (hfirst hold)
      · exact hc.unique hold hold' hkey

theorem once_reachable {ok : PhaseConfig → Step → Prop} (h : (phases d).ReachableBy ok c) : Once c := by
  refine h.induct ?_ fun s a s' hs hc _ hstep => hc.move (move_of_step (inv_reachable hs) hstep)
  rintro s ⟨hw, _, _⟩
  have hnone : s.world.durable.writes = fun _ => none := hw.analysis
  refine ⟨?_, ?_, ?_⟩ <;>
  · intros
    simp_all

theorem Once.persists (hc : Once c) (h : Move c c' a) {e : ExecId} {x : StageWrite}
    (hx : c.world.durable.writes e = some x) : ∃ x', c'.world.durable.writes e = some x' ∧ x'.key = x.key := by
  obtain hw | ⟨e₀, job, φ, hth, hw, _⟩ := h.writes_back
  · exact ⟨x, hw ▸ hx, rfl⟩
  · rw [hw]
    by_cases he : e = e₀
    · subst he
      obtain ⟨th, hth', hkey⟩ := hc.owner hx
      obtain rfl := Option.some.inj (hth.symm.trans hth')
      exact ⟨_, Function.update_self .., hkey⟩
    · exact ⟨x, by rw [Function.update_of_ne he, hx], rfl⟩

/-- For every task, over every run: if an execution has committed the writes of its
stage processor then no other has, and no other ever does. -/
theorem stage_effects_commit_once {c c' : WorkerConfig} (hc : (workers d).Reachable c)
    (hl : (workers d).Leads (fun _ _ => True) c c') {e e' : ExecId} {x x' : StageWrite}
    (hx : c.world.durable.writes e = some x) (hx' : c'.world.durable.writes e' = some x')
    (hkey : x'.key = x.key) : e' = e := by
  obtain ⟨p, hp, rfl⟩ := phases_of_workers hc
  obtain ⟨p', hp', rfl⟩ := phaseHom.leads hl
  have hlater : ∃ x', p'.world.durable.writes e = some x' ∧ x'.key = x.key := by
    refine hp'.induct hp (P := fun q => ∃ x', q.world.durable.writes e = some x' ∧ x'.key = x.key) ?_ ⟨x, hx, rfl⟩
    rintro q a q' hq ⟨y, hy, hykey⟩ _ hstep
    obtain ⟨y', hy', hykey'⟩ := (once_reachable hq).persists (move_of_step (inv_reachable hq) hstep) hy
    exact ⟨y', hy', hykey'.trans hykey⟩
  obtain ⟨y, hy, hykey⟩ := hlater
  exact (once_reachable (hp.leads hp')).unique hx' hy (hkey.trans hykey.symm)

def staleCommit : List Step :=
  captured "t" ++
  [.start 0 { entry := bareEntry streamCore ⟨1, 0⟩ "t", workerId := "w", leaseSeconds := 1 }] ++
  List.replicate 3 (.exec 0 {}) ++
  [.env (.tick (2 * second)),
   .start 1 { entry := bareEntry streamCore ⟨1, 0⟩ "t", workerId := "w", leaseSeconds := 1 }] ++
  List.replicate 3 (.exec 1 { now := 2 * second }) ++
  List.replicate 8 (.exec 0 { now := 2 * second })

/-- After `staleCommit` the execution that holds the lease can commit nothing. -/
theorem stage_effects_commit_once_stale : ∃ c c', runWorkers .bare staleCommit = some c ∧
    (workers .bare).run c (List.replicate 8 (.exec 1 { now := 2 * second })) = some c' ∧
    c.world.durable.writes 0 = some ⟨⟨"t", .core⟩, .core⟩ ∧
    ∀ e' x', c'.world.durable.writes e' = some x' → x'.key = ⟨"t", .core⟩ → e' = 0 := by
  have hrun : ((runWorkers .bare staleCommit).bind fun c =>
      ((workers .bare).run c (List.replicate 8 (.exec 1 { now := 2 * second }))).map fun _ =>
        c.world.durable.writes 0) = some (some ⟨⟨"t", .core⟩, .core⟩) := by decide
  obtain ⟨c, hc, hrun⟩ := Option.bind_eq_some_iff.1 hrun
  obtain ⟨c', hc', hx⟩ := Option.map_eq_some_iff.1 hrun
  exact ⟨c, c', hc, hc', hx, fun e' x' hx' hkey =>
    stage_effects_commit_once (reachable_runWorkers hc) (TransitionSystem.leads_run hc') hx hx' hkey⟩

end AuditGateway.Analysis
