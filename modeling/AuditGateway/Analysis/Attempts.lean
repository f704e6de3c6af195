import AuditGateway.Analysis.Invariant
import AuditGateway.Framework.Lists

/-!
# Attempts are bounded

Every claim raises the attempt count of its task, so that the successful claims of a
task are numbered, and each number is at most the limit that the task was created
with. An execution runs the stage at most once, after a claim of its own, and
publishes at most one retry, after a claim with a number below the limit.
-/

namespace AuditGateway.Analysis

open AuditGateway.Framework

abbrev History := List (Event Op Op.Res ExecId Job)

variable {d : Decoding} {c c' : PhaseConfig} {a : Step} {e e' : ExecId} {job : Job} {φ : Phase} {κ : TaskKey}
  {o : Op} {k : o.Res → Phase} {r : o.Res} {n : Nat}

/-! ## The control points are passed in one direction -/

namespace Phase

/-- No more operations than this are left. -/
def rank : Phase → Nat
  | sleep => 27
  | insert => 26
  | claim => 25
  | get | markProcessing _ => 24
  | selectTrace | commitProcessing _ => 23
  | recoverPublish | analyse _ => 22
  | recoverMark _ | save .. => 21
  | recoverCommit | selectMedia .. => 20
  | recoverAck | updateState .. | complete _ => 19
  | markSucceeded .. => 18
  | commitSucceeded .. => 17
  | publishEnrichment .. => 16
  | markEnqueued .. => 15
  | commitEnqueued .. => 14
  | ackProcessed _ | ackDuplicate => 13
  | rollbackRaise _ | rollbackFailure .. => 12
  | dlqTime .. | markRetryable .. => 11
  | publishDlq .. | failRetryable .. => 10
  | markTerminal .. | commitRetryable .. => 9
  | failTerminal .. | retryTime .. => 8
  | commitTerminal .. | publishRetry .. => 7
  | ackTerminal _ | ackRetry _ => 6
  | ackInvalid => 5
  | done _ => 0

theorem rank_lt (h : φ.view job = some ⟨o, k⟩) (r : o.Res) : (k r).rank < φ.rank := by
  cases φ <;> cases h <;>
    simp only [plain, guarded, caught, afterGet, afterSelectTrace, afterSave, afterCommitSucceeded] <;>
    repeat' split
  all_goals
    simp only [rank]
    omega

/-- The task as the execution has claimed it. -/
def task : Phase → Option AnalysisTask
  | markProcessing task | commitProcessing task | analyse task | save task _ | selectMedia task _
  | updateState task _ _ | complete task | markSucceeded task _ | commitSucceeded task _
  | publishEnrichment task _ | markEnqueued task _ _ | commitEnqueued task _ | rollbackFailure task _
  | dlqTime task _ | publishDlq task _ _ | markTerminal task _ | failTerminal task _
  | commitTerminal task _ | markRetryable task _ | failRetryable task _ | commitRetryable task _
  | retryTime task _ | publishRetry task _ _ => some task
  | _ => none

end Phase

/-! ## The claims of the history -/

/-- The task that an event has claimed, and the number of the claim. -/
def claimedAttempt (ev : Event Op Op.Res ExecId Job) : Option (TaskKey × Nat) :=
  match ev.op, ev.res with
  | .claimTask κ _ _, .ok (some task) => some (κ, task.attemptCount)
  | _, _ => none

/-- Execution `e` has made the `n`-th claim of `κ`. -/
def ClaimedBy (h : History) (e : ExecId) (κ : TaskKey) (n : Nat) : Prop :=
  ∃ ev ∈ h, ev.tid = e ∧ claimedAttempt ev = some (κ, n)

theorem ClaimedBy.append {h : History} (hc : ClaimedBy h e κ n) (h' : History) :
    ClaimedBy (h ++ h') e κ n := by
  obtain ⟨ev, hev, hx⟩ := hc
  exact ⟨ev, List.mem_append_left _ hev, hx⟩

theorem ClaimedBy.of_append {h : History} {ev : Event Op Op.Res ExecId Job}
    (hc : ClaimedBy (h ++ [ev]) e κ n) :
    ClaimedBy h e κ n ∨ (ev.tid = e ∧ claimedAttempt ev = some (κ, n)) := by
  obtain ⟨ev', hev', hx⟩ := hc
  obtain hev' | hev' := List.mem_append.1 hev'
  · exact .inl ⟨ev', hev', hx⟩
  · obtain rfl := List.mem_singleton.1 hev'
    exact .inr hx

theorem Phase.task_of_view {task : AnalysisTask} (h : φ.view job = some ⟨o, k⟩) (ht : (k r).task = some task) :
    φ.task = some task ∨ claimedAttempt ⟨e, job, o, r⟩ = some (job.key, task.attemptCount) := by
  cases φ <;> cases h <;>
    simp only [plain, guarded, caught, afterGet, afterSelectTrace, afterSave, afterCommitSucceeded] at ht <;>
    (repeat' split at ht) <;> first
      | exact .inl ht
      | cases ht
  exact .inr rfl

theorem claim_of_event {w w' : World} {ch : Choice} (hview : φ.view job = some ⟨o, k⟩)
    (hlocal : φ.Local e job w) (hperf : perform d e o ch w = some (r, w'))
    (hev : claimedAttempt ⟨e, job, o, r⟩ = some (κ, n)) :
    ∃ row row', w.durable.tasks κ = some row ∧ w'.durable.tasks κ = some row' ∧
      row.attemptCount + 1 = n ∧ row'.attemptCount = n := by
  cases φ with
  | claim =>
    cases hview
    obtain ⟨_, rfl, _⟩ | heff | ⟨_, _, _, rfl, _⟩ := perform_cases hperf
    · cases hev
    · obtain ⟨_, ⟨rfl, _⟩ | ⟨now, row, row', hrow, hclaim, rfl, hd⟩⟩ := claimTask_spec heff hlocal.1
      · cases hev
      · obtain ⟨rfl, rfl⟩ := Prod.mk.inj (Option.some.inj hev)
        refine ⟨row, row', hrow, ?_, (claimTask_eq_some hclaim).2.2.2.1.symm, rfl⟩
        rw [hd]
        exact Function.update_self ..
    · cases hev
  | done => cases hview
  | _ =>
    cases hview
    cases hev

structure Numbered (c : PhaseConfig) : Prop where
  own {e : ExecId} {job : Job} {φ : Phase} {task : AnalysisTask} :
    c.threads e = some ⟨job, some φ⟩ → φ.task = some task → ClaimedBy c.history e job.key task.attemptCount
  positive {e : ExecId} {κ : TaskKey} {n : Nat} : ClaimedBy c.history e κ n → 1 ≤ n
  upTo {e : ExecId} {κ : TaskKey} {n : Nat} : ClaimedBy c.history e κ n →
    ∃ row, c.world.durable.tasks κ = some row ∧ n ≤ row.attemptCount
  distinct {e e' : ExecId} {κ : TaskKey} {n : Nat} : ClaimedBy c.history e κ n →
    ClaimedBy c.history e' κ n → e = e'

theorem Numbered.of_history (hc : Numbered c) (hev : Evolves c.world.durable c'.world.durable)
    (hhistory : c'.history = c.history)
    (hown : ∀ {e job φ task}, c'.threads e = some ⟨job, some φ⟩ → φ.task = some task →
      c.threads e = some ⟨job, some φ⟩) : Numbered c' := by
  refine ⟨?_, ?_, ?_, ?_⟩
  · intro e job φ task hth ht
    rw [hhistory]
    exact hc.own (hown hth ht) ht
  · intro e κ n h
    exact hc.positive (hhistory ▸ h)
  · intro e κ n h
    obtain ⟨row, hrow, hn⟩ := hc.upTo (hhistory ▸ h)
    obtain ⟨row', hrow', hle⟩ := hev.task hrow
    exact ⟨row', hrow', hn.trans hle.attempts⟩
  · intro e e' κ n h h'
    exact hc.distinct (hhistory ▸ h) (hhistory ▸ h')

theorem Phase.task_boot : (Phase.boot job).task = none := by
  unfold Phase.boot
  split
  · rfl
  · split <;> rfl

theorem Numbered.move (hc : Numbered c) (h : Move c c' a) : Numbered c' := by
  have hevolves := h.evolves
  cases h with
  | @exec d e ch job φ o k r hth hview hperf hlocal _ _ _ _ _ hthreads hhistory =>
    -- A new claim has a number above those of all claims before it.
    have hnew : ∀ {e₁ κ n}, claimedAttempt ⟨e, job, o, r⟩ = some (κ, n) →
        ClaimedBy c.history e₁ κ n → False := by
      intro e₁ κ n hn h₁
      obtain ⟨row, _, hrow, _, hlt, _⟩ := claim_of_event hview hlocal hperf hn
      obtain ⟨row₁, hrow₁, hle⟩ := hc.upTo h₁
      obtain rfl := Option.some.inj (hrow.symm.trans hrow₁)
      omega
    refine ⟨?_, ?_, ?_, ?_⟩
    · intro e' job' φ' task he' ht
      rw [hthreads] at he'
      rw [hhistory]
      obtain ⟨rfl, hx⟩ | ⟨_, he'⟩ := update_eq_some he'
      · obtain ⟨rfl, hφ⟩ := Thread.mk.inj hx
        obtain rfl := Option.some.inj hφ
        obtain ht | hev := Phase.task_of_view hview ht
        · exact (hc.own hth ht).append _
        · exact ⟨_, List.mem_append_right _ (List.mem_singleton_self _), rfl, hev⟩
      · exact (hc.own he' ht).append _
    · intro e' κ n h
      obtain h | ⟨_, hn⟩ := (hhistory ▸ h).of_append
      · exact hc.positive h
      · obtain ⟨_, _, _, _, hn, _⟩ := claim_of_event hview hlocal hperf hn
        omega
    · intro e' κ n h
      obtain h | ⟨_, hn⟩ := (hhistory ▸ h).of_append
      · obtain ⟨row, hrow, hn⟩ := hc.upTo h
        obtain ⟨row', hrow', hle⟩ := hevolves.task hrow
        exact ⟨row', hrow', hn.trans hle.attempts⟩
      · obtain ⟨_, row', _, hrow', _, hn⟩ := claim_of_event hview hlocal hperf hn
        exact ⟨row', hrow', hn.ge⟩
    · intro e₁ e₂ κ n h₁ h₂
      obtain h₁ | ⟨rfl, hn₁⟩ := (hhistory ▸ h₁).of_append <;>
        obtain h₂ | ⟨rfl, hn₂⟩ := (hhistory ▸ h₂).of_append
      · exact hc.distinct h₁ h₂
      · exact (hnew hn₂ h₁).elim
      · exact (hnew hn₁ h₂).elim
      · rfl
  | outside _ _ _ hthreads hhistory =>
    exact hc.of_history hevolves hhistory fun hth _ => hthreads ▸ hth
  | crash hth _ hthreads hhistory =>
    refine hc.of_history hevolves hhistory fun he' _ => ?_
    rw [hthreads] at he'
    obtain ⟨_, hx⟩ | ⟨_, he'⟩ := update_eq_some he'
    · cases hx
    · exact he'
  | start hth _ _ _ hthreads hhistory =>
    refine hc.of_history hevolves hhistory fun he' ht => ?_
    rw [hthreads] at he'
    obtain ⟨_, hx⟩ | ⟨_, he'⟩ := update_eq_some he'
    · obtain ⟨rfl, hφ⟩ := Thread.mk.inj hx
      obtain rfl := Option.some.inj hφ
      rw [Phase.task_boot] at ht
      cases ht
    · exact he'

theorem numbered_reachable {ok : PhaseConfig → Step → Prop} (h : (phases d).ReachableBy ok c) :
    Numbered c := by
  refine h.induct ?_ fun s a s' hs hc _ hstep => hc.move (move_of_step (inv_reachable hs) hstep)
  rintro s ⟨_, hth, hhist⟩
  have hnone : ∀ {e κ n}, ¬ ClaimedBy s.history e κ n := by
    rintro e κ n ⟨ev, hev, _⟩
    rw [hhist] at hev
    cases hev
  refine ⟨?_, fun h => absurd h hnone, fun h => absurd h hnone, fun h => absurd h hnone⟩
  intro e job φ task he
  rw [hth] at he
  cases he

/-! ## At most once in an execution -/

/-- Operations of the kind `K` are performed at most once by each execution, at
control points of the rank `n`. -/
structure OncePer (K : Op → Bool) (n : Nat) (c : PhaseConfig) : Prop where
  nodup : ((c.history.filter fun ev => K ev.op).map Event.tid).Nodup
  past {ev : Event Op Op.Res ExecId Job} : ev ∈ c.history → K ev.op = true →
    ∃ th, c.threads ev.tid = some th ∧ ∀ φ, th.state = some φ → φ.rank < n

section OncePer

variable {K : Op → Bool}

/-- The operations of the kind `K` are those of control points of the rank `n`. -/
def RankOf (K : Op → Bool) (n : Nat) : Prop :=
  ∀ {job : Job} {φ : Phase} {o : Op} {k : o.Res → Phase}, φ.view job = some ⟨o, k⟩ → K o = true → φ.rank = n

theorem OncePer.of_history (hc : OncePer K n c) (hhistory : c'.history = c.history)
    (hthreads : ∀ {e th}, c.threads e = some th → ∃ th', c'.threads e = some th' ∧
      ∀ φ, th'.state = some φ → th.state = some φ) : OncePer K n c' := by
  refine ⟨by rw [hhistory]; exact hc.nodup, ?_⟩
  intro ev hev hK
  obtain ⟨th, hth, hrank⟩ := hc.past (hhistory ▸ hev) hK
  obtain ⟨th', hth', hst⟩ := hthreads hth
  exact ⟨th', hth', fun φ hφ => hrank φ (hst φ hφ)⟩

theorem OncePer.move (hK : RankOf K n) (hc : OncePer K n c) (h : Move c c' a) : OncePer K n c' := by
  cases h with
  | @exec d e ch job φ o k r hth hview _ _ _ _ _ _ _ hthreads hhistory =>
    have hlt := Phase.rank_lt hview r
    refine ⟨?_, ?_⟩
    · rw [hhistory, List.filter_append, List.map_append]
      by_cases ho : K o = true
      · -- An earlier operation of this kind would have left the execution at a lower rank.
        rw [List.filter_cons_of_pos (by exact ho)]
        refine List.nodup_append.2 ⟨hc.nodup, by simp, ?_⟩
        rintro e₁ h₁ e₂ h₂ rfl
        obtain ⟨ev, hev, rfl⟩ := List.mem_map.1 h₁
        obtain ⟨hev, hKev⟩ := List.mem_filter.1 hev
        obtain rfl : ev.tid = e := by simpa using h₂
        obtain ⟨th, hth', hrank⟩ := hc.past hev hKev
        obtain rfl := Option.some.inj (hth.symm.trans hth')
        exact absurd (hrank φ rfl) (by rw [hK hview ho]; omega)
      · rw [List.filter_cons_of_neg (by exact ho)]
        simpa using hc.nodup
    · intro ev hev hKev
      rw [hthreads]
      by_cases he : ev.tid = e
      · refine ⟨_, by rw [he]; exact Function.update_self .., fun φ' hφ' => ?_⟩
        obtain rfl := Option.some.inj hφ'
        rw [hhistory] at hev
        obtain hev | hev := List.mem_append.1 hev
        · obtain ⟨th, hth', hrank⟩ := hc.past hev hKev
          rw [he] at hth'
          obtain rfl := Option.some.inj (hth.symm.trans hth')
          exact hlt.trans (hrank φ rfl)
        · obtain rfl := List.mem_singleton.1 hev
          exact hK hview hKev ▸ hlt
      · rw [Function.update_of_ne he]
        rw [hhistory] at hev
        obtain hev | hev := List.mem_append.1 hev
        · exact hc.past hev hKev
        · obtain rfl := List.mem_singleton.1 hev
          exact absurd rfl he
  | outside _ _ _ hthreads hhistory =>
    exact hc.of_history hhistory fun hth => ⟨_, hthreads ▸ hth, fun _ h => h⟩
  | @crash e _ hth _ hthreads hhistory =>
    refine hc.of_history hhistory fun {e'} th' hth' => ?_
    rw [hthreads]
    by_cases he : e' = e
    · subst he
      exact ⟨_, Function.update_self .., fun _ h => nomatch h⟩
    · exact ⟨_, by rw [Function.update_of_ne he, hth'], fun _ h => h⟩
  | @start e _ _ hth _ _ _ hthreads hhistory =>
    refine hc.of_history hhistory fun {e'} th' hth' => ?_
    rw [hthreads]
    by_cases he : e' = e
    · subst he
      rw [hth] at hth'
      cases hth'
    · exact ⟨_, by rw [Function.update_of_ne he, hth'], fun _ h => h⟩

theorem oncePer_reachable (hK : RankOf K n) {ok : PhaseConfig → Step → Prop}
    (h : (phases d).ReachableBy ok c) : OncePer K n c := by
  refine h.induct ?_ fun s a s' hs hc _ hstep => hc.move hK (move_of_step (inv_reachable hs) hstep)
  rintro s ⟨_, _, hhist⟩
  refine ⟨by simp [hhist], ?_⟩
  intro ev hev
  rw [hhist] at hev
  cases hev

end OncePer

/-! ## Bounds -/

/-- How often operations of the kind `K` have been performed for the task. -/
def performed (K : Op → Bool) (κ : TaskKey) (h : History) : Nat :=
  h.countP fun ev => K ev.op && ev.info.key == κ

/-- Every operation of the kind `K` follows a claim of its execution, whose number is
in the relation `R` to the limit. -/
def Attributed (K : Op → Bool) (R : Nat → Nat → Prop) (c : PhaseConfig) : Prop :=
  ∀ {ev : Event Op Op.Res ExecId Job}, ev ∈ c.history → K ev.op = true →
    ∃ n row, ClaimedBy c.history ev.tid ev.info.key n ∧ c.world.durable.tasks ev.info.key = some row ∧
      R n row.maxAttempts

/-- The operations of the kind `K` are performed with a claimed task. -/
def ClaimedAt (K : Op → Bool) (R : Nat → Nat → Prop) : Prop :=
  ∀ {e : ExecId} {job : Job} {φ : Phase} {w : World} {o : Op} {k : o.Res → Phase},
    φ.view job = some ⟨o, k⟩ → K o = true → φ.Local e job w →
      ∃ task, φ.task = some task ∧ w.durable.Claimed job.key task ∧ R task.attemptCount task.maxAttempts

section Bounds

variable {K : Op → Bool} {R : Nat → Nat → Prop}

theorem Attributed.move (hK : ClaimedAt K R) (hn : Numbered c) (hc : Attributed K R c)
    (h : Move c c' a) : Attributed K R c' := by
  have hev := h.evolves
  have hold : ∀ {ev} (h' : History), c'.history = c.history ++ h' → ev ∈ c.history → K ev.op = true →
      ∃ n row, ClaimedBy c'.history ev.tid ev.info.key n ∧ c'.world.durable.tasks ev.info.key = some row ∧
        R n row.maxAttempts := by
    intro ev h' hh hmem hKev
    obtain ⟨n, row, hcl, hrow, hle⟩ := hc hmem hKev
    obtain ⟨row', hrow', hrowle⟩ := hev.task hrow
    exact ⟨n, row', hh ▸ hcl.append _, hrow', hrowle.maxAttempts ▸ hle⟩
  cases h with
  | exec hth hview _ hlocal _ _ _ _ _ _ hhistory =>
    intro ev hmem hKev
    rw [hhistory] at hmem
    obtain hmem | hmem := List.mem_append.1 hmem
    · exact hold _ hhistory hmem hKev
    · obtain rfl := List.mem_singleton.1 hmem
      obtain ⟨task, ht, ⟨_, _, _, row, hrow, _, hmax⟩, hR⟩ := hK hview hKev hlocal
      obtain ⟨row', hrow', hrowle⟩ := hev.task hrow
      refine ⟨_, row', hhistory ▸ (hn.own hth ht).append _, hrow', ?_⟩
      rw [hrowle.maxAttempts, hmax]
      exact hR
  | outside _ _ _ _ hhistory | crash _ _ _ hhistory | start _ _ _ _ _ hhistory =>
    intro ev hmem hKev
    exact hold [] (by rw [hhistory, List.append_nil]) (hhistory ▸ hmem) hKev

theorem attributed_reachable (hK : ClaimedAt K R) {ok : PhaseConfig → Step → Prop}
    (h : (phases d).ReachableBy ok c) : Attributed K R c := by
  refine h.induct (P := Attributed K R) ?_ fun s a s' hs hc _ hstep =>
    hc.move hK (numbered_reachable hs) (move_of_step (inv_reachable hs) hstep)
  rintro s ⟨_, _, hhist⟩ ev hev
  rw [hhist] at hev
  cases hev

theorem performed_le (hK : RankOf K n) (hK' : ClaimedAt K R) {ok : PhaseConfig → Step → Prop}
    (h : (phases d).ReachableBy ok c) (lo : Nat) {b : Nat} (hbound : ∀ row, c.world.durable.tasks κ = some row →
      ∀ i, 1 ≤ i → R i row.maxAttempts → lo < i ∧ i ≤ lo + b) :
    performed K κ c.history ≤ b := by
  have hnum := numbered_reachable h
  have hsub : ((c.history.filter fun ev => K ev.op && ev.info.key == κ).map Event.tid).Nodup := by
    refine (oncePer_reachable hK h).nodup.sublist (List.Sublist.map _ ?_)
    refine List.monotone_filter_right _ fun ev hev => ?_
    exact (Bool.and_eq_true_iff.1 hev).1
  rw [performed, List.countP_eq_length_filter, ← List.length_map Event.tid]
  refine length_le_of_labels hsub (fun e i => ClaimedBy c.history e κ (lo + i + 1)) ?_
    fun e e' i h h' => hnum.distinct h h'
  intro e he
  obtain ⟨ev, hmem, rfl⟩ := List.mem_map.1 he
  obtain ⟨hev, hp⟩ := List.mem_filter.1 hmem
  obtain ⟨hKev, hkey⟩ := Bool.and_eq_true_iff.1 hp
  obtain rfl : ev.info.key = κ := by simpa using hkey
  obtain ⟨i, row, hcl, hrow, hR⟩ := attributed_reachable hK' h hev hKev
  obtain ⟨hlo, hhi⟩ := hbound row hrow i (hnum.positive hcl) hR
  refine ⟨i - lo - 1, by omega, ?_⟩
  rw [show lo + (i - lo - 1) + 1 = i by omega]
  exact hcl

end Bounds

/-- The operation starts a stage processor. -/
def Op.startsStage : Op → Bool
  | analyse .. => true
  | _ => false

/-- The operation publishes a message with a retry time. -/
def Op.publishesRetry : Op → Bool
  | xadd _ payload =>
    match payload.hints with
    | some (.dumped fields) => (fields.lookup "retry_not_before").isSome
    | _ => false
  | _ => false

theorem rankOf_startsStage : RankOf Op.startsStage 22 := by
  intro job φ o k hview ho
  cases φ <;> cases hview <;> first
    | rfl
    | cases ho

theorem claimedAt_startsStage : ClaimedAt Op.startsStage (· ≤ ·) := by
  intro e job φ w o k hview ho hl
  cases φ with
  | analyse task => exact ⟨task, rfl, hl.2, hl.2.2.2.1⟩
  | done => cases hview
  | _ =>
    cases hview
    cases ho

theorem rankOf_publishesRetry : RankOf Op.publishesRetry 7 := by
  intro job φ o k hview ho
  cases φ <;> cases hview <;> first
    | rfl
    | cases ho

theorem claimedAt_publishesRetry : ClaimedAt Op.publishesRetry (· < ·) := by
  intro e job φ w o k hview ho hl
  cases φ with
  | publishRetry task err now => exact ⟨task, rfl, hl.2.1, hl.2.2⟩
  | done => cases hview
  | _ =>
    cases hview
    cases ho

/-- For every task, over every run: the limit of its attempts stays what it was when
the task was created, the attempts only grow and never exceed it, a terminal status
stays, the stage processor is started at most as often as the limit says, and at most
one time less a retry is published. -/
theorem retries_bounded {c c' : WorkerConfig} (hc : (workers d).Reachable c)
    (hl : (workers d).Leads (fun _ _ => True) c c') {row : AnalysisTask}
    (hrow : c.world.durable.tasks κ = some row) :
    ∃ row', c'.world.durable.tasks κ = some row' ∧ row'.maxAttempts = row.maxAttempts ∧
      row.attemptCount ≤ row'.attemptCount ∧ row'.attemptCount ≤ row.maxAttempts ∧
      (row.status = .succeeded ∨ row.status = .failedTerminal → row'.status = row.status) ∧
      performed Op.startsStage κ c'.history ≤ row.maxAttempts ∧
      performed Op.publishesRetry κ c'.history ≤ row.maxAttempts - 1 := by
  obtain ⟨p, hp, rfl⟩ := phases_of_workers hc
  obtain ⟨p', hp', rfl⟩ := phaseHom.leads hl
  have hreach := hp.leads hp'
  have hev : Evolves p.world.durable p'.world.durable := by
    refine hp'.induct hp (P := fun q => Evolves p.world.durable q.world.durable) ?_ (.refl _)
    intro q a q' hq hev _ hstep
    exact hev.trans (move_of_step (inv_reachable hq) hstep).evolves
  obtain ⟨row', hrow', hle⟩ := hev.task hrow
  have hmax := hle.maxAttempts
  refine ⟨row', hrow', hmax, hle.attempts, ?_, ?_, ?_, ?_⟩
  · exact hmax ▸ ((inv_reachable hreach).sound.rows hrow').attempts
  · rintro (h | h) <;> exact hle.terminal (by rw [h]; rfl)
  · refine performed_le rankOf_startsStage claimedAt_startsStage hreach 0 fun row₁ hrow₁ i hi hR => ?_
    obtain rfl := Option.some.inj (hrow'.symm.trans hrow₁)
    omega
  · refine performed_le rankOf_publishesRetry claimedAt_publishesRetry hreach 0
      fun row₁ hrow₁ i hi hR => ?_
    obtain rfl := Option.some.inj (hrow'.symm.trans hrow₁)
    omega

def twoAttempts : List Step :=
  captured "t" ++
  [.start 0 { entry := bareEntry streamCore ⟨1, 0⟩ "t", workerId := "a", maxAttempts := 2 }] ++
  List.replicate 5 (.exec 0 {}) ++ [.exec 0 { fault := .before ⟨"ValueError", ""⟩ }] ++
  List.replicate 7 (.exec 0 { id := ⟨2, 0⟩ }) ++
  [.env (.tick (2 * second)),
   .start 1 { entry := ⟨streamCore, ⟨2, 0⟩, retryMessage ⟨streamCore, ⟨1, 0⟩, ⟨"t", .core, .text "", .text ""⟩⟩ 1 0⟩
              workerId := "b" }] ++
  List.replicate 6 (.exec 1 { now := 2 * second }) ++ [.crash 1]

theorem retries_bounded_twice : ∃ c, runWorkers .bare twoAttempts = some c ∧
    performed Op.startsStage ⟨"t", .core⟩ c.history = 2 ∧
    performed Op.publishesRetry ⟨"t", .core⟩ c.history = 1 ∧
    ∀ c', (workers .bare).Leads (fun _ _ => True) c c' →
      performed Op.startsStage ⟨"t", .core⟩ c'.history ≤ 2 ∧
      performed Op.publishesRetry ⟨"t", .core⟩ c'.history ≤ 1 := by
  have hrun : ((runWorkers .bare twoAttempts).map fun c =>
      ((c.world.durable.tasks ⟨"t", .core⟩).map AnalysisTask.maxAttempts,
        performed Op.startsStage ⟨"t", .core⟩ c.history,
        performed Op.publishesRetry ⟨"t", .core⟩ c.history)) = some (some 2, 2, 1) := by decide
  obtain ⟨c, hc, hx⟩ := Option.map_eq_some_iff.1 hrun
  obtain ⟨hrow, hx⟩ := Prod.mk.inj hx
  obtain ⟨hstarts, hretries⟩ := Prod.mk.inj hx
  obtain ⟨row, hrow, hmax⟩ := Option.map_eq_some_iff.1 hrow
  refine ⟨c, hc, hstarts, hretries, fun c' hl => ?_⟩
  obtain ⟨_, _, _, _, _, _, hs, hr⟩ := retries_bounded (reachable_runWorkers hc) hl hrow
  rw [hmax] at hs hr
  exact ⟨hs, hr⟩

end AuditGateway.Analysis
