import AuditGateway.Analysis.BatchTurns

/-!
# The schedule of a batch

When `run_core_batch_once` starts the messages of a batch. A run raises nothing exactly if no message
raises in its thread and every retry time can be waited for from the one before it
(`unraised_iff`).
-/

namespace AuditGateway.Analysis

open AuditGateway.Framework AuditGateway.Python

variable {cw : Clockwork} {handling : Nat → Handling} {limit maxInflight : Nat} {b b' : Batch} {t : Turn}

variable {s : Batch}

namespace Batch

/-- What the loop does after it has submitted messages. -/
inductive Move (handling : Nat → Handling) : Batch → Batch → Prop
  | raise {b : Batch} (err : Error) : b.finished = none → Move handling b (b.raise err)
  | collect {b : Batch} (done : List Nat) : b.finished = none → Move handling b (b.collect handling done)
  | release {b : Batch} {now : Instant} : b.finished = none → b.clock ≤ now → Move handling b (b.release now)
  | close {b : Batch} : b.finished = none → b.ready = [] → b.delayed = [] → b.running = [] →
      Move handling b { b with finished := some (.ok ((b.results.mergeSort fun x y => x.1 ≤ y.1).map Prod.snd)) }

/-- No message that is due is left among the delayed ones. -/
def Released (b : Batch) : Prop := b.finished = none → ∀ x ∈ b.delayed, b.clock < x.2.2

theorem released_release (b : Batch) (now : Instant) : (b.release now).Released := by
  intro _ x hx
  have hlate := of_decide_eq_true (List.mem_filter.1 hx).2
  exact Int.not_le.1 hlate

theorem collect_clock (b : Batch) (done : List Nat) : (b.collect handling done).clock = b.clock := by
  obtain ⟨err, heq, -⟩ | ⟨results, heq, -⟩ := collect_cases handling b done
  · rw [heq]
    rfl
  · rw [heq]

theorem submit_of_ready_nil (h : b.ready = []) : b.submit handling limit = b := by
  obtain ⟨ready, delayed, running, results, handed, clock, finished⟩ := b
  obtain rfl : ready = [] := h
  simp [submit]

theorem goes_moves (hopen : s.finished = none) (hbefore : s.clock ≤ t.before) (hafter : t.before ≤ t.after)
    (h : Goes cw handling s t b') : Relation.ReflTransGen (Move handling) s b' ∧ b'.Released := by
  cases h with
  | overflow err _ => exact ⟨.single (.raise err hopen), fun h => nomatch h⟩
  | collected _ =>
    have hcollect : Move handling s (s.collect handling t.done) := .collect t.done hopen
    split
    · rename_i hsome
      refine ⟨.single hcollect, fun hnone => ?_⟩
      rw [hnone] at hsome
      cases hsome
    · rename_i hnot
      refine ⟨.tail (.single hcollect) (.release (by simpa using hnot) ?_), released_release _ _⟩
      rw [collect_clock]
      exact hbefore.trans hafter
  | released _ _ => exact ⟨.single (.release hopen hbefore), released_release _ _⟩
  | overslept err _ => exact ⟨.tail (.single (.release hopen hbefore)) (.raise err hopen), fun h => nomatch h⟩
  | slept _ _ =>
    exact ⟨.tail (.single (.release hopen hbefore)) (.release hopen hafter), released_release _ _⟩

theorem wake_cases (h : b.wake cw handling limit t = some b') :
    b.finished = none ∧ b.clock ≤ t.before ∧ t.before ≤ t.after ∧
      ∃ s, (s = b.submit handling limit ∨ s = (b.submit handling limit).release t.before) ∧
        s.delayed ≠ [] ∧ ¬ s.Due t.after ∧ b' = s.release t.after := by
  unfold wake at h
  split at h
  · cases h
  next hrun =>
    obtain ⟨hfinished, hclock, -⟩ := not_or.1 hrun |>.imp_right not_or.1
    obtain ⟨hbefore, hafter⟩ := not_not.1 hclock
    dsimp only at h
    generalize hs : (if (b.submit handling limit).running = [] then (b.submit handling limit).release t.before
      else b.submit handling limit) = s at h
    refine ⟨by simpa using hfinished, hbefore, hafter, s, ?_, ?_⟩
    · rw [← hs]
      split
      · exact .inr rfl
      · exact .inl rfl
    · split at h
      next hcond => exact ⟨hcond.2.1, hcond.2.2.2, (Option.some.inj h).symm⟩
      · cases h

end Batch

theorem turn_moves (h : (schedule cw handling maxInflight).step b t = some b') :
    b.finished = none ∧ Relation.ReflTransGen (Batch.Move handling) (b.submit handling (max 1 maxInflight)) b' ∧
      b'.Released := by
  obtain hstep | ⟨-, hwake⟩ := Option.or_eq_some_iff.1 h
  · obtain ⟨hrun, hbefore, hafter, ⟨hready, hdelayed, hrunning, rfl⟩ | ⟨-, hgoes⟩⟩ := Batch.step_cases hstep
    · rw [Batch.submit_of_ready_nil hready]
      exact ⟨hrun, .single (.close hrun hready hdelayed hrunning), fun h => nomatch h⟩
    · exact ⟨hrun, Batch.goes_moves (s := b.submit handling (max 1 maxInflight)) hrun hbefore hafter hgoes⟩
  · obtain ⟨hrun, hbefore, hafter, s, hs, -, -, rfl⟩ := Batch.wake_cases hwake
    refine ⟨hrun, ?_, Batch.released_release _ _⟩
    obtain rfl | rfl := hs
    · exact .single (.release hrun (hbefore.trans hafter))
    · exact .tail (.single (.release hrun hbefore)) (.release hrun hafter)

/-! ## What the turns keep -/

/-- The message that was read at a position. -/
def messageAt (messages : List (StreamMessage × Dict)) (i : Nat) : Option StreamMessage :=
  messages[i]?.map Prod.fst

/-- The time before which it may not be retried. -/
def retryAt (cw : Clockwork) (messages : List (StreamMessage × Dict)) (i : Nat) : Option Instant :=
  messages[i]?.bind fun x =>
    match retryNotBeforeForMessage cw x.2 with
    | .ok (some (.aware u)) => some u
    | _ => none

variable {messages : List (StreamMessage × Dict)}

namespace Batch

/-- Where the messages of a batch come from; and those that are ready, or were, have come to their time. -/
structure Timely (cw : Clockwork) (handling : Nat → Handling) (messages : List (StreamMessage × Dict)) (limit : Nat)
    (b : Batch) : Prop where
  ready : ∀ x ∈ b.ready, messageAt messages x.1 = some x.2
  delayed : ∀ x ∈ b.delayed, messageAt messages x.1 = some x.2.1 ∧ retryAt cw messages x.1 = some x.2.2
  running : ∀ x ∈ b.running, messageAt messages x.1 = some x.2
  results : ∀ x ∈ b.results, ∃ m, messageAt messages x.1 = some m ∧ handle m (handling x.1) = .ok x.2
  passed : ∀ i ∈ b.ready.map Prod.fst ++ b.submitted, ∀ u, retryAt cw messages i = some u → u ≤ b.clock
  slots : b.running.length ≤ limit
  returned : ∀ rs, b.finished = some (.ok rs) → rs = (b.results.mergeSort fun x y => x.1 ≤ y.1).map Prod.snd

theorem Timely.submit (h : b.Timely cw handling messages limit) (hopen : b.finished = none) :
    (b.submit handling limit).Timely cw handling messages limit where
  ready x hx := h.ready x (List.mem_of_mem_drop hx)
  delayed := h.delayed
  running := List.forall_mem_append.2 ⟨h.running, fun x hx => h.ready x (List.mem_of_mem_take hx)⟩
  results := h.results
  passed := by
    intro i hi
    refine h.passed i ?_
    simp only [Batch.submit, submitted, List.map_append, List.mem_append] at hi ⊢
    obtain hi | (hi | hi) | hi := hi
    · exact .inl (List.map_subset _ (List.drop_subset _ _) hi)
    · exact .inr (.inl hi)
    · exact .inl (List.map_subset _ (List.take_subset _ _) hi)
    · exact .inr (.inr hi)
  slots := by
    have hslots := h.slots
    simp only [Batch.submit, List.length_append, List.length_take]
    omega
  returned rs hrs := nomatch hopen.symm.trans hrs

theorem Timely.move (h : s.Timely cw handling messages limit) (hmove : Move handling s b') :
    b'.Timely cw handling messages limit := by
  cases hmove with
  | raise err _ => exact ⟨h.ready, h.delayed, h.running, h.results, h.passed, h.slots, fun _ hrs => nomatch hrs⟩
  | collect done hopen =>
    have hsubmitted := collect_submitted handling s done
    obtain ⟨err, heq, -⟩ | ⟨results, heq, -, -, hresults⟩ := collect_cases handling s done
    · rw [heq]
      exact ⟨h.ready, h.delayed, h.running, h.results, h.passed, h.slots, fun _ hrs => nomatch hrs⟩
    · rw [heq] at hsubmitted ⊢
      refine ⟨h.ready, h.delayed, fun x hx => h.running x (List.mem_of_mem_filter hx), ?_, ?_, ?_, ?_⟩
      · refine List.forall_mem_append.2 ⟨h.results, fun x hx => ?_⟩
        obtain ⟨m, hm, hhandle⟩ := (resultsOf_eq_ok hresults).2 x hx
        exact ⟨m, h.running _ (List.mem_of_mem_filter hm), hhandle⟩
      · exact fun i hi => h.passed i ((hsubmitted.append_left _).mem_iff.1 hi)
      · exact (List.length_filter_le _ _).trans h.slots
      · exact fun rs hrs => nomatch hopen.symm.trans hrs
  | release hopen hclock =>
    refine ⟨?_, fun x hx => h.delayed x (List.mem_of_mem_filter hx), h.running, h.results, ?_, h.slots, ?_⟩
    · refine List.forall_mem_append.2 ⟨h.ready, List.forall_mem_map.2 fun x hx => ?_⟩
      exact (h.delayed x (List.mem_of_mem_filter hx)).1
    · -- What becomes ready was delayed, and its time has come.
      intro i hi u hu
      simp only [Batch.release, submitted, List.map_append, List.map_map, List.mem_append] at hi
      obtain (hi | hi) | hi := hi
      · exact (h.passed i (List.mem_append_left _ hi) u hu).trans hclock
      · obtain ⟨x, hx, rfl⟩ := List.mem_map.1 hi
        have hdue := (h.delayed x (List.mem_of_mem_filter hx)).2
        obtain rfl : x.2.2 = u := Option.some.inj (hdue.symm.trans hu)
        exact of_decide_eq_true (List.mem_filter.1 hx).2
      · exact (h.passed i (List.mem_append_right _ (List.mem_append.2 hi)) u hu).trans hclock
    · exact fun rs hrs => nomatch hopen.symm.trans hrs
  | close _ _ _ _ =>
    refine ⟨h.ready, h.delayed, h.running, h.results, h.passed, h.slots, fun rs hrs => ?_⟩
    exact (Except.ok.inj (Option.some.inj hrs)).symm

theorem Sound.move {n : Nat} (h : s.Sound handling n) (hmove : Move handling s b') :
    b'.Sound handling n := by
  cases hmove with
  | raise err _ => exact h.raise err
  | collect done hopen => exact h.collect hopen done
  | release hopen _ => exact h.release hopen _
  | close _ hready hdelayed hrunning =>
    exact ⟨h.indices, h.handed, h.completes, fun _ _ => ⟨hready, hdelayed, hrunning⟩⟩

theorem submitted_move (hmove : Move handling s b') : b'.submitted.Perm s.submitted := by
  cases hmove with
  | raise _ _ => exact .refl _
  | collect done _ => exact collect_submitted handling s done
  | release _ _ => exact .refl _
  | close _ _ _ _ => exact .refl _

theorem delayed_move (hmove : Move handling s b') : b'.delayed ⊆ s.delayed ∧ s.clock ≤ b'.clock := by
  cases hmove with
  | raise _ _ => exact ⟨fun _ h => h, le_rfl⟩
  | collect done _ =>
    refine ⟨?_, (collect_clock s done).ge⟩
    obtain ⟨err, heq, -⟩ | ⟨results, heq, -⟩ := collect_cases handling s done
    · rw [heq]
      exact fun _ h => h
    · rw [heq]
      exact fun _ h => h
  | release _ hclock => exact ⟨List.filter_subset_self _, hclock⟩
  | close _ _ _ _ => exact ⟨fun _ h => h, le_rfl⟩

end Batch

theorem turn_keeps {P : Batch → Prop} (hmove : ∀ s b', P s → Batch.Move handling s b' → P b')
    (h : (schedule cw handling maxInflight).step b t = some b') (hP : P (b.submit handling (max 1 maxInflight))) :
    P b' := by
  obtain ⟨-, hmoves, -⟩ := turn_moves h
  clear h
  induction hmoves with
  | refl => exact hP
  | tail _ hlast ih => exact hmove _ _ ih hlast

theorem turn_timely (h : (schedule cw handling maxInflight).step b t = some b')
    (hb : b.Timely cw handling messages (max 1 maxInflight)) : b'.Timely cw handling messages (max 1 maxInflight) :=
  turn_keeps (fun _ _ hs hmove => hs.move hmove) h (hb.submit (turn_moves h).1)

theorem turn_sound {n : Nat} (h : (schedule cw handling maxInflight).step b t = some b') (hb : b.Sound handling n) :
    b'.Sound handling n :=
  turn_keeps (fun _ _ hs hmove => hs.move hmove) h (hb.submit (turn_moves h).1)

theorem turn_delayed (h : (schedule cw handling maxInflight).step b t = some b') :
    b'.delayed ⊆ b.delayed ∧ b.clock ≤ b'.clock := by
  refine turn_keeps (P := fun s => s.delayed ⊆ b.delayed ∧ b.clock ≤ s.clock) (fun s b' hs hmove => ?_) h
    ⟨fun _ h => h, le_rfl⟩
  obtain ⟨hsubset, hclock⟩ := Batch.delayed_move hmove
  exact ⟨List.Subset.trans hsubset hs.1, hs.2.trans hclock⟩

/-! ## The messages that are started -/

/-- The messages that a run starts, with what the clock showed before each of them. -/
def starts (cw : Clockwork) (handling : Nat → Handling) (maxInflight : Nat) (b : Batch) :
    List Turn → List (Nat × Instant)
  | [] => []
  | t :: ts =>
    match (schedule cw handling maxInflight).step b t with
    | none => []
    | some b' =>
      (b.ready.take (max 1 maxInflight - b.running.length)).map (fun x => (x.1, b.clock)) ++
        starts cw handling maxInflight b' ts

variable {ts : List Turn}

theorem run_keeps {P : Batch → Prop}
    (hstep : ∀ s t s', P s → (schedule cw handling maxInflight).step s t = some s' → P s')
    (h : (schedule cw handling maxInflight).run b ts = some b') (hP : P b) : P b' := by
  induction ts generalizing b with
  | nil =>
    obtain rfl := Option.some.inj h
    exact hP
  | cons t ts ih =>
    obtain ⟨s, hs, hrest⟩ := Option.bind_eq_some_iff.1 h
    exact ih hrest (hstep b t s hP hs)

theorem turn_submitted (h : (schedule cw handling maxInflight).step b t = some b') : b'.submitted.Perm
    ((b.ready.take (max 1 maxInflight - b.running.length)).map Prod.fst ++ b.submitted) := by
  refine turn_keeps (P := fun s => s.submitted.Perm _) (fun s b' hs hmove => ?_) h ?_
  · exact (Batch.submitted_move hmove).trans hs
  · rw [Batch.submitted, Batch.submitted, Batch.submit, List.map_append, ← List.append_assoc]
    exact List.perm_append_comm.append_right _

theorem starts_submitted (h : (schedule cw handling maxInflight).run b ts = some b') :
    b'.submitted.Perm ((starts cw handling maxInflight b ts).map Prod.fst ++ b.submitted) := by
  induction ts generalizing b with
  | nil =>
    obtain rfl := Option.some.inj h
    exact .refl _
  | cons t ts ih =>
    obtain ⟨s, hs, hrest⟩ := Option.bind_eq_some_iff.1 h
    have hstarts : (starts cw handling maxInflight b (t :: ts)).map Prod.fst =
        (b.ready.take (max 1 maxInflight - b.running.length)).map Prod.fst ++
          (starts cw handling maxInflight s ts).map Prod.fst := by
      rw [starts, hs, List.map_append, List.map_map]
      rfl
    rw [hstarts, List.append_assoc]
    refine (ih hrest).trans (((turn_submitted hs).append_left _).trans ?_)
    rw [← List.append_assoc, ← List.append_assoc]
    exact List.perm_append_comm.append_right _

theorem starts_passed (hb : b.Timely cw handling messages (max 1 maxInflight)) (ts : List Turn) :
    ∀ x ∈ starts cw handling maxInflight b ts, ∀ u, retryAt cw messages x.1 = some u → u ≤ x.2 := by
  induction ts generalizing b with
  | nil => exact fun x hx => nomatch hx
  | cons t ts ih =>
    rw [starts]
    split
    · exact fun x hx => nomatch hx
    · rename_i s hs
      refine List.forall_mem_append.2 ⟨List.forall_mem_map.2 fun x hx => ?_, ih (turn_timely hs hb)⟩
      exact hb.passed x.1 (List.mem_append_left _ (List.mem_map_of_mem (List.mem_of_mem_take hx)))

/-! ## What a schedule should be -/

/-- The results of all messages, in the order in which they were read. -/
def InReadOrder (handling : Nat → Handling) (messages : List (StreamMessage × Dict)) (results : List BatchResult) :
    Prop :=
  results.length = messages.length ∧
    ∀ i m, messageAt messages i = some m → ∃ r, results[i]? = some r ∧ handle m (handling i) = .ok r

/-- The schedule of a batch is right. Between a run's turns, the clock shows `clock`, and the loop waits for
`nextRetryAt`. -/
structure Scheduled (cw : Clockwork) (handling : Nat → Handling) (maxInflight : Nat)
    (messages : List (StreamMessage × Dict)) (b : Batch) : Prop where
  once : ∀ ts b', (schedule cw handling maxInflight).run b ts = some b' →
    ((starts cw handling maxInflight b ts).map Prod.fst).Nodup
  notBefore : ∀ ts b', (schedule cw handling maxInflight).run b ts = some b' →
    ∀ x ∈ starts cw handling maxInflight b ts, ∀ u, retryAt cw messages x.1 = some u → u ≤ x.2
  slots : ∀ ts b', (schedule cw handling maxInflight).run b ts = some b' → b'.finished = none →
    (b'.submit handling (max 1 maxInflight)).running.length ≤ max 1 maxInflight
  /-- With a free thread nothing is ready, and what is delayed was not due when the clock was last read. -/
  notHeldBack : ∀ ts b', (schedule cw handling maxInflight).run b ts = some b' → b'.finished = none →
    ((b'.submit handling (max 1 maxInflight)).running.length < max 1 maxInflight →
      (b'.submit handling (max 1 maxInflight)).ready = []) ∧
    (ts ≠ [] → ∀ x ∈ b'.delayed, b'.clock < x.2.2) ∧
    ∀ x ∈ b'.delayed, ∃ due ∈ b'.nextRetryAt, due ≤ x.2.2
  goesOn : ∀ ts b', (schedule cw handling maxInflight).run b ts = some b' → b'.finished = none →
    ∃ t b'', (schedule cw handling maxInflight).step b' t = some b''
  /-- No run is infinite, unless the clock stops. -/
  terminates : ∀ f : Nat → Batch, f 0 = b →
    (∀ k, ∃ t, (schedule cw handling maxInflight).step (f k) t = some (f (k + 1))) →
    ∃ bound, ∀ k, (f k).clock ≤ bound
  returns : ∀ ts b' result, (schedule cw handling maxInflight).run b ts = some b' → b'.finished = some result →
    ((starts cw handling maxInflight b ts).map Prod.fst).Perm (List.range messages.length) ∧
      ∃ results, result = .ok results ∧ InReadOrder handling messages results

/-- No retry time is further away than can be waited for, from the one before it or from `now`. -/
def Bridged (cw : Clockwork) (now : Instant) (messages : List (StreamMessage × Dict)) : Prop :=
  ∀ i u, retryAt cw messages i = some u → now < u →
    ∃ v, (v = now ∨ ∃ j, retryAt cw messages j = some v) ∧ now ≤ v ∧ v < u ∧ u ≤ v + cw.longest

/-! ## Batches that can be waited for -/

variable {now : Instant}

variable {u : Instant}

theorem retryAt_lt {i : Nat} (h : retryAt cw messages i = some u) : i < messages.length := by
  by_contra hi
  rw [retryAt, List.getElem?_eq_none (Nat.le_of_not_lt hi)] at h
  cases h

theorem nextRetryAt_le {x : Nat × StreamMessage × Instant} (hx : x ∈ b.delayed) :
    ∃ due ∈ b.nextRetryAt, due ≤ x.2.2 := by
  have hmem : x.2.2 ∈ b.delayed.map fun x => x.2.2 := List.mem_map_of_mem hx
  obtain ⟨due, hdue⟩ := Option.isSome_iff_exists.1 (List.isSome_min?_iff.2 (List.ne_nil_of_mem hmem))
  exact ⟨due, hdue, (List.min?_eq_some_iff.1 hdue).2 _ hmem⟩

theorem delayed_or_passed (hb : b.Timely cw handling messages limit) (hsound : b.Sound handling messages.length)
    {i : Nat} (hu : retryAt cw messages i = some u) :
    (∃ x ∈ b.delayed, x.1 = i ∧ x.2.2 = u) ∨ u ≤ b.clock := by
  have hmem : i ∈ b.indices := hsound.indices.mem_iff.2 (List.mem_range.2 (retryAt_lt hu))
  rw [Batch.indices, List.mem_append, List.mem_append] at hmem
  obtain hi | hi | hi := hmem
  · exact .inr (hb.passed i (List.mem_append_left _ hi) u hu)
  · obtain ⟨x, hx, rfl⟩ := List.mem_map.1 hi
    exact .inl ⟨x, hx, rfl, Option.some.inj ((hb.delayed x hx).2.symm.trans hu)⟩
  · exact .inr (hb.passed i (List.mem_append_right _ hi) u hu)

theorem not_overflows (hlongest : 0 ≤ cw.longest) (hbridged : Bridged cw now messages)
    (hb : b.Timely cw handling messages limit) (hsound : b.Sound handling messages.length) (hnow : now ≤ b.clock)
    {before : Instant} (hbefore : b.clock ≤ before) : ¬ b.Overflows cw before := by
  rintro ⟨due, hdue, hlong⟩
  obtain ⟨x, hx, rfl⟩ := List.mem_map.1 (List.min?_mem hdue)
  have hmin : ∀ y ∈ b.delayed, x.2.2 ≤ y.2.2 := fun y hy =>
    (List.min?_eq_some_iff.1 hdue).2 _ (List.mem_map_of_mem hy)
  have hlater : now < x.2.2 := by
    have : before < x.2.2 := Int.lt_of_sub_pos (lt_of_le_of_lt hlongest hlong)
    exact lt_of_le_of_lt (hnow.trans hbefore) this
  obtain ⟨v, hv, -, hlt, hnear⟩ := hbridged x.1 x.2.2 (hb.delayed x hx).2 hlater
  have hv' : v ≤ before := by
    obtain rfl | ⟨j, hj⟩ := hv
    · exact hnow.trans hbefore
    · -- The time before the earliest one is not delayed any more.
      obtain ⟨y, hy, -, rfl⟩ | hpassed := delayed_or_passed hb hsound hj
      · exact absurd (hmin y hy) (not_le.2 hlt)
      · exact hpassed.trans hbefore
  have : x.2.2 ≤ before + cw.longest := hnear.trans (Int.add_le_add_right hv' _)
  exact absurd (Int.sub_left_le_of_le_add this) (not_le.2 hlong)

theorem turn_unraised (hlongest : 0 ≤ cw.longest) (hbridged : Bridged cw now messages)
    (hcompletes : ∀ i < messages.length, (handling i).Completes)
    (hb : b.Timely cw handling messages (max 1 maxInflight)) (hsound : b.Sound handling messages.length)
    (hnow : now ≤ b.clock) (h : (schedule cw handling maxInflight).step b t = some b') (err : Error) :
    b'.finished ≠ some (.error err) := by
  intro herr
  obtain hstep | ⟨-, hwake⟩ := Option.or_eq_some_iff.1 h
  · obtain ⟨hrun, hbefore, hafter, ⟨-, -, -, rfl⟩ | ⟨-, hgoes⟩⟩ := Batch.step_cases hstep
    · cases herr
    · have hs := hb.submit hrun
      have hs' : (b.submit handling (max 1 maxInflight)).Sound handling messages.length := hsound.submit hrun
      have hover : ¬ (b.submit handling (max 1 maxInflight)).Overflows cw t.before :=
        not_overflows hlongest hbridged hs hs' hnow hbefore
      have hover' : ¬ ((b.submit handling (max 1 maxInflight)).release t.before).Overflows cw t.before :=
        not_overflows hlongest hbridged (hs.move (.release hrun hbefore)) (hs'.release hrun _) (hnow.trans hbefore)
          (le_refl _)
      exact nomatch (Batch.goes_calm hs' hcompletes hrun hover hover' hgoes).symm.trans herr
  · obtain ⟨hrun, -, -, s, hs, -, -, rfl⟩ := Batch.wake_cases hwake
    obtain rfl | rfl := hs <;> exact nomatch hrun.symm.trans herr

theorem returned_inReadOrder (hb : b.Timely cw handling messages limit) (hsound : b.Sound handling messages.length)
    {results : List BatchResult} (h : b.finished = some (.ok results)) : InReadOrder handling messages results := by
  obtain ⟨hready, hdelayed, hrunning⟩ := hsound.empty results h
  let sorted := b.results.mergeSort fun x y => x.1 ≤ y.1
  have hperm : sorted.Perm b.results := List.mergeSort_perm _ _
  have hindices : (b.results.map Prod.fst).Perm (List.range messages.length) := by
    have hall := hsound.indices
    rwa [Batch.indices, Batch.submitted, hready, hdelayed, hrunning] at hall
  have hpairwise : (sorted.map Prod.fst).Pairwise (· ≤ ·) := by
    rw [List.pairwise_map]
    refine (List.pairwise_mergeSort (fun x y z hxy hyz => ?_) (fun x y => ?_) b.results).imp of_decide_eq_true
    · exact decide_eq_true (Nat.le_trans (of_decide_eq_true hxy) (of_decide_eq_true hyz))
    · simpa using Nat.le_total x.1 y.1
  have hsorted : sorted.map Prod.fst = List.range messages.length :=
    ((hperm.map Prod.fst).trans hindices).eq_of_pairwise (fun i j _ _ => Nat.le_antisymm) hpairwise
      (List.pairwise_lt_range.imp Nat.le_of_lt)
  obtain rfl := hb.returned results h
  refine ⟨?_, fun i m hm => ?_⟩
  · rw [List.length_map, ← List.length_map (f := Prod.fst), hsorted, List.length_range]
  · have hi : i < messages.length := by
      by_contra hi
      rw [messageAt, List.getElem?_eq_none (Nat.le_of_not_lt hi)] at hm
      cases hm
    have hat : (sorted.map Prod.fst)[i]? = some i := by rw [hsorted, List.getElem?_range hi]
    rw [List.getElem?_map, Option.map_eq_some_iff] at hat
    obtain ⟨x, hx, rfl⟩ := hat
    obtain ⟨m', hm', hhandle⟩ := hb.results x (hperm.mem_iff.1 (List.mem_of_getElem? hx))
    obtain rfl : m = m' := Option.some.inj (hm.symm.trans hm')
    exact ⟨x.2, by rw [List.getElem?_map, hx, Option.map_some], hhandle⟩

theorem wake_clock (h : b.wake cw handling limit t = some b') :
    ∃ x ∈ b.delayed, b'.clock ≤ x.2.2 := by
  obtain ⟨-, -, -, s, hs, hdelayed, hdue, rfl⟩ := Batch.wake_cases h
  obtain ⟨x, hx⟩ := List.exists_mem_of_ne_nil _ hdelayed
  have hlater : t.after < x.2.2 := by
    obtain ⟨due, hmem, hle⟩ := nextRetryAt_le hx
    have hnot : t.after < due := not_le.1 fun hle' => hdue ⟨due, hmem, hle'⟩
    exact lt_of_lt_of_le hnot hle
  refine ⟨x, ?_, le_of_lt hlater⟩
  obtain rfl | rfl := hs
  · exact hx
  · exact List.mem_of_mem_filter hx

theorem clock_bounded {f : Nat → Batch}
    (hf : ∀ k, ∃ t, (schedule cw handling maxInflight).step (f k) t = some (f (k + 1))) :
    ∃ bound, ∀ k, (f k).clock ≤ bound := by
  obtain ⟨bound, hbound⟩ : ∃ bound : Instant, ∀ x ∈ (f 0).delayed, x.2.2 ≤ bound := by
    induction (f 0).delayed with
    | nil => exact ⟨0, fun x hx => nomatch hx⟩
    | cons x l ih =>
      obtain ⟨bound, hl⟩ := ih
      refine ⟨max x.2.2 bound, List.forall_mem_cons.2 ⟨le_max_left _ _, fun y hy => ?_⟩⟩
      exact (hl y hy).trans (le_max_right _ _)
  have hdelayed : ∀ k, (f k).delayed ⊆ (f 0).delayed := by
    intro k
    induction k with
    | zero => exact fun _ h => h
    | succ k ih =>
      obtain ⟨t, ht⟩ := hf k
      exact List.Subset.trans (turn_delayed ht).1 ih
  refine ⟨bound, fun k => not_lt.1 fun hk => ?_⟩
  have hlater : ∀ j, bound < (f (k + j)).clock ∧ (f (k + j)).weight + j ≤ (f k).weight := by
    intro j
    induction j with
    | zero => exact ⟨hk, le_rfl⟩
    | succ j ih =>
      obtain ⟨t, ht⟩ := hf (k + j)
      have hclock : bound < (f (k + (j + 1))).clock := lt_of_lt_of_le ih.1 (turn_delayed ht).2
      obtain hstep | ⟨-, hwake⟩ := Option.or_eq_some_iff.1 ht
      · have hweight := Batch.step_weight (by simp) hstep
        rw [← Nat.add_assoc] at hclock ⊢
        exact ⟨hclock, by omega⟩
      · obtain ⟨x, hx, hle⟩ := wake_clock hwake
        exact absurd (hle.trans (hbound x (hdelayed _ hx))) (not_le.2 hclock)
  have hend := (hlater ((f k).weight + 1)).2
  omega

/-! ## Batches that can not -/

theorem schedule_step_of_step (h : b.step cw handling (max 1 maxInflight) t = some b') :
    (schedule cw handling maxInflight).step b t = some b' :=
  Option.or_eq_some_iff.2 (.inl h)

theorem exists_run_finished (b : Batch) :
    ∃ ts b', (schedule cw handling maxInflight).run b ts = some b' ∧ b'.finished.isSome := by
  induction hn : b.weight using Nat.strongRecOn generalizing b with
  | ind n ih =>
    cases hfinished : b.finished with
    | some result => exact ⟨[], b, rfl, by rw [hfinished]; rfl⟩
    | none =>
      obtain ⟨t, s, hstep⟩ : ∃ t s, b.step cw handling (max 1 maxInflight) t = some s := Batch.step_possible hfinished
      obtain ⟨ts, b', hrun, hend⟩ := ih s.weight (hn ▸ Batch.step_weight (by simp) hstep) s rfl
      exact ⟨t :: ts, b', Option.bind_eq_some_iff.2 ⟨s, schedule_step_of_step hstep, hrun⟩, hend⟩

/-- The clock shows `now` or a retry time, and it has not come to `u`, for which a message is delayed. -/
structure BeforeGap (cw : Clockwork) (messages : List (StreamMessage × Dict)) (now u : Instant) (b : Batch) : Prop where
  clock : b.clock = now ∨ ∃ j, retryAt cw messages j = some b.clock
  now_le : now ≤ b.clock
  lt : b.clock < u
  waits : ∃ x ∈ b.delayed, x.2.2 = u

theorem BeforeGap.release (h : BeforeGap cw messages now u b) {time : Instant}
    (hclock : time = now ∨ ∃ j, retryAt cw messages j = some time) (hnow : now ≤ time) (hlt : time < u) :
    BeforeGap cw messages now u (b.release time) := by
  obtain ⟨x, hx, hu⟩ := h.waits
  refine ⟨hclock, hnow, hlt, x, List.mem_filter.2 ⟨hx, decide_eq_true ?_⟩, hu⟩
  rw [hu]
  exact not_le.2 hlt

theorem exists_turn_before_gap
    (hgap : ∀ v, (v = now ∨ ∃ j, retryAt cw messages j = some v) → now ≤ v → v < u → v + cw.longest < u)
    (hopen : b.finished = none) (hb : b.Timely cw handling messages (max 1 maxInflight))
    (h : BeforeGap cw messages now u b) :
    ∃ t b', b.step cw handling (max 1 maxInflight) t = some b' ∧
      ((∃ err, b'.finished = some (.error err)) ∨ b'.finished = none ∧ BeforeGap cw messages now u b') := by
  let s := b.submit handling (max 1 maxInflight)
  have hs : BeforeGap cw messages now u s := ⟨h.clock, h.now_le, h.lt, h.waits⟩
  have hwork : ¬ (b.ready = [] ∧ b.delayed = [] ∧ b.running = []) := by
    rintro ⟨-, hnone, -⟩
    obtain ⟨x, hx, -⟩ := h.waits
    rw [hnone] at hx
    cases hx
  have hstep : ∀ t : Turn, t.before = b.clock → t.before ≤ t.after → b.step cw handling (max 1 maxInflight) t =
      if s.running ≠ [] then s.waitTurn cw handling t else s.sleepTurn cw t := by
    intro t hbefore hafter
    rw [Batch.step, if_neg (by simp [hopen, hbefore.ge, hafter]), if_neg hwork]
  by_cases hrunning : s.running = []
  · have hr : BeforeGap cw messages now u (s.release b.clock) := hs.release h.clock h.now_le h.lt
    obtain ⟨x, hx, hu⟩ := hr.waits
    obtain ⟨due, hdue, hle⟩ := nextRetryAt_le hx
    obtain ⟨y, hy, hyd⟩ := List.mem_map.1 (List.min?_mem hdue)
    have hlater : b.clock < due := by
      rw [← hyd]
      exact Batch.released_release s b.clock hopen y hy
    refine ⟨⟨[], false, b.clock, due⟩, ?_⟩
    rw [hstep _ rfl hlater.le, if_neg (not_not.2 hrunning), Batch.sleepTurn]
    dsimp only
    split
    · exact ⟨_, rfl, .inr ⟨hopen, hr⟩⟩
    · split
      · exact ⟨_, rfl, .inl ⟨_, rfl⟩⟩
      · rename_i hover
        rw [if_pos ⟨due, hdue, le_rfl⟩]
        refine ⟨_, rfl, .inr ⟨hopen, hr.release (.inr ⟨y.1, ?_⟩) (h.now_le.trans hlater.le) ?_⟩⟩
        · rw [← hyd]
          exact (hb.delayed y (List.mem_of_mem_filter hy)).2
        · -- It can be slept for `due`, so that is not the time after the gap.
          refine lt_of_le_of_ne (hu ▸ hle) fun heq => hover ⟨due, hdue, ?_⟩
          rw [heq]
          exact Int.lt_sub_left_of_add_lt (hgap b.clock h.clock h.now_le h.lt)
  · refine ⟨⟨s.running.map Prod.fst, false, b.clock, b.clock⟩, ?_⟩
    obtain ⟨x, hx⟩ := List.exists_mem_of_ne_nil _ hrunning
    have hdone : ∃ x ∈ s.running, x.1 ∈ s.running.map Prod.fst := ⟨x, hx, List.mem_map_of_mem hx⟩
    rw [hstep _ rfl le_rfl, if_pos hrunning, Batch.waitTurn, if_neg (by simp), if_pos (.inl hdone)]
    refine ⟨_, rfl, ?_⟩
    dsimp only
    obtain ⟨err, heq, -⟩ | ⟨results, heq, -⟩ := Batch.collect_cases handling s (s.running.map Prod.fst)
    · exact .inl ⟨err, by rw [heq]; rfl⟩
    · have hnone : (s.collect handling (s.running.map Prod.fst)).finished = none := by
        rw [heq]
        exact hopen
      rw [hnone]
      refine .inr ⟨hnone, BeforeGap.release ?_ h.clock h.now_le h.lt⟩
      rw [heq]
      exact ⟨hs.clock, hs.now_le, hs.lt, hs.waits⟩

theorem exists_run_raises
    (hgap : ∀ v, (v = now ∨ ∃ j, retryAt cw messages j = some v) → now ≤ v → v < u → v + cw.longest < u)
    (hopen : b.finished = none) (hb : b.Timely cw handling messages (max 1 maxInflight))
    (h : BeforeGap cw messages now u b) :
    ∃ ts b' err, (schedule cw handling maxInflight).run b ts = some b' ∧ b'.finished = some (.error err) := by
  induction hn : b.weight using Nat.strongRecOn generalizing b with
  | ind n ih =>
    obtain ⟨t, s, hstep, ⟨err, herr⟩ | ⟨hopen', h'⟩⟩ := exists_turn_before_gap hgap hopen hb h
    · exact ⟨[t], s, err, Option.bind_eq_some_iff.2 ⟨s, schedule_step_of_step hstep, rfl⟩, herr⟩
    · have hturn := schedule_step_of_step hstep
      obtain ⟨ts, b', err, hrun, herr⟩ := ih s.weight (hn ▸ Batch.step_weight (by simp) hstep) hopen'
        (turn_timely hturn hb) h' rfl
      exact ⟨t :: ts, b', err, Option.bind_eq_some_iff.2 ⟨s, hturn, hrun⟩, herr⟩

/-! ## The batch before the loop -/

theorem startBatch_timely {ack : MessageId → Option Error} {clock : Nat → Instant} {entries : List Entry}
    (handling : Nat → Handling) (limit : Nat) (hread : batchMessages cw ack entries = .ok messages)
    (hvalid : ∀ x ∈ messages, ReadableHints cw x.2) (hclock : ∀ i, clock i ≤ now) :
    (startBatch cw ack clock now entries).finished = none ∧ (startBatch cw ack clock now entries).clock = now ∧
      (startBatch cw ack clock now entries).submitted = [] ∧
      (startBatch cw ack clock now entries).Sound handling messages.length ∧
      (startBatch cw ack clock now entries).Timely cw handling messages limit := by
  obtain ⟨⟨ready, delayed⟩, hsorted⟩ : ∃ sorted, sortMessages cw clock 0 messages = .ok sorted :=
    sortMessages_isOk_iff.2 hvalid
  have hstart : startBatch cw ack clock now entries = ⟨ready, delayed, [], [], [], now, none⟩ := by
    simp [startBatch, hread, hsorted, bind, Except.bind]
  obtain ⟨hperm, hready, hdelayed⟩ := sortMessages_eq_ok hsorted
  rw [hstart]
  refine ⟨rfl, rfl, rfl, ⟨?_, fun i hi => (by cases hi), fun x hx => (by cases hx), fun _ h => (by cases h)⟩,
    fun x hx => ?_, fun x hx => ?_, fun x hx => (by cases hx), fun x hx => (by cases hx), fun i hi u hu => ?_,
    Nat.zero_le _, fun _ h => (by cases h)⟩
  · rw [List.range_eq_range']
    simpa [Batch.indices, Batch.submitted] using hperm
  · obtain ⟨k, hints, hk, hat, -⟩ := hready x hx
    rw [hk, Nat.zero_add, messageAt, hat, Option.map_some]
  · obtain ⟨k, hints, hk, hat, hu⟩ := hdelayed x hx
    rw [hk, Nat.zero_add, messageAt, retryAt, hat, Option.map_some, Option.bind_some, hu]
    exact ⟨rfl, rfl⟩
  · rw [Batch.submitted, List.map_nil, List.map_nil, List.append_nil, List.append_nil] at hi
    obtain ⟨x, hx, rfl⟩ := List.mem_map.1 hi
    obtain ⟨k, hints, hk, hat, hpassed⟩ := hready x hx
    rw [Nat.zero_add] at hk
    rw [retryAt, hk, hat, Option.bind_some] at hu
    split at hu
    · rename_i v hv
      obtain rfl := Option.some.inj hu
      exact (hpassed v hv).trans (hclock _)
    · cases hu

theorem unraised_iff (hlongest : 0 ≤ cw.longest) (hopen : b.finished = none) (hnow : b.clock = now)
    (hsound : b.Sound handling messages.length) (htimely : b.Timely cw handling messages (max 1 maxInflight)) :
    (∀ ts b' err, (schedule cw handling maxInflight).run b ts = some b' → b'.finished ≠ some (.error err)) ↔
      (∀ i < messages.length, (handling i).Completes) ∧ Bridged cw now messages := by
  constructor
  · intro h
    constructor
    · -- Some run comes to an end, which is not an error; then no message has raised.
      obtain ⟨ts, b', hrun, hend⟩ : ∃ ts b', (schedule cw handling maxInflight).run b ts = some b' ∧
        b'.finished.isSome := exists_run_finished b
      have hsound' : b'.Sound handling messages.length :=
        run_keeps (fun _ _ _ hs hstep => turn_sound hstep hs) hrun hsound
      obtain ⟨result, hresult⟩ := Option.isSome_iff_exists.1 hend
      cases result with
      | error err => exact absurd hresult (h ts b' err hrun)
      | ok results => exact (hsound'.returns hresult).2
    · intro i u hu hlater
      by_contra hgap
      have hgap' : ∀ v, (v = now ∨ ∃ j, retryAt cw messages j = some v) → now ≤ v → v < u → v + cw.longest < u :=
        fun v hv hle hlt => not_le.1 fun hnear => hgap ⟨v, hv, hle, hlt, hnear⟩
      have hwaits : ∃ x ∈ b.delayed, x.2.2 = u := by
        obtain ⟨x, hx, -, hxu⟩ | hpassed := delayed_or_passed htimely hsound hu
        · exact ⟨x, hx, hxu⟩
        · exact absurd hpassed (not_le.2 (hnow ▸ hlater))
      obtain ⟨ts, b', err, hrun, herr⟩ := exists_run_raises hgap' hopen htimely
        ⟨.inl hnow, hnow.ge, hnow ▸ hlater, hwaits⟩
      exact h ts b' err hrun herr
  · rintro ⟨hcompletes, hbridged⟩ ts b' err h
    refine (run_keeps (P := fun s => (s.Timely cw handling messages (max 1 maxInflight) ∧
      s.Sound handling messages.length ∧ now ≤ s.clock) ∧ ∀ err, s.finished ≠ some (.error err))
      (fun s t s' hs hstep => ?_) h ⟨⟨htimely, hsound, hnow.ge⟩, fun err herr => ?_⟩).2 err
    · obtain ⟨⟨hs₁, hs₂, hs₃⟩, -⟩ := hs
      exact ⟨⟨turn_timely hstep hs₁, turn_sound hstep hs₂, hs₃.trans (turn_delayed hstep).2⟩,
        turn_unraised hlongest hbridged hcompletes hs₁ hs₂ hs₃ hstep⟩
    · rw [hopen] at herr
      cases herr

theorem turn_possible (h : b.finished = none) : ∃ t b', (schedule cw handling maxInflight).step b t = some b' := by
  obtain ⟨t, b', hstep⟩ : ∃ t b', b.step cw handling (max 1 maxInflight) t = some b' := Batch.step_possible h
  exact ⟨t, b', schedule_step_of_step hstep⟩

/-- For a batch whose hints can be read, and a clock that is not set back: the schedule is right if and only if no
message raises in its thread and there is no gap between the retry times that is too long to be waited for. -/
theorem batch_scheduled_iff (cw : Clockwork) (hlongest : 0 ≤ cw.longest) (handling : Nat → Handling)
    (maxInflight : Nat) (ack : MessageId → Option Error) (clock : Nat → Instant) (now : Instant)
    (entries : List Entry) (messages : List (StreamMessage × Dict))
    (hread : batchMessages cw ack entries = .ok messages) (hvalid : ∀ x ∈ messages, ReadableHints cw x.2)
    (hclock : ∀ i, clock i ≤ now) :
    Scheduled cw handling maxInflight messages (startBatch cw ack clock now entries) ↔
      (∀ i < messages.length, (handling i).Completes) ∧ Bridged cw now messages := by
  obtain ⟨hopen, hnow, hnone, hsound, htimely⟩ :=
    startBatch_timely handling (max 1 maxInflight) hread hvalid hclock
  generalize startBatch cw ack clock now entries = b at hopen hnow hnone hsound htimely ⊢
  have hsound' {ts : List Turn} {b' : Batch} (h : (schedule cw handling maxInflight).run b ts = some b') :
      b'.Sound handling messages.length := run_keeps (fun _ _ _ hs hstep => turn_sound hstep hs) h hsound
  have htimely' {ts : List Turn} {b' : Batch} (h : (schedule cw handling maxInflight).run b ts = some b') :
      b'.Timely cw handling messages (max 1 maxInflight) :=
    run_keeps (fun _ _ _ hs hstep => turn_timely hstep hs) h htimely
  have hstarts {ts : List Turn} {b' : Batch} (h : (schedule cw handling maxInflight).run b ts = some b') :
      b'.submitted.Perm ((starts cw handling maxInflight b ts).map Prod.fst) := by
    have hperm := starts_submitted h
    rwa [hnone, List.append_nil] at hperm
  rw [← unraised_iff hlongest hopen hnow hsound htimely]
  constructor
  · intro h ts b' err hrun herr
    obtain ⟨-, results, hok, -⟩ := h.returns ts b' _ hrun herr
    cases hok
  · intro hunraised
    refine ⟨fun ts b' h => ?_, fun ts b' _ => starts_passed htimely ts, fun ts b' h hrun => ?_,
      fun ts b' h hrun => ⟨fun hfree => ?_, fun hne => ?_, fun x hx => nextRetryAt_le hx⟩,
      fun ts b' h hrun => turn_possible hrun, fun f _ hf => clock_bounded hf, fun ts b' result h hresult => ?_⟩
    · have hnodup := (hsound' h).indices.nodup_iff.2 List.nodup_range
      exact (hstarts h).nodup_iff.1 (List.nodup_append.1 (List.nodup_append.1 hnodup).2.1).2.1
    · exact ((htimely' h).submit hrun).slots
    · have hslots := (htimely' h).slots
      simp only [Batch.submit, List.length_append, List.length_take] at hfree ⊢
      exact List.drop_eq_nil_of_le (by omega)
    · cases ts with
      | nil => exact absurd rfl hne
      | cons t ts =>
        obtain ⟨s, hs, hrest⟩ := Option.bind_eq_some_iff.1 h
        exact run_keeps (fun _ _ _ _ hstep => (turn_moves hstep).2.2) hrest (turn_moves hs).2.2 hrun
    · cases result with
      | error err => exact absurd hresult (hunraised ts b' err h)
      | ok results =>
        refine ⟨?_, results, rfl, returned_inReadOrder (htimely' h) (hsound' h) hresult⟩
        obtain ⟨hready, hdelayed, -⟩ := (hsound' h).empty results hresult
        have hindices := (hsound' h).indices
        rw [Batch.indices, hready, hdelayed] at hindices
        exact (hstarts h).symm.trans hindices

/-- An interpreter for which the only JSON text is this one. -/
def hintsRuntime (text : Str) (value : Json) : Runtime where
  loads s := if s = text then .value value else .notJson
  toStr := strOfText
  lower := id
  urlScheme _ := .ok []
  sha256Hex _ := []
  frames := 0
  toStr_str := strOfText_str
  lower_storable := id_storable
  sha256Hex_storable _ := storable_nil

/-- Retry times are read as `moment`; up to 100 microseconds can be waited for. -/
def hintsClockwork (moment : Moment) : Clockwork where
  rt := hintsRuntime "hints" (.dict [("retry_not_before", .str "time")])
  fromisoformat _ := some moment
  isoformat _ := "time"
  longest := 100

def coreEntry (id : Nat) (hints : Hints) : Entry :=
  ⟨streamCore, ⟨id, 0⟩, { traceId := some "trace", hints := some hints }⟩

def retryMessages : List (StreamMessage × Dict) :=
  (batchMessages (hintsClockwork (.aware 5)) (fun _ => none)
    [coreEntry 1 (.dumped []), coreEntry 2 (.text "hints")]).toOption.getD []

theorem retryMessages_bridged : Bridged (hintsClockwork (.aware 5)) 0 retryMessages := by
  intro i u hu hlater
  obtain _ | _ | i := i
  · cases hu
  · obtain rfl := Option.some.inj hu
    exact ⟨0, .inl rfl, le_rfl, by decide, by decide⟩
  · cases hu

/-- A message that fails in its stage, and one that is retried after 5 microseconds. -/
theorem batch_scheduled_iff_retry :
    Scheduled (hintsClockwork (.aware 5)) (fun _ => .raised (.leaseLost "")) 8 retryMessages
      (startBatch (hintsClockwork (.aware 5)) (fun _ => none) (fun _ => 0) 0
        [coreEntry 1 (.dumped []), coreEntry 2 (.text "hints")]) := by
  refine (batch_scheduled_iff _ (by decide) _ 8 _ _ 0 [coreEntry 1 (.dumped []), coreEntry 2 (.text "hints")]
    retryMessages rfl ?_ fun _ => le_rfl).2 ⟨fun i _ => trivial, retryMessages_bridged⟩
  refine List.forall_mem_cons.2 ⟨⟨none, rfl, by decide⟩, List.forall_mem_singleton.2 ?_⟩
  exact ⟨some (.aware 5), rfl, by decide⟩

def farClockwork : Clockwork :=
  { hintsClockwork (.aware 253402300799000000) with longest := 9223372036854775 }

/-- The start of the year 2026. -/
def farStart : Instant := 1767225600000000

/-- The hint of the only message is valid, but the time until then is too long for `time.sleep`. -/
theorem far_retry_time_raises :
    ∃ b', (schedule farClockwork (fun _ => .raised (.leaseLost "")) 8).run
        (startBatch farClockwork (fun _ => none) (fun _ => farStart) farStart [coreEntry 1 (.text "hints")])
        [⟨[], false, farStart, farStart⟩] = some b' ∧
      b'.finished = some (.error ⟨"OverflowError", "timestamp too large to convert to C _PyTime_t"⟩) ∧
      starts farClockwork (fun _ => .raised (.leaseLost "")) 8
        (startBatch farClockwork (fun _ => none) (fun _ => farStart) farStart [coreEntry 1 (.text "hints")])
        [⟨[], false, farStart, farStart⟩] = [] :=
  ⟨_, rfl, rfl, rfl⟩

end AuditGateway.Analysis
