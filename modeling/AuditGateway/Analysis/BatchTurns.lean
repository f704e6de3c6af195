import AuditGateway.Analysis.Batch

/-!
# The turns of the loop over a batch

What a turn does (`Goes`), and what it leaves: the messages are conserved (`Sound`), and each turn
takes a message further (`Batch.weight`). Reading a batch raises exactly if one of its entries
can not be read (`Entry.Reads`).
-/

namespace AuditGateway.Analysis

open AuditGateway.Framework AuditGateway.Python

variable {cw : Clockwork} {handling : Nat → Handling} {limit : Nat} {b b' : Batch}

/-- The message does not raise in its thread. -/
def Handling.Completes : Handling → Prop
  | .noConnection _ | .notReleased _ => False
  | _ => True

instance : DecidablePred Handling.Completes
  | .noConnection _ | .notReleased _ => .isFalse id
  | .returned _ | .raised _ => .isTrue trivial

theorem handle_isOk_iff {m : StreamMessage} {h : Handling} : (∃ r, handle m h = .ok r) ↔ h.Completes := by
  cases h <;> simp [handle, Handling.Completes]

/-! ## Conservation -/

namespace Batch

/-- The messages whose thread was started. -/
def submitted (b : Batch) : List Nat :=
  b.running.map Prod.fst ++ b.results.map Prod.fst

def indices (b : Batch) : List Nat :=
  b.ready.map Prod.fst ++ (b.delayed.map Prod.fst ++ b.submitted)

/-- What the turns of the loop keep, for a batch of `n` messages. -/
structure Sound (handling : Nat → Handling) (n : Nat) (b : Batch) : Prop where
  indices : b.indices.Perm (List.range n)
  handed : ∀ i ∈ b.submitted, (handling i).handed = true → i ∈ b.handed
  completes : ∀ x ∈ b.results, (handling x.1).Completes
  empty : ∀ results, b.finished = some (.ok results) → b.ready = [] ∧ b.delayed = [] ∧ b.running = []

theorem count_filter {α : Type} (p : α → Prop) [DecidablePred p] (f : α → Nat) (l : List α) (i : Nat) :
    (l.map f).count i = ((l.filter fun x => p x).map f).count i + ((l.filter fun x => ¬ p x).map f).count i := by
  induction l with
  | nil => rfl
  | cons x l ih =>
    by_cases h : p x <;> simp [h, List.count_cons, ih] <;> omega

theorem submit_indices : (b.submit handling limit).indices.Perm b.indices := by
  refine List.perm_iff_count.2 fun i => ?_
  have hready := congrArg (fun l => (List.map Prod.fst l).count i)
    (List.take_append_drop (limit - b.running.length) b.ready)
  simp only [submit, indices, submitted, List.map_append, List.count_append] at hready ⊢
  omega

theorem release_indices (now : Instant) : (b.release now).indices.Perm b.indices := by
  refine List.perm_iff_count.2 fun i => ?_
  have hdelayed := count_filter (fun x => x.2.2 ≤ now) Prod.fst b.delayed i
  simp only [release, indices, submitted, List.map_append, List.count_append, List.map_map] at hdelayed ⊢
  have hfst : (Prod.fst ∘ fun x : Nat × StreamMessage × Instant => (x.1, x.2.1)) = Prod.fst := rfl
  rw [hfst]
  omega

theorem resultsOf_eq_ok {done : List (Nat × StreamMessage)} {results : List (Nat × BatchResult)}
    (h : resultsOf handling done = .ok results) :
    results.map Prod.fst = done.map Prod.fst ∧
      ∀ x ∈ results, ∃ m, (x.1, m) ∈ done ∧ handle m (handling x.1) = .ok x.2 := by
  induction done generalizing results with
  | nil =>
    obtain rfl := Except.ok.inj h
    exact ⟨rfl, fun x hx => nomatch hx⟩
  | cons y done ih =>
    obtain ⟨result, hresult, h⟩ := bind_eq_ok_iff.1 h
    obtain ⟨rest, hrest, h⟩ := bind_eq_ok_iff.1 h
    obtain rfl := Except.ok.inj h
    obtain ⟨hmap, hall⟩ := ih hrest
    refine ⟨by simp [hmap], List.forall_mem_cons.2 ⟨⟨y.2, List.mem_cons_self, hresult⟩, fun x hx => ?_⟩⟩
    obtain ⟨m, hm, hhandle⟩ := hall x hx
    exact ⟨m, List.mem_cons_of_mem _ hm, hhandle⟩

theorem resultsOf_isOk {done : List (Nat × StreamMessage)} (hall : ∀ x ∈ done, (handling x.1).Completes) :
    ∃ results, resultsOf handling done = .ok results := by
  induction done with
  | nil => exact ⟨[], rfl⟩
  | cons x done ih =>
    obtain ⟨hx, hdone⟩ := List.forall_mem_cons.1 hall
    obtain ⟨result, hresult⟩ := (handle_isOk_iff (m := x.2)).2 hx
    obtain ⟨results, hresults⟩ := ih hdone
    exact ⟨(x.1, result) :: results, by simp [resultsOf, hresult, hresults, bind, Except.bind, pure, Except.pure]⟩

theorem collect_cases (handling : Nat → Handling) (b : Batch) (done : List Nat) :
    (∃ err, b.collect handling done = b.raise err ∧ ¬ ∀ x ∈ b.running, (handling x.1).Completes) ∨
    ∃ results, b.collect handling done =
        { b with running := b.running.filter fun x => x.1 ∉ done, results := b.results ++ results } ∧
      results.map Prod.fst = (b.running.filter fun x => x.1 ∈ done).map Prod.fst ∧
      (∀ x ∈ results, (handling x.1).Completes) ∧
      resultsOf handling (b.running.filter fun x => x.1 ∈ done) = .ok results := by
  unfold collect
  cases h : resultsOf handling (b.running.filter fun x => x.1 ∈ done) with
  | error err =>
    refine .inl ⟨err, rfl, fun hall => ?_⟩
    have hok : ∃ results, resultsOf handling (b.running.filter fun x => x.1 ∈ done) = .ok results :=
      resultsOf_isOk fun x hx => hall x (List.mem_of_mem_filter hx)
    rw [h] at hok
    exact nomatch hok.choose_spec
  | ok results =>
    obtain ⟨hmap, hall⟩ := resultsOf_eq_ok h
    refine .inr ⟨results, rfl, hmap, fun x hx => ?_, rfl⟩
    obtain ⟨m, -, hhandle⟩ := hall x hx
    exact handle_isOk_iff.1 ⟨x.2, hhandle⟩

/-! ## The turns keep the invariant -/

variable {n : Nat}

theorem Sound.raise (h : b.Sound handling n) (err : Error) : (b.raise err).Sound handling n :=
  ⟨h.indices, h.handed, h.completes, fun _ hfinished => (nomatch hfinished)⟩

theorem Sound.submit (h : b.Sound handling n) (hrun : b.finished = none) :
    (b.submit handling limit).Sound handling n := by
  refine ⟨submit_indices.trans h.indices, fun i hi hhanded => ?_, h.completes, fun _ hfinished => ?_⟩
  · simp only [Batch.submit, submitted, List.map_append, List.mem_append] at hi ⊢
    obtain (hi | hi) | hi := hi
    · exact .inl (h.handed i (List.mem_append_left _ hi) hhanded)
    · exact .inr (List.mem_filter.2 ⟨hi, hhanded⟩)
    · exact .inl (h.handed i (List.mem_append_right _ hi) hhanded)
  · exact nomatch hrun.symm.trans hfinished

theorem Sound.release (h : b.Sound handling n) (hrun : b.finished = none) (now : Instant) :
    (b.release now).Sound handling n :=
  ⟨(release_indices now).trans h.indices, h.handed, h.completes,
    fun _ hfinished => (nomatch hrun.symm.trans hfinished)⟩

theorem collect_submitted (handling : Nat → Handling) (b : Batch) (done : List Nat) :
    (b.collect handling done).submitted.Perm b.submitted := by
  obtain ⟨err, heq, -⟩ | ⟨results, heq, hmap, -⟩ := collect_cases handling b done
  · rw [heq]
    exact .refl _
  · refine List.perm_iff_count.2 fun i => ?_
    have hrunning := count_filter (fun x => x.1 ∈ done) Prod.fst b.running i
    simp only [heq, submitted, List.map_append, List.count_append, hmap, hrunning]
    omega

theorem Sound.collect (h : b.Sound handling n) (hrun : b.finished = none) (done : List Nat) :
    (b.collect handling done).Sound handling n := by
  have hsubmitted := collect_submitted handling b done
  obtain ⟨err, heq, -⟩ | ⟨results, heq, -, hcompletes, -⟩ := collect_cases handling b done
  · rw [heq]
    exact h.raise err
  · rw [heq] at hsubmitted ⊢
    refine ⟨((hsubmitted.append_left _).append_left _).trans h.indices, fun i hi => ?_, ?_, ?_⟩
    · exact h.handed i (hsubmitted.mem_iff.1 hi)
    · exact List.forall_mem_append.2 ⟨h.completes, hcompletes⟩
    · exact fun _ hfinished => nomatch hrun.symm.trans hfinished

/-! ## What a turn does -/

theorem Due.mem {after : Instant} (h : b.Due after) : ∃ x ∈ b.delayed, x.2.2 ≤ after := by
  obtain ⟨due, hmin, hdue⟩ := h
  obtain ⟨x, hx, rfl⟩ := List.mem_map.1 (List.min?_mem hmin)
  exact ⟨x, hx, hdue⟩

/-- The ways in which a turn goes. -/
inductive Goes (cw : Clockwork) (handling : Nat → Handling) (s : Batch) (t : Turn) : Batch → Prop
  | overflow (err : Error) : s.Overflows cw t.before → Goes cw handling s t (s.raise err)
  | collected : (∃ x ∈ s.running, x.1 ∈ t.done) ∨ s.Due t.after →
      Goes cw handling s t (if (s.collect handling t.done).finished.isSome then s.collect handling t.done
        else (s.collect handling t.done).release t.after)
  | released : s.running = [] → (s.release t.before).ready ≠ [] ∨ (s.release t.before).delayed = [] →
      Goes cw handling s t (s.release t.before)
  | overslept (err : Error) : (s.release t.before).Overflows cw t.before →
      Goes cw handling s t ((s.release t.before).raise err)
  | slept : s.running = [] → (s.release t.before).Due t.after →
      Goes cw handling s t ((s.release t.before).release t.after)

variable {t : Turn}

theorem step_cases (h : b.step cw handling limit t = some b') :
    b.finished = none ∧ b.clock ≤ t.before ∧ t.before ≤ t.after ∧
      ((b.ready = [] ∧ b.delayed = [] ∧ b.running = [] ∧
        b' = { b with finished := some (.ok ((b.results.mergeSort fun x y => x.1 ≤ y.1).map Prod.snd)) }) ∨
      (¬ (b.ready = [] ∧ b.delayed = [] ∧ b.running = []) ∧ Goes cw handling (b.submit handling limit) t b')) := by
  unfold step at h
  split at h
  · cases h
  next hrun =>
    obtain ⟨hfinished, hclock⟩ := not_or.1 hrun
    obtain ⟨hbefore, hafter⟩ := not_not.1 hclock
    refine ⟨by simpa using hfinished, hbefore, hafter, ?_⟩
    split at h
    next hempty =>
      obtain rfl := Option.some.inj h
      exact .inl ⟨hempty.1, hempty.2.1, hempty.2.2, rfl⟩
    next hempty =>
      refine .inr ⟨hempty, ?_⟩
      dsimp only at h
      split at h
      next hrunning =>
        unfold waitTurn at h
        split at h
        next hover =>
          obtain rfl := Option.some.inj h
          exact .overflow _ hover.2
        · dsimp only at h
          split at h
          next hdone =>
            obtain rfl := Option.some.inj h
            exact .collected (hdone.imp_right And.right)
          · cases h
      next hrunning =>
        have hidle := not_not.1 hrunning
        unfold sleepTurn at h
        dsimp only at h
        split at h
        next hready =>
          obtain rfl := Option.some.inj h
          exact .released hidle hready
        · split at h
          next hover =>
            obtain rfl := Option.some.inj h
            exact .overslept _ hover
          · split at h
            next hdue =>
              obtain rfl := Option.some.inj h
              exact .slept hidle hdue
            · cases h

/-! ## Every turn makes progress -/

/-- The turns that the messages still need. -/
def load (b : Batch) : Nat :=
  3 * b.delayed.length + 2 * b.ready.length + b.running.length

def weight (b : Batch) : Nat :=
  if b.finished.isSome then 0 else b.load + 1

theorem submit_load (handling : Nat → Handling) (limit : Nat) (b : Batch) :
    (b.submit handling limit).load + min (limit - b.running.length) b.ready.length = b.load := by
  simp only [load, submit, List.length_append, List.length_take, List.length_drop]
  omega

theorem release_load (now : Instant) :
    (b.release now).load + (b.delayed.filter fun x => x.2.2 ≤ now).length = b.load := by
  have hlength := List.length_eq_length_filter_add (l := b.delayed) fun x => decide (x.2.2 ≤ now)
  simp only [load, release, List.length_append, List.length_map, decide_not] at hlength ⊢
  omega

theorem release_load_lt {now : Instant} (h : ∃ x ∈ b.delayed, x.2.2 ≤ now) : (b.release now).load < b.load := by
  obtain ⟨x, hx, hdue⟩ := h
  have hmem : x ∈ b.delayed.filter fun x => x.2.2 ≤ now := List.mem_filter.2 ⟨hx, decide_eq_true hdue⟩
  have hpos := List.length_pos_of_mem hmem
  have := release_load (b := b) now
  omega

theorem Sound.running_lt (h : b.Sound handling n) {x : Nat × StreamMessage} (hx : x ∈ b.running) : x.1 < n := by
  have hmem : x.1 ∈ b.indices :=
    List.mem_append_right _ (List.mem_append_right _ (List.mem_append_left _ (List.mem_map_of_mem hx)))
  exact List.mem_range.1 (h.indices.mem_iff.1 hmem)

theorem collect_calm (hs : b.Sound handling n) (hcompletes : ∀ i < n, (handling i).Completes) (done : List Nat) :
    (b.collect handling done).finished = b.finished ∧ (b.collect handling done).delayed = b.delayed := by
  obtain ⟨err, -, hraises⟩ | ⟨results, heq, -⟩ := collect_cases handling b done
  · exact (hraises fun x hx => hcompletes x.1 (hs.running_lt hx)).elim
  · rw [heq]
    exact ⟨rfl, rfl⟩

theorem collect_load (b : Batch) (done : List Nat) :
    (b.collect handling done).finished.isSome ∨ (b.collect handling done).delayed = b.delayed ∧
      (b.collect handling done).load ≤ b.load ∧
      ((∃ x ∈ b.running, x.1 ∈ done) → (b.collect handling done).load < b.load) := by
  obtain ⟨err, heq, -⟩ | ⟨results, heq, -⟩ := collect_cases handling b done
  · exact .inl (by rw [heq]; rfl)
  · have hlength := List.length_eq_length_filter_add (l := b.running) fun x => decide (x.1 ∈ done)
    rw [heq]
    refine .inr ⟨rfl, ?_, fun ⟨x, hx, hdone⟩ => ?_⟩
    · simp only [load, decide_not] at hlength ⊢
      omega
    · have hmem : x ∈ b.running.filter fun x => x.1 ∈ done := List.mem_filter.2 ⟨hx, decide_eq_true hdone⟩
      have hpos := List.length_pos_of_mem hmem
      simp only [load, decide_not] at hlength ⊢
      omega

theorem release_load_le (now : Instant) : (b.release now).load ≤ b.load :=
  (release_load now).le.trans' (Nat.le_add_right _ _)

theorem goes_load {s : Batch} (hwork : s.running = [] → s.ready = [] ∧ s.delayed ≠ [])
    (hgoes : Goes cw handling s t b') : b'.finished.isSome ∨ b'.load < s.load := by
  cases hgoes with
  | overflow err _ => exact .inl rfl
  | collected hdone =>
    split
    · rename_i hsome
      exact .inl hsome
    · rename_i hnot
      obtain ⟨hdelayed, hle, hlt⟩ := (collect_load s t.done).resolve_left hnot
      cases hdone with
      | inl hdone => exact .inr ((release_load_le t.after).trans_lt (hlt hdone))
      | inr hdue => exact .inr ((release_load_lt (hdelayed ▸ hdue.mem)).trans_le hle)
  | released hidle hready =>
    refine .inr (release_load_lt ?_)
    obtain ⟨hnone, hdelayed⟩ := hwork hidle
    -- nothing was ready before, so what is ready now was delayed and is due
    cases hready with
    | inl hready =>
      rw [Batch.release, hnone, List.nil_append] at hready
      obtain ⟨_, hmem⟩ := List.exists_mem_of_ne_nil _ hready
      obtain ⟨x, hx, -⟩ := List.mem_map.1 hmem
      exact ⟨x, List.mem_of_mem_filter hx, of_decide_eq_true (List.mem_filter.1 hx).2⟩
    | inr hempty =>
      obtain ⟨x, hx⟩ := List.exists_mem_of_ne_nil _ hdelayed
      refine ⟨x, hx, ?_⟩
      simpa using List.filter_eq_nil_iff.1 hempty x hx
  | overslept err _ => exact .inl rfl
  | slept _ hdue => exact .inr ((release_load_lt hdue.mem).trans_le (release_load_le t.before))

theorem goes_calm {s : Batch} (hsound : s.Sound handling n) (hcompletes : ∀ i < n, (handling i).Completes)
    (hopen : s.finished = none) (hover : ¬ s.Overflows cw t.before)
    (hover' : ¬ (s.release t.before).Overflows cw t.before) (hgoes : Goes cw handling s t b') : b'.finished = none := by
  cases hgoes with
  | overflow err h => exact absurd h hover
  | collected _ =>
    have hsame := (collect_calm hsound hcompletes t.done).1.trans hopen
    rw [hsame]
    exact hsame
  | released _ _ => exact hopen
  | overslept err h => exact absurd h hover'
  | slept _ _ => exact hopen

theorem submit_idle (hlimit : 0 < limit) (hwork : ¬ (b.ready = [] ∧ b.delayed = [] ∧ b.running = []))
    (hidle : (b.submit handling limit).running = []) :
    (b.submit handling limit).ready = [] ∧ (b.submit handling limit).delayed ≠ [] := by
  obtain ⟨hrunning, htake⟩ := List.append_eq_nil_iff.1 hidle
  rw [hrunning, List.length_nil, Nat.sub_zero] at htake
  have hready : b.ready = [] := (List.take_eq_nil_iff.1 htake).resolve_left hlimit.ne'
  refine ⟨?_, fun hdelayed => hwork ⟨hready, hdelayed, hrunning⟩⟩
  simp only [submit, hready, List.drop_nil]

theorem step_weight (hlimit : 0 < limit) (hstep : b.step cw handling limit t = some b') :
    b'.weight < b.weight := by
  obtain ⟨hrun, -, -, ⟨-, -, -, rfl⟩ | ⟨hwork, hgoes⟩⟩ := step_cases hstep
  · simp [weight, hrun]
  · have hload := submit_load handling limit b
    obtain hend | hlt := goes_load (submit_idle hlimit hwork) hgoes
    · simp [weight, hend, hrun]
    · simp only [weight, hrun, Option.isSome_none, Bool.false_eq_true, if_false]
      split <;> omega

theorem step_possible (hrun : b.finished = none) : ∃ t b', b.step cw handling limit t = some b' := by
  let s := b.submit handling limit
  -- all the threads are done, or the loop sleeps until the next retry time
  let wake := max b.clock ((s.release b.clock).nextRetryAt.getD b.clock)
  refine ⟨⟨s.running.map Prod.fst, false, b.clock, wake⟩, Option.isSome_iff_exists.1 ?_⟩
  have hclock : b.clock ≤ wake := le_max_left _ _
  simp only [step, hrun, Option.isSome_none, Bool.false_eq_true, le_refl, hclock, and_self, not_true_eq_false,
    or_self, if_false]
  split
  · rfl
  · split
    next hrunning =>
      obtain ⟨x, hx⟩ := List.exists_mem_of_ne_nil _ hrunning
      have hdone : ∃ x ∈ s.running, x.1 ∈ s.running.map Prod.fst := ⟨x, hx, List.mem_map_of_mem hx⟩
      rw [waitTurn, if_neg (by simp), if_pos (.inl hdone)]
      rfl
    · unfold sleepTurn
      dsimp only
      split
      · rfl
      next hdelayed =>
        split
        · rfl
        · have hne := (not_or.1 hdelayed).2
          obtain ⟨due, hdue⟩ : ∃ due, (s.release b.clock).nextRetryAt = some due := by
            rw [nextRetryAt, ← Option.isSome_iff_exists, List.isSome_min?_iff]
            simpa using hne
          rw [if_pos]
          · rfl
          · exact ⟨due, hdue, by simp [wake, hdue]⟩

end Batch

/-! ## The batch -/

/-- The batch has returned, and every message that got a connection was handed to
`_process_stream_message`. -/
def Batch.Returns (handling : Nat → Handling) (n : Nat) (b : Batch) : Prop :=
  (∃ results, b.finished = some (.ok results)) ∧ ∀ i < n, (handling i).handed = true → i ∈ b.handed

theorem Batch.Sound.returns {n : Nat} (h : b.Sound handling n) {results : List BatchResult}
    (hfinished : b.finished = some (.ok results)) :
    b.Returns handling n ∧ ∀ i < n, (handling i).Completes := by
  obtain ⟨hready, hdelayed, hrunning⟩ := h.empty results hfinished
  have hsubmitted {i : Nat} (hi : i < n) : i ∈ b.submitted := by
    have hmem := h.indices.mem_iff.2 (List.mem_range.2 hi)
    rwa [Batch.indices, hready, hdelayed] at hmem
  refine ⟨⟨⟨results, hfinished⟩, fun i hi hhanded => h.handed i (hsubmitted hi) hhanded⟩, fun i hi => ?_⟩
  have hmem := hsubmitted hi
  rw [Batch.submitted, hrunning] at hmem
  obtain ⟨x, hx, rfl⟩ := List.mem_map.1 hmem
  exact h.completes x hx

/-! ## Reading the batch -/

/-- When the hints are read, nothing raises and the retry time, if any, has a time zone. -/
def ReadableHints (cw : Clockwork) (hints : Dict) : Prop :=
  ∃ r, retryNotBeforeForMessage cw hints = .ok r ∧ r ≠ some .naive

variable {hints : Dict}

theorem delayOf_isOk_iff (now : Instant) :
    (∃ delay, delayOf cw now hints = .ok delay) ↔ ReadableHints cw hints := by
  unfold delayOf ReadableHints
  cases retryNotBeforeForMessage cw hints with
  | error err => simp [bind, Except.bind]
  | ok r =>
    cases r with
    | none => simp [bind, Except.bind, pure, Except.pure]
    | some moment => cases moment <;> simp [bind, Except.bind, pure, Except.pure, throw, throwThe, MonadExceptOf.throw]

theorem delayOf_eq_some {now t : Instant} (h : delayOf cw now hints = .ok (some t)) :
    retryNotBeforeForMessage cw hints = .ok (some (.aware t)) := by
  unfold delayOf at h
  cases hr : retryNotBeforeForMessage cw hints with
  | error err => simp [hr, bind, Except.bind] at h
  | ok r =>
    cases r with
    | none => simp [hr, bind, Except.bind, pure, Except.pure] at h
    | some moment =>
      cases moment with
      | naive => simp [hr, bind, Except.bind, throw, throwThe, MonadExceptOf.throw] at h
      | aware t' => simp_all [bind, Except.bind, pure, Except.pure]

variable {messages : List (StreamMessage × Dict)}

theorem sortMessages_isOk_iff {clock : Nat → Instant} {i : Nat} :
    (∃ sorted, sortMessages cw clock i messages = .ok sorted) ↔ ∀ x ∈ messages, ReadableHints cw x.2 := by
  induction messages generalizing i with
  | nil => exact iff_of_true ⟨_, rfl⟩ fun x hx => nomatch hx
  | cons x messages ih =>
    rw [List.forall_mem_cons, ← delayOf_isOk_iff (clock i), ← ih (i := i + 1)]
    simp only [sortMessages]
    cases delayOf cw (clock i) x.2 with
    | error err => simp [bind, Except.bind]
    | ok delay =>
      cases sortMessages cw clock (i + 1) messages with
      | error err => simp [bind, Except.bind]
      | ok sorted => simp [bind, Except.bind, pure, Except.pure]

theorem delayOf_eq_none {time u : Instant} (h : delayOf cw time hints = .ok none)
    (hu : retryNotBeforeForMessage cw hints = .ok (some (.aware u))) : u ≤ time := by
  simp only [delayOf, hu, bind, Except.bind, pure, Except.pure, Except.ok.injEq] at h
  split at h
  · cases h
  · rename_i hnot
    exact not_lt.1 hnot

theorem sortMessages_eq_ok {clock : Nat → Instant} {i : Nat}
    {ready : List (Nat × StreamMessage)} {delayed : List (Nat × StreamMessage × Instant)}
    (h : sortMessages cw clock i messages = .ok (ready, delayed)) :
    (ready.map Prod.fst ++ delayed.map Prod.fst).Perm (List.range' i messages.length) ∧
      (∀ x ∈ ready, ∃ k hints, x.1 = i + k ∧ messages[k]? = some (x.2, hints) ∧
        ∀ u, retryNotBeforeForMessage cw hints = .ok (some (.aware u)) → u ≤ clock x.1) ∧
      ∀ x ∈ delayed, ∃ k hints, x.1 = i + k ∧ messages[k]? = some (x.2.1, hints) ∧
        retryNotBeforeForMessage cw hints = .ok (some (.aware x.2.2)) := by
  induction messages generalizing i ready delayed with
  | nil =>
    obtain ⟨rfl, rfl⟩ := Prod.mk.inj (Except.ok.inj h)
    exact ⟨.refl _, fun x hx => (nomatch hx), fun x hx => (nomatch hx)⟩
  | cons y messages ih =>
    obtain ⟨delay, hdelay, h⟩ := bind_eq_ok_iff.1 h
    obtain ⟨sorted, hrest, h⟩ := bind_eq_ok_iff.1 h
    obtain ⟨hperm, hready, hdelayed⟩ := ih hrest
    -- The positions of the rest are one further.
    have hready' : ∀ x ∈ sorted.1, ∃ k hints, x.1 = i + k ∧ (y :: messages)[k]? = some (x.2, hints) ∧
        ∀ u, retryNotBeforeForMessage cw hints = .ok (some (.aware u)) → u ≤ clock x.1 := fun x hx => by
      obtain ⟨k, hints, hk, hat, hu⟩ := hready x hx
      exact ⟨k + 1, hints, by omega, hat, hu⟩
    have hdelayed' : ∀ x ∈ sorted.2, ∃ k hints, x.1 = i + k ∧ (y :: messages)[k]? = some (x.2.1, hints) ∧
        retryNotBeforeForMessage cw hints = .ok (some (.aware x.2.2)) := fun x hx => by
      obtain ⟨k, hints, hk, hat, hu⟩ := hdelayed x hx
      exact ⟨k + 1, hints, by omega, hat, hu⟩
    rw [List.length_cons, List.range'_succ]
    cases delay with
    | none =>
      obtain ⟨rfl, rfl⟩ := Prod.mk.inj (Except.ok.inj h)
      refine ⟨hperm.cons i, List.forall_mem_cons.2 ⟨⟨0, y.2, rfl, rfl, fun u hu => ?_⟩, hready'⟩, hdelayed'⟩
      exact delayOf_eq_none hdelay hu
    | some u =>
      obtain ⟨rfl, rfl⟩ := Prod.mk.inj (Except.ok.inj h)
      refine ⟨List.perm_middle.trans (hperm.cons i), hready', List.forall_mem_cons.2 ⟨?_, hdelayed'⟩⟩
      exact ⟨0, y.2, rfl, rfl, delayOf_eq_some hdelay⟩

/-- Reading the entry raises nothing: its unknown stage is acknowledged, or its hints are read. -/
def Entry.Reads (cw : Clockwork) (ack : MessageId → Option Error) (e : Entry) : Prop :=
  match messageFromEntry e with
  | .error _ => ack e.id = none
  | .ok m => ∃ hints, parseHints cw m.envelope.hints = .ok hints ∧ ReadableHints cw hints

variable {ack : MessageId → Option Error}

variable {entries : List Entry}

theorem batchMessages_readable_iff :
    (∃ messages, batchMessages cw ack entries = .ok messages ∧ ∀ x ∈ messages, ReadableHints cw x.2) ↔
      ∀ e ∈ entries, e.Reads cw ack := by
  induction entries with
  | nil => exact iff_of_true ⟨[], rfl, fun x hx => nomatch hx⟩ fun e he => nomatch he
  | cons e entries ih =>
    rw [List.forall_mem_cons, ← ih, Entry.Reads, batchMessages]
    cases messageFromEntry e with
    | error err => cases ack e.id <;> simp
    | ok m =>
      cases hhints : parseHints cw m.envelope.hints with
      | error err => simp [hhints, bind, Except.bind]
      | ok hints =>
        cases batchMessages cw ack entries with
        | error err => simp [hhints, bind, Except.bind]
        | ok messages =>
          simp only [hhints, bind, Except.bind, pure, Except.pure, Except.ok.injEq, exists_eq_left',
            List.forall_mem_cons]

theorem batchMessages_length
    (h : batchMessages cw ack entries = .ok messages) : messages.length = (messagesFromEntries entries).1.length := by
  induction entries generalizing messages with
  | nil =>
    obtain rfl := Except.ok.inj h
    rfl
  | cons e entries ih =>
    rw [batchMessages] at h
    cases hm : messageFromEntry e with
    | error err =>
      cases hack : ack e.id with
      | some err => simp [hm, hack] at h
      | none =>
        simp only [hm, hack] at h
        simp [messagesFromEntries, hm, ih h]
    | ok m =>
      rw [hm] at h
      obtain ⟨hints, -, h⟩ := bind_eq_ok_iff.1 h
      obtain ⟨rest, hrest, h⟩ := bind_eq_ok_iff.1 h
      obtain rfl := Except.ok.inj h
      simp [messagesFromEntries, hm, ih hrest]

theorem startBatch_of_not_reads (clock : Nat → Instant) (now : Instant)
    (hreads : ¬ ∀ e ∈ entries, e.Reads cw ack) :
    ∃ err, startBatch cw ack clock now entries = ⟨[], [], [], [], [], now, some (.error err)⟩ := by
  unfold startBatch
  cases hmessages : batchMessages cw ack entries with
  | error err => exact ⟨err, rfl⟩
  | ok messages =>
    simp only [bind, Except.bind]
    cases hsorted : sortMessages cw clock 0 messages with
    | error err => exact ⟨err, rfl⟩
    | ok sorted =>
      have hreadable := sortMessages_isOk_iff.1 ⟨sorted, hsorted⟩
      exact absurd (batchMessages_readable_iff.1 ⟨messages, hmessages, hreadable⟩) hreads

end AuditGateway.Analysis
