import AuditGateway.Analysis.Scheduling

/-!
# One message does not stop the others

`batch_isolated_iff`: whatever the schedule, the batch returns and every message that got a connection
was processed, exactly if reading the batch does not raise, no message fails outside of
`_process_stream_message`, and the retry times can be waited for.
A retry time without a time zone is read before any message is handed on, and stops them all
(`naive_retry_time_raises`).
-/

namespace AuditGateway.Analysis

open AuditGateway.Framework AuditGateway.Python

/-- The loop goes on until the batch returns, unless the clock stops; and then every message that got a
connection was handed to `_process_stream_message`. -/
structure Isolated (cw : Clockwork) (handling : Nat → Handling) (maxInflight n : Nat) (b : Batch) : Prop where
  goesOn : ∀ ts b', (schedule cw handling maxInflight).run b ts = some b' → b'.finished = none →
    ∃ t b'', (schedule cw handling maxInflight).step b' t = some b''
  terminates : ∀ f : Nat → Batch, f 0 = b →
    (∀ k, ∃ t, (schedule cw handling maxInflight).step (f k) t = some (f (k + 1))) →
    ∃ bound, ∀ k, (f k).clock ≤ bound
  returns : ∀ ts b', (schedule cw handling maxInflight).run b ts = some b' → b'.finished.isSome →
    b'.Returns handling n

/-- For a clock that is not set back, the messages of a batch do not stop each other, if and only if all the
entries can be read, no message raises outside of `_process_stream_message`, and there is no gap between
the retry times that is too long to be waited for. -/
theorem batch_isolated_iff (cw : Clockwork) (hlongest : 0 ≤ cw.longest) (handling : Nat → Handling)
    (maxInflight : Nat) (ack : MessageId → Option Error) (clock : Nat → Instant) (now : Instant)
    (entries : List Entry) (hclock : ∀ i, clock i ≤ now) :
    Isolated cw handling maxInflight (messagesFromEntries entries).1.length (startBatch cw ack clock now entries) ↔
      (∀ e ∈ entries, e.Reads cw ack) ∧
      (∀ i < (messagesFromEntries entries).1.length, (handling i).Completes) ∧
      ∀ messages, batchMessages cw ack entries = .ok messages → Bridged cw now messages := by
  by_cases hreads : ∀ e ∈ entries, e.Reads cw ack
  · obtain ⟨messages, hread, hvalid⟩ := batchMessages_readable_iff.2 hreads
    obtain ⟨hopen, hnow, -, hsound, htimely⟩ :=
      startBatch_timely handling (max 1 maxInflight) hread hvalid hclock
    have hmessages : (∀ messages, batchMessages cw ack entries = .ok messages → Bridged cw now messages) ↔
        Bridged cw now messages := by
      rw [hread]
      exact ⟨fun h => h messages rfl, fun h _ heq => Except.ok.inj heq ▸ h⟩
    rw [and_iff_right hreads, hmessages, ← batchMessages_length hread,
      ← unraised_iff hlongest hopen hnow hsound htimely]
    constructor
    · intro h ts b' err hrun herr
      obtain ⟨results, hok⟩ := (h.returns ts b' hrun (by rw [herr]; rfl)).1
      exact nomatch herr.symm.trans hok
    · intro hunraised
      refine ⟨fun ts b' _ hrun => turn_possible hrun, fun f _ hf => clock_bounded hf, fun ts b' hrun hend => ?_⟩
      have hsound' : b'.Sound handling messages.length :=
        run_keeps (fun _ _ _ hs hstep => turn_sound hstep hs) hrun hsound
      obtain ⟨result, hresult⟩ := Option.isSome_iff_exists.1 hend
      cases result with
      | error err => exact absurd hresult (hunraised ts b' err hrun)
      | ok results => exact (hsound'.returns hresult).1
  · obtain ⟨err, heq⟩ := startBatch_of_not_reads clock now hreads
    refine iff_of_false (fun h => ?_) fun h => hreads h.1
    obtain ⟨results, hok⟩ := (h.returns [] _ rfl (by rw [heq]; rfl)).1
    rw [heq] at hok
    cases hok

/-- A message that fails in its stage, and one that is retried later. -/
theorem batch_isolated_iff_retry :
    Isolated (hintsClockwork (.aware 5)) (fun _ => .raised (.leaseLost "")) 8 2
      (startBatch (hintsClockwork (.aware 5)) (fun _ => none) (fun _ => 0) 0
        [coreEntry 1 (.dumped []), coreEntry 2 (.text "hints")]) := by
  refine (batch_isolated_iff _ (by decide) _ 8 _ _ 0 [coreEntry 1 (.dumped []), coreEntry 2 (.text "hints")]
    fun _ => le_rfl).2 ⟨?_, fun i _ => trivial, fun messages hread => ?_⟩
  · refine List.forall_mem_cons.2 ⟨⟨[], rfl, none, rfl, by decide⟩, List.forall_mem_singleton.2 ?_⟩
    exact ⟨_, rfl, some (.aware 5), rfl, by decide⟩
  · obtain rfl : retryMessages = messages := Except.ok.inj hread
    exact retryMessages_bridged

/-- A retry time without a time zone ends the batch before the other message is handed on. -/
theorem naive_retry_time_raises :
    let b := startBatch (hintsClockwork .naive) (fun _ => none) (fun _ => 0) 0
      [coreEntry 1 (.dumped []), coreEntry 2 (.text "hints")]
    b.finished = some (.error ⟨"TypeError", "can't compare offset-naive and offset-aware datetimes"⟩) ∧
      b.handed = [] := by
  exact ⟨rfl, rfl⟩

end AuditGateway.Analysis
