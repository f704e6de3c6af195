import AuditGateway.Framework.Machine
import Mathlib.Algebra.Order.Group.Int
import Mathlib.Data.List.Induction

/-!
# The rate limiter of the admin interface

`MemoryRateLimiter` counts the calls of each key in a window, which begins with a call after the end of
the one before. A counter that was never used has the zero time as the end of its window; the window of a call ends
later, as the clock is past the year 1 (`EndsInTime`).
-/

namespace AuditGateway.Admin

open AuditGateway.Framework

/-! ## The limiter -/

/-- `time.Time{}`, the first of January of the year 1, in nanoseconds since the epoch. -/
def zeroTime : Int := -62135596800000000000

/-- The last second of a `time.Time`, since the zero time. -/
def lastSecond : Int := 2 ^ 63 - 1

/-- `t.Add(d)` with a positive duration. The seconds do not go beyond the last. -/
def addDuration (t : Int) (d : Int) : Int :=
  let sum := t - zeroTime + d
  zeroTime + min (sum / 1000000000) lastSecond * 1000000000 + sum % 1000000000

structure RateCounter where
  count : Int := 0
  windowEnd : Int := zeroTime

/-- A key that is not in the map has the zero value. -/
structure MemoryRateLimiter where
  limit : Int
  window : Int
  counters : String → RateCounter

def newMemoryRateLimiter (limit window : Int) : MemoryRateLimiter := ⟨limit, window, fun _ => {}⟩

/-- A call at this time begins a window. -/
def RateCounter.Over (counter : RateCounter) (now : Int) : Prop :=
  counter.windowEnd = zeroTime ∨ ¬ now < counter.windowEnd

instance (counter : RateCounter) (now : Int) : Decidable (counter.Over now) := inferInstanceAs (Decidable (_ ∨ _))

/-- The counter of the window that a call is in. -/
def RateCounter.current (counter : RateCounter) (window : Int) (now : Int) : RateCounter :=
  if counter.Over now then { windowEnd := addDuration now window } else counter

/-- `Allow`, of a limiter that is not nil. -/
def allow (l : MemoryRateLimiter) (key : String) (now : Int) : Bool × MemoryRateLimiter :=
  if l.limit ≤ 0 ∨ l.window ≤ 0 then (true, l)
  else
    let counter := (l.counters key).current l.window now
    if l.limit ≤ counter.count then (false, { l with counters := Function.update l.counters key counter })
    else
      (true, { l with counters := Function.update l.counters key { counter with count := counter.count + 1 } })

/-! ## Runs -/

structure AllowCall where
  key : String
  now : Int

/-- A call with its answer, and whether it began a window. -/
structure Answer extends AllowCall where
  starts : Bool
  allowed : Bool

def limiterStep (l : MemoryRateLimiter) (call : AllowCall) : Answer × MemoryRateLimiter :=
  (⟨call, (l.counters call.key).Over call.now, (allow l call.key call.now).1⟩, (allow l call.key call.now).2)

/-- The answers to a sequence of calls. -/
def answersTo (l : MemoryRateLimiter) (calls : List AllowCall) : List Answer := Machine.outputs limiterStep l calls

def answersFor (key : String) (l : MemoryRateLimiter) (calls : List AllowCall) : List Answer :=
  (answersTo l calls).filter (·.key = key)

/-- The number of calls that were allowed. -/
def allowedCount (answers : List Answer) : Nat := answers.countP (·.allowed)

/-- The limit is kept in a run, for a key. -/
structure LimitKept (limit window : Int) (calls : List AllowCall) (key : String) : Prop where
  /-- From one call to another, if no window is begun between them. -/
  perWindow : ∀ before first inner rest,
    answersFor key (newMemoryRateLimiter limit window) calls = before ++ first :: inner ++ rest →
      (∀ answer ∈ inner, answer.starts = false) → allowedCount (first :: inner) ≤ limit
  perInterval : ∀ start, allowedCount ((answersFor key (newMemoryRateLimiter limit window) calls).filter fun answer =>
    start ≤ answer.now ∧ answer.now ≤ start + window) ≤ 2 * limit
  refused : ∀ before answer rest,
    answersFor key (newMemoryRateLimiter limit window) calls = before ++ answer :: rest → answer.allowed = false →
      answer.starts = false ∧ ∃ earlier first inner, before = earlier ++ first :: inner ∧ first.starts = true ∧
        (∀ answer ∈ inner, answer.starts = false) ∧ allowedCount (first :: inner) = limit
  others : answersFor key (newMemoryRateLimiter limit window) calls =
    answersTo (newMemoryRateLimiter limit window) (calls.filter (·.key = key))

/-- The window that a call begins ends neither at the zero time nor after the last time. This is a fact of the clock,
which shows a time after the year 1. -/
def EndsInTime (window : Int) (now : Int) : Prop :=
  now + window ≠ zeroTime ∧ now + window < zeroTime + (lastSecond + 1) * 1000000000

instance (window now : Int) : Decidable (EndsInTime window now) := inferInstanceAs (Decidable (_ ∧ _))

/-! ## One counter -/

/-- A call for a counter. -/
def counterStep (limit window : Int) (counter : RateCounter) (call : AllowCall) : Answer × RateCounter :=
  let current := counter.current window call.now
  (⟨call, counter.Over call.now, current.count < limit⟩,
    if current.count < limit then { current with count := current.count + 1 } else current)

section

variable {limit window : Int} {counter : RateCounter} {call : AllowCall} {calls : List AllowCall} {key : String}

theorem limiterStep_eq {l : MemoryRateLimiter} (hlimit : 1 ≤ l.limit) (hwindow : 0 < l.window) (call : AllowCall) :
    limiterStep l call = ((counterStep l.limit l.window (l.counters call.key) call).1,
      { l with counters :=
        (Function.update l.counters call.key (counterStep l.limit l.window (l.counters call.key) call).2) }) := by
  have hon : ¬ (l.limit ≤ 0 ∨ l.window ≤ 0) := by omega
  unfold limiterStep counterStep allow
  rw [if_neg hon]
  dsimp only
  by_cases hfull : l.limit ≤ ((l.counters call.key).current l.window call.now).count
  · have hrefused : ¬ ((l.counters call.key).current l.window call.now).count < l.limit := by omega
    rw [if_pos hfull, if_neg hrefused, decide_eq_false hrefused]
  · have hallowed : ((l.counters call.key).current l.window call.now).count < l.limit := by omega
    rw [if_neg hfull, if_pos hallowed, decide_eq_true hallowed]

theorem answers_of_key (hlimit : 1 ≤ limit) (hwindow : 0 < window) (key : String) (calls : List AllowCall) :
    answersFor key (newMemoryRateLimiter limit window) calls =
      Machine.outputs (counterStep limit window) {} (calls.filter (·.key = key)) := by
  rw [answersFor, answersTo]
  refine Machine.filter_outputs (fun l : MemoryRateLimiter => l.limit = limit ∧ l.window = window)
    (fun l => l.counters key) (fun call => call.key = key) (fun answer : Answer => answer.key = key) ?_ ?_ ?_
    (fun l call => ?_) (s := newMemoryRateLimiter limit window) ⟨rfl, rfl⟩ calls
  · rintro l call ⟨rfl, rfl⟩
    rw [limiterStep_eq hlimit hwindow]
    exact ⟨rfl, rfl⟩
  · rintro l call ⟨rfl, rfl⟩ hkey
    obtain rfl := of_decide_eq_true hkey
    rw [limiterStep_eq hlimit hwindow]
    exact ⟨rfl, Function.update_self ..⟩
  · rintro l call ⟨rfl, rfl⟩ hkey
    rw [limiterStep_eq hlimit hwindow]
    exact Function.update_of_ne (Ne.symm (of_decide_eq_false hkey)) _ _
  · rfl

theorem addDuration_eq {now : Int} (h : EndsInTime window now) : addDuration now window = now + window := by
  have hlast : now + window < zeroTime + (lastSecond + 1) * 1000000000 := h.2
  have hmin : min ((now - zeroTime + window) / 1000000000) lastSecond = (now - zeroTime + window) / 1000000000 := by
    rw [min_eq_left]
    omega
  simp only [addDuration, hmin]
  omega

/-- The count is within the limit. -/
def InLimit (limit : Int) (counter : RateCounter) : Prop := 0 ≤ counter.count ∧ counter.count ≤ limit

theorem inLimit_new (hlimit : 1 ≤ limit) : InLimit limit {} := ⟨le_rfl, show (0 : Int) ≤ limit by omega⟩

theorem counterStep_count (window : Int) (hlimit : 1 ≤ limit) (hcounter : InLimit limit counter) (call : AllowCall) :
    InLimit limit (counterStep limit window counter call).2 ∧
      (counterStep limit window counter call).2.count =
        (if (counterStep limit window counter call).1.starts then 0 else counter.count) +
          ((counterStep limit window counter call).1.allowed.toNat : Int) := by
  obtain ⟨hlow, hhigh⟩ := hcounter
  unfold counterStep RateCounter.current InLimit
  by_cases hover : counter.Over call.now
  · have hallowed : (0 : Int) < limit := by omega
    simp only [if_pos hover, decide_eq_true hover, if_pos hallowed, decide_eq_true hallowed, if_true, Bool.toNat_true]
    exact ⟨⟨by decide, by omega⟩, by decide⟩
  · simp only [if_neg hover, decide_eq_false hover, Bool.false_eq_true, if_false]
    by_cases hallowed : counter.count < limit
    · simp only [if_pos hallowed, decide_eq_true hallowed, Bool.toNat_true]
      exact ⟨⟨by omega, by omega⟩, rfl⟩
    · simp only [if_neg hallowed, decide_eq_false hallowed, Bool.toNat_false]
      exact ⟨⟨hlow, hhigh⟩, (Int.add_zero _).symm⟩

theorem inLimit_after (window : Int) (hlimit : 1 ≤ limit) (hcounter : InLimit limit counter) (calls : List AllowCall) :
    InLimit limit (Machine.after (counterStep limit window) counter calls) :=
  Machine.after_induct hcounter (fun _ call h => (counterStep_count window hlimit h call).1) calls

theorem allowedCount_cons (answer : Answer) (answers : List Answer) :
    allowedCount (answer :: answers) = answer.allowed.toNat + allowedCount answers := by
  rw [allowedCount, List.countP_cons, Nat.add_comm]
  cases answer.allowed <;> rfl

theorem allowedCount_append (answers more : List Answer) :
    allowedCount (answers ++ more) = allowedCount answers + allowedCount more :=
  List.countP_append ..

/-! ## Windows -/

theorem count_of_no_start (hlimit : 1 ≤ limit) (hcounter : InLimit limit counter)
    (hinner : ∀ answer ∈ Machine.outputs (counterStep limit window) counter calls, answer.starts = false) :
    (Machine.after (counterStep limit window) counter calls).count =
      counter.count + allowedCount (Machine.outputs (counterStep limit window) counter calls) := by
  induction calls generalizing counter with
  | nil => simp [Machine.after, Machine.outputs, allowedCount]
  | cons call calls ih =>
    rw [Machine.outputs] at hinner
    obtain ⟨hfirst, hinner⟩ := List.forall_mem_cons.1 hinner
    obtain ⟨hin, hcount⟩ := counterStep_count window hlimit hcounter call
    have hrest := ih hin hinner
    rw [Machine.outputs, allowedCount_cons]
    rw [hfirst] at hcount
    simp only [Machine.after, List.foldl_cons] at hrest ⊢
    rw [hrest, hcount]
    push_cast
    exact Int.add_assoc ..

theorem allowedCount_window_le (hlimit : 1 ≤ limit) (hcounter : InLimit limit counter) {first : Answer}
    {inner : List Answer} (houtputs : Machine.outputs (counterStep limit window) counter calls = first :: inner)
    (hinner : ∀ answer ∈ inner, answer.starts = false) : allowedCount (first :: inner) ≤ limit := by
  cases calls with
  | nil => cases houtputs
  | cons call calls =>
    obtain ⟨hfirst, rfl⟩ := List.cons.inj houtputs
    obtain ⟨hin, hcount⟩ := counterStep_count window hlimit hcounter call
    have hrest := count_of_no_start hlimit hin hinner
    have hlow := hcounter.1
    have hhigh := (inLimit_after window hlimit hin calls).2
    rw [allowedCount_cons, ← hfirst]
    push_cast
    split at hcount
    · omega
    · omega

/-- The allowed calls since the last window began. -/
def CountedSince (answers : List Answer) (count : Int) : Prop :=
  ∃ earlier first inner, answers = earlier ++ first :: inner ∧ first.starts = true ∧
    (∀ answer ∈ inner, answer.starts = false) ∧ allowedCount (first :: inner) = count

theorem CountedSince.start (answers : List Answer) {answer : Answer} (h : answer.starts = true) :
    CountedSince (answers ++ [answer]) answer.allowed.toNat := by
  refine ⟨answers, answer, [], rfl, h, List.forall_mem_nil _, ?_⟩
  rw [allowedCount_cons]
  rfl

theorem CountedSince.next {answers : List Answer} {count : Int} (hsince : CountedSince answers count)
    {answer : Answer} (h : answer.starts = false) :
    CountedSince (answers ++ [answer]) (count + answer.allowed.toNat) := by
  obtain ⟨earlier, first, inner, rfl, hfirst, hinner, hcount⟩ := hsince
  refine ⟨earlier, first, inner ++ [answer], by simp, hfirst, ?_, ?_⟩
  · exact List.forall_mem_append.2 ⟨hinner, List.forall_mem_singleton.2 h⟩
  · rw [← List.cons_append, allowedCount_append, Int.natCast_add, hcount, allowedCount_cons]
    rfl

theorem first_starts (limit window : Int) (call : AllowCall) : (counterStep limit window {} call).1.starts = true :=
  decide_eq_true (p := RateCounter.Over {} call.now) (.inl rfl)

theorem counted_since_start (window : Int) (hlimit : 1 ≤ limit) (calls : List AllowCall) :
    calls = [] ∨ CountedSince (Machine.outputs (counterStep limit window) {} calls)
      (Machine.after (counterStep limit window) {} calls).count := by
  induction calls using List.reverseRecOn with
  | nil => exact .inl rfl
  | append_singleton calls call ih =>
    refine .inr ?_
    obtain ⟨-, hcount⟩ := counterStep_count window hlimit (inLimit_after window hlimit (inLimit_new hlimit) calls) call
    rw [Machine.after_append, Machine.outputs_append, hcount]
    split
    · rename_i hstarts
      rw [Int.zero_add]
      exact .start _ hstarts
    · rename_i hstarts
      obtain rfl | hsince := ih
      · exact absurd (first_starts limit window call) hstarts
      · exact hsince.next (Bool.not_eq_true _ ▸ hstarts)

theorem full_of_refused (hlimit : 1 ≤ limit) (hcounter : InLimit limit counter)
    (hrefused : (counterStep limit window counter call).1.allowed = false) :
    (counterStep limit window counter call).1.starts = false ∧ counter.count = limit := by
  have hfull : ¬ (counter.current window call.now).count < limit := of_decide_eq_false hrefused
  unfold RateCounter.current at hfull
  split at hfull
  · exact absurd hlimit hfull
  · rename_i hover
    have hhigh := hcounter.2
    exact ⟨decide_eq_false hover, by omega⟩

/-! ## Intervals -/

/-- The calls that were allowed up to a time. -/
def allowedUntil (last : Int) (answers : List Answer) : Nat := allowedCount (answers.filter (·.now ≤ last))

theorem allowedUntil_outputs (last : Int) (call : AllowCall) (calls : List AllowCall) (counter : RateCounter) :
    allowedUntil last (Machine.outputs (counterStep limit window) counter (call :: calls)) =
      (if call.now ≤ last then (counterStep limit window counter call).1.allowed.toNat else 0) +
        allowedUntil last
          (Machine.outputs (counterStep limit window) (counterStep limit window counter call).2 calls) := by
  have hnow : (counterStep limit window counter call).1.now = call.now := rfl
  rw [Machine.outputs, allowedUntil, List.filter_cons, hnow]
  by_cases h : call.now ≤ last
  · rw [if_pos (decide_eq_true h), if_pos h, allowedCount_cons]
    rfl
  · rw [if_neg (by simpa using h), if_neg h, Nat.zero_add]
    rfl

theorem allowedUntil_late {last : Int} (hcall : last < call.now) (hsorted : (call :: calls).Pairwise (·.now ≤ ·.now))
    (counter : RateCounter) :
    allowedUntil last (Machine.outputs (counterStep limit window) counter (call :: calls)) = 0 := by
  have hlate : ¬ call.now ≤ last := by omega
  induction calls generalizing call counter with
  | nil => rw [allowedUntil_outputs, if_neg hlate]; rfl
  | cons next calls ih =>
    obtain ⟨hnow, hsorted⟩ := List.pairwise_cons.1 hsorted
    have hnext := hnow next List.mem_cons_self
    rw [allowedUntil_outputs, if_neg hlate, ih (by omega) hsorted _ (by omega)]

theorem counterStep_windowEnd (limit window : Int) (counter : RateCounter) (call : AllowCall) :
    (counterStep limit window counter call).2.windowEnd =
      if counter.Over call.now then addDuration call.now window else counter.windowEnd := by
  unfold counterStep RateCounter.current
  dsimp only
  split <;> split <;> rfl

theorem windowEnd_after_call (limit : Int) (hwindow : 0 < window) (hcall : EndsInTime window call.now)
    (counter : RateCounter) :
    (counterStep limit window counter call).2.windowEnd ≠ zeroTime ∧
      call.now < (counterStep limit window counter call).2.windowEnd := by
  rw [counterStep_windowEnd, addDuration_eq hcall]
  split
  · exact ⟨hcall.1, by omega⟩
  · rename_i hover
    exact ⟨fun h => hover (.inl h), not_not.1 fun h => hover (.inr h)⟩

theorem allowedUntil_before_end (window : Int) (hlimit : 1 ≤ limit) (hcounter : InLimit limit counter) {last : Int}
    (hend : counter.windowEnd ≠ zeroTime) (hlast : last < counter.windowEnd)
    (hsorted : calls.Pairwise (·.now ≤ ·.now)) :
    counter.count + allowedUntil last (Machine.outputs (counterStep limit window) counter calls) ≤ limit := by
  induction calls generalizing counter with
  | nil => simpa [Machine.outputs, allowedUntil, allowedCount] using hcounter.2
  | cons call calls ih =>
    by_cases hin : last < call.now
    · rw [allowedUntil_late hin hsorted]
      simpa using hcounter.2
    · have hover : ¬ counter.Over call.now := by
        rintro (h | h)
        · exact hend h
        · omega
      obtain ⟨hstep, hcount⟩ := counterStep_count window hlimit hcounter call
      have hwindowEnd := counterStep_windowEnd limit window counter call
      rw [if_neg hover] at hwindowEnd
      have hrest := ih hstep (hwindowEnd ▸ hend) (hwindowEnd ▸ hlast) (List.pairwise_cons.1 hsorted).2
      rw [show (counterStep limit window counter call).1.starts = false from decide_eq_false hover] at hcount
      rw [allowedUntil_outputs, if_pos (show call.now ≤ last by omega)]
      simp only [Bool.false_eq_true, if_false] at hcount
      push_cast
      omega

theorem allowedUntil_two_windows (last : Int) (hlimit : 1 ≤ limit) (hcounter : InLimit limit counter)
    (hend : counter.windowEnd ≠ zeroTime) (hlast : last - window < counter.windowEnd)
    (hcalls : ∀ call ∈ calls, EndsInTime window call.now) (hsorted : calls.Pairwise (·.now ≤ ·.now)) :
    counter.count + allowedUntil last (Machine.outputs (counterStep limit window) counter calls) ≤ 2 * limit := by
  induction calls generalizing counter with
  | nil =>
    have := hcounter.2
    simp only [Machine.outputs, allowedUntil, allowedCount, List.filter_nil, List.countP_nil]
    omega
  | cons call calls ih =>
    obtain ⟨hcall, hcalls⟩ := List.forall_mem_cons.1 hcalls
    have hhigh := hcounter.2
    by_cases hin : last < call.now
    · rw [allowedUntil_late hin hsorted]
      omega
    obtain ⟨hstep, hcount⟩ := counterStep_count window hlimit hcounter call
    have hwindowEnd := counterStep_windowEnd limit window counter call
    rw [allowedUntil_outputs, if_pos (show call.now ≤ last by omega)]
    push_cast
    by_cases hover : counter.Over call.now
    · -- The window that begins here ends after the interval.
      have hnow : counter.windowEnd ≤ call.now := by
        obtain h | h := hover
        · exact absurd h hend
        · omega
      rw [if_pos hover, addDuration_eq hcall] at hwindowEnd
      have hafter : last < (counterStep limit window counter call).2.windowEnd := by omega
      have hrest := allowedUntil_before_end window hlimit hstep (hwindowEnd ▸ hcall.1) hafter
        (List.pairwise_cons.1 hsorted).2
      rw [show (counterStep limit window counter call).1.starts = true from decide_eq_true hover] at hcount
      simp only [if_true] at hcount
      omega
    · rw [if_neg hover] at hwindowEnd
      have hrest := ih hstep (hwindowEnd ▸ hend) (hwindowEnd ▸ hlast) hcalls (List.pairwise_cons.1 hsorted).2
      rw [show (counterStep limit window counter call).1.starts = false from decide_eq_false hover] at hcount
      simp only [Bool.false_eq_true, if_false] at hcount
      omega

theorem allowed_between_le (hlimit : 1 ≤ limit) (hwindow : 0 < window) (hcounter : InLimit limit counter)
    (hcalls : ∀ call ∈ calls, EndsInTime window call.now) (hsorted : calls.Pairwise (·.now ≤ ·.now)) (start : Int) :
    allowedCount ((Machine.outputs (counterStep limit window) counter calls).filter fun answer =>
      start ≤ answer.now ∧ answer.now ≤ start + window) ≤ 2 * limit := by
  induction calls generalizing counter with
  | nil =>
    simp only [Machine.outputs, allowedCount, List.filter_nil, List.countP_nil]
    omega
  | cons call calls ih =>
    obtain ⟨hcall, hcalls⟩ := List.forall_mem_cons.1 hcalls
    obtain ⟨hnow, hsorted'⟩ := List.pairwise_cons.1 hsorted
    obtain ⟨hstep, hcount⟩ := counterStep_count window hlimit hcounter call
    by_cases hin : start ≤ call.now
    · -- From the first call in the interval on, only its end matters.
      have hafter : ∀ answer ∈ Machine.outputs (counterStep limit window) counter (call :: calls),
          start ≤ answer.now := by
        intro answer hanswer
        obtain ⟨counter', call', hcall', rfl⟩ := Machine.mem_outputs hanswer
        change start ≤ call'.now
        obtain rfl | hcall' := List.mem_cons.1 hcall'
        · exact hin
        · exact hin.trans (hnow call' hcall')
      rw [List.filter_congr (q := fun answer => answer.now ≤ start + window)
        fun answer hanswer => by simp [hafter answer hanswer]]
      have hend := windowEnd_after_call limit hwindow hcall counter
      have hrest := allowedUntil_two_windows (start + window) hlimit hstep hend.1 (by omega) hcalls hsorted'
      have hallowed := hcounter.1
      change (allowedUntil (start + window) _ : Int) ≤ _
      rw [allowedUntil_outputs]
      push_cast
      split at hcount <;> split <;> omega
    · have hearly : ¬ (start ≤ call.now ∧ call.now ≤ start + window) := fun h => hin h.1
      rw [Machine.outputs, List.filter_cons_of_neg (decide_eq_false hearly ▸ Bool.false_ne_true)]
      exact ih hstep hcalls hsorted'

end

/-! ## What is kept -/

end AuditGateway.Admin
