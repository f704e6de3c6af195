import AuditGateway.Pipeline.CoreStage

/-!
# The counts of the message store

Every row of `messages` counts the places of traces that refer to it. The count is kept by
the three statements of `storeMessage`: a new message starts with one occurrence, and a
message that is there gets one more with each new place. What is not checked is that the
place of a new message is new as well. If a trace is saved again with other content, the
new content is counted once although its place keeps the old one.
-/

namespace AuditGateway.Pipeline

open AuditGateway.Framework AuditGateway.Python

/-! ## What the counts should be -/

/-- How many places refer to a message. -/
def Tables.references (T : Tables) (key : Str) : Nat :=
  T.traceMessages.count fun row => row.2.messageKey = key

/-- Every message counts the places that refer to it. -/
def Tables.Counted (T : Tables) : Prop :=
  ∀ key row, T.messages.find key = some row → row.occurrenceCount = T.references key

/-- Every place refers to a message. -/
def Tables.Linked (T : Tables) : Prop :=
  ∀ place row, T.traceMessages.find place = some row → T.messages.find row.messageKey ≠ none

/-- The message is counted more often than it occurs. -/
def Tables.Overcounted (T : Tables) (key : Str) : Prop :=
  ∃ row, T.messages.find key = some row ∧ T.references key < row.occurrenceCount

/-- A message is added only together with its place. -/
def Tables.Takes (T : Tables) (m : NormalizedMessage) : Prop :=
  T.messages.find m.messageKey = none → T.traceMessages.find m.place = none

instance (T : Tables) (m : NormalizedMessage) : Decidable (T.Takes m) :=
  inferInstanceAs (Decidable (_ → _))

/-! ## One message -/

section Step

variable {T : Tables} {m : NormalizedMessage} {key : Str}

theorem find_storeMessage : (T.storeMessage m).messages.find key =
    if key = m.messageKey then
      match T.messages.find key with
      | none => some m.row
      | some row => if T.traceMessages.find m.place = none then some row.seenAgain else some row
    else T.messages.find key := by
  unfold Tables.storeMessage
  by_cases hkey : key = m.messageKey
  · subst hkey
    cases hrow : T.messages.find m.messageKey with
    | none => simp [hrow, Keyed.find_insertNew]
    | some row =>
      by_cases hplace : T.traceMessages.find m.place = none
      · simp [hrow, hplace, Keyed.find_modify, Keyed.find_insertNew]
      · simp [hrow, hplace, Keyed.find_insertNew]
  · dsimp only
    split
    · simp [hkey, Keyed.find_modify, Keyed.find_insertNew]
    · simp [hkey, Keyed.find_insertNew]

theorem find_storeMessage_ne_none (h : T.messages.find key ≠ none) :
    (T.storeMessage m).messages.find key ≠ none := by
  rw [find_storeMessage]
  split
  · split
    · simp
    · split <;> simp
  · exact h

theorem find_place_storeMessage {place : Place} : (T.storeMessage m).traceMessages.find place =
    if place = m.place ∧ T.traceMessages.find m.place = none then some m.occurrence
    else T.traceMessages.find place :=
  Keyed.find_insertNew

theorem references_storeMessage : (T.storeMessage m).references key =
    T.references key + if T.traceMessages.find m.place = none ∧ key = m.messageKey then 1 else 0 := by
  rw [Tables.references, Tables.storeMessage, Keyed.count_insertNew, Tables.references]
  simp [NormalizedMessage.occurrence, eq_comm]

theorem storeMessage_linked (h : T.Linked) : (T.storeMessage m).Linked := by
  intro place row hrow
  rw [find_place_storeMessage] at hrow
  split at hrow
  · obtain rfl := Option.some.inj hrow
    show (T.storeMessage m).messages.find m.messageKey ≠ none
    rw [find_storeMessage, if_pos rfl]
    split
    · simp
    · split <;> simp
  · exact find_storeMessage_ne_none (h place row hrow)

theorem references_eq_zero (h : T.Linked) (hkey : T.messages.find key = none) : T.references key = 0 := by
  rw [Tables.references, Keyed.count, List.countP_eq_zero]
  rintro ⟨place, row⟩ hmem
  simp only [decide_eq_true_eq]
  rintro rfl
  exact h place row (Keyed.find_of_mem hmem) hkey

theorem storeMessage_counted (hl : T.Linked) (hc : T.Counted) (ht : T.Takes m) : (T.storeMessage m).Counted := by
  intro key row hrow
  rw [find_storeMessage] at hrow
  rw [references_storeMessage]
  by_cases hkey : key = m.messageKey
  · subst hkey
    rw [if_pos rfl] at hrow
    cases hold : T.messages.find m.messageKey with
    | none =>
      rw [hold] at hrow
      obtain rfl := Option.some.inj hrow
      simp [ht hold, references_eq_zero hl hold, NormalizedMessage.row]
    | some old =>
      have hcount := hc _ _ hold
      rw [hold] at hrow
      by_cases hplace : T.traceMessages.find m.place = none
      · simp only [hplace, if_true] at hrow
        obtain rfl := Option.some.inj hrow
        simp [hplace, MessageRow.seenAgain, hcount]
      · simp only [hplace, if_false] at hrow
        obtain rfl := Option.some.inj hrow
        simp [hplace, hcount]
  · rw [if_neg hkey] at hrow
    simpa [hkey] using hc key row hrow

theorem storeMessage_overcounted (hl : T.Linked) (ht : ¬ T.Takes m) :
    (T.storeMessage m).Overcounted m.messageKey := by
  obtain ⟨hkey, hplace⟩ := Classical.not_imp.1 ht
  refine ⟨m.row, by simp [find_storeMessage, hkey], ?_⟩
  rw [references_storeMessage, references_eq_zero hl hkey]
  simp [hplace, NormalizedMessage.row]

theorem Tables.Overcounted.storeMessage (h : T.Overcounted key) : (T.storeMessage m).Overcounted key := by
  obtain ⟨row, hrow, hlt⟩ := h
  rw [Tables.Overcounted, references_storeMessage]
  by_cases hkey : key = m.messageKey
  · by_cases hplace : T.traceMessages.find m.place = none
    · refine ⟨row.seenAgain, by rw [find_storeMessage, hrow]; simp [hkey, hplace], ?_⟩
      simp only [MessageRow.seenAgain]
      split <;> omega
    · exact ⟨row, by rw [find_storeMessage, hrow]; simp [hkey, hplace], by simpa [hplace] using hlt⟩
  · exact ⟨row, by rw [find_storeMessage, if_neg hkey, hrow], by simpa [hkey] using hlt⟩

theorem Tables.Overcounted.not_counted (h : T.Overcounted key) : ¬ T.Counted := by
  obtain ⟨row, hrow, hlt⟩ := h
  intro hc
  exact (hc key row hrow).not_gt hlt

theorem storeMessage_again (hkey : T.messages.find m.messageKey ≠ none)
    (hplace : T.traceMessages.find m.place ≠ none) :
    (T.storeMessage m).messages = T.messages ∧ (T.storeMessage m).traceMessages = T.traceMessages := by
  obtain ⟨row, hrow⟩ := Option.ne_none_iff_exists'.1 hkey
  obtain ⟨old, hold⟩ := Option.ne_none_iff_exists'.1 hplace
  simp [Tables.storeMessage, hold, Keyed.insertNew_of_some hrow, Keyed.insertNew_of_some hold]

end Step

/-! ## The messages of one call -/

/-- The messages are taken one after the other, each one only together with its place if it is
new. -/
def Tables.Tidy (T : Tables) : List NormalizedMessage → Prop
  | [] => True
  | m :: messages => T.Takes m ∧ (T.storeMessage m).Tidy messages

/-- The messages are there, and their places are taken. -/
def Tables.Has (T : Tables) (messages : List NormalizedMessage) : Prop :=
  ∀ m ∈ messages, T.messages.find m.messageKey ≠ none ∧ T.traceMessages.find m.place ≠ none

section Loop

variable {T : Tables} {messages more : List NormalizedMessage} {key : Str}

theorem foldl_linked (h : T.Linked) (messages : List NormalizedMessage) :
    (messages.foldl Tables.storeMessage T).Linked := by
  induction messages generalizing T with
  | nil => exact h
  | cons m messages ih => exact ih (storeMessage_linked h)

theorem Tables.Overcounted.foldl (h : T.Overcounted key) (messages : List NormalizedMessage) :
    (messages.foldl Tables.storeMessage T).Overcounted key := by
  induction messages generalizing T with
  | nil => exact h
  | cons m messages ih => exact ih (Tables.Overcounted.storeMessage h)

theorem foldl_counted (hl : T.Linked) (hc : T.Counted) (ht : T.Tidy messages) :
    (messages.foldl Tables.storeMessage T).Counted := by
  induction messages generalizing T with
  | nil => exact hc
  | cons m messages ih => exact ih (storeMessage_linked hl) (storeMessage_counted hl hc ht.1) ht.2

theorem foldl_overcounted (hl : T.Linked) (ht : ¬ T.Tidy messages) :
    ∃ key, (messages.foldl Tables.storeMessage T).Overcounted key := by
  induction messages generalizing T with
  | nil => exact absurd trivial ht
  | cons m messages ih =>
    by_cases hm : T.Takes m
    · exact ih (storeMessage_linked hl) fun h => ht ⟨hm, h⟩
    · exact ⟨_, (storeMessage_overcounted hl hm).foldl messages⟩

theorem Tables.Has.storeMessage (h : T.Has messages) (m : NormalizedMessage) : (T.storeMessage m).Has messages := by
  intro m' hm'
  refine ⟨find_storeMessage_ne_none (h m' hm').1, ?_⟩
  rw [find_place_storeMessage]
  split
  · simp
  · exact (h m' hm').2

theorem Tables.Has.foldl (h : T.Has messages) (more : List NormalizedMessage) :
    (more.foldl Tables.storeMessage T).Has messages := by
  induction more generalizing T with
  | nil => exact h
  | cons m more ih => exact ih (Tables.Has.storeMessage h m)

theorem storeMessage_has (T : Tables) (m : NormalizedMessage) : (T.storeMessage m).Has [m] := by
  refine List.forall_mem_singleton.2 ⟨?_, ?_⟩
  · rw [find_storeMessage, if_pos rfl]
    split
    · simp
    · split <;> simp
  · rw [find_place_storeMessage]
    split
    · simp
    · simp_all

theorem foldl_has (T : Tables) (messages : List NormalizedMessage) :
    (messages.foldl Tables.storeMessage T).Has messages := by
  induction messages generalizing T with
  | nil => exact fun m hm => nomatch hm
  | cons m messages ih =>
    refine List.forall_mem_cons.2 ⟨?_, ih _⟩
    exact (storeMessage_has T m).foldl messages m List.mem_cons_self

theorem Tables.Has.foldl_eq (h : T.Has messages) :
    (messages.foldl Tables.storeMessage T).messages = T.messages ∧
      (messages.foldl Tables.storeMessage T).traceMessages = T.traceMessages := by
  induction messages generalizing T with
  | nil => exact ⟨rfl, rfl⟩
  | cons m messages ih =>
    obtain ⟨hm, hmessages⟩ := List.forall_mem_cons.1 h
    obtain ⟨h₁, h₂⟩ := ih (T := T.storeMessage m) (Tables.Has.storeMessage hmessages m)
    obtain ⟨h₁', h₂'⟩ := storeMessage_again hm.1 hm.2
    exact ⟨h₁.trans h₁', h₂.trans h₂'⟩

end Loop

/-! ## Sequences of calls -/

/-- A call of `save_trace_analysis`, with the time of its transaction. -/
abbrev SaveCall := Int × TraceAnalysis

section Calls

variable (rt : Runtime) (pg : Postgres)

/-- The tables after a call; a call that raises is rolled back. -/
def saveCall (T : Tables) (call : SaveCall) : Tables :=
  match saveTraceAnalysis rt pg call.1 T call.2 with
  | .ok T' => T'
  | .error _ => T

/-- No call of the sequence that is committed adds a message at a place that is taken. -/
def TidyCalls (T : Tables) : List SaveCall → Prop
  | [] => True
  | call :: calls =>
    (call.2.Savable rt pg → T.Tidy call.2.messages) ∧ TidyCalls (saveCall rt pg T call) calls

/-- Saving an analysis of the sequence again changes neither messages nor places. -/
def Resaves (T : Tables) (calls : List SaveCall) : Prop :=
  ∀ call ∈ calls, ∀ now, (saveCall rt pg T (now, call.2)).messages = T.messages ∧
    (saveCall rt pg T (now, call.2)).traceMessages = T.traceMessages

variable {rt pg} {T : Tables} {call : SaveCall} {key : Str}

theorem saveCall_cases (rt : Runtime) (pg : Postgres) (T : Tables) (call : SaveCall) :
    (call.2.Savable rt pg ∧
      (saveCall rt pg T call).messages = (call.2.messages.foldl Tables.storeMessage T).messages ∧
      (saveCall rt pg T call).traceMessages = (call.2.messages.foldl Tables.storeMessage T).traceMessages) ∨
    (¬ call.2.Savable rt pg ∧ saveCall rt pg T call = T) := by
  have hyields := saveTraceAnalysis_yields rt pg call.1 T call.2
  unfold saveCall
  by_cases hs : call.2.Savable rt pg
  · rw [hyields.ok hs, saved_eq]
    exact .inl ⟨hs, rfl, rfl⟩
  · obtain ⟨e, he⟩ := hyields.error hs
    rw [he]
    exact .inr ⟨hs, rfl⟩

theorem saveCall_keeps {p : Tables → Prop}
    (hp : ∀ T T' : Tables, T.messages = T'.messages → T.traceMessages = T'.traceMessages → p T → p T')
    (hfold : ∀ messages : List NormalizedMessage, p T → p (messages.foldl Tables.storeMessage T)) (h : p T) :
    p (saveCall rt pg T call) := by
  obtain ⟨_, hm, ht⟩ | ⟨_, heq⟩ := saveCall_cases rt pg T call
  · exact hp _ _ hm.symm ht.symm (hfold _ h)
  · rwa [heq]

theorem Tables.Linked.congr {T T' : Tables} (hm : T.messages = T'.messages) (ht : T.traceMessages = T'.traceMessages)
    (h : T.Linked) : T'.Linked := by
  rwa [Tables.Linked, ← hm, ← ht]

theorem Tables.Counted.congr {T T' : Tables} (hm : T.messages = T'.messages)
    (ht : T.traceMessages = T'.traceMessages) (h : T.Counted) : T'.Counted := by
  intro key row
  rw [Tables.references, ← hm, ← ht]
  exact h key row

theorem Tables.Overcounted.congr {T T' : Tables} (hm : T.messages = T'.messages)
    (ht : T.traceMessages = T'.traceMessages) (h : T.Overcounted key) : T'.Overcounted key := by
  rwa [Tables.Overcounted, Tables.references, ← hm, ← ht]

theorem Tables.Has.congr {T T' : Tables} {messages : List NormalizedMessage} (hm : T.messages = T'.messages)
    (ht : T.traceMessages = T'.traceMessages) (h : T.Has messages) : T'.Has messages := by
  rwa [Tables.Has, ← hm, ← ht]

theorem saveCall_linked (h : T.Linked) : (saveCall rt pg T call).Linked :=
  saveCall_keeps (fun _ _ => Tables.Linked.congr) (fun messages h => foldl_linked h messages) h

theorem Tables.Overcounted.saveCall (h : T.Overcounted key) : (saveCall rt pg T call).Overcounted key :=
  saveCall_keeps (fun _ _ => Tables.Overcounted.congr) (fun messages h => h.foldl messages) h

theorem Tables.Has.saveCall {messages : List NormalizedMessage} (h : T.Has messages) :
    (saveCall rt pg T call).Has messages :=
  saveCall_keeps (fun _ _ => Tables.Has.congr) (fun more h => h.foldl more) h

theorem saveCall_counted (hl : T.Linked) (hc : T.Counted) (ht : call.2.Savable rt pg → T.Tidy call.2.messages) :
    (saveCall rt pg T call).Counted := by
  obtain ⟨hs, hm, htm⟩ | ⟨_, heq⟩ := saveCall_cases rt pg T call
  · have hcounted := foldl_counted hl hc (ht hs)
    exact hcounted.congr hm.symm htm.symm
  · rwa [heq]

theorem saveCall_overcounted (hl : T.Linked) (hs : call.2.Savable rt pg) (ht : ¬ T.Tidy call.2.messages) :
    ∃ key, (saveCall rt pg T call).Overcounted key := by
  obtain ⟨_, hm, htm⟩ | ⟨hns, _⟩ := saveCall_cases rt pg T call
  · obtain ⟨key, hkey⟩ := foldl_overcounted hl ht
    exact ⟨key, hkey.congr hm.symm htm.symm⟩
  · exact absurd hs hns

theorem calls_linked (h : T.Linked) (calls : List SaveCall) : (calls.foldl (saveCall rt pg) T).Linked := by
  induction calls generalizing T with
  | nil => exact h
  | cons call calls ih => exact ih (saveCall_linked h)

theorem calls_counted_iff (hl : T.Linked) (hc : T.Counted) (calls : List SaveCall) :
    (calls.foldl (saveCall rt pg) T).Counted ↔ TidyCalls rt pg T calls := by
  induction calls generalizing T with
  | nil => exact iff_of_true hc trivial
  | cons call calls ih =>
    rw [List.foldl_cons, TidyCalls]
    by_cases ht : call.2.Savable rt pg → T.Tidy call.2.messages
    · rw [ih (saveCall_linked hl) (saveCall_counted hl hc ht)]
      exact (and_iff_right ht).symm
    · -- the message that is counted without a place stays so in every later call
      obtain ⟨hs, ht'⟩ := Classical.not_imp.1 ht
      obtain ⟨key, hkey⟩ := saveCall_overcounted hl hs ht'
      have hover (calls : List SaveCall) {T : Tables} (h : T.Overcounted key) :
          (calls.foldl (saveCall rt pg) T).Overcounted key := by
        induction calls generalizing T with
        | nil => exact h
        | cons call calls ih => exact ih h.saveCall
      exact iff_of_false (hover calls hkey).not_counted fun h => ht h.1

theorem calls_has (calls : List SaveCall) (hcall : call ∈ calls) (hs : call.2.Savable rt pg) :
    (calls.foldl (saveCall rt pg) T).Has call.2.messages := by
  have hlater (calls : List SaveCall) {T : Tables} (h : T.Has call.2.messages) :
      (calls.foldl (saveCall rt pg) T).Has call.2.messages := by
    induction calls generalizing T with
    | nil => exact h
    | cons call calls ih => exact ih h.saveCall
  induction calls generalizing T with
  | nil => cases hcall
  | cons first calls ih =>
    obtain rfl | hcall := List.mem_cons.1 hcall
    · obtain ⟨_, hm, ht⟩ | ⟨hns, _⟩ := saveCall_cases rt pg T call
      · exact hlater calls (Tables.Has.congr hm.symm ht.symm (foldl_has T _))
      · exact absurd hs hns
    · exact ih hcall

theorem calls_resave (T : Tables) (calls : List SaveCall) : Resaves rt pg (calls.foldl (saveCall rt pg) T) calls := by
  intro call hcall now
  obtain ⟨hs, hm, ht⟩ | ⟨_, heq⟩ :=
    saveCall_cases rt pg (calls.foldl (saveCall rt pg) T) (now, call.2)
  · obtain ⟨h₁, h₂⟩ := (calls_has calls hcall hs).foldl_eq (T := calls.foldl (saveCall rt pg) T)
    exact ⟨hm.trans h₁, ht.trans h₂⟩
  · rw [heq]
    exact ⟨rfl, rfl⟩

end Calls

/-- Over any sequence of calls from empty tables: the counts are exact, every place refers to a
message and saving again changes nothing, if and only if no message was added at a place that
was taken. -/
theorem message_store_exact_iff (rt : Runtime) (pg : Postgres) (calls : List SaveCall) :
    ((calls.foldl (saveCall rt pg) .empty).Counted ∧ (calls.foldl (saveCall rt pg) .empty).Linked ∧
      Resaves rt pg (calls.foldl (saveCall rt pg) .empty) calls) ↔ TidyCalls rt pg .empty calls := by
  have hl : Tables.empty.Linked := fun _ _ h => nomatch h
  have hc : Tables.empty.Counted := fun _ _ h => nomatch h
  rw [calls_counted_iff hl hc]
  exact ⟨And.left, fun h => ⟨h, calls_linked hl calls, calls_resave _ calls⟩⟩

/-- A trace with one prompt. -/
def promptAnalysis (text : String) : TraceAnalysis where
  messages := [NormalizedMessage.of (plainRuntime []) promptJob .request 0 "user" "request.prompt"
    { itemType := .genericPrompt, contentText := text }]
  results := []
  aggregates := []

/-- The same trace saved with one prompt and then with another: the second prompt is counted
once, and occurs nowhere. -/
theorem resaved_content_overcounts :
    let T := [(0, promptAnalysis "hello"), (1, promptAnalysis "goodbye")].foldl
      (saveCall (plainRuntime []) ⟨fun _ => true⟩) .empty
    let key := keyOf (plainRuntime []) "user" .text "goodbye"
    (T.messages.find key).map (·.occurrenceCount) = some 1 ∧ T.references key = 0 := by
  decide

/-! ## Occurrences of coverage alerts -/

/-- How often an alert has occurred, as its row says. -/
def Tables.occurrences (T : Tables) (id : Str) : Nat := ((T.coverageAlerts.find id).map (·.occurrenceCount)).getD 0

theorem occurrences_saved {rt : Runtime} (T : Tables) (now : Int) (a : TraceAnalysis) (id : Str) :
    (T.saved rt now a).occurrences id = T.occurrences id + a.coverageAlerts.countP (·.alertId = id) := by
  rw [saved_eq, Tables.occurrences]
  dsimp only
  induction a.coverageAlerts using List.reverseRecOn with
  | nil => rfl
  | append_singleton alerts x ih =>
    rw [List.foldl_concat, Keyed.find_upsert, List.countP_append, ← Nat.add_assoc, ← ih]
    by_cases hx : id = x.alertId
    · subst hx
      generalize (alerts.foldl _ T.coverageAlerts).find x.alertId = row
      cases row <;> simp [CoverageAlert.over]
    · simp [hx, Ne.symm hx]

/-- Over every sequence of calls, an alert has occurred as often as it is in the analyses that were committed. -/
theorem coverage_occurrences_exact (rt : Runtime) (pg : Postgres) [DecidablePred (TraceAnalysis.Savable rt pg)]
    (calls : List SaveCall) (id : Str) :
    (calls.foldl (saveCall rt pg) .empty).occurrences id =
      ((calls.filter (·.2.Savable rt pg)).flatMap (·.2.coverageAlerts)).countP (·.alertId = id) := by
  induction calls using List.reverseRecOn with
  | nil => rfl
  | append_singleton calls call ih =>
    rw [List.foldl_concat, List.filter_append, List.flatMap_append, List.countP_append, ← ih, saveCall]
    have hyields := saveTraceAnalysis_yields rt pg call.1 (calls.foldl (saveCall rt pg) .empty) call.2
    by_cases hs : call.2.Savable rt pg
    · rw [hyields.ok hs]
      simp [hs, occurrences_saved]
    · obtain ⟨e, he⟩ := hyields.error hs
      rw [he]
      simp [hs]

end AuditGateway.Pipeline
