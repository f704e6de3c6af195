import AuditGateway.Gateway.Completeness

/-!
# Tool calls of a chat stream

The tool calls of a chat stream arrive in fragments, each with the number of its call. `processSSE` keeps a
call for each number, and `assembleSSE` puts them into a slice that is as long as there are calls, each
at the position of its number.
-/

namespace AuditGateway.Gateway

open AuditGateway.Framework AuditGateway.Go

/-! ## What the document should have -/

/-- The fragments in the payloads of a stream. -/
def toolDeltas (payloads : List Json) : List ToolCallDelta :=
  payloads.flatMap fun payload =>
    ((ChatChunk.decode payload).map fun chunk => chunk.choices.flatMap ChoiceDelta.toolCalls).getD []

/-- The fragments of a number. -/
def fragmentsOf (payloads : List Json) (i : Int) : List ToolCallDelta := (toolDeltas payloads).filter (·.index = i)

/-- Name and arguments of the call with a number. -/
def expectedCall (payloads : List Json) (i : Int) : String × String :=
  (String.join ((fragmentsOf payloads i).map (·.name)), String.join ((fragmentsOf payloads i).map (·.arguments)))

/-- The calls of a stream in the order of their numbers. -/
def expectedCalls (payloads : List Json) : List (String × String) :=
  ((toolIndices payloads).dedup.mergeSort fun i j => i ≤ j).map (expectedCall payloads)

/-- Name and arguments of the calls in a document. -/
def callsIn (doc : Json) : List (String × String) :=
  (doc.elements "choices").flatMap fun choice =>
    ((choice.field "message").elements "tool_calls").map fun call =>
      (((call.field "function").field "name").text, ((call.field "function").field "arguments").text)

/-- The stream is assembled without a panic, and the document has its calls. -/
def CallsAssembled (payloads : List Json) : Prop :=
  ∃ doc, (payloads.foldl ChatExtractor.processSSE {}).assembleSSE = .ok doc ∧
    (doc.map callsIn).getD [] = expectedCalls payloads

theorem toolIndices_eq (payloads : List Json) : toolIndices payloads = (toolDeltas payloads).map (·.index) := by
  rw [toolIndices, toolDeltas, List.map_flatMap]
  refine List.flatMap_congr fun payload _ => ?_
  cases ChatChunk.decode payload with
  | none => rfl
  | some chunk => rw [Option.map_some, Option.map_some, Option.getD_some, Option.getD_some, List.map_flatMap]

namespace ChatExtractor

/-! ## The calls after a stream -/

theorem foldl_sseTools (payloads : List Json) (e : ChatExtractor) :
    (payloads.foldl processSSE e).sseTools = ((toolDeltas payloads).foldl addToolCall e).sseTools := by
  have htools : ∀ (deltas : List ToolCallDelta) (e e' : ChatExtractor), e.sseTools = e'.sseTools →
      (deltas.foldl addToolCall e).sseTools = (deltas.foldl addToolCall e').sseTools := by
    intro deltas
    induction deltas with
    | nil => exact fun e e' h => h
    | cons delta deltas ih =>
      intro e e' h
      refine ih _ _ ?_
      simp only [addToolCall, h]
  have hchoices : ∀ (choices : List ChoiceDelta) (e : ChatExtractor), (choices.foldl addChoice e).sseTools =
      ((choices.flatMap ChoiceDelta.toolCalls).foldl addToolCall e).sseTools := by
    intro choices
    induction choices with
    | nil => exact fun e => rfl
    | cons choice choices ih =>
      intro e
      rw [List.foldl_cons, ih, List.flatMap_cons, List.foldl_append]
      refine htools _ _ _ ?_
      rw [addChoice]
      exact htools _ _ _ rfl
  have hpayload : ∀ (payload : Json) (e : ChatExtractor), (e.processSSE payload).sseTools =
      ((toolDeltas [payload]).foldl addToolCall e).sseTools := by
    intro payload e
    rw [toolDeltas, List.flatMap_singleton]
    cases hchunk : ChatChunk.decode payload with
    | none => rw [processSSE, hchunk]; rfl
    | some chunk =>
      rw [processSSE_of_decode hchunk, addChunk, hchoices]
      refine htools _ _ _ ?_
      unfold addUsage
      split
      · rfl
      · split <;> rfl
  induction payloads generalizing e with
  | nil => rfl
  | cons payload payloads ih =>
    have hcons : toolDeltas (payload :: payloads) = toolDeltas [payload] ++ toolDeltas payloads := by
      rw [toolDeltas, toolDeltas, toolDeltas, List.flatMap_cons, List.flatMap_singleton]
    rw [List.foldl_cons, ih, hcons, List.foldl_append]
    exact htools _ _ _ (hpayload payload e)

theorem find_addToolCalls (deltas : List ToolCallDelta) (e : ChatExtractor) (i : Int) :
    (deltas.foldl addToolCall e).sseTools.find i =
      if i ∈ deltas.map (·.index) then
        some ((deltas.filter (·.index = i)).foldl ToolCall.add ((e.sseTools.find i).getD {}))
      else e.sseTools.find i := by
  induction deltas generalizing e with
  | nil => rfl
  | cons delta deltas ih =>
    rw [List.foldl_cons, ih, addToolCall, Keyed.find_upsert]
    by_cases hi : i = delta.index
    · subst hi
      by_cases hmem : delta.index ∈ deltas.map (·.index)
      · cases e.sseTools.find delta.index <;> simp [hmem]
      · have hfilter : deltas.filter (·.index = delta.index) = [] := by
          refine List.filter_eq_nil_iff.2 fun d hd heq => hmem ?_
          exact List.mem_map.2 ⟨d, hd, by simpa using heq⟩
        cases e.sseTools.find delta.index <;> simp [hmem, hfilter]
    · by_cases hmem : i ∈ deltas.map (·.index)
      · simp [hi, hmem, Ne.symm hi]
      · simp [hi, hmem]

end ChatExtractor

theorem foldl_add (deltas : List ToolCallDelta) (entry : ToolCall) :
    (deltas.foldl ToolCall.add entry).name = entry.name ++ String.join (deltas.map (·.name)) ∧
      (deltas.foldl ToolCall.add entry).arguments = entry.arguments ++ String.join (deltas.map (·.arguments)) := by
  induction deltas generalizing entry with
  | nil => simp
  | cons delta deltas ih =>
    obtain ⟨hname, harguments⟩ := ih (entry.add delta)
    rw [List.foldl_cons, hname, harguments]
    simp only [ToolCall.add, List.map_cons, String.join_cons, String.append_assoc, and_self]

/-! ## The slice -/

theorem foldlM_setIndex (rows : List (Int × ToolCall)) (slice : List Json) (hnodup : (rows.map Prod.fst).Nodup)
    (hrange : ∀ row ∈ rows, 0 ≤ row.1 ∧ row.1 < slice.length) :
    ∃ slice', rows.foldlM (fun slice row => setIndex slice row.1 row.2.document) slice = .ok slice' ∧
      slice'.length = slice.length ∧ (∀ row ∈ rows, slice'[row.1.toNat]? = some row.2.document) ∧
      ∀ n : Nat, (n : Int) ∉ rows.map Prod.fst → slice'[n]? = slice[n]? := by
  induction rows generalizing slice with
  | nil => exact ⟨slice, rfl, rfl, by simp, fun _ _ => rfl⟩
  | cons row rows ih =>
    obtain ⟨hrow, hrows⟩ := List.forall_mem_cons.1 hrange
    rw [List.map_cons, List.nodup_cons] at hnodup
    obtain ⟨slice', hok, hlength, hwritten, hother⟩ := ih (slice.set row.1.toNat row.2.document) hnodup.2
      (by rwa [List.length_set])
    rw [List.length_set] at hlength
    have hcast : ((row.1.toNat : Nat) : Int) = row.1 := Int.toNat_of_nonneg hrow.1
    refine ⟨slice', ?_, hlength, ?_, fun n hn => ?_⟩
    · rw [List.foldlM_cons, setIndex, if_pos hrow]
      exact hok
    · -- No later row has the number of this one.
      refine List.forall_mem_cons.2 ⟨?_, hwritten⟩
      rw [hother _ (by rw [hcast]; exact hnodup.1), List.getElem?_set_self (by omega)]
    · rw [List.map_cons, List.mem_cons, not_or] at hn
      rw [hother n hn.2, List.getElem?_set_ne (by omega)]

theorem sort_numbered {indices : List Int} (h : Numbered indices) :
    (indices.dedup.mergeSort fun i j => i ≤ j) = (List.range indices.dedup.length).map Int.ofNat := by
  have hsubset : indices.dedup ⊆ (List.range indices.dedup.length).map Int.ofNat := by
    intro i hi
    obtain ⟨h0, hlt⟩ := h i (List.mem_dedup.1 hi)
    exact List.mem_map.2 ⟨i.toNat, List.mem_range.2 (by omega), Int.toNat_of_nonneg h0⟩
  have hperm : indices.dedup.Perm ((List.range indices.dedup.length).map Int.ofNat) :=
    (List.subperm_of_subset (List.nodup_dedup indices) hsubset).perm_of_length_le (by simp)
  have hsorted : (indices.dedup.mergeSort fun i j => i ≤ j).Pairwise (· ≤ ·) := by
    refine (List.pairwise_mergeSort (fun i j k hij hjk => ?_) (fun i j => ?_) indices.dedup).imp of_decide_eq_true
    · exact decide_eq_true (Int.le_trans (of_decide_eq_true hij) (of_decide_eq_true hjk))
    · simpa using Int.le_total i j
  have hrange : ((List.range indices.dedup.length).map Int.ofNat).Pairwise (· ≤ ·) := by
    rw [List.pairwise_map]
    exact List.pairwise_lt_range.imp fun hlt => Int.ofNat_le.2 (Nat.le_of_lt hlt)
  exact ((List.mergeSort_perm _ _).trans hperm).eq_of_pairwise (fun i j _ _ => Int.le_antisymm) hsorted hrange

namespace ChatExtractor

theorem toolCalls_eq {e : ChatExtractor} (h : Numbered e.keys) :
    e.toolCalls = .ok ((List.range e.keys.length).map fun n : Nat => ((e.sseTools.find n).getD {}).document) := by
  have hdedup : e.keys.dedup = e.keys := List.Nodup.dedup e.sseTools.nodup
  have hlength : e.keys.length = e.sseTools.rows.length := List.length_map _
  obtain ⟨slice', hok, hlength', hwritten, -⟩ := foldlM_setIndex e.sseTools.rows
    (List.replicate e.sseTools.rows.length .null) e.sseTools.nodup fun row hrow => by
      rw [List.length_replicate, ← hlength, ← hdedup]
      exact h row.1 (List.mem_map_of_mem hrow)
  rw [List.length_replicate, ← hlength] at hlength'
  rw [toolCalls, hok]
  refine congrArg Except.ok (List.ext_getElem? fun n => ?_)
  rw [List.getElem?_map]
  by_cases hn : n < e.keys.length
  · -- As many numbers below the length as there are: each of them has a row.
    have hmem : (n : Int) ∈ e.keys := by
      have hsort := sort_numbered h
      rw [hdedup] at hsort
      rw [← (List.mergeSort_perm e.keys fun i j => i ≤ j).mem_iff, hsort]
      exact List.mem_map.2 ⟨n, List.mem_range.2 hn, rfl⟩
    obtain ⟨row, hrow, hkey⟩ := List.mem_map.1 hmem
    have hfind : e.sseTools.find n = some row.2 := by
      rw [← hkey]
      exact Keyed.find_of_mem hrow
    have hat := hwritten row hrow
    rw [hkey, Int.toNat_natCast] at hat
    rw [hat, List.getElem?_range hn, Option.map_some, hfind, Option.getD_some]
  · rw [List.getElem?_eq_none (by omega), List.getElem?_eq_none (by rw [List.length_range]; omega), Option.map_none]

theorem callsIn_document (e : ChatExtractor) (l : List ToolCall) (h : e.sseTools.rows = [] → l = []) :
    callsIn (e.document (l.map ToolCall.document)) = l.map fun tc => (tc.name, tc.arguments) := by
  have hcalls : (e.message (l.map ToolCall.document)).elements "tool_calls" = l.map ToolCall.document := by
    rw [message, Json.elements_object]
    by_cases hrows : e.sseTools.rows = []
    · rw [h hrows]
      simp +decide [hrows, Fields.elements]
    · exact Fields.elements_of_values (by simp +decide [hrows])
  rw [callsIn, elements_document, List.flatMap_singleton]
  have hmessage : (Json.object [("index", .int 0), ("message", e.message (l.map ToolCall.document)),
      ("finish_reason", .str e.sseFinishReason)]).field "message" = e.message (l.map ToolCall.document) := by
    simp +decide
  rw [hmessage, hcalls, List.map_map]
  refine List.map_congr_left fun tc _ => ?_
  simp +decide [ToolCall.document]

end ChatExtractor

/-! ## The assembled calls -/

theorem find_stream {payloads : List Json} {i : Int} (hi : i ∈ toolIndices payloads) :
    ∃ tc, (payloads.foldl ChatExtractor.processSSE {}).sseTools.find i = some tc ∧
      (tc.name, tc.arguments) = expectedCall payloads i := by
  rw [toolIndices_eq] at hi
  have hfind := ChatExtractor.find_addToolCalls (toolDeltas payloads) {} i
  rw [if_pos hi, ← ChatExtractor.foldl_sseTools] at hfind
  obtain ⟨hname, harguments⟩ := foldl_add (fragmentsOf payloads i) {}
  refine ⟨_, hfind, Prod.ext ?_ ?_⟩
  · exact hname.trans (String.empty_append)
  · exact harguments.trans (String.empty_append)

/-- The tool calls of a chat stream are assembled in the order of their numbers if and only if these are
the numbers from 0 on. -/
theorem tool_calls_assembled_iff (payloads : List Json) :
    CallsAssembled payloads ↔ Numbered (toolIndices payloads) := by
  constructor
  · rintro ⟨doc, hdoc, -⟩
    exact (ChatExtractor.assembleSSE_isOk_iff payloads).1 (by rw [hdoc]; rfl)
  · intro h
    generalize he : payloads.foldl ChatExtractor.processSSE {} = e
    have hmem : ∀ i, i ∈ e.keys ↔ i ∈ toolIndices payloads := fun i => by
      rw [← he]
      exact ChatExtractor.mem_keys_foldl.trans (by simp [ChatExtractor.keys, Keyed.empty])
    have hkeys : Numbered e.keys := (numbered_congr hmem).2 h
    have hperm : e.keys.Perm (toolIndices payloads).dedup :=
      (List.perm_ext_iff_of_nodup e.sseTools.nodup (List.nodup_dedup _)).2 fun i => by
        rw [List.mem_dedup]
        exact hmem i
    let calls := (List.range e.keys.length).map fun n : Nat => (e.sseTools.find n).getD {}
    have htools : e.toolCalls = .ok (calls.map ToolCall.document) := by
      rw [ChatExtractor.toolCalls_eq hkeys, List.map_map]
      rfl
    have hexpected : calls.map (fun tc => (tc.name, tc.arguments)) = expectedCalls payloads := by
      rw [expectedCalls, sort_numbered h, ← hperm.length_eq, List.map_map, List.map_map]
      refine List.map_congr_left fun n hn => ?_
      have hn' : (n : Int) ∈ toolIndices payloads := by
        rw [← List.mem_dedup, ← (List.mergeSort_perm _ fun i j => decide (i ≤ j)).mem_iff, sort_numbered h,
          ← hperm.length_eq]
        exact List.mem_map.2 ⟨n, hn, rfl⟩
      obtain ⟨tc, hfind, htc⟩ := find_stream hn'
      rw [he] at hfind
      simp only [Function.comp_apply, hfind, Option.getD_some]
      exact htc
    have hnone : e.sseTools.rows = [] → calls = [] := fun hrows => by
      simp [calls, ChatExtractor.keys, hrows]
    rw [CallsAssembled, he, ChatExtractor.assembleSSE]
    split
    · rename_i hempty
      refine ⟨none, rfl, ?_⟩
      rw [← hexpected, hnone hempty.2.2.2]
      rfl
    · refine ⟨some (e.document (calls.map ToolCall.document)), by rw [htools]; rfl, ?_⟩
      rw [Option.map_some, Option.getD_some, ChatExtractor.callsIn_document e calls hnone, hexpected]

def secondCallOnly : Json :=
  .object [("choices", .array [.object [("delta", .object [("tool_calls", .array [.object [("index", .int 1),
    ("function", .object [("name", .str "lookup"), ("arguments", .str "7")])]])])]])]

/-- The slice for one call has no position 1. -/
theorem gap_in_numbers_panics :
    ([secondCallOnly].foldl ChatExtractor.processSSE {}).assembleSSE = .error (.indexOutOfRange 1 1) ∧
      expectedCalls [secondCallOnly] = [("lookup", "7")] ∧ ¬ CallsAssembled [secondCallOnly] := by
  have hpanic : ([secondCallOnly].foldl ChatExtractor.processSSE {}).assembleSSE = .error (.indexOutOfRange 1 1) := by
    rfl
  have hindices : (toolIndices [secondCallOnly]).dedup = [1] := by decide
  refine ⟨hpanic, ?_, fun ⟨doc, hdoc, _⟩ => ?_⟩
  · rw [expectedCalls, hindices, List.mergeSort_singleton]
    rfl
  · rw [hpanic] at hdoc
    cases hdoc

end AuditGateway.Gateway
