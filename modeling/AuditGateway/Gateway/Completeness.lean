import AuditGateway.Gateway.Assembly
import AuditGateway.Gateway.StreamCopy
import AuditGateway.Gateway.Publishing
import AuditGateway.Gateway.TraceRows

/-!
# Every accepted request has a trace

`ServeHTTP` inserts one trace on each of its ways, apart from three kinds of requests. One for
which no upstream request can be made is answered without a trace. A status code that `WriteHeader` does
not accept makes it panic, for a stream before the trace. And so does a chat stream whose tool calls
are not numbered from 0 without gaps, since `assembleSSE` writes them to a slice.
-/

namespace AuditGateway.Gateway

open AuditGateway.Framework AuditGateway.Framework.Effectful AuditGateway.Go

/-! ## Tool calls of a chat stream -/

/-- The numbers of the tool calls in the payloads of a chat stream. -/
def toolIndices (payloads : List Json) : List Int :=
  payloads.flatMap fun payload =>
    ((ChatChunk.decode payload).map fun chunk => chunk.choices.flatMap fun choice =>
      choice.toolCalls.map ToolCallDelta.index).getD []

/-- As many tool calls as there are, they have the numbers from 0 on. -/
def Numbered (indices : List Int) : Prop :=
  ∀ i ∈ indices, 0 ≤ i ∧ i < indices.dedup.length

instance (indices : List Int) : Decidable (Numbered indices) := inferInstanceAs (Decidable (∀ _ ∈ _, _))

theorem numbered_congr {l l' : List Int} (h : ∀ i, i ∈ l ↔ i ∈ l') : Numbered l ↔ Numbered l' := by
  have hperm : l.dedup.Perm l'.dedup :=
    (List.perm_ext_iff_of_nodup (List.nodup_dedup l) (List.nodup_dedup l')).2 fun i => by
      rw [List.mem_dedup, List.mem_dedup, h]
  simp only [Numbered, h, hperm.length_eq]

namespace ChatExtractor

def keys (e : ChatExtractor) : List Int := e.sseTools.rows.map Prod.fst

variable {e : ChatExtractor} {i : Int}

theorem mem_keys_addToolCall {delta : ToolCallDelta} :
    i ∈ (e.addToolCall delta).keys ↔ i ∈ e.keys ∨ i = delta.index := by
  have hmem : ∀ t : Keyed Int ToolCall, i ∈ t.rows.map Prod.fst ↔ t.find i ≠ none := fun t => by
    rw [ne_eq, Keyed.find_eq_none, not_not]
  rw [keys, keys, hmem, hmem, addToolCall, Keyed.find_upsert]
  by_cases hi : i = delta.index <;> simp [hi]

theorem mem_keys_addToolCalls {deltas : List ToolCallDelta} :
    i ∈ (deltas.foldl addToolCall e).keys ↔ i ∈ e.keys ∨ i ∈ deltas.map ToolCallDelta.index := by
  induction deltas generalizing e with
  | nil => simp
  | cons delta deltas ih => rw [List.foldl_cons, ih, mem_keys_addToolCall, List.map_cons, List.mem_cons, or_assoc]

theorem mem_keys_addChoices {choices : List ChoiceDelta} :
    i ∈ (choices.foldl addChoice e).keys ↔
      i ∈ e.keys ∨ i ∈ choices.flatMap fun choice => choice.toolCalls.map ToolCallDelta.index := by
  induction choices generalizing e with
  | nil => simp
  | cons choice choices ih =>
    rw [List.foldl_cons, ih, addChoice, mem_keys_addToolCalls, List.flatMap_cons, List.mem_append, or_assoc]
    rfl

theorem mem_keys_processSSE {payload : Json} :
    i ∈ (e.processSSE payload).keys ↔ i ∈ e.keys ∨ i ∈ toolIndices [payload] := by
  cases hchunk : ChatChunk.decode payload with
  | none => simp [processSSE, toolIndices, hchunk]
  | some chunk =>
    have husage : ∀ e' : ChatExtractor, (e'.addUsage chunk.usage).keys = e'.keys := fun e' => by
      unfold addUsage
      split
      · rfl
      · split <;> rfl
    rw [processSSE_of_decode hchunk, addChunk, mem_keys_addChoices, husage]
    simp [toolIndices, hchunk, keys]

theorem mem_keys_foldl {payloads : List Json} :
    i ∈ (payloads.foldl processSSE e).keys ↔ i ∈ e.keys ∨ i ∈ toolIndices payloads := by
  induction payloads generalizing e with
  | nil => simp [toolIndices]
  | cons payload payloads ih =>
    rw [List.foldl_cons, ih, mem_keys_processSSE, or_assoc]
    simp [toolIndices]

theorem toolCalls_isOk_iff : e.toolCalls.isOk ↔ Numbered e.keys := by
  have hfold : ∀ (rows : List (Int × ToolCall)) (slice : List Json),
      (rows.foldlM (fun slice row => setIndex slice row.1 row.2.document) slice).isOk ↔
        ∀ row ∈ rows, 0 ≤ row.1 ∧ row.1 < slice.length := by
    intro rows
    induction rows with
    | nil => exact fun slice => iff_of_true rfl (by simp)
    | cons row rows ih =>
      intro slice
      rw [List.foldlM_cons, List.forall_mem_cons]
      unfold setIndex
      split
      · rename_i hin
        have := ih (slice.set row.1.toNat row.2.document)
        rw [List.length_set] at this
        exact this.trans ⟨fun hrows => ⟨hin, hrows⟩, And.right⟩
      · rename_i hout
        exact iff_of_false (by simp [Except.isOk]; rfl) fun hall => hout hall.1
  rw [toolCalls, hfold, List.length_replicate, Numbered, keys, List.Nodup.dedup e.sseTools.nodup, List.length_map,
    List.forall_mem_map]

theorem assembleSSE_isOk_iff (payloads : List Json) :
    (payloads.foldl processSSE {}).assembleSSE.isOk ↔ Numbered (toolIndices payloads) := by
  have hkeys : Numbered (payloads.foldl processSSE {}).keys ↔ Numbered (toolIndices payloads) :=
    numbered_congr fun i => mem_keys_foldl.trans (by simp [keys, Keyed.empty])
  rw [← hkeys, ← toolCalls_isOk_iff, assembleSSE]
  split
  · rename_i hnothing
    exact iff_of_true rfl (toolCalls_isOk_iff.2 (by simp [Numbered, keys, hnothing.2.2.2]))
  · cases (payloads.foldl processSSE {}).toolCalls <;> exact Iff.rfl

end ChatExtractor

/-! ## When a stream can be stored -/

/-- The payloads of a streamed response as far as it is copied. -/
def streamedPayloads (env : Environment) (resp : UpstreamResponse) : List Json :=
  (payloadsOf (delivered env.writers 0 resp.body.reads)).filterMap env.unmarshal

/-- The families with the chat extractor. -/
def ProtocolFamily.IsChat (family : ProtocolFamily) : Prop :=
  family = .openaiChat ∨ family = .openaiCompletions

instance (family : ProtocolFamily) : Decidable family.IsChat := inferInstanceAs (Decidable (_ ∨ _))

theorem assembles_iff (h : Handler) (env : Environment) (family : ProtocolFamily) (resp : UpstreamResponse) :
    Assembles h env family resp ↔
      (h.evidenceStore → family.IsChat → Numbered (toolIndices (streamedPayloads env resp))) := by
  have hext : (streamCopy h env family resp).1.extractor.ext =
      (extractorFor family).processAll (streamedPayloads env resp) := by
    rw [streamCopy, copyStream_extractor, SSEUsageExtractor.feed, UsageExtractor.foldl_processPayload]
    rfl
  rw [Assembles, hext]
  refine imp_congr_right fun _ => ?_
  cases family <;>
    simp only [extractorFor, ProtocolFamily.IsChat, UsageExtractor.processAll_chat, UsageExtractor.processAll_claude,
      UsageExtractor.processAll_responses, UsageExtractor.processAll_gemini, UsageExtractor.processAll_images,
      UsageExtractor.processAll_generic, UsageExtractor.assembleSSE, ChatExtractor.assembleSSE_isOk_iff, reduceCtorEq,
      or_false, false_or, or_self, forall_const, IsEmpty.forall_iff, iff_true]
  all_goals rfl

/-! ## The trace of a request -/

def Event.trace? : Event → Option Trace
  | insertTrace trace _ => some trace
  | _ => none

/-- The traces that were inserted. -/
def tracesOf (log : List Event) : List Trace := log.filterMap Event.trace?

theorem tracesOf_notable (log : List Event) : tracesOf (notable log) = tracesOf log := by
  rw [tracesOf, notable, List.filterMap_filter, tracesOf]
  congr 1
  funext e
  cases e <;> simp [Event.isNotable, Event.trace?]

/-- What it takes for a request to be served to its end with a trace. -/
def Traceable (h : Handler) (env : Environment) (req : Request) (entry : Entry) : Prop :=
  (entry.bodyKind = .websocket ∧ req.upgrade) ∨
  (env.newUpstreamRequest = none ∧ ∀ resp, env.roundTrip = .ok resp →
    if resp.isStreaming then
      ValidCode resp.statusCode ∧
        (h.evidenceStore → entry.protocolFamily.IsChat → Numbered (toolIndices (streamedPayloads env resp)))
    else resp.body.fault = none → ValidCode resp.statusCode)

theorem ending_iff (h : Handler) (env : Environment) (entry : Entry) (errorType : String) :
    ((ending h env entry.protocolFamily errorType).1 = true ∧
      (ending h env entry.protocolFamily errorType).2.isSome) ↔
    (env.newUpstreamRequest = none ∧ ∀ resp, env.roundTrip = .ok resp →
      if resp.isStreaming then
        ValidCode resp.statusCode ∧
          (h.evidenceStore → entry.protocolFamily.IsChat → Numbered (toolIndices (streamedPayloads env resp)))
      else resp.body.fault = none → ValidCode resp.statusCode) := by
  unfold ending
  cases env.newUpstreamRequest with
  | some err => simp
  | none =>
    cases env.roundTrip with
    | error err => simp
    | ok resp =>
      simp only [Except.ok.injEq, forall_eq', true_and, ← assembles_iff]
      split
      · split <;> simp_all
      · cases resp.body.fault <;> simp

theorem EndsAs.returns_with_trace_iff {traceID : String} {ending : Bool × Option String} {r : Except Panic Unit}
    {added : List Event} (hends : EndsAs traceID ending r added) :
    (r = .ok () ∧ ∃ trace, tracesOf added = [trace] ∧ trace.traceID = traceID) ↔
      (ending.1 = true ∧ ending.2.isSome) := by
  obtain ⟨returned, errorType⟩ := ending
  obtain ⟨hr, hadded⟩ := hends
  have hok : r = .ok () ↔ returned = true := by
    cases r with
    | ok u => exact iff_of_true rfl hr.symm
    | error p => exact iff_of_false nofun fun ht => by simp [Except.isOk, Except.toBool, ht] at hr
  rw [hok]
  refine and_congr_right fun _ => ?_
  cases errorType with
  | none =>
    simp only at hadded
    simp [hadded, tracesOf]
  | some errorType =>
    obtain ⟨trace, error, ⟨hid, -⟩, rfl⟩ := hadded
    exact iff_of_true ⟨trace, rfl, hid⟩ rfl

/-- Serving an accepted request returns with one trace inserted, that of the request, if and only if it is
traceable. -/
theorem trace_inserted_iff (h : Handler) (env : Environment) (traceID : String) (req : Request) (entry : Entry)
    (captured : CapturedRequest) (ha : Accepted h req entry captured) (hrepo : h.traceRepo) :
    ((outcome (serveHTTP h env traceID req) []).1 = .ok () ∧
      ∃ trace, tracesOf (outcome (serveHTTP h env traceID req) []).2 = [trace] ∧ trace.traceID = traceID) ↔
    Traceable h env req entry := by
  rw [ha.serveHTTP_eq]
  obtain ⟨before, after, hlog, hputs, hafter⟩ := serveCaptured_ends env hrepo traceID req entry captured
  generalize outcome (serveCaptured h env traceID req entry captured) [] = result at *
  have htraces : tracesOf result.2 = tracesOf after := by
    rw [← tracesOf_notable, hlog]
    have hbefore : before.filterMap Event.trace? = [] := by
      refine List.filterMap_eq_nil_iff.2 fun e he => ?_
      obtain ⟨request, result, rfl⟩ := hputs e he
      rfl
    simp [tracesOf, hbefore]
  rw [htraces, Traceable]
  unfold EndsAfter at hafter
  split at hafter
  · rename_i htunnel
    obtain ⟨hr, trace, error, hid, rfl⟩ := hafter
    exact iff_of_true ⟨hr, trace, rfl, hid⟩ (.inl htunnel)
  · rename_i htunnel
    rw [hafter.returns_with_trace_iff, ending_iff]
    exact ⟨.inr, fun hor => hor.resolve_left htunnel⟩

theorem trace_inserted_iff_emptyResponse :
    Accepted chatHandler chatRequest chatEntry {} ∧
    (outcome (serveHTTP chatHandler (faultless (fun _ => none) emptyResponse 0) "t" chatRequest) []).1 = .ok () := by
  have ha : Accepted chatHandler chatRequest chatEntry {} := ⟨rfl, rfl, by decide⟩
  refine ⟨ha, ((trace_inserted_iff _ (faultless (fun _ => none) emptyResponse 0) "t" _ _ _ ha rfl).2 (.inr ?_)).1⟩
  refine ⟨rfl, fun resp hresp => ?_⟩
  obtain rfl := Except.ok.inj hresp
  exact fun _ => ⟨by decide, by decide⟩

def toolPayload : Bytes :=
  ascii "\x7b\"choices\":[\x7b\"delta\":\x7b\"tool_calls\":[\x7b\"index\":1,\"id\":\"call_1\"\x7d]\x7d\x7d]\x7d"

def toolDocument : Json :=
  .object [("choices", .array [.object [("delta", .object [("tool_calls",
    .array [.object [("index", .int 1), ("id", .str "call_1")]])])]])]

def toolStream : UpstreamResponse where
  statusCode := 200
  header := []
  contentType := "text/event-stream"
  body := { chunks := [dataMarker ++ toolPayload ++ [10]] }

/-- Everything else goes well, but the request ends with a panic and has no trace. -/
theorem tool_call_panics :
    let result := outcome (serveHTTP chatHandler (faultless (decodesOnly toolPayload toolDocument) toolStream
      (dataMarker ++ toolPayload ++ [10]).length) "t" chatRequest) []
    result.1 = .error (.indexOutOfRange 1 1) ∧ tracesOf result.2 = [] := by
  set_option maxRecDepth 4000 in
  exact ⟨rfl, rfl⟩

end AuditGateway.Gateway
