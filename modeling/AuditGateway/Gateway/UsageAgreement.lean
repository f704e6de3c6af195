import AuditGateway.Framework.Lists
import AuditGateway.Gateway.Usage

/-!
# Usage of streamed and of buffered responses

A provider gives a response either as one document or as a stream of events. The gateway
should record the same usage and the same model for both. It does not always: a stream's
usage counts only if its total is positive, and of a Claude stream the model and the cache
counts are taken from `message_start` and only if the input tokens are positive there.
`streamed_eq_buffered_iff` gives the responses for which the two agree.
-/

namespace AuditGateway.Gateway

open AuditGateway.Framework AuditGateway.Go

/-- A number of tokens, as a value of type `int`. -/
structure Count where
  n : Int
  nonneg : 0 ≤ n
  inRange : InRange n

def Count.document (c : Count) : Json := .int c.n

@[simp] theorem Count.asInt_document (c : Count) : c.document.asInt = some c.n := if_pos c.inRange

/-- A response as its provider sees it. Claude's input and output tokens are the prompt and completion
tokens; `startOutputTokens` is what `message_start` reports as output so far. -/
structure Response where
  id : String
  model : String
  fragments : List String
  promptTokens : Count
  completionTokens : Count
  totalTokens : Count
  cachedTokens : Count
  reasoningTokens : Count
  cacheReadTokens : Count
  cacheCreationTokens : Count
  startOutputTokens : Count

/-- The event of a Claude stream that carries the cache counts. -/
inductive CacheReport
  | messageStart
  | messageDelta
deriving DecidableEq, Repr

inductive Format
  | chat
  | responses
  | claude (cache : CacheReport)
  | gemini

def Format.family : Format → ProtocolFamily
  | chat => .openaiChat
  | responses => .openaiResponses
  | claude _ => .claudeMessages
  | gemini => .gemini

namespace Response

variable (r : Response)

/-! ## Chat completions -/

def chatUsageDocument : Json :=
  .object [("prompt_tokens", r.promptTokens.document), ("completion_tokens", r.completionTokens.document),
    ("total_tokens", r.totalTokens.document),
    ("prompt_tokens_details", .object [("cached_tokens", r.cachedTokens.document)]),
    ("completion_tokens_details", .object [("reasoning_tokens", r.reasoningTokens.document)])]

def chatBody : Json :=
  .object [("id", .str r.id), ("object", .str "chat.completion"), ("model", .str r.model),
    ("choices", .array [.object [("index", .int 0), ("message", .object [("role", .str "assistant"),
      ("content", .str (String.join r.fragments))]), ("finish_reason", .str "stop")]]),
    ("usage", r.chatUsageDocument)]

def chatChunk (choices : List Json) (usage : Json) : Json :=
  .object [("id", .str r.id), ("object", .str "chat.completion.chunk"), ("model", .str r.model),
    ("choices", .array choices), ("usage", usage)]

def chatDelta (fragment : String) : Json :=
  r.chatChunk [.object [("index", .int 0), ("delta", .object [("content", .str fragment)]),
    ("finish_reason", .null)]] .null

def chatEvents : List Json := r.fragments.map r.chatDelta ++ [r.chatChunk [] r.chatUsageDocument]

/-! ## Responses -/

def responsesBody : Json :=
  .object [("id", .str r.id), ("object", .str "response"), ("model", .str r.model),
    ("output", .array [.object [("type", .str "message"), ("role", .str "assistant"),
      ("content", .array [.object [("type", .str "output_text"), ("text", .str (String.join r.fragments))]])]]),
    ("usage", .object [("input_tokens", r.promptTokens.document), ("output_tokens", r.completionTokens.document),
      ("total_tokens", r.totalTokens.document),
      ("input_tokens_details", .object [("cached_tokens", r.cachedTokens.document)]),
      ("output_tokens_details", .object [("reasoning_tokens", r.reasoningTokens.document)])])]

def responsesCreated : Json :=
  .object [("type", .str "response.created"),
    ("response", .object [("id", .str r.id), ("model", .str r.model), ("output", .array []), ("usage", .null)])]

def responsesDelta (fragment : String) : Json :=
  .object [("type", .str "response.output_text.delta"), ("output_index", .int 0), ("content_index", .int 0),
    ("delta", .str fragment)]

def responsesCompleted : Json := .object [("type", .str "response.completed"), ("response", r.responsesBody)]

def responsesEvents : List Json :=
  r.responsesCreated :: r.fragments.map responsesDelta ++ [r.responsesCompleted]

/-! ## Claude messages -/

def cacheFields : Fields :=
  [("cache_read_input_tokens", r.cacheReadTokens.document),
    ("cache_creation_input_tokens", r.cacheCreationTokens.document)]

def claudeBody : Json :=
  .object [("id", .str r.id), ("type", .str "message"), ("role", .str "assistant"), ("model", .str r.model),
    ("content", .array [.object [("type", .str "text"), ("text", .str (String.join r.fragments))]]),
    ("usage", .object ([("input_tokens", r.promptTokens.document),
      ("output_tokens", r.completionTokens.document)] ++ r.cacheFields))]

def messageStart (cache : Fields) : Json :=
  .object [("type", .str "message_start"), ("message", .object [("id", .str r.id), ("type", .str "message"),
    ("model", .str r.model), ("content", .array []),
    ("usage", .object ([("input_tokens", r.promptTokens.document),
      ("output_tokens", r.startOutputTokens.document)] ++ cache))])]

def contentBlockStart : Json :=
  .object [("type", .str "content_block_start"), ("index", .int 0),
    ("content_block", .object [("type", .str "text"), ("text", .str "")])]

def contentBlockDelta (fragment : String) : Json :=
  .object [("type", .str "content_block_delta"), ("index", .int 0),
    ("delta", .object [("type", .str "text_delta"), ("text", .str fragment)])]

def contentBlockStop : Json := .object [("type", .str "content_block_stop"), ("index", .int 0)]

def messageDelta (cache : Fields) : Json :=
  .object [("type", .str "message_delta"), ("delta", .object [("stop_reason", .str "end_turn")]),
    ("usage", .object ([("output_tokens", r.completionTokens.document)] ++ cache))]

def messageStop : Json := .object [("type", .str "message_stop")]

def claudeText : List Json :=
  contentBlockStart :: r.fragments.map contentBlockDelta ++ [contentBlockStop]

/-- The cache counts, in one of the two events with usage. -/
def cacheFieldsIn (event cache : CacheReport) : Fields := if event = cache then r.cacheFields else []

def claudeEvents (cache : CacheReport) : List Json :=
  r.messageStart (r.cacheFieldsIn .messageStart cache) :: r.claudeText ++
    [r.messageDelta (r.cacheFieldsIn .messageDelta cache), messageStop]

/-! ## Gemini -/

def candidates (text : String) : Json :=
  .array [.object [("content", .object [("parts", .array [.object [("text", .str text)]])])]]

def geminiBody : Json :=
  .object [("candidates", candidates (String.join r.fragments)), ("modelVersion", .str r.model),
    ("usageMetadata", .object [("promptTokenCount", r.promptTokens.document),
      ("candidatesTokenCount", r.completionTokens.document), ("totalTokenCount", r.totalTokens.document),
      ("cachedContentTokenCount", r.cachedTokens.document), ("thoughtsTokenCount", r.reasoningTokens.document)])]

def geminiDelta (fragment : String) : Json := .object [("candidates", candidates fragment)]

def geminiEvents : List Json := r.fragments.map geminiDelta ++ [r.geminiBody]

/-! ## The two ways to give a response -/

def body : Format → Json
  | .chat => r.chatBody
  | .responses => r.responsesBody
  | .claude _ => r.claudeBody
  | .gemini => r.geminiBody

def events : Format → List Json
  | .chat => r.chatEvents
  | .responses => r.responsesEvents
  | .claude cache => r.claudeEvents cache
  | .gemini => r.geminiEvents

/-- Usage and model that are recorded for the stream of a response. -/
def streamed (format : Format) : MinimalUsage × String :=
  ((extractorFor format.family).processAll (r.events format)).sseResult

/-- Usage and model that are recorded for its body. -/
def buffered (format : Format) : MinimalUsage × String :=
  (extractorFor format.family).extractResponse (some (r.body format))

def reported : MinimalUsage where
  promptTokens := r.promptTokens.n
  completionTokens := r.completionTokens.n
  totalTokens := r.totalTokens.n
  reasoningTokens := r.reasoningTokens.n
  cachedTokens := r.cachedTokens.n

/-! ## Recorded from a body -/

theorem buffered_chat : r.buffered .chat = (r.reported, r.model) := by
  simp +decide [buffered, Format.family, extractorFor, UsageExtractor.extractResponse, body, chatBody,
    chatUsageDocument,
    ChatExtractor.extractResponse, UsageKeys.decode, chatUsage, detail, reported]

theorem buffered_responses : r.buffered .responses = (r.reported, r.model) := by
  simp +decide [buffered, Format.family, extractorFor, UsageExtractor.extractResponse, body, responsesBody,
    ResponsesExtractor.extractResponse, UsageKeys.decode, responsesUsage, detail, reported]

/-- Gemini's counts of cached and reasoning tokens are not read. -/
def geminiReported : MinimalUsage := { r.reported with reasoningTokens := 0, cachedTokens := 0 }

theorem buffered_gemini : r.buffered .gemini = (r.geminiReported, "") := by
  simp +decide [buffered, Format.family, extractorFor, UsageExtractor.extractResponse, body, geminiBody,
    geminiResponse, usageUnder, UsageKeys.decode, geminiUsage, detail, geminiReported, reported]

theorem buffered_claude (cache : CacheReport) : r.buffered (.claude cache) =
    ({ promptTokens := r.promptTokens.n, completionTokens := r.completionTokens.n,
       totalTokens := add r.promptTokens.n r.completionTokens.n,
       cachedTokens := add r.cacheReadTokens.n r.cacheCreationTokens.n }, r.model) := by
  simp +decide [buffered, Format.family, extractorFor, UsageExtractor.extractResponse, body, claudeBody, cacheFields,
    ClaudeExtractor.extractResponse, ClaudeUsage.decode, ClaudeUsage.minimal]

/-! ## Recorded from a stream -/

/-- The model of a stream is not known yet, or it is that of the response. -/
def KnownModel (mdl : String) : Prop := mdl = "" ∨ mdl = r.model

theorem KnownModel.next {mdl : String} (h : r.KnownModel mdl) : (if r.model = "" then mdl else r.model) = r.model := by
  split
  · rename_i hempty
    rcases h with h | h
    · rw [h, hempty]
    · exact h
  · rfl

theorem decode_chatDelta (fragment : String) : ChatChunk.decode (r.chatDelta fragment) =
    some ⟨r.id, r.model, none, [⟨0, "", "", fragment, []⟩]⟩ := by
  simp +decide [chatDelta, chatChunk, ChatChunk.decode, ChoiceDelta.decode, Fields.slice, Fields.pointer,
    Fields.elements, Json.mergeSlice, Json.mergePointer, Json.asSlice, Json.asPointer]

theorem decode_chatUsage : ChatChunk.decode (r.chatChunk [] r.chatUsageDocument) =
    some ⟨r.id, r.model, some r.reported, []⟩ := by
  simp +decide [chatChunk, chatUsageDocument, ChatChunk.decode, Fields.slice, Fields.pointer, Fields.elements,
    Json.mergeSlice, Json.mergePointer, Json.merge, Json.asSlice, Json.asPointer, UsageKeys.decode, chatUsage, detail,
    reported]

theorem streamed_chat : r.streamed .chat = (({} : MinimalUsage).supersede r.reported, r.model) := by
  let Before (e : ChatExtractor) : Prop := e.acc = {} ∧ r.KnownModel e.mdl
  have hdeltas : Before ((r.fragments.map r.chatDelta).foldl ChatExtractor.processSSE {}) := by
    refine List.foldlRecOn _ _ (motive := Before) ⟨rfl, .inl rfl⟩ fun e ⟨hacc, hmdl⟩ payload hp => ?_
    obtain ⟨fragment, _, rfl⟩ := List.mem_map.1 hp
    rw [ChatExtractor.processSSE_of_decode (r.decode_chatDelta fragment)]
    refine ⟨?_, ?_⟩
    · rw [ChatExtractor.addChunk_acc]
      exact hacc
    · rw [ChatExtractor.addChunk_mdl, hmdl.next]
      exact .inr rfl
  simp only [streamed, Format.family, extractorFor, events, chatEvents, UsageExtractor.processAll_chat,
    List.foldl_append,
    List.foldl_cons, List.foldl_nil, UsageExtractor.sseResult]
  rw [ChatExtractor.processSSE_of_decode r.decode_chatUsage, ChatExtractor.addChunk_acc, ChatExtractor.addChunk_mdl,
    hdeltas.1, hdeltas.2.next]
  rfl

theorem header_responsesCreated : ∃ head, ResponsesExtractor.header r.responsesCreated = some head := by
  simp +decide [ResponsesExtractor.header, responsesCreated]

theorem reported_responsesCreated : ResponsesExtractor.reported r.responsesCreated = some (r.model, {}) := by
  simp +decide [ResponsesExtractor.reported, responsesCreated, UsageKeys.decode, responsesUsage, detail]

theorem header_responsesDelta (fragment : String) :
    ∃ head, ResponsesExtractor.header (responsesDelta fragment) = some head := by
  simp +decide [ResponsesExtractor.header, responsesDelta]

theorem reported_responsesDelta (fragment : String) :
    ResponsesExtractor.reported (responsesDelta fragment) = some ("", {}) := by
  simp +decide [ResponsesExtractor.reported, responsesDelta, UsageKeys.decode, responsesUsage, detail]

theorem header_responsesCompleted : ∃ head, ResponsesExtractor.header r.responsesCompleted = some head := by
  simp +decide [ResponsesExtractor.header, responsesCompleted]

theorem reported_responsesCompleted :
    ResponsesExtractor.reported r.responsesCompleted = some (r.model, r.reported) := by
  simp +decide [ResponsesExtractor.reported, responsesCompleted, responsesBody, UsageKeys.decode,
    responsesUsage, detail,
    reported]

theorem streamed_responses : r.streamed .responses = (({} : MinimalUsage).supersede r.reported, r.model) := by
  let Before (e : ResponsesExtractor) : Prop := e.acc = {} ∧ r.KnownModel e.mdl
  have hcreated : Before (ResponsesExtractor.processSSE {} r.responsesCreated) := by
    obtain ⟨head, hhead⟩ := r.header_responsesCreated
    obtain ⟨hacc, hmdl⟩ := ResponsesExtractor.processSSE_result (e := {}) hhead r.reported_responsesCreated
    refine ⟨hacc, .inr ?_⟩
    rw [hmdl, KnownModel.next r (.inl rfl)]
  have hdeltas : Before ((r.fragments.map responsesDelta).foldl ResponsesExtractor.processSSE
      (ResponsesExtractor.processSSE {} r.responsesCreated)) := by
    refine List.foldlRecOn _ _ (motive := Before) hcreated fun e ⟨hacc, hmdl⟩ payload hp => ?_
    obtain ⟨fragment, _, rfl⟩ := List.mem_map.1 hp
    obtain ⟨head, hhead⟩ := header_responsesDelta fragment
    obtain ⟨hacc', hmdl'⟩ := ResponsesExtractor.processSSE_result (e := e) hhead (reported_responsesDelta fragment)
    exact ⟨hacc'.trans hacc, hmdl' ▸ hmdl⟩
  obtain ⟨head, hhead⟩ := r.header_responsesCompleted
  obtain ⟨hacc, hmdl⟩ := ResponsesExtractor.processSSE_result (e := (r.fragments.map responsesDelta).foldl
    ResponsesExtractor.processSSE (ResponsesExtractor.processSSE {} r.responsesCreated)) hhead
    r.reported_responsesCompleted
  simp only [streamed, Format.family, extractorFor, events, responsesEvents, UsageExtractor.processAll_responses,
    List.cons_append, List.foldl_append, List.foldl_cons, List.foldl_nil, UsageExtractor.sseResult]
  rw [hacc, hmdl, hdeltas.1, hdeltas.2.next]

theorem streamed_gemini : r.streamed .gemini = (({} : MinimalUsage).supersede r.geminiReported, "") := by
  have hdeltas : ((r.fragments.map geminiDelta).foldl geminiSSE {}).acc = {} := by
    refine List.foldlRecOn _ _ (motive := fun e : CountingExtractor => e.acc = {}) rfl fun e hacc payload hp => ?_
    obtain ⟨fragment, _, rfl⟩ := List.mem_map.1 hp
    have hnone : usageUnder "usageMetadata" geminiUsage (geminiDelta fragment) = some {} := by
      simp +decide [usageUnder, geminiDelta, UsageKeys.decode, geminiUsage, detail]
    simp only [geminiSSE, CountingExtractor.processSSE, hnone, hacc]
    rfl
  have hfinal : usageUnder "usageMetadata" geminiUsage r.geminiBody = some r.geminiReported := by
    simp +decide [usageUnder, geminiBody, UsageKeys.decode, geminiUsage, detail, geminiReported, reported]
  simp only [streamed, Format.family, extractorFor, events, geminiEvents, UsageExtractor.processAll_gemini,
    List.foldl_append, List.foldl_cons, List.foldl_nil, UsageExtractor.sseResult]
  simp only [geminiSSE, CountingExtractor.processSSE, hfinal] at hdeltas ⊢
  rw [hdeltas]

/-- The cache counts that one of the two events with usage reports. -/
def cacheIn (event cache : CacheReport) : Int × Int :=
  if event = cache then (r.cacheReadTokens.n, r.cacheCreationTokens.n) else (0, 0)

theorem decode_messageStart (cache : CacheReport) :
    ClaudeEvent.decode (r.messageStart (r.cacheFieldsIn .messageStart cache)) =
      some { type := "message_start", index := 0, usage := ⟨0, 0, 0, 0⟩, messageID := r.id, messageModel := r.model
             messageUsage := ⟨r.promptTokens.n, r.startOutputTokens.n, (r.cacheIn .messageStart cache).1,
               (r.cacheIn .messageStart cache).2⟩
             deltaStopReason := "", deltaType := "", deltaText := "", contentBlockType := "" } := by
  cases cache <;>
    simp +decide [messageStart, cacheFieldsIn, cacheFields, cacheIn, ClaudeEvent.decode, ClaudeUsage.decode, some_bind,
      -Option.bind_eq_bind]

/-- An event without usage. -/
structure Quiet (event : ClaudeEvent) : Prop where
  usage : event.usage = ⟨0, 0, 0, 0⟩
  messageUsage : event.messageUsage = ⟨0, 0, 0, 0⟩

/-- The payload is such an event. -/
def QuietPayload (payload : Json) : Prop := ∃ event, ClaudeEvent.decode payload = some event ∧ Quiet event

theorem quiet_claudeText {payload : Json} (h : payload ∈ r.claudeText) : QuietPayload payload := by
  simp only [claudeText, List.cons_append, List.mem_cons, List.mem_append, List.mem_map, List.not_mem_nil,
    or_false] at h
  rcases h with rfl | ⟨fragment, _, rfl⟩ | rfl
  · exact ⟨_, rfl, rfl, rfl⟩
  · exact ⟨_, rfl, rfl, rfl⟩
  · exact ⟨_, rfl, rfl, rfl⟩

theorem quiet_messageStop : QuietPayload messageStop :=
  ⟨_, rfl, rfl, rfl⟩

/-- Usage and model of a Claude stream, where the total is the sum of the two counts. -/
structure Recorded (acc : MinimalUsage) (mdl : String) (e : ClaudeExtractor) : Prop where
  usage : e.acc = acc
  model : e.mdl = mdl
  total : acc.totalTokens = add acc.promptTokens acc.completionTokens

variable {acc : MinimalUsage} {mdl : String} {e : ClaudeExtractor}

theorem Recorded.quiet (h : Recorded acc mdl e) {payload : Json} (hp : QuietPayload payload) :
    Recorded acc mdl (e.processSSE payload) := by
  obtain ⟨event, hdecode, husage, hmessage⟩ := hp
  rw [ClaudeExtractor.processSSE_of_decode hdecode]
  have hkeep : e.addMessage event = e := by simp [ClaudeExtractor.addMessage, hmessage]
  refine ⟨?_, ?_, h.total⟩
  · simp only [ClaudeExtractor.addEvent, hkeep, husage, ClaudeExtractor.addUsage, h.usage]
    simp [← h.total]
  · simp only [ClaudeExtractor.addEvent, hkeep, h.model]

theorem recorded_messageStart (cache : CacheReport) :
    Recorded
      { promptTokens := r.promptTokens.n
        totalTokens := add r.promptTokens.n 0
        cachedTokens :=
          if 0 < r.promptTokens.n then add (r.cacheIn .messageStart cache).1 (r.cacheIn .messageStart cache).2 else 0 }
      (if 0 < r.promptTokens.n then r.model else "")
      (ClaudeExtractor.processSSE {} (r.messageStart (r.cacheFieldsIn .messageStart cache))) := by
  rw [ClaudeExtractor.processSSE_of_decode (r.decode_messageStart cache)]
  have hnonneg := r.promptTokens.nonneg
  by_cases hprompt : 0 < r.promptTokens.n
  · refine ⟨?_, ?_, rfl⟩
    · simp [ClaudeExtractor.addEvent, ClaudeExtractor.addMessage, ClaudeExtractor.addUsage, hprompt]
    · have hmodel : (if r.model = "" then "" else r.model) = r.model := KnownModel.next r (.inl rfl)
      simp [ClaudeExtractor.addEvent, ClaudeExtractor.addMessage, hprompt, hmodel]
  · have hzero : r.promptTokens.n = 0 := by omega
    refine ⟨?_, ?_, rfl⟩
    · simp [ClaudeExtractor.addEvent, ClaudeExtractor.addMessage, ClaudeExtractor.addUsage, hzero]
    · simp [ClaudeExtractor.addEvent, ClaudeExtractor.addMessage, hzero]

theorem decode_messageDelta (cache : CacheReport) :
    ∃ event, ClaudeEvent.decode (r.messageDelta (r.cacheFieldsIn .messageDelta cache)) = some event ∧
      event.usage.inputTokens = 0 ∧ event.usage.outputTokens = r.completionTokens.n ∧
      event.messageUsage = ⟨0, 0, 0, 0⟩ := by
  refine ⟨⟨"message_delta", 0, ⟨0, r.completionTokens.n, (r.cacheIn .messageDelta cache).1,
    (r.cacheIn .messageDelta cache).2⟩, "", "", ⟨0, 0, 0, 0⟩, "end_turn", "", "", ""⟩, ?_, rfl, rfl, rfl⟩
  cases cache <;>
    simp +decide [messageDelta, cacheFieldsIn, cacheFields, cacheIn, ClaudeEvent.decode, ClaudeUsage.decode, some_bind,
      -Option.bind_eq_bind]

theorem Recorded.messageDelta (h : Recorded acc mdl e) (hcompletion : acc.completionTokens = 0) (cache : CacheReport) :
    Recorded
      { acc with
        completionTokens := r.completionTokens.n
        totalTokens := add acc.promptTokens r.completionTokens.n } mdl
      (e.processSSE (r.messageDelta (r.cacheFieldsIn .messageDelta cache))) := by
  obtain ⟨event, hdecode, hinput, houtput, hmessage⟩ := r.decode_messageDelta cache
  rw [ClaudeExtractor.processSSE_of_decode hdecode]
  have hkeep : e.addMessage event = e := by simp [ClaudeExtractor.addMessage, hmessage]
  have hnonneg := r.completionTokens.nonneg
  have hout : (if 0 < r.completionTokens.n then r.completionTokens.n else (0 : Int)) = r.completionTokens.n := by
    split <;> omega
  refine ⟨?_, ?_, rfl⟩
  · simp [ClaudeExtractor.addEvent, hkeep, ClaudeExtractor.addUsage, h.usage, hinput, houtput, hcompletion, hout]
  · simp only [ClaudeExtractor.addEvent, hkeep, h.model]

theorem streamed_claude (cache : CacheReport) : r.streamed (.claude cache) =
    ({ promptTokens := r.promptTokens.n, completionTokens := r.completionTokens.n
       totalTokens := add r.promptTokens.n r.completionTokens.n
       cachedTokens :=
         if 0 < r.promptTokens.n then add (r.cacheIn .messageStart cache).1 (r.cacheIn .messageStart cache).2 else 0 },
      if 0 < r.promptTokens.n then r.model else "") := by
  have hstart := r.recorded_messageStart cache
  have htext := List.foldlRecOn r.claudeText ClaudeExtractor.processSSE hstart
    fun e he payload hp => he.quiet (r.quiet_claudeText hp)
  have hend := (Recorded.messageDelta r htext rfl cache).quiet quiet_messageStop
  simp only [streamed, Format.family, extractorFor, events, claudeEvents, UsageExtractor.processAll_claude,
    List.cons_append, List.foldl_append, List.foldl_cons, List.foldl_nil, UsageExtractor.sseResult]
  rw [hend.usage, hend.model]

/-! ## The responses for which the two agree -/

/-- Nothing is lost of the usage and the model of a stream: the total is positive, or there is no usage; for Claude,
the input tokens are positive, and the cache counts are 0 or in `message_start`. -/
def Agrees : Format → Prop
  | .chat | .responses => 0 < r.totalTokens.n ∨ r.reported = {}
  | .gemini => 0 < r.totalTokens.n ∨ r.geminiReported = {}
  | .claude cache =>
    (0 < r.promptTokens.n ∨ r.model = "") ∧
      (0 < r.promptTokens.n ∧ cache = .messageStart ∨ r.cacheReadTokens.n = 0 ∧ r.cacheCreationTokens.n = 0)

theorem supersede_eq_iff {reported : MinimalUsage} :
    ({} : MinimalUsage).supersede reported = reported ↔ 0 < reported.totalTokens ∨ reported = {} := by
  unfold MinimalUsage.supersede
  split
  · rename_i h
    exact ⟨fun _ => .inl h, fun _ => rfl⟩
  · rename_i h
    exact ⟨fun heq => .inr heq.symm, fun hor => (hor.resolve_left h).symm⟩

theorem streamed_eq_buffered_claude_iff (cache : CacheReport) :
    r.streamed (.claude cache) = r.buffered (.claude cache) ↔ r.Agrees (.claude cache) := by
  have hcache := add_eq_zero_iff r.cacheReadTokens.nonneg r.cacheReadTokens.inRange r.cacheCreationTokens.nonneg
    r.cacheCreationTokens.inRange
  rw [streamed_claude, buffered_claude]
  simp only [Prod.mk.injEq, MinimalUsage.mk.injEq, true_and, Agrees]
  by_cases hprompt : 0 < r.promptTokens.n
  · cases cache
    · simp [hprompt, cacheIn]
    · have hnone : add 0 0 = 0 := rfl
      simp [hprompt, cacheIn, hnone, @eq_comm Int 0, hcache]
  · simp only [hprompt, ↓reduceIte, false_and, false_or, @eq_comm Int 0, hcache, @eq_comm String ""]
    exact and_comm

/-- A stream is recorded with the usage and model of the body exactly if they agree in the sense above. -/
theorem streamed_eq_buffered_iff (format : Format) : r.streamed format = r.buffered format ↔ r.Agrees format := by
  cases format with
  | chat =>
    rw [streamed_chat, buffered_chat, Prod.mk.injEq, and_iff_left rfl]
    exact supersede_eq_iff
  | responses =>
    rw [streamed_responses, buffered_responses, Prod.mk.injEq, and_iff_left rfl]
    exact supersede_eq_iff
  | gemini =>
    rw [streamed_gemini, buffered_gemini, Prod.mk.injEq, and_iff_left rfl]
    exact supersede_eq_iff
  | claude cache => exact r.streamed_eq_buffered_claude_iff cache

def cachedPrompt : Response where
  id := "msg_1"
  model := "claude-sonnet-4"
  fragments := ["hi"]
  promptTokens := ⟨0, by decide, by decide⟩
  completionTokens := ⟨5, by decide, by decide⟩
  totalTokens := ⟨0, by decide, by decide⟩
  cachedTokens := ⟨0, by decide, by decide⟩
  reasoningTokens := ⟨0, by decide, by decide⟩
  cacheReadTokens := ⟨2048, by decide, by decide⟩
  cacheCreationTokens := ⟨0, by decide, by decide⟩
  startOutputTokens := ⟨1, by decide, by decide⟩

/-- Its stream is recorded without its model and without the cached tokens. -/
theorem cachedPrompt_lost :
    cachedPrompt.streamed (.claude .messageStart) = ({ completionTokens := 5, totalTokens := 5 }, "") ∧
      cachedPrompt.buffered (.claude .messageStart) =
        ({ completionTokens := 5, totalTokens := 5, cachedTokens := 2048 }, "claude-sonnet-4") := by
  decide

end Response

end AuditGateway.Gateway
