import AuditGateway.Framework.Keyed
import AuditGateway.Framework.Raising
import AuditGateway.Go.Json

/-!
# Usage extractors

The extractors of `internal/gateway/usage_*.go`, one for each wire format: usage and model of
a response, read from its body (`extractResponse`) or accumulated from the payloads of
an event stream (`processSSE`, `sseResult`), and the document that is assembled from
those payloads (`assembleSSE`). An extractor sees a payload as the document it stands for; a
payload that is no JSON changes nothing, and neither does one with a field of another type.

`assembleSSE` of the chat format writes each tool call to the position that the provider has
given it, in a slice as long as there are tool calls, and panics if that is not a position
of the slice.
-/

namespace AuditGateway.Gateway

open AuditGateway.Framework AuditGateway.Go

/-- The run-time panics that a request can end with. -/
inductive Panic
  | indexOutOfRange (index : Int) (length : Nat)
  | invalidWriteHeaderCode (code : Int)
deriving DecidableEq, Repr

structure MinimalUsage where
  promptTokens : Int := 0
  completionTokens : Int := 0
  totalTokens : Int := 0
  reasoningTokens : Int := 0
  cachedTokens : Int := 0
deriving DecidableEq, Repr

/-- `extractModelFromBody`. -/
def extractModelFromBody (body : Option Json) : String :=
  (do (← (← body).asStruct).string "model").getD ""

/-- What follows the first occurrence of a text. -/
def afterFirst (needle : List Char) : List Char → Option (List Char)
  | [] => none
  | c :: rest =>
    if needle.isPrefixOf (c :: rest) then some ((c :: rest).drop needle.length) else afterFirst needle rest

def modelFromGeminiPath (path : String) : String :=
  match afterFirst "/models/".toList path.toList with
  | none => ""
  | some after => String.ofList (after.takeWhile (· != ':'))

def modelFromEngineEmbeddingPath (path : String) : String :=
  let lead := "/v1/engines/".toList
  let trail := "/embeddings".toList
  if lead.isPrefixOf path.toList && trail.isSuffixOf path.toList then
    let rest := path.toList.drop lead.length
    let model := if trail.isSuffixOf rest then rest.take (rest.length - trail.length) else rest
    if '/' ∈ model then "" else String.ofList model
  else ""

/-- `extractRequestModel`. -/
def extractRequestModel (path : String) (body : Option Json) : String :=
  if modelFromEngineEmbeddingPath path = "" then extractModelFromBody body else modelFromEngineEmbeddingPath path

/-! ## Usage under the keys of a format -/

/-- The keys under which a format reports usage; not every format has the details. -/
structure UsageKeys where
  prompt : String
  completion : String
  total : String
  promptDetails : Option String
  completionDetails : Option String

/-- A count inside a struct of details, 0 if the format has none. -/
def detail (fields : Fields) (struct : Option String) (key : String) : Option Int :=
  match struct with
  | none => some 0
  | some name => do (← fields.struct name).int key

def UsageKeys.decode (keys : UsageKeys) (fields : Fields) : Option MinimalUsage := do
  let promptTokens ← fields.int keys.prompt
  let completionTokens ← fields.int keys.completion
  let totalTokens ← fields.int keys.total
  let cachedTokens ← detail fields keys.promptDetails "cached_tokens"
  let reasoningTokens ← detail fields keys.completionDetails "reasoning_tokens"
  return { promptTokens, completionTokens, totalTokens, reasoningTokens, cachedTokens }

def chatUsage : UsageKeys :=
  ⟨"prompt_tokens", "completion_tokens", "total_tokens", some "prompt_tokens_details",
    some "completion_tokens_details"⟩

def responsesUsage : UsageKeys :=
  ⟨"input_tokens", "output_tokens", "total_tokens", some "input_tokens_details", some "output_tokens_details"⟩

def imagesUsage : UsageKeys :=
  ⟨"input_tokens", "output_tokens", "total_tokens", some "input_tokens_details", none⟩

def geminiUsage : UsageKeys :=
  ⟨"promptTokenCount", "candidatesTokenCount", "totalTokenCount", none, none⟩

/-- Usage of a stream is replaced by a report of more than 0 tokens in total. -/
def MinimalUsage.supersede (acc reported : MinimalUsage) : MinimalUsage :=
  if 0 < reported.totalTokens then reported else acc

/-! ## Chat completions, and completions -/

structure ToolCallDelta where
  index : Int
  id : String
  type : String
  name : String
  arguments : String

structure ChoiceDelta where
  index : Int
  finishReason : String
  role : String
  content : String
  toolCalls : List ToolCallDelta

structure ChatChunk where
  id : String
  model : String
  usage : Option MinimalUsage
  choices : List ChoiceDelta

def ToolCallDelta.decode (v : Json) : Option ToolCallDelta := do
  let fields ← v.asStruct
  let index ← fields.int "index"
  let id ← fields.string "id"
  let type ← fields.string "type"
  let function ← fields.struct "function"
  let name ← function.string "name"
  let arguments ← function.string "arguments"
  return { index, id, type, name, arguments }

def ChoiceDelta.decode (v : Json) : Option ChoiceDelta := do
  let fields ← v.asStruct
  let index ← fields.int "index"
  let finishReason ← fields.string "finish_reason"
  let delta ← fields.struct "delta"
  let role ← delta.string "role"
  let content ← delta.string "content"
  let toolCalls ← delta.slice "tool_calls" ToolCallDelta.decode
  return { index, finishReason, role, content, toolCalls }

def ChatChunk.decode (v : Json) : Option ChatChunk := do
  let fields ← v.asStruct
  let id ← fields.string "id"
  let model ← fields.string "model"
  let usage ← fields.pointer "usage" fun u => do chatUsage.decode (← u.asStruct)
  let choices ← fields.slice "choices" ChoiceDelta.decode
  return { id, model, usage, choices }

/-- A tool call as far as it has been streamed. -/
structure ToolCall where
  id : String := ""
  type : String := ""
  name : String := ""
  arguments : String := ""
deriving DecidableEq, Repr

def ToolCall.add (entry : ToolCall) (delta : ToolCallDelta) : ToolCall where
  id := if delta.id = "" then entry.id else delta.id
  type := if delta.type = "" then entry.type else delta.type
  name := entry.name ++ delta.name
  arguments := entry.arguments ++ delta.arguments

/-- `openaiChatExtractor`. -/
structure ChatExtractor where
  acc : MinimalUsage := {}
  mdl : String := ""
  sseID : String := ""
  sseRole : String := ""
  sseParts : List String := []
  sseTools : Keyed Int ToolCall := .empty
  sseFinishReason : String := ""
  sseUsage : Option MinimalUsage := none

namespace ChatExtractor

def addToolCall (e : ChatExtractor) (delta : ToolCallDelta) : ChatExtractor :=
  { e with sseTools := e.sseTools.upsert delta.index (({} : ToolCall).add delta) (·.add delta) }

/-- One choice of a chunk; its index is not looked at. -/
def addChoice (e : ChatExtractor) (choice : ChoiceDelta) : ChatExtractor :=
  choice.toolCalls.foldl addToolCall
    { e with
      sseRole := if choice.role ≠ "" ∧ e.sseRole = "" then choice.role else e.sseRole
      sseParts := if choice.content = "" then e.sseParts else e.sseParts ++ [choice.content]
      sseFinishReason := if choice.finishReason = "" then e.sseFinishReason else choice.finishReason }

def addUsage (e : ChatExtractor) : Option MinimalUsage → ChatExtractor
  | none => e
  | some usage => if 0 < usage.totalTokens then { e with acc := usage, sseUsage := some usage } else e

def addChunk (e : ChatExtractor) (chunk : ChatChunk) : ChatExtractor :=
  chunk.choices.foldl addChoice
    ({ e with
      sseID := if chunk.id = "" then e.sseID else chunk.id
      mdl := if chunk.model = "" then e.mdl else chunk.model }.addUsage chunk.usage)

def processSSE (e : ChatExtractor) (payload : Json) : ChatExtractor :=
  match ChatChunk.decode payload with
  | some chunk => e.addChunk chunk
  | none => e

theorem processSSE_of_decode {e : ChatExtractor} {payload : Json} {chunk : ChatChunk}
    (h : ChatChunk.decode payload = some chunk) : e.processSSE payload = e.addChunk chunk := by
  rw [processSSE, h]

theorem addChoices_result (e : ChatExtractor) (choices : List ChoiceDelta) :
    (choices.foldl addChoice e).acc = e.acc ∧ (choices.foldl addChoice e).mdl = e.mdl := by
  let Same (e' : ChatExtractor) : Prop := e'.acc = e.acc ∧ e'.mdl = e.mdl
  refine List.foldlRecOn choices addChoice (motive := Same) ⟨rfl, rfl⟩ fun e' he' choice _ => ?_
  exact List.foldlRecOn choice.toolCalls addToolCall (motive := Same) he' fun _ h _ _ => h

theorem addChunk_acc (e : ChatExtractor) (chunk : ChatChunk) :
    (e.addChunk chunk).acc = (chunk.usage.map e.acc.supersede).getD e.acc := by
  rw [addChunk, (addChoices_result _ _).1]
  cases chunk.usage with
  | none => rfl
  | some usage =>
    simp only [addUsage, Option.map_some, Option.getD_some, MinimalUsage.supersede]
    split <;> rfl

theorem addChunk_mdl (e : ChatExtractor) (chunk : ChatChunk) :
    (e.addChunk chunk).mdl = if chunk.model = "" then e.mdl else chunk.model := by
  rw [addChunk, (addChoices_result _ _).2]
  cases chunk.usage with
  | none => rfl
  | some usage =>
    simp only [addUsage]
    split <;> rfl

def extractResponse (body : Option Json) : MinimalUsage × String :=
  (do
    let fields ← (← body).asStruct
    let usage ← chatUsage.decode (← fields.struct "usage")
    return (usage, ← fields.string "model")).getD ({}, "")

end ChatExtractor

def ToolCall.document (tc : ToolCall) : Json :=
  .object [("id", .str tc.id), ("type", .str tc.type),
    ("function", .object [("name", .str tc.name), ("arguments", .str tc.arguments)])]

/-- `slice[index] = value`. -/
def setIndex (slice : List Json) (index : Int) (value : Json) : Except Panic (List Json) :=
  if 0 ≤ index ∧ index < slice.length then .ok (slice.set index.toNat value)
  else .error (.indexOutOfRange index slice.length)

namespace ChatExtractor

/-- The list of the tool calls. The order in which Go goes through the map does not matter, as every
position is written once. -/
def toolCalls (e : ChatExtractor) : Except Panic (List Json) :=
  e.sseTools.rows.foldlM (fun slice row => setIndex slice row.1 row.2.document)
    (List.replicate e.sseTools.rows.length .null)

def message (e : ChatExtractor) (toolCalls : List Json) : Json :=
  .object ([("role", .str e.sseRole), ("content", .str (e.sseParts.foldl (· ++ ·) ""))] ++
    if e.sseTools.rows = [] then [] else [("tool_calls", .array toolCalls)])

def usageDocument (u : MinimalUsage) : Json :=
  .object [("prompt_tokens", .int u.promptTokens), ("completion_tokens", .int u.completionTokens),
    ("total_tokens", .int u.totalTokens)]

def document (e : ChatExtractor) (toolCalls : List Json) : Json :=
  .object ([("id", .str e.sseID), ("model", .str e.mdl),
    ("choices", .array [.object [("index", .int 0), ("message", e.message toolCalls),
      ("finish_reason", .str e.sseFinishReason)]])] ++
    match e.sseUsage with
    | none => []
    | some usage => [("usage", usageDocument usage)])

def assembleSSE (e : ChatExtractor) : Except Panic (Option Json) :=
  if e.sseID = "" ∧ e.sseParts = [] ∧ e.sseRole = "" ∧ e.sseTools.rows = [] then .ok none
  else do return some (e.document (← e.toolCalls))

end ChatExtractor

/-! ## Claude messages -/

structure ClaudeUsage where
  inputTokens : Int
  outputTokens : Int
  cacheReadTokens : Int
  cacheCreateTokens : Int

def ClaudeUsage.decode (fields : Fields) : Option ClaudeUsage := do
  let inputTokens ← fields.int "input_tokens"
  let outputTokens ← fields.int "output_tokens"
  let cacheReadTokens ← fields.int "cache_read_input_tokens"
  let cacheCreateTokens ← fields.int "cache_creation_input_tokens"
  return { inputTokens, outputTokens, cacheReadTokens, cacheCreateTokens }

/-- The usage of a response that is not streamed. -/
def ClaudeUsage.minimal (usage : ClaudeUsage) : MinimalUsage where
  promptTokens := usage.inputTokens
  completionTokens := usage.outputTokens
  totalTokens := add usage.inputTokens usage.outputTokens
  cachedTokens := add usage.cacheReadTokens usage.cacheCreateTokens

/-- What the extractor reads of an event; `index` is decoded and not used. -/
structure ClaudeEvent where
  type : String
  index : Int
  usage : ClaudeUsage
  messageID : String
  messageModel : String
  messageUsage : ClaudeUsage
  deltaStopReason : String
  deltaType : String
  deltaText : String
  contentBlockType : String

def ClaudeEvent.decode (v : Json) : Option ClaudeEvent := do
  let fields ← v.asStruct
  let type ← fields.string "type"
  let index ← fields.int "index"
  let usage ← ClaudeUsage.decode (← fields.struct "usage")
  let message ← fields.struct "message"
  let messageID ← message.string "id"
  let messageModel ← message.string "model"
  let messageUsage ← ClaudeUsage.decode (← message.struct "usage")
  let delta ← fields.struct "delta"
  let deltaStopReason ← delta.string "stop_reason"
  let deltaType ← delta.string "type"
  let deltaText ← delta.string "text"
  let contentBlockType ← (← fields.struct "content_block").string "type"
  return { type, index, usage, messageID, messageModel, messageUsage, deltaStopReason, deltaType, deltaText,
           contentBlockType }

/-- `claudeExtractor`; a block is given by its text, as the type of each is `text`. -/
structure ClaudeExtractor where
  acc : MinimalUsage := {}
  mdl : String := ""
  sseID : String := ""
  sseStopReason : String := ""
  sseBlocks : List String := []

namespace ClaudeExtractor

/-- The usage and model of `message_start`. -/
def addMessage (e : ClaudeExtractor) (event : ClaudeEvent) : ClaudeExtractor :=
  if 0 < event.messageUsage.inputTokens then
    { e with
      acc := { e.acc with
        promptTokens := event.messageUsage.inputTokens
        cachedTokens :=
          if e.acc.cachedTokens = 0 then
            add event.messageUsage.cacheReadTokens event.messageUsage.cacheCreateTokens
          else e.acc.cachedTokens }
      mdl := if event.messageModel = "" then e.mdl else event.messageModel }
  else e

/-- The usage of `message_delta`. -/
def addUsage (acc : MinimalUsage) (usage : ClaudeUsage) : MinimalUsage :=
  let promptTokens := if 0 < usage.inputTokens ∧ acc.promptTokens = 0 then usage.inputTokens else acc.promptTokens
  let completionTokens := if 0 < usage.outputTokens then usage.outputTokens else acc.completionTokens
  { acc with promptTokens, completionTokens, totalTokens := add promptTokens completionTokens }

/-- Text goes to the block that was started last, whatever the index of the event. -/
def addText (blocks : List String) (text : String) : List String :=
  match blocks.getLast? with
  | none => blocks
  | some last => blocks.dropLast ++ [last ++ text]

def addBlocks (blocks : List String) (event : ClaudeEvent) : List String :=
  let started :=
    if event.type = "content_block_start" ∧ event.contentBlockType = "text" then blocks ++ [""] else blocks
  if event.type = "content_block_delta" ∧ event.deltaText ≠ "" then addText started event.deltaText else started

def addEvent (e : ClaudeExtractor) (event : ClaudeEvent) : ClaudeExtractor :=
  let e := e.addMessage event
  { e with
    sseID := if event.messageID = "" then e.sseID else event.messageID
    acc := addUsage e.acc event.usage
    sseBlocks := addBlocks e.sseBlocks event
    sseStopReason := if event.deltaStopReason = "" then e.sseStopReason else event.deltaStopReason }

def processSSE (e : ClaudeExtractor) (payload : Json) : ClaudeExtractor :=
  match ClaudeEvent.decode payload with
  | some event => e.addEvent event
  | none => e

theorem processSSE_of_decode {e : ClaudeExtractor} {payload : Json} {event : ClaudeEvent}
    (h : ClaudeEvent.decode payload = some event) : e.processSSE payload = e.addEvent event := by
  rw [processSSE, h]

def extractResponse (body : Option Json) : MinimalUsage × String :=
  (do
    let fields ← (← body).asStruct
    let model ← fields.string "model"
    let usage ← ClaudeUsage.decode (← fields.struct "usage")
    return (usage.minimal, model)).getD ({}, "")

def document (e : ClaudeExtractor) : Json :=
  .object [("id", .str e.sseID), ("model", .str e.mdl),
    ("content", .array (e.sseBlocks.map fun text => .object [("type", .str "text"), ("text", .str text)])),
    ("stop_reason", .str e.sseStopReason),
    ("usage", .object [("input_tokens", .int e.acc.promptTokens), ("output_tokens", .int e.acc.completionTokens)])]

def assembleSSE (e : ClaudeExtractor) : Option Json :=
  if e.sseID = "" ∧ e.sseBlocks = [] then none else some e.document

end ClaudeExtractor

/-! ## Responses -/

/-- `openaiResponsesExtractor`. -/
structure ResponsesExtractor where
  acc : MinimalUsage := {}
  mdl : String := ""
  rawCompleted : Option Json := none

namespace ResponsesExtractor

/-- The type of an event, and its response as it stands there. -/
def header (payload : Json) : Option (String × Option Json) := do
  let fields ← payload.asStruct
  return (← fields.string "type", fields.raw "response")

/-- The model and the usage inside the response of an event. -/
def reported (payload : Json) : Option (String × MinimalUsage) := do
  let response ← (← payload.asStruct).struct "response"
  return (← response.string "model", ← responsesUsage.decode (← response.struct "usage"))

def addHeader (e : ResponsesExtractor) : String × Option Json → ResponsesExtractor
  | (type, some response) => if type = "response.completed" then { e with rawCompleted := some response } else e
  | (_, none) => e

def processSSE (e : ResponsesExtractor) (payload : Json) : ResponsesExtractor :=
  match header payload with
  | none => e
  | some head =>
    let e := e.addHeader head
    match reported payload with
    | none => e
    | some (model, usage) =>
      { e with acc := e.acc.supersede usage, mdl := if model = "" then e.mdl else model }

theorem addHeader_result (e : ResponsesExtractor) (head : String × Option Json) :
    (e.addHeader head).acc = e.acc ∧ (e.addHeader head).mdl = e.mdl := by
  obtain ⟨type, _ | response⟩ := head
  · exact ⟨rfl, rfl⟩
  · simp only [addHeader]
    split <;> exact ⟨rfl, rfl⟩

theorem processSSE_result {e : ResponsesExtractor} {payload : Json} {head : String × Option Json} {model : String}
    {usage : MinimalUsage} (hhead : header payload = some head) (hreported : reported payload = some (model, usage)) :
    (e.processSSE payload).acc = e.acc.supersede usage ∧
      (e.processSSE payload).mdl = if model = "" then e.mdl else model := by
  simp only [processSSE, hhead, hreported, (addHeader_result e head).1, (addHeader_result e head).2, and_self]

def extractResponse (body : Option Json) : MinimalUsage × String :=
  (do
    let fields ← (← body).asStruct
    let model ← fields.string "model"
    return (← responsesUsage.decode (← fields.struct "usage"), model)).getD ({}, "")

end ResponsesExtractor

/-! ## The other formats -/

/-- `geminiExtractor` and `openaiImagesExtractor`: usage under a key, and no model. -/
structure CountingExtractor where
  acc : MinimalUsage := {}

/-- What such an extractor reads of a payload or a body. -/
def usageUnder (key : String) (keys : UsageKeys) (v : Json) : Option MinimalUsage := do
  keys.decode (← (← v.asStruct).struct key)

def CountingExtractor.processSSE (key : String) (keys : UsageKeys) (e : CountingExtractor) (payload : Json) :
    CountingExtractor :=
  match usageUnder key keys payload with
  | some usage => { e with acc := e.acc.supersede usage }
  | none => e

def geminiSSE : CountingExtractor → Json → CountingExtractor :=
  CountingExtractor.processSSE "usageMetadata" geminiUsage

def geminiResponse (body : Option Json) : MinimalUsage × String :=
  ((do usageUnder "usageMetadata" geminiUsage (← body)).getD {}, "")

def imagesSSE : CountingExtractor → Json → CountingExtractor :=
  CountingExtractor.processSSE "usage" imagesUsage

def imagesResponse (body : Option Json) : MinimalUsage × String :=
  ((do usageUnder "usage" imagesUsage (← body)).getD {}, "")

/-- A count that the body may leave out. -/
def optionalCount (fields : Fields) (key : String) : Option (Option Int) := fields.pointer key Json.asInt

/-- A count under one of two keys: the first that is there, else 0. -/
def countUnder (first second : Fields × String) : Option Int := do
  let a ← optionalCount first.1 first.2
  let b ← optionalCount second.1 second.2
  return (a.orElse fun _ => b).getD 0

def genericUsage (usage : Fields) : Option MinimalUsage := do
  let promptTokens ← countUnder (usage, "prompt_tokens") (usage, "input_tokens")
  let completionTokens ← countUnder (usage, "completion_tokens") (usage, "output_tokens")
  let totalTokens ← usage.int "total_tokens"
  let cachedTokens ← countUnder (← usage.struct "prompt_tokens_details", "cached_tokens")
    (← usage.struct "input_tokens_details", "cached_tokens")
  let reasoningTokens ← countUnder (← usage.struct "completion_tokens_details", "reasoning_tokens")
    (← usage.struct "output_tokens_details", "reasoning_tokens")
  return { promptTokens, completionTokens, totalTokens, reasoningTokens, cachedTokens }

def genericResponse (body : Option Json) : MinimalUsage × String :=
  (do
    let fields ← (← body).asStruct
    let usage ← genericUsage (← fields.struct "usage")
    return (usage, ← fields.string "model")).getD ({}, "")

/-! ## The extractor of a protocol family -/

/-- The families of the route registry. -/
inductive ProtocolFamily
  | openaiChat
  | openaiResponses
  | claudeMessages
  | openaiCompletions
  | embeddings
  | rerank
  | openaiImages
  | openaiAudio
  | gemini
  | realtime
  | video
  | klingVideo
  | jimeng
  | midjourney
  | suno
deriving DecidableEq, Repr

inductive UsageExtractor
  | chat (e : ChatExtractor)
  | claude (e : ClaudeExtractor)
  | responses (e : ResponsesExtractor)
  | gemini (e : CountingExtractor)
  | images (e : CountingExtractor)
  | generic

def extractorFor : ProtocolFamily → UsageExtractor
  | .openaiChat | .openaiCompletions => .chat {}
  | .claudeMessages => .claude {}
  | .openaiResponses => .responses {}
  | .gemini => .gemini {}
  | .openaiImages => .images {}
  | _ => .generic

namespace UsageExtractor

def processSSE : UsageExtractor → Json → UsageExtractor
  | chat e, payload => chat (e.processSSE payload)
  | claude e, payload => claude (e.processSSE payload)
  | responses e, payload => responses (e.processSSE payload)
  | gemini e, payload => gemini (geminiSSE e payload)
  | images e, payload => images (imagesSSE e payload)
  | generic, _ => generic

def sseResult : UsageExtractor → MinimalUsage × String
  | chat e => (e.acc, e.mdl)
  | claude e => (e.acc, e.mdl)
  | responses e => (e.acc, e.mdl)
  | gemini e => (e.acc, "")
  | images e => (e.acc, "")
  | generic => ({}, "")

def extractResponse : UsageExtractor → Option Json → MinimalUsage × String
  | chat _, body => ChatExtractor.extractResponse body
  | claude _, body => ClaudeExtractor.extractResponse body
  | responses _, body => ResponsesExtractor.extractResponse body
  | gemini _, body => geminiResponse body
  | images _, body => imagesResponse body
  | generic, body => genericResponse body

def assembleSSE : UsageExtractor → Except Panic (Option Json)
  | chat e => e.assembleSSE
  | claude e => .ok e.assembleSSE
  | responses e => .ok e.rawCompleted
  | gemini _ | images _ | generic => .ok none

/-- `extractRequest`. -/
def extractRequest (e : UsageExtractor) (path : String) (body : Option Json) : String :=
  match e with
  | gemini _ => if modelFromGeminiPath path = "" then extractModelFromBody body else modelFromGeminiPath path
  | _ => extractModelFromBody body

/-- The payloads of a stream, one after another. -/
def processAll (e : UsageExtractor) (payloads : List Json) : UsageExtractor := payloads.foldl processSSE e

/-- A payload as it comes from the stream; nothing happens if it is no JSON. -/
def processPayload (unmarshal : List UInt8 → Option Json) (e : UsageExtractor) (payload : List UInt8) :
    UsageExtractor :=
  match unmarshal payload with
  | some v => e.processSSE v
  | none => e

theorem foldl_processPayload (unmarshal : List UInt8 → Option Json) (e : UsageExtractor)
    (payloads : List (List UInt8)) :
    payloads.foldl (processPayload unmarshal) e = e.processAll (payloads.filterMap unmarshal) := by
  induction payloads generalizing e with
  | nil => rfl
  | cons payload payloads ih =>
    rw [List.foldl_cons, ih, processPayload, List.filterMap_cons]
    cases unmarshal payload <;> rfl

theorem processAll_chat (e : ChatExtractor) (payloads : List Json) :
    (chat e).processAll payloads = chat (payloads.foldl ChatExtractor.processSSE e) :=
  List.foldl_hom chat fun _ _ => rfl

theorem processAll_claude (e : ClaudeExtractor) (payloads : List Json) :
    (claude e).processAll payloads = claude (payloads.foldl ClaudeExtractor.processSSE e) :=
  List.foldl_hom claude fun _ _ => rfl

theorem processAll_responses (e : ResponsesExtractor) (payloads : List Json) :
    (responses e).processAll payloads = responses (payloads.foldl ResponsesExtractor.processSSE e) :=
  List.foldl_hom responses fun _ _ => rfl

theorem processAll_gemini (e : CountingExtractor) (payloads : List Json) :
    (gemini e).processAll payloads = gemini (payloads.foldl geminiSSE e) :=
  List.foldl_hom gemini fun _ _ => rfl

theorem processAll_images (e : CountingExtractor) (payloads : List Json) :
    (images e).processAll payloads = images (payloads.foldl imagesSSE e) :=
  List.foldl_hom images fun _ _ => rfl

theorem processAll_generic (payloads : List Json) : generic.processAll payloads = generic :=
  List.foldlRecOn payloads processSSE (motive := fun e => e = generic) rfl fun _ h _ _ => by
    rw [h]
    rfl

end UsageExtractor

end AuditGateway.Gateway
