import AuditGateway.Framework.Fragments
import AuditGateway.Gateway.Usage
import AuditGateway.Go.Strings

/-!
# The assembled document and the streamed text

If `assembleSSE` returns a document, the gateway stores it instead of the captured
stream, so it should have all the text of the stream: under each choice of a chat or
completions stream, each output of a responses stream and each block of a Claude stream,
what was streamed for it.

`fragments` and `readBack` say what that means, on the documents alone, with their keys as
`encoding/json` reads them. The document
does not always have it: chat choices are merged into the first, the text of completions and
the tool inputs of Claude are not read at all, and Claude's text goes to the block that was
started last. `assembled_loses_nothing_iff` gives the streams for which nothing is lost.
-/

namespace AuditGateway.Gateway

open AuditGateway.Framework AuditGateway.Go

/-! ## Streamed text and where it is read back -/

/-- What a fragment of text belongs to. -/
inductive Slot
  | choice (index : Int)
  | output (item part : Int)
  | block (index : Int)
  | toolInput (index : Int)
deriving DecidableEq, Repr

/-- The text fragments in a payload of a family. -/
def fragments : ProtocolFamily → Json → List (Slot × String)
  | .openaiChat, v => (v.elements "choices").map fun c =>
      (.choice (c.field "index").number, ((c.field "delta").field "content").text)
  | .openaiCompletions, v => (v.elements "choices").map fun c =>
      (.choice (c.field "index").number, (c.field "text").text)
  | .openaiResponses, v =>
      if (v.field "type").text = "response.output_text.delta" then
        [(.output (v.field "output_index").number (v.field "content_index").number, (v.field "delta").text)]
      else []
  | .claudeMessages, v =>
      if (v.field "type").text = "content_block_delta" then
        [(.block (v.field "index").number, ((v.field "delta").field "text").text),
          (.toolInput (v.field "index").number, ((v.field "delta").field "partial_json").text)]
      else []
  | _, _ => []

/-- All text that was streamed for a slot. -/
def streamedText (family : ProtocolFamily) (payloads : List Json) (slot : Slot) : String :=
  gather slot (payloads.flatMap (fragments family))

/-- The choices of a document with an index. -/
def choicesAt (doc : Json) (index : Int) : List Json :=
  (doc.elements "choices").filter fun c => (c.field "index").number = index

/-- The text at a place of a response. -/
def outputText (response : Json) (item part : Int) : String :=
  ((Json.itemAt ((Json.itemAt (response.elements "output") item).elements "content") part).field "text").text

/-- The text of a slot in a document of a family. A block is at the position that its index says, as in a
message that is not streamed; the input of a tool is read as the text that it was streamed as. -/
def readBack : ProtocolFamily → Json → Slot → String
  | .openaiChat, doc, .choice i =>
      String.join ((choicesAt doc i).map fun c => ((c.field "message").field "content").text)
  | .openaiCompletions, doc, .choice i => String.join ((choicesAt doc i).map fun c => (c.field "text").text)
  | .openaiResponses, doc, .output item part => outputText doc item part
  | .claudeMessages, doc, .block i => ((Json.itemAt (doc.elements "content") i).field "text").text
  | .claudeMessages, doc, .toolInput i => ((Json.itemAt (doc.elements "content") i).field "input").text
  | _, _, _ => ""

/-- The document has, under each slot, exactly the text that was streamed for it. -/
def LosesNothing (family : ProtocolFamily) (payloads : List Json) (doc : Json) : Prop :=
  ∀ slot, readBack family doc slot = streamedText family payloads slot

/-! ## When nothing is lost -/

/-- The response of a `response.completed` event. -/
def completedResponse (v : Json) : Option Json := do
  let (type, response) ← ResponsesExtractor.header v
  if type = "response.completed" then response else none

/-- The text of the `response.output_text.delta` events for a place of the response. -/
def outputDeltas (payloads : List Json) (item part : Int) : String :=
  String.join ((payloads.filter fun v => (v.field "type").text = "response.output_text.delta" ∧
    (v.field "output_index").number = item ∧ (v.field "content_index").number = part).map
      fun v => (v.field "delta").text)

/-- The payload starts a text block. -/
def startsBlock (v : Json) : Bool :=
  match ClaudeEvent.decode v with
  | some event => event.type = "content_block_start" ∧ event.contentBlockType = "text"
  | none => false

/-- The text of a delta that can be decoded. -/
def deltaText (v : Json) : String :=
  match ClaudeEvent.decode v with
  | some event => if event.type = "content_block_delta" then event.deltaText else ""
  | none => ""

/-- The text that arrives while the last block that was started is the one at a position; `started` blocks
have been started before. -/
def arrivedAt (index : Int) : (started : Nat) → List Json → String
  | _, [] => ""
  | started, v :: payloads =>
    (if 0 ≤ index ∧ started = index + 1 then deltaText v else "") ++
      arrivedAt index (if startsBlock v then started + 1 else started) payloads

/-- The streams that are assembled without loss. Chat: all text is for choice 0, in payloads that can be
decoded. Completions: there is no text. Responses: the response of the last `response.completed` event has, at
each place, the text of the deltas for it. Claude: there are no tool inputs, and all text of a block arrives while
it is the text block that was started last, and as many text blocks were started before it as its index says. -/
def Kept : ProtocolFamily → List Json → Prop
  | .openaiChat, payloads => ∀ v ∈ payloads, ∀ f ∈ fragments .openaiChat v, f.2 ≠ "" →
      f.1 = .choice 0 ∧ (ChatChunk.decode v).isSome
  | .openaiCompletions, payloads => ∀ v ∈ payloads, ∀ f ∈ fragments .openaiCompletions v, f.2 = ""
  | .openaiResponses, payloads => ∀ response, (payloads.filterMap completedResponse).getLast? = some response →
      ∀ item part, outputText response item part = outputDeltas payloads item part
  | .claudeMessages, payloads => ∀ i,
      streamedText .claudeMessages payloads (.block i) = arrivedAt i 0 payloads ∧
        streamedText .claudeMessages payloads (.toolInput i) = ""
  | _, _ => True

/-! ## Chat completions -/

variable {v : Json}

theorem decode_choice {c : ChoiceDelta} (h : ChoiceDelta.decode v = some c) :
    (v.field "index").number = c.index ∧ ((v.field "delta").field "content").text = c.content := by
  simp only [ChoiceDelta.decode, Option.bind_eq_bind, Option.pure_def, Option.bind_eq_some_iff,
    Option.some.injEq] at h
  obtain ⟨fields, hfields, index, hindex, _, _, delta, hdelta, _, _, content, hcontent, _, _, rfl⟩ := h
  rw [Fields.int_eq, Json.asStruct_field hfields] at hindex
  rw [Fields.struct_eq, Json.asStruct_field hfields] at hdelta
  rw [Fields.string_eq, Json.asStruct_field hdelta] at hcontent
  exact ⟨Json.asInt_number hindex, Json.asString_text hcontent⟩

theorem decode_chunk {chunk : ChatChunk} (h : ChatChunk.decode v = some chunk) :
    (fragments .openaiChat v).map Prod.snd = chunk.choices.map ChoiceDelta.content := by
  simp only [ChatChunk.decode, Option.bind_eq_bind, Option.pure_def, Option.bind_eq_some_iff,
    Option.some.injEq] at h
  obtain ⟨fields, hfields, _, _, _, _, _, _, choices, hchoices, rfl⟩ := h
  rw [fragments, List.map_map, ← Json.asStruct_elements hfields]
  exact map_eq_of_mapM (fun c _ hc => (decode_choice hc).2) (Fields.slice_elements hchoices)

/-- The text of a payload. -/
def chatText (v : Json) : String := String.join ((fragments .openaiChat v).map Prod.snd)

variable {doc : Json}

namespace ChatExtractor

theorem addToolCalls_sseParts (e : ChatExtractor) (deltas : List ToolCallDelta) :
    (deltas.foldl addToolCall e).sseParts = e.sseParts :=
  List.foldlRecOn deltas addToolCall (motive := fun e' : ChatExtractor => e'.sseParts = e.sseParts) rfl
    fun _ h _ _ => h

theorem addChoice_content (e : ChatExtractor) (choice : ChoiceDelta) :
    String.join (e.addChoice choice).sseParts = String.join e.sseParts ++ choice.content := by
  rw [addChoice, addToolCalls_sseParts]
  dsimp only
  split
  · rename_i h
    rw [h, String.append_empty]
  · rw [String.join_append, String.join_cons, String.join_nil, String.append_empty]

theorem addChoices_content (e : ChatExtractor) (choices : List ChoiceDelta) :
    String.join (choices.foldl addChoice e).sseParts =
      String.join e.sseParts ++ String.join (choices.map ChoiceDelta.content) := by
  induction choices generalizing e with
  | nil => rw [List.map_nil, String.join_nil, String.append_empty, List.foldl_nil]
  | cons choice choices ih =>
    rw [List.foldl_cons, ih, addChoice_content, List.map_cons, String.join_cons, String.append_assoc]

theorem addUsage_sseParts (e : ChatExtractor) (usage : Option MinimalUsage) :
    (e.addUsage usage).sseParts = e.sseParts := by
  cases usage with
  | none => rfl
  | some usage =>
    simp only [addUsage]
    split <;> rfl

theorem processSSE_content (e : ChatExtractor) (v : Json) : String.join (e.processSSE v).sseParts =
    String.join e.sseParts ++ if (ChatChunk.decode v).isSome then chatText v else "" := by
  cases h : ChatChunk.decode v with
  | none => simp [processSSE, h]
  | some chunk =>
    rw [processSSE_of_decode h, addChunk, addChoices_content, addUsage_sseParts, chatText, decode_chunk h]
    rfl

theorem foldl_content (e : ChatExtractor) (payloads : List Json) :
    String.join (payloads.foldl processSSE e).sseParts = String.join e.sseParts ++
      String.join ((payloads.filter fun v => (ChatChunk.decode v).isSome).map chatText) := by
  induction payloads generalizing e with
  | nil => simp
  | cons v payloads ih =>
    rw [List.foldl_cons, ih, processSSE_content, List.filter_cons]
    split
    · rw [List.map_cons, String.join_cons, String.append_assoc]
    · rw [String.append_empty]

theorem assembleSSE_some {e : ChatExtractor} (h : e.assembleSSE = .ok (some doc)) :
    ∃ toolCalls, doc = e.document toolCalls := by
  unfold assembleSSE at h
  split at h
  · cases h
  · cases htools : e.toolCalls with
    | error p =>
      rw [htools] at h
      cases h
    | ok toolCalls =>
      rw [htools] at h
      cases h
      exact ⟨toolCalls, rfl⟩

theorem elements_document (e : ChatExtractor) (toolCalls : List Json) :
    (e.document toolCalls).elements "choices" =
      [.object [("index", .int 0), ("message", e.message toolCalls), ("finish_reason", .str e.sseFinishReason)]] := by
  rw [document, Json.elements_object]
  refine Fields.elements_of_values ?_
  cases e.sseUsage <;> simp +decide

theorem choicesAt_document (e : ChatExtractor) (toolCalls : List Json) (i : Int) :
    choicesAt (e.document toolCalls) i = if i = 0 then
      [.object [("index", .int 0), ("message", e.message toolCalls), ("finish_reason", .str e.sseFinishReason)]]
    else [] := by
  rw [choicesAt, elements_document]
  by_cases hi : i = 0
  · simp +decide [Json.number, hi]
  · simp +decide [Json.number, hi, Ne.symm hi]

theorem readBack_chat (e : ChatExtractor) (toolCalls : List Json) (slot : Slot) :
    readBack .openaiChat (e.document toolCalls) slot = if slot = .choice 0 then String.join e.sseParts else "" := by
  cases slot with
  | choice i =>
    rw [readBack, choicesAt_document]
    by_cases hi : i = 0
    · subst hi
      have hcontent : ((e.message toolCalls).field "content").text = String.join e.sseParts := by
        rw [message, Json.field_object]
        split <;> simp +decide [String.join]
      simp +decide [hcontent, String.join_cons]
    · simp [hi]
  | _ => rfl

theorem readBack_completions (e : ChatExtractor) (toolCalls : List Json) (slot : Slot) :
    readBack .openaiCompletions (e.document toolCalls) slot = "" := by
  cases slot with
  | choice i =>
    rw [readBack, choicesAt_document]
    by_cases hi : i = 0
    · subst hi
      simp +decide [Json.text, String.join_cons]
    · simp [hi]
  | _ => rfl

end ChatExtractor

/-- There is no text but for choice 0. -/
def OnlyFirstChoice (payloads : List Json) : Prop :=
  ∀ slot, slot ≠ .choice 0 → streamedText .openaiChat payloads slot = ""

variable {payloads : List Json}

theorem onlyFirstChoice_iff : OnlyFirstChoice payloads ↔
    ∀ v ∈ payloads, ∀ f ∈ fragments .openaiChat v, f.2 ≠ "" → f.1 = .choice 0 := by
  simp only [OnlyFirstChoice, streamedText, gather_eq_empty_iff, List.mem_flatMap]
  exact ⟨fun h v hv f hf hne => by_contra fun hk => hne (h _ hk f ⟨v, hv, hf⟩ rfl),
    fun h slot hslot f ⟨v, hv, hf⟩ hk => by_contra fun hne => hslot (hk ▸ h v hv f hf hne)⟩

theorem OnlyFirstChoice.content_eq_iff (h : OnlyFirstChoice payloads) :
    String.join (payloads.foldl ChatExtractor.processSSE {}).sseParts =
        streamedText .openaiChat payloads (.choice 0) ↔
      ∀ v ∈ payloads, ∀ f ∈ fragments .openaiChat v, f.2 ≠ "" → (ChatChunk.decode v).isSome := by
  have hcontent : String.join (payloads.foldl ChatExtractor.processSSE {}).sseParts =
      String.join ((payloads.filter fun v => (ChatChunk.decode v).isSome).map chatText) := by
    rw [ChatExtractor.foldl_content]
    rfl
  have hfirst : streamedText .openaiChat payloads (.choice 0) = String.join (payloads.map chatText) := by
    have hall : String.join ((payloads.flatMap (fragments .openaiChat)).map Prod.snd) =
        String.join (payloads.map chatText) := join_map_flatMap _ _ _
    rw [← hall, streamedText, gather_eq_join_iff]
    exact fun f hf hk => gather_eq_empty_iff.1 (h f.1 hk) f hf rfl
  rw [hfirst, hcontent, join_filter_eq_iff]
  simp only [chatText, join_eq_empty_iff, List.mem_map]
  constructor
  · intro hd v hv f hf hne
    cases hsome : (ChatChunk.decode v).isSome with
    | true => rfl
    | false => exact absurd (hd v hv hsome f.2 ⟨f, hf, rfl⟩) hne
  · rintro hd v hv hnone s ⟨f, hf, rfl⟩
    by_contra hne
    rw [hd v hv f hf hne] at hnone
    cases hnone

theorem chat_loses_nothing_iff
    (h : (payloads.foldl ChatExtractor.processSSE {}).assembleSSE = .ok (some doc)) :
    LosesNothing .openaiChat payloads doc ↔ Kept .openaiChat payloads := by
  obtain ⟨toolCalls, rfl⟩ := ChatExtractor.assembleSSE_some h
  constructor
  · intro hl
    have hothers : OnlyFirstChoice payloads := fun slot hslot => by
      rw [← hl slot, ChatExtractor.readBack_chat, if_neg hslot]
    have hread := hl (.choice 0)
    rw [ChatExtractor.readBack_chat, if_pos rfl] at hread
    exact fun v hv f hf hne =>
      ⟨onlyFirstChoice_iff.1 hothers v hv f hf hne, hothers.content_eq_iff.1 hread v hv f hf hne⟩
  · intro hkept slot
    have hothers := onlyFirstChoice_iff.2 fun v hv f hf hne => (hkept v hv f hf hne).1
    rw [ChatExtractor.readBack_chat]
    split
    · rename_i hslot
      rw [hslot]
      exact hothers.content_eq_iff.2 fun v hv f hf hne => (hkept v hv f hf hne).2
    · rename_i hslot
      exact (hothers slot hslot).symm

theorem completions_loses_nothing_iff {e : ChatExtractor}
    (h : e.assembleSSE = .ok (some doc)) :
    LosesNothing .openaiCompletions payloads doc ↔ Kept .openaiCompletions payloads := by
  obtain ⟨toolCalls, rfl⟩ := ChatExtractor.assembleSSE_some h
  simp only [LosesNothing, ChatExtractor.readBack_completions, @eq_comm String "", streamedText,
    gather_eq_empty_iff, List.mem_flatMap, Kept]
  exact ⟨fun hl v hv f hf => hl f.1 f ⟨v, hv, hf⟩ rfl, fun hk _ f ⟨v, hv, hf⟩ _ => hk v hv f hf⟩

/-! ## Responses -/

theorem processSSE_rawCompleted (e : ResponsesExtractor) (v : Json) :
    (e.processSSE v).rawCompleted = (completedResponse v).or e.rawCompleted := by
  rw [completedResponse, ResponsesExtractor.processSSE]
  cases ResponsesExtractor.header v with
  | none => rfl
  | some head =>
    obtain ⟨type, response⟩ := head
    have hadd : (e.addHeader (type, response)).rawCompleted =
        (if type = "response.completed" then response else none).or e.rawCompleted := by
      cases response with
      | none => simp [ResponsesExtractor.addHeader]
      | some response => by_cases hc : type = "response.completed" <;> simp [ResponsesExtractor.addHeader, hc]
    rw [some_bind, ← hadd]
    cases ResponsesExtractor.reported v <;> rfl

theorem foldl_rawCompleted (e : ResponsesExtractor) (payloads : List Json) :
    (payloads.foldl ResponsesExtractor.processSSE e).rawCompleted =
      (payloads.filterMap completedResponse).getLast?.or e.rawCompleted := by
  induction payloads generalizing e with
  | nil => rfl
  | cons v payloads ih =>
    rw [List.foldl_cons, ih, processSSE_rawCompleted, List.filterMap_cons]
    cases completedResponse v with
    | none => rfl
    | some response =>
      rw [List.getLast?_cons, Option.some_or]
      cases (payloads.filterMap completedResponse).getLast? <;> rfl

theorem streamedText_responses (payloads : List Json) (item part : Int) :
    streamedText .openaiResponses payloads (.output item part) = outputDeltas payloads item part := by
  rw [streamedText, outputDeltas, gather]
  induction payloads with
  | nil => rfl
  | cons v payloads ih =>
    rw [List.flatMap_cons, List.filter_append, List.map_append, String.join_append, ih, List.filter_cons, fragments]
    by_cases htype : (v.field "type").text = "response.output_text.delta"
    · by_cases hplace : (v.field "output_index").number = item ∧ (v.field "content_index").number = part
      · simp [htype, hplace, String.join_cons]
      · simp [htype, hplace]
    · simp [htype]

theorem responses_loses_nothing_iff
    (h : (payloads.foldl ResponsesExtractor.processSSE {}).rawCompleted = some doc) :
    LosesNothing .openaiResponses payloads doc ↔ Kept .openaiResponses payloads := by
  rw [foldl_rawCompleted, Option.or_none] at h
  have hother : ∀ slot, (∀ item part, slot ≠ .output item part) →
      streamedText .openaiResponses payloads slot = "" := by
    intro slot hslot
    rw [streamedText, gather_eq_empty_iff]
    rintro f hf rfl
    obtain ⟨v, -, hfv⟩ := List.mem_flatMap.1 hf
    rw [fragments] at hfv
    split at hfv
    · obtain rfl := List.mem_singleton.1 hfv
      exact absurd rfl (hslot _ _)
    · cases hfv
  simp only [Kept, h, Option.some.injEq, forall_eq', ← streamedText_responses]
  constructor
  · exact fun hl item part => hl (.output item part)
  · intro hkept slot
    cases slot with
    | output item part => exact hkept item part
    | _ => exact (hother _ (by simp)).symm

/-! ## Claude messages -/

/-- The text of the block at a position. -/
def blockText (blocks : List String) (i : Int) : String :=
  if 0 ≤ i then (blocks[i.toNat]?).getD "" else ""

theorem blockText_concat (blocks : List String) (text : String) (i : Int) :
    blockText (blocks ++ [text]) i = if i = blocks.length then text else blockText blocks i := by
  unfold blockText
  by_cases hi : 0 ≤ i
  · by_cases hlen : i = blocks.length
    · simp [hlen]
    · have hne : ¬ i.toNat = blocks.length := by omega
      simp only [hi, ↓reduceIte, if_neg hlen]
      rcases Nat.lt_or_gt_of_ne hne with hlt | hgt
      · rw [List.getElem?_append_left hlt]
      · rw [List.getElem?_eq_none (by simp; omega), List.getElem?_eq_none (by omega)]
  · have hne : ¬ i = blocks.length := by omega
    simp [hi, hne]

theorem blockText_of_length (blocks : List String) {i : Int} (h : i = blocks.length) : blockText blocks i = "" := by
  subst h
  simp [blockText]

namespace ClaudeExtractor

theorem length_addText (blocks : List String) (text : String) : (addText blocks text).length = blocks.length := by
  rcases List.eq_nil_or_concat' blocks with rfl | ⟨init, last, rfl⟩
  · rfl
  · simp [addText]

theorem blockText_addText (blocks : List String) (text : String) (i : Int) :
    blockText (addText blocks text) i =
      blockText blocks i ++ if 0 ≤ i ∧ (blocks.length : Int) = i + 1 then text else "" := by
  rcases List.eq_nil_or_concat' blocks with rfl | ⟨init, last, rfl⟩
  · have hnone : ¬ (0 ≤ i ∧ (([] : List String).length : Int) = i + 1) := by
      simp only [List.length_nil]
      omega
    rw [if_neg hnone, String.append_empty]
    rfl
  · have hadd : addText (init ++ [last]) text = init ++ [last ++ text] := by simp [addText]
    have hiff : (0 ≤ i ∧ ((init ++ [last]).length : Int) = i + 1) ↔ i = init.length := by
      rw [List.length_append, List.length_singleton]
      omega
    simp only [hadd, blockText_concat, hiff]
    split
    · rfl
    · rw [String.append_empty]

theorem processSSE_sseBlocks (e : ClaudeExtractor) (v : Json) : (e.processSSE v).sseBlocks =
    match ClaudeEvent.decode v with
    | some event => addBlocks e.sseBlocks event
    | none => e.sseBlocks := by
  cases h : ClaudeEvent.decode v with
  | none => simp only [processSSE, h]
  | some event =>
    have hkeep : (e.addMessage event).sseBlocks = e.sseBlocks := by
      rw [addMessage]
      split <;> rfl
    rw [processSSE_of_decode h, addEvent, ← hkeep]

theorem processSSE_blocks (e : ClaudeExtractor) (v : Json) :
    (e.processSSE v).sseBlocks =
      if startsBlock v then e.sseBlocks ++ [""]
      else if deltaText v = "" then e.sseBlocks else addText e.sseBlocks (deltaText v) := by
  rw [processSSE_sseBlocks, startsBlock, deltaText]
  cases ClaudeEvent.decode v with
  | none => rfl
  | some event =>
    simp only [addBlocks]
    by_cases hstart : event.type = "content_block_start"
    · by_cases htext : event.contentBlockType = "text" <;> simp [hstart, htext]
    · by_cases hdelta : event.type = "content_block_delta"
      · by_cases htext : event.deltaText = "" <;> simp [hdelta, htext]
      · simp [hstart, hdelta]

theorem deltaText_of_starts (h : startsBlock v) : deltaText v = "" := by
  rw [startsBlock] at h
  rw [deltaText]
  cases hdecode : ClaudeEvent.decode v with
  | none => rfl
  | some event =>
    rw [hdecode] at h
    have htype : event.type = "content_block_start" := (of_decide_eq_true h).1
    simp [htype]

theorem blockText_processSSE (e : ClaudeExtractor) (v : Json) (i : Int) :
    blockText (e.processSSE v).sseBlocks i =
      blockText e.sseBlocks i ++ if 0 ≤ i ∧ (e.sseBlocks.length : Int) = i + 1 then deltaText v else "" := by
  rw [processSSE_blocks]
  split
  · rename_i hstart
    rw [deltaText_of_starts hstart, ite_self, String.append_empty, blockText_concat]
    split
    · rename_i hi
      exact (blockText_of_length _ hi).symm
    · rfl
  · split
    · rename_i hempty
      rw [hempty, ite_self, String.append_empty]
    · exact blockText_addText _ _ i

theorem length_processSSE (e : ClaudeExtractor) (v : Json) : (e.processSSE v).sseBlocks.length =
    if startsBlock v then e.sseBlocks.length + 1 else e.sseBlocks.length := by
  rw [processSSE_blocks]
  split
  · rw [List.length_append, List.length_singleton]
  · split
    · rfl
    · exact length_addText _ _

theorem blockText_foldl (e : ClaudeExtractor) (payloads : List Json) (i : Int) :
    blockText (payloads.foldl processSSE e).sseBlocks i =
      blockText e.sseBlocks i ++ arrivedAt i e.sseBlocks.length payloads := by
  induction payloads generalizing e with
  | nil => rw [List.foldl_nil, arrivedAt, String.append_empty]
  | cons v payloads ih =>
    rw [List.foldl_cons, ih, blockText_processSSE, length_processSSE, arrivedAt, String.append_assoc]

theorem elements_document (e : ClaudeExtractor) : e.document.elements "content" =
    e.sseBlocks.map fun text => .object [("type", .str "text"), ("text", .str text)] := by
  rw [document, Json.elements_object]
  exact Fields.elements_of_values (by simp +decide)

theorem itemAt_document (e : ClaudeExtractor) (i : Int) :
    ((Json.itemAt (e.document.elements "content") i).field "text").text = blockText e.sseBlocks i ∧
      ((Json.itemAt (e.document.elements "content") i).field "input").text = "" := by
  rw [elements_document, Json.itemAt, blockText, List.getElem?_map]
  split
  · cases e.sseBlocks[i.toNat]? with
    | none => exact ⟨rfl, rfl⟩
    | some text => simp +decide [Json.text]
  · exact ⟨rfl, rfl⟩

end ClaudeExtractor

theorem fragments_claude_slot {f : Slot × String} (h : f ∈ fragments .claudeMessages v) :
    ∃ i, f.1 = .block i ∨ f.1 = .toolInput i := by
  rw [fragments] at h
  split at h
  · rcases List.mem_cons.1 h with rfl | h
    · exact ⟨_, .inl rfl⟩
    · obtain rfl := List.mem_singleton.1 h
      exact ⟨_, .inr rfl⟩
  · cases h

theorem streamedText_claude {slot : Slot} (h : ∀ i, slot ≠ .block i ∧ slot ≠ .toolInput i) :
    streamedText .claudeMessages payloads slot = "" := by
  rw [streamedText, gather_eq_empty_iff]
  rintro f hf rfl
  obtain ⟨v, _, hfv⟩ := List.mem_flatMap.1 hf
  obtain ⟨i, hi | hi⟩ := fragments_claude_slot hfv
  · exact absurd hi (h i).1
  · exact absurd hi (h i).2

theorem claude_loses_nothing_iff
    (h : (payloads.foldl ClaudeExtractor.processSSE {}).assembleSSE = some doc) :
    LosesNothing .claudeMessages payloads doc ↔ Kept .claudeMessages payloads := by
  obtain rfl : (payloads.foldl ClaudeExtractor.processSSE {}).document = doc := by
    rw [ClaudeExtractor.assembleSSE] at h
    split at h
    · cases h
    · exact Option.some.inj h
  have hblock : ∀ i, readBack .claudeMessages (payloads.foldl ClaudeExtractor.processSSE {}).document (.block i) =
      arrivedAt i 0 payloads := by
    intro i
    rw [readBack, (ClaudeExtractor.itemAt_document _ _).1, ClaudeExtractor.blockText_foldl]
    simp [blockText]
  have hinput : ∀ i, readBack .claudeMessages (payloads.foldl ClaudeExtractor.processSSE {}).document
      (.toolInput i) = "" := by
    intro i
    rw [readBack, (ClaudeExtractor.itemAt_document _ _).2]
  constructor
  · exact fun hl i => ⟨(hl (.block i)).symm.trans (hblock i), (hl (.toolInput i)).symm.trans (hinput i)⟩
  · intro hkept slot
    cases slot with
    | block i => exact (hblock i).trans (hkept i).1.symm
    | toolInput i => exact (hinput i).trans (hkept i).2.symm
    | choice i => exact (streamedText_claude fun _ => ⟨by simp, by simp⟩).symm
    | output item part => exact (streamedText_claude fun _ => ⟨by simp, by simp⟩).symm

/-! ## All families -/

/-- A document assembled from the payloads of a stream has all the streamed text where it belongs exactly if
the stream is one of `Kept`. -/
theorem assembled_loses_nothing_iff (unmarshal : List UInt8 → Option Json) (family : ProtocolFamily)
    (payloads : List (List UInt8)) (doc : Json)
    (h : (payloads.foldl (UsageExtractor.processPayload unmarshal) (extractorFor family)).assembleSSE =
      .ok (some doc)) :
    LosesNothing family (payloads.filterMap unmarshal) doc ↔ Kept family (payloads.filterMap unmarshal) := by
  rw [UsageExtractor.foldl_processPayload] at h
  cases family with
  | openaiChat =>
    rw [extractorFor, UsageExtractor.processAll_chat] at h
    exact chat_loses_nothing_iff h
  | openaiCompletions =>
    rw [extractorFor, UsageExtractor.processAll_chat] at h
    exact completions_loses_nothing_iff h
  | openaiResponses =>
    rw [extractorFor, UsageExtractor.processAll_responses] at h
    exact responses_loses_nothing_iff (Except.ok.inj h)
  | claudeMessages =>
    rw [extractorFor, UsageExtractor.processAll_claude] at h
    exact claude_loses_nothing_iff (Except.ok.inj h)
  -- the other extractors assemble nothing
  | _ =>
    simp only [extractorFor, UsageExtractor.processAll_gemini, UsageExtractor.processAll_images,
      UsageExtractor.processAll_generic] at h
    cases h

/-- A decoder that knows one text. -/
def decodesOnly (text : List UInt8) (doc : Json) (payload : List UInt8) : Option Json :=
  if payload = text then some doc else none

def completionPayload : List UInt8 :=
  ascii "\x7b\"id\":\"cmpl-1\",\"choices\":[\x7b\"index\":0,\"text\":\"hello\"\x7d]\x7d"

def completionDocument : Json :=
  .object [("id", .str "cmpl-1"), ("choices", .array [.object [("index", .int 0), ("text", .str "hello")]])]

/-- The whole text of a completions stream is lost: the document that replaces the stream does not have it. -/
theorem completion_text_lost :
    ∃ doc, (UsageExtractor.processPayload (decodesOnly completionPayload completionDocument)
        (extractorFor .openaiCompletions) completionPayload).assembleSSE = .ok (some doc) ∧
      readBack .openaiCompletions doc (.choice 0) = "" ∧
      streamedText .openaiCompletions [completionDocument] (.choice 0) = "hello" :=
  ⟨_, rfl, rfl, rfl⟩

/-- `data:` of a chat stream with one choice. -/
def chatPayload : List UInt8 :=
  ascii "\x7b\"choices\":[\x7b\"index\":0,\"delta\":\x7b\"content\":\"hi\"\x7d\x7d]\x7d"

def chatDocument : Json :=
  .object [("choices", .array [.object [("index", .int 0), ("delta", .object [("content", .str "hi")])]])]

theorem assembled_loses_nothing_iff_chat :
    ∃ doc, ([chatPayload].foldl (UsageExtractor.processPayload (decodesOnly chatPayload chatDocument))
        (extractorFor .openaiChat)).assembleSSE = .ok (some doc) ∧
      (LosesNothing .openaiChat [chatDocument] doc ↔ Kept .openaiChat [chatDocument]) :=
  ⟨_, rfl, assembled_loses_nothing_iff (decodesOnly chatPayload chatDocument) .openaiChat [chatPayload] _ rfl⟩

end AuditGateway.Gateway
