import AuditGateway.Gateway.Assembly

/-!
# Usage in an assembled document

The document that `assembleSSE` stores for a stream has a `usage` of its own. `extractResponse`
reads it back, and this module says when it finds what `sseResult` has reported for the stream.
The documents of the chat and Claude formats have no place for cached and reasoning tokens, and that of
the responses format is the response of one event, while usage and model are taken from all.
-/

namespace AuditGateway.Gateway

open AuditGateway.Go

/-! ## The last report of a stream -/

/-- What the last payload that has something to report reports. -/
def lastOf {α : Type} (report : Json → Option α) (payloads : List Json) : Option α :=
  (payloads.filterMap report).getLast?

theorem lastOf_concat {α : Type} (report : Json → Option α) (payloads : List Json) (p : Json) :
    lastOf report (payloads ++ [p]) = (report p).or (lastOf report payloads) := by
  rw [lastOf, List.filterMap_append]
  cases h : report p <;> simp [h, lastOf]

variable {payloads : List Json}

theorem mem_of_lastOf {α : Type} {report : Json → Option α} {a : α}
    (h : lastOf report payloads = some a) : ∃ p ∈ payloads, report p = some a :=
  List.mem_filterMap.1 (List.mem_of_getLast? h)

/-- Usage with more than 0 tokens in total. -/
def positive (usage : MinimalUsage) : Option MinimalUsage :=
  if 0 < usage.totalTokens then some usage else none

theorem supersede_eq (acc usage : MinimalUsage) : acc.supersede usage = (positive usage).getD acc := by
  unfold MinimalUsage.supersede positive
  split <;> rfl

/-- The counts are values of Go's `int`. -/
structure MinimalUsage.InRange (usage : MinimalUsage) : Prop where
  promptTokens : Go.InRange usage.promptTokens
  completionTokens : Go.InRange usage.completionTokens
  totalTokens : Go.InRange usage.totalTokens

theorem asInt_inRange {v : Json} {n : Int} (h : v.asInt = some n) : InRange n := by
  cases v with
  | null =>
    obtain rfl := Option.some.inj h
    decide
  | int m =>
    simp only [Json.asInt] at h
    split at h <;> cases h
    assumption
  | _ => cases h

theorem asInt_of_inRange {n : Int} (h : InRange n) : (Json.int n).asInt = some n := if_pos h

theorem UsageKeys.decode_inRange {keys : UsageKeys} {fields : Fields} {usage : MinimalUsage}
    (h : keys.decode fields = some usage) : usage.InRange := by
  simp only [UsageKeys.decode, bind_eq_some, Option.pure_def, Option.some.injEq] at h
  obtain ⟨prompt, hprompt, completion, hcompletion, total, htotal, _, _, _, _, rfl⟩ := h
  exact ⟨asInt_inRange hprompt, asInt_inRange hcompletion, asInt_inRange htotal⟩

/-! ## Chat completions, and completions -/

/-- The usage that a chat payload reports. -/
def chatReport (payload : Json) : Option MinimalUsage := do
  positive (← (← ChatChunk.decode payload).usage)

theorem chatReport_inRange {payload : Json} {usage : MinimalUsage} (h : chatReport payload = some usage) :
    usage.InRange := by
  simp only [chatReport, Option.bind_eq_bind, Option.bind_eq_some_iff, positive] at h
  obtain ⟨chunk, hchunk, usage', husage, hpositive⟩ := h
  split at hpositive <;> cases hpositive
  simp only [ChatChunk.decode, bind_eq_some, Option.pure_def, Option.some.injEq] at hchunk
  obtain ⟨fields, _, _, _, _, _, pointer, hpointer, _, _, rfl⟩ := hchunk
  subst husage
  obtain ⟨v, hv⟩ := Fields.of_pointer hpointer
  obtain ⟨_, _, hdecode⟩ := bind_eq_some.1 hv
  exact UsageKeys.decode_inRange hdecode

namespace ChatExtractor

theorem addChoices_sseUsage (e : ChatExtractor) (choices : List ChoiceDelta) :
    (choices.foldl addChoice e).sseUsage = e.sseUsage := by
  let Same (e' : ChatExtractor) : Prop := e'.sseUsage = e.sseUsage
  refine List.foldlRecOn choices addChoice (motive := Same) rfl fun e' he' choice _ => ?_
  exact List.foldlRecOn choice.toolCalls addToolCall (motive := Same) he' fun _ h _ _ => h

theorem processSSE_usage (e : ChatExtractor) (payload : Json) :
    (e.processSSE payload).acc = (chatReport payload).getD e.acc ∧
      (e.processSSE payload).sseUsage = (chatReport payload).or e.sseUsage := by
  cases hchunk : ChatChunk.decode payload with
  | none => simp [processSSE, chatReport, hchunk]
  | some chunk =>
    rw [processSSE_of_decode hchunk, addChunk, (addChoices_result _ _).1, addChoices_sseUsage]
    cases husage : chunk.usage with
    | none => simp [chatReport, hchunk, husage, addUsage]
    | some usage =>
      by_cases hpos : 0 < usage.totalTokens <;> simp [chatReport, hchunk, husage, addUsage, positive, hpos]

theorem foldl_usage (payloads : List Json) :
    (payloads.foldl processSSE {}).acc = (lastOf chatReport payloads).getD {} ∧
      (payloads.foldl processSSE {}).sseUsage = lastOf chatReport payloads := by
  induction payloads using List.reverseRecOn with
  | nil => exact ⟨rfl, rfl⟩
  | append_singleton payloads p ih =>
    rw [List.foldl_concat, (processSSE_usage _ _).1, (processSSE_usage _ _).2, ih.1, ih.2, lastOf_concat]
    cases chatReport p <;> simp

theorem extractResponse_document (e : ChatExtractor) (toolCalls : List Json)
    (hrange : ∀ usage, e.sseUsage = some usage → usage.InRange) :
    extractResponse (some (e.document toolCalls)) =
      ((e.sseUsage.map fun usage => { usage with reasoningTokens := 0, cachedTokens := 0 }).getD {}, e.mdl) := by
  cases husage : e.sseUsage with
  | none => simp +decide [extractResponse, document, husage, UsageKeys.decode, chatUsage, detail]
  | some usage =>
    obtain ⟨hprompt, hcompletion, htotal⟩ := hrange usage husage
    simp +decide [extractResponse, document, husage, UsageKeys.decode, chatUsage, detail, usageDocument,
      asInt_of_inRange, hprompt, hcompletion, htotal]

end ChatExtractor

/-- The last usage that a chat stream reports has only the counts that the document has. -/
def PlainReport (payloads : List Json) : Prop :=
  ∀ usage, lastOf chatReport payloads = some usage → usage.reasoningTokens = 0 ∧ usage.cachedTokens = 0

theorem chat_usage_iff {doc : Json}
    (h : (payloads.foldl ChatExtractor.processSSE {}).assembleSSE = .ok (some doc)) :
    ChatExtractor.extractResponse (some doc) =
        (UsageExtractor.chat (payloads.foldl ChatExtractor.processSSE {})).sseResult ↔
      PlainReport payloads := by
  obtain ⟨toolCalls, rfl⟩ := ChatExtractor.assembleSSE_some h
  obtain ⟨hacc, husage⟩ := ChatExtractor.foldl_usage payloads
  rw [ChatExtractor.extractResponse_document _ _ fun usage hu => ?_, UsageExtractor.sseResult, hacc, husage,
    PlainReport]
  · cases lastOf chatReport payloads with
    | none => simp
    | some usage =>
      obtain ⟨prompt, completion, total, reasoning, cached⟩ := usage
      simp [eq_comm]
  · obtain ⟨p, -, hp⟩ := mem_of_lastOf (husage ▸ hu)
    exact chatReport_inRange hp

/-! ## Claude messages -/

/-- The cache counts that are taken of an event. -/
def claudeCached (payload : Json) : Int :=
  match ClaudeEvent.decode payload with
  | some event =>
    if 0 < event.messageUsage.inputTokens then
      add event.messageUsage.cacheReadTokens event.messageUsage.cacheCreateTokens
    else 0
  | none => 0

theorem ClaudeUsage.decode_inRange {fields : Fields} {usage : ClaudeUsage}
    (h : ClaudeUsage.decode fields = some usage) :
    InRange usage.inputTokens ∧ InRange usage.outputTokens := by
  simp only [ClaudeUsage.decode, bind_eq_some, Option.pure_def, Option.some.injEq] at h
  obtain ⟨_, hinput, _, houtput, _, _, _, _, rfl⟩ := h
  exact ⟨asInt_inRange hinput, asInt_inRange houtput⟩

theorem ClaudeEvent.decode_inRange {payload : Json} {event : ClaudeEvent}
    (h : ClaudeEvent.decode payload = some event) :
    InRange event.usage.inputTokens ∧ InRange event.usage.outputTokens ∧ InRange event.messageUsage.inputTokens := by
  simp only [ClaudeEvent.decode, bind_eq_some, Option.pure_def, Option.some.injEq] at h
  obtain ⟨_, _, _, _, _, _, _, _, usage, husage, _, _, _, _, _, _, _, _, messageUsage, hmessageUsage, _, _, _, _, _, _,
    _, _, _, _, _, _, rfl⟩ := h
  obtain ⟨hinput, houtput⟩ := ClaudeUsage.decode_inRange husage
  exact ⟨hinput, houtput, (ClaudeUsage.decode_inRange hmessageUsage).1⟩

namespace ClaudeExtractor

/-- What is accumulated can be written to the document and added up again. -/
structure Sums (acc : MinimalUsage) : Prop where
  promptTokens : InRange acc.promptTokens
  completionTokens : InRange acc.completionTokens
  totalTokens : acc.totalTokens = add acc.promptTokens acc.completionTokens
  reasoningTokens : acc.reasoningTokens = 0

theorem processSSE_sums {e : ClaudeExtractor} (h : Sums e.acc) (payload : Json) : Sums (e.processSSE payload).acc := by
  cases hevent : ClaudeEvent.decode payload with
  | none => simpa [processSSE, hevent] using h
  | some event =>
    obtain ⟨hinput, houtput, hmessage⟩ := ClaudeEvent.decode_inRange hevent
    have hadd : InRange (e.addMessage event).acc.promptTokens ∧ InRange (e.addMessage event).acc.completionTokens ∧
        (e.addMessage event).acc.reasoningTokens = 0 := by
      unfold addMessage
      split
      · exact ⟨hmessage, h.completionTokens, h.reasoningTokens⟩
      · exact ⟨h.promptTokens, h.completionTokens, h.reasoningTokens⟩
    rw [processSSE_of_decode hevent]
    refine ⟨?_, ?_, rfl, hadd.2.2⟩
    · simp only [addEvent, addUsage]
      split
      · exact hinput
      · exact hadd.1
    · simp only [addEvent, addUsage]
      split
      · exact houtput
      · exact hadd.2.1

theorem processSSE_cachedTokens (e : ClaudeExtractor) (payload : Json) :
    (e.processSSE payload).acc.cachedTokens =
      if e.acc.cachedTokens = 0 then claudeCached payload else e.acc.cachedTokens := by
  cases hevent : ClaudeEvent.decode payload with
  | none =>
    simp only [processSSE, claudeCached, hevent]
    split <;> simp_all
  | some event =>
    rw [processSSE_of_decode hevent]
    simp only [addEvent, addUsage, addMessage, claudeCached, hevent]
    by_cases hpos : 0 < event.messageUsage.inputTokens
    · simp only [hpos, ↓reduceIte]
    · simp only [hpos, ↓reduceIte]
      split <;> simp_all

theorem foldl_sums (payloads : List Json) : Sums (payloads.foldl processSSE {}).acc :=
  List.foldlRecOn payloads processSSE (motive := fun e : ClaudeExtractor => Sums e.acc)
    ⟨by decide, by decide, by decide, rfl⟩ fun _ h payload _ => processSSE_sums h payload

theorem foldl_cachedTokens (payloads : List Json) :
    (payloads.foldl processSSE {}).acc.cachedTokens = 0 ↔ ∀ p ∈ payloads, claudeCached p = 0 := by
  induction payloads using List.reverseRecOn with
  | nil => simp
  | append_singleton payloads p ih =>
    rw [List.foldl_concat, processSSE_cachedTokens]
    by_cases hcached : (payloads.foldl processSSE {}).acc.cachedTokens = 0
    · rw [if_pos hcached]
      have hbefore := ih.1 hcached
      simp only [List.mem_append, List.mem_singleton, or_imp, forall_and, forall_eq]
      exact (and_iff_right hbefore).symm
    · rw [if_neg hcached]
      exact iff_of_false hcached fun hall => hcached (ih.2 fun q hq => hall q (List.mem_append_left _ hq))

end ClaudeExtractor

theorem claude_usage_iff {doc : Json}
    (h : (payloads.foldl ClaudeExtractor.processSSE {}).assembleSSE = some doc) :
    ClaudeExtractor.extractResponse (some doc) =
        (UsageExtractor.claude (payloads.foldl ClaudeExtractor.processSSE {})).sseResult ↔
      ∀ p ∈ payloads, claudeCached p = 0 := by
  rw [← ClaudeExtractor.foldl_cachedTokens]
  obtain ⟨hprompt, hcompletion, htotal, hreasoning⟩ := ClaudeExtractor.foldl_sums payloads
  generalize payloads.foldl ClaudeExtractor.processSSE {} = e at *
  unfold ClaudeExtractor.assembleSSE at h
  split at h <;> cases h
  have hextract : ClaudeExtractor.extractResponse (some e.document) =
      ({ promptTokens := e.acc.promptTokens, completionTokens := e.acc.completionTokens
         totalTokens := add e.acc.promptTokens e.acc.completionTokens }, e.mdl) := by
    simp +decide [ClaudeExtractor.extractResponse, ClaudeExtractor.document, ClaudeUsage.decode, ClaudeUsage.minimal,
      asInt_of_inRange, hprompt, hcompletion, add]
  rw [hextract, UsageExtractor.sseResult]
  generalize e.acc = acc at *
  obtain ⟨prompt, completion, total, reasoning, cached⟩ := acc
  simp only at hprompt hcompletion htotal hreasoning ⊢
  simp [htotal, hreasoning, eq_comm]

/-! ## Responses -/

/-- The model and the usage of an event, if its type can be read as well. -/
def responsesReport (payload : Json) : Option (String × MinimalUsage) := do
  let _ ← ResponsesExtractor.header payload
  ResponsesExtractor.reported payload

def responsesUsageReport (payload : Json) : Option MinimalUsage := do
  positive (← responsesReport payload).2

def responsesModelReport (payload : Json) : Option String := do
  let report ← responsesReport payload
  if report.1 = "" then none else some report.1

namespace ResponsesExtractor

theorem processSSE_reports (e : ResponsesExtractor) (payload : Json) :
    (e.processSSE payload).acc = (responsesUsageReport payload).getD e.acc ∧
      (e.processSSE payload).mdl = (responsesModelReport payload).getD e.mdl := by
  cases hhead : header payload with
  | none => simp [processSSE, responsesUsageReport, responsesModelReport, responsesReport, hhead]
  | some head =>
    obtain ⟨hacc, hmdl⟩ := addHeader_result e head
    cases hreported : reported payload with
    | none =>
      simp [processSSE, responsesUsageReport, responsesModelReport, responsesReport, hhead, hreported, hacc, hmdl]
    | some report =>
      obtain ⟨hacc', hmdl'⟩ := processSSE_result (e := e) hhead hreported
      rw [hacc', hmdl', supersede_eq]
      by_cases hmodel : report.1 = "" <;>
        simp [responsesUsageReport, responsesModelReport, responsesReport, hhead, hreported, hmodel]

theorem foldl_reports (payloads : List Json) :
    (payloads.foldl processSSE {}).acc = (lastOf responsesUsageReport payloads).getD {} ∧
      (payloads.foldl processSSE {}).mdl = (lastOf responsesModelReport payloads).getD "" := by
  induction payloads using List.reverseRecOn with
  | nil => exact ⟨rfl, rfl⟩
  | append_singleton payloads p ih =>
    rw [List.foldl_concat, (processSSE_reports _ _).1, (processSSE_reports _ _).2, ih.1, ih.2, lastOf_concat,
      lastOf_concat]
    cases responsesUsageReport p <;> cases responsesModelReport p <;> simp

end ResponsesExtractor

/-- The model and the usage that stand in a response, if both can be read. -/
def reportIn (response : Json) : Option (String × MinimalUsage) := do
  let fields ← response.asStruct
  let model ← fields.string "model"
  return (model, ← responsesUsage.decode (← fields.struct "usage"))

/-- The response of the last `response.completed` event has the usage of the last event that reports more than 0 tokens
in total, and the model of the last event that reports one; without such events it has none. -/
def CompletedReports (payloads : List Json) : Prop :=
  ∀ response, lastOf completedResponse payloads = some response →
    ((reportIn response).map Prod.snd).getD {} = (lastOf responsesUsageReport payloads).getD {} ∧
      ((reportIn response).map Prod.fst).getD "" = (lastOf responsesModelReport payloads).getD ""

theorem responses_usage_iff {doc : Json}
    (h : (payloads.foldl ResponsesExtractor.processSSE {}).rawCompleted = some doc) :
    ResponsesExtractor.extractResponse (some doc) =
        (UsageExtractor.responses (payloads.foldl ResponsesExtractor.processSSE {})).sseResult ↔
      CompletedReports payloads := by
  have hextract : ResponsesExtractor.extractResponse (some doc) =
      (((reportIn doc).map Prod.snd).getD {}, ((reportIn doc).map Prod.fst).getD "") := by
    rw [ResponsesExtractor.extractResponse, reportIn, some_bind]
    cases doc.asStruct with
    | none => rfl
    | some fields =>
      simp only [some_bind]
      cases fields.string "model" with
      | none => rfl
      | some model =>
        simp only [some_bind]
        cases fields.struct "usage" with
        | none => rfl
        | some usage =>
          simp only [some_bind]
          cases responsesUsage.decode usage <;> rfl
  rw [foldl_rawCompleted, Option.or_none, ← lastOf] at h
  obtain ⟨hacc, hmdl⟩ := ResponsesExtractor.foldl_reports payloads
  rw [hextract, UsageExtractor.sseResult, hacc, hmdl, CompletedReports, h, Prod.mk.injEq]
  simp

/-! ## All formats -/

/-- The streams whose document has the usage that is recorded for them. -/
def CarriesUsage : ProtocolFamily → List Json → Prop
  | .openaiChat, payloads => PlainReport payloads
  | .openaiCompletions, payloads => PlainReport payloads
  | .claudeMessages, payloads => ∀ p ∈ payloads, claudeCached p = 0
  | .openaiResponses, payloads => CompletedReports payloads
  | _, _ => True

/-- `extractResponse` finds in the assembled document what `sseResult` has reported, if and only if the stream is one
of `CarriesUsage`. -/
theorem assembled_usage_iff (unmarshal : List UInt8 → Option Json) (family : ProtocolFamily)
    (payloads : List (List UInt8)) (doc : Json)
    (h : (payloads.foldl (UsageExtractor.processPayload unmarshal) (extractorFor family)).assembleSSE =
      .ok (some doc)) :
    (extractorFor family).extractResponse (some doc) =
        (payloads.foldl (UsageExtractor.processPayload unmarshal) (extractorFor family)).sseResult ↔
      CarriesUsage family (payloads.filterMap unmarshal) := by
  rw [UsageExtractor.foldl_processPayload] at h ⊢
  cases family with
  | openaiChat | openaiCompletions =>
    rw [extractorFor, UsageExtractor.processAll_chat] at h ⊢
    exact chat_usage_iff h
  | openaiResponses =>
    rw [extractorFor, UsageExtractor.processAll_responses] at h ⊢
    exact responses_usage_iff (Except.ok.inj h)
  | claudeMessages =>
    rw [extractorFor, UsageExtractor.processAll_claude] at h ⊢
    exact claude_usage_iff (Except.ok.inj h)
  -- the other extractors assemble nothing
  | _ =>
    simp only [extractorFor, UsageExtractor.processAll_gemini, UsageExtractor.processAll_images,
      UsageExtractor.processAll_generic] at h
    cases h

/-- A last chunk of a chat stream, with usage. -/
def cachedDocument (cached : Int) : Json :=
  .object [("id", .str "chatcmpl-1"), ("model", .str "gpt-4o"), ("usage", .object [("prompt_tokens", .int 2000),
    ("completion_tokens", .int 10), ("total_tokens", .int 2010),
    ("prompt_tokens_details", .object [("cached_tokens", .int cached)])])]

def uncachedPayload : List UInt8 :=
  ascii ("\x7b\"id\":\"chatcmpl-1\",\"model\":\"gpt-4o\",\"usage\":\x7b\"prompt_tokens\":2000," ++
    "\"completion_tokens\":10,\"total_tokens\":2010,\"prompt_tokens_details\":\x7b\"cached_tokens\":0\x7d\x7d\x7d")

theorem assembled_usage_iff_uncached :
    ∃ doc, ([uncachedPayload].foldl (UsageExtractor.processPayload (decodesOnly uncachedPayload (cachedDocument 0)))
        (extractorFor .openaiChat)).assembleSSE = .ok (some doc) ∧
      (extractorFor .openaiChat).extractResponse (some doc) =
        ([uncachedPayload].foldl (UsageExtractor.processPayload (decodesOnly uncachedPayload (cachedDocument 0)))
          (extractorFor .openaiChat)).sseResult := by
  have hpayloads : [uncachedPayload].filterMap (decodesOnly uncachedPayload (cachedDocument 0)) =
    [cachedDocument 0] := by
    simp [decodesOnly]
  have hdoc : ∃ doc, ([uncachedPayload].foldl
      (UsageExtractor.processPayload (decodesOnly uncachedPayload (cachedDocument 0)))
      (extractorFor .openaiChat)).assembleSSE = .ok (some doc) := by
    rw [UsageExtractor.foldl_processPayload, hpayloads]
    exact ⟨_, rfl⟩
  obtain ⟨doc, hdoc⟩ := hdoc
  refine ⟨doc, hdoc, (assembled_usage_iff _ .openaiChat _ doc hdoc).2 ?_⟩
  rw [hpayloads]
  intro usage husage
  cases husage
  exact ⟨rfl, rfl⟩

/-- 1024 cached tokens are recorded for the stream, and none can be read from its document. -/
theorem cached_tokens_not_assembled :
    ∃ doc, (UsageExtractor.processSSE (extractorFor .openaiChat) (cachedDocument 1024)).assembleSSE =
        .ok (some doc) ∧
      (UsageExtractor.processSSE (extractorFor .openaiChat) (cachedDocument 1024)).sseResult.1.cachedTokens = 1024 ∧
      ((extractorFor .openaiChat).extractResponse (some doc)).1.cachedTokens = 0 :=
  ⟨_, rfl, rfl, rfl⟩

end AuditGateway.Gateway
