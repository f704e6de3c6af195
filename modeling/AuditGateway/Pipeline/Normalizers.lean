import AuditGateway.Pipeline.Content
import AuditGateway.Pipeline.Sse

/-!
# The normalizers of the protocol families

`normalize_json_trace` and the four normalizers it chooses from (`normalizers.py`).
Each of them goes through certain lists of the request and the response, and reads
the content at certain places of them (`Site`).

* `normalizeJsonTrace_yields`: for the core stage, when the normalization returns, and
  with which messages.
-/

namespace AuditGateway.Pipeline

open AuditGateway.Framework AuditGateway.Python

/-- The protocol families that have a normalizer of their own, and the others. -/
inductive Family
  | openaiChat
  | openaiResponses
  | claudeMessages
  | gemini
  | generic
deriving DecidableEq, Repr

/-- The comparisons of `protocol_family` in `normalize_json_trace`. -/
def TraceCapturedJob.family (job : TraceCapturedJob) : Family :=
  if job.protocolFamily = ("openai_chat" : Str) then .openaiChat
  else if job.protocolFamily = ("openai_responses" : Str) then .openaiResponses
  else if job.protocolFamily = ("claude_messages" : Str) then .claudeMessages
  else if job.protocolFamily = ("gemini" : Str) then .gemini
  else .generic

/-- How the content at a place is read: by parts, or as one text. -/
inductive Reading
  | parts
  | text
deriving DecidableEq

/-- A place of a body where a normalizer reads a content, with the role it gives it. -/
structure Site where
  direction : Direction
  role : Json
  content : Json
  sourcePath : Str
  itemType : ItemType
  reading : Reading := .parts

/-- `d.get(key, default)`. -/
def getWithDefault (d : Dict) (key : Str) (default : Json) : Json :=
  (Dict.find d key).getD default

/-- A path with an index, such as `request.messages[0]`. -/
def indexedPath (path : String) (index : Nat) (rest : String) : Str :=
  (path ++ "[" ++ toString index ++ "]" ++ rest : String)

/-- The sites of a loop over the objects among some values. -/
def dictSites (values : List Json) (site : Dict → Nat → Option Site) : List Site :=
  values.zipIdx.filterMap fun (value, index) => value.asDict.bind fun d => site d index

/-! ## The places that each family reads -/

def chatRequestSite (item : Dict) (index : Nat) : Option Site :=
  some { direction := .request
         role := getWithDefault item "role" (.str [])
         content := Dict.get item "content"
         sourcePath := indexedPath "request.messages" index ""
         itemType := .openaiChatMessage }

def chatResponseSite (choice : Dict) (index : Nat) : Option Site :=
  (Dict.get choice "message").asDict.map fun message =>
    { direction := .response
      role := getWithDefault message "role" (.str "assistant")
      content := Dict.get message "content"
      sourcePath := indexedPath "response.choices" index ".message"
      itemType := .openaiChatMessage }

/-- An item of `input` or `output`: an object may have its content under a key. -/
def responsesSite (direction : Direction) (role : String) (path : String) (itemType : ItemType) (item : Json)
    (index : Nat) : Site where
  direction := direction
  role := (item.asDict.map fun d => getWithDefault d "role" (.str role)).getD (.str role)
  content := (item.asDict.bind fun d => Dict.find d "content").getD item
  sourcePath := indexedPath path index ""
  itemType := itemType

def responsesRequestSites (request : Dict) : List Site :=
  match Dict.get request "input" with
  | .list items => items.zipIdx.map fun (item, index) =>
      responsesSite .request "user" "request.input" .openaiResponsesInput item index
  | content => [{ direction := .request, role := .str "user", content, sourcePath := "request.input",
                  itemType := .openaiResponsesInput, reading := .text }]

def responsesResponseSites (response : Dict) : List Site :=
  match Dict.get response "output" with
  | .list items => items.zipIdx.map fun (item, index) =>
      responsesSite .response "assistant" "response.output" .openaiResponsesOutput item index
  | _ => []

def claudeSystemSite (request : Dict) : Site where
  direction := .request
  role := .str "system"
  content := Dict.get request "system"
  sourcePath := "request.system"
  itemType := .claudeMessage
  reading := .text

def claudeRequestSite (item : Dict) (index : Nat) : Option Site :=
  some { direction := .request
         role := getWithDefault item "role" (.str [])
         content := Dict.get item "content"
         sourcePath := indexedPath "request.messages" index ""
         itemType := .claudeMessage }

def claudeResponseSite (response : Dict) : Site where
  direction := .response
  role := .str "assistant"
  content := Dict.get response "content"
  sourcePath := "response.content"
  itemType := .claudeMessage
  reading := match Dict.get response "content" with
    | .list _ => .parts
    | _ => .text

def geminiRequestSite (content : Dict) (index : Nat) : Option Site :=
  some { direction := .request
         role := getWithDefault content "role" (.str "user")
         content := Dict.get content "parts"
         sourcePath := indexedPath "request.contents" index ""
         itemType := .geminiContentPart }

def geminiResponseSite (candidate : Dict) (index : Nat) : Option Site :=
  (Dict.get candidate "content").asDict.map fun content =>
    { direction := .response
      role := getWithDefault content "role" (.str "model")
      content := Dict.get content "parts"
      sourcePath := indexedPath "response.candidates" index ".content"
      itemType := .geminiContentPart }

def promptKeys : List String := ["prompt", "input", "text", "query"]

def promptSite (request : Dict) (key : String) : Site where
  direction := .request
  role := .str "user"
  content := Dict.get request key
  sourcePath := ("request." ++ key : String)
  itemType := .genericPrompt
  reading := .text

/-! ## The normalizers -/

/-- `_with_sequence_index` of every message, in order. -/
def withSequenceIndex (messages : List NormalizedMessage) : List NormalizedMessage :=
  messages.zipIdx.map fun (message, index) => { message with sequenceIndex := index }

section Normalizers

variable {m : Type → Type} [Monad m] [MonadExceptOf PyError m] (rt : Runtime) (job : TraceCapturedJob)
  (extractionContext : Option (Extractor m))

/-- The messages of a place. The indices that the source gives them here are replaced later. -/
def siteMessages (site : Site) : m (List NormalizedMessage) := do
  let role ← MonadExcept.ofExcept (rt.toStr site.role)
  match site.reading with
  | .parts =>
    partMessages rt job site.direction role site.sourcePath extractionContext site.itemType site.content
  | .text =>
    let text ← MonadExcept.ofExcept (contentToText rt.frames site.content)
    if text = [] then return []
    return [← MonadExcept.ofExcept (message rt job site.direction 0 role site.sourcePath
      { itemType := site.itemType, contentText := text })]

/-- `for index, item in enumerate(document.get(key, []))`, with the places of its objects. -/
def loopMessages (document : Dict) (key : String) (site : Dict → Nat → Option Site) :
    m (List NormalizedMessage) := do
  let values ← MonadExcept.ofExcept (getWithDefault document key (.list [])).iterate
  return (← (dictSites values site).mapM (siteMessages rt job extractionContext)).flatten

def sitesMessages (sites : List Site) : m (List NormalizedMessage) := do
  return (← sites.mapM (siteMessages rt job extractionContext)).flatten

/-- `_normalize_openai_chat`. -/
def normalizeOpenaiChat (request response : Dict) : m (List NormalizedMessage) := do
  let requestMessages ← loopMessages rt job extractionContext request "messages" chatRequestSite
  let responseMessages ← loopMessages rt job extractionContext response "choices" chatResponseSite
  return withSequenceIndex (requestMessages ++ responseMessages)

/-- `_normalize_openai_responses`. -/
def normalizeOpenaiResponses (request response : Dict) : m (List NormalizedMessage) := do
  let requestMessages ← sitesMessages rt job extractionContext (responsesRequestSites request)
  let responseMessages ← sitesMessages rt job extractionContext (responsesResponseSites response)
  return withSequenceIndex (requestMessages ++ responseMessages)

/-- `_normalize_claude_messages`. -/
def normalizeClaudeMessages (request response : Dict) : m (List NormalizedMessage) := do
  let systemMessages ← sitesMessages rt job extractionContext [claudeSystemSite request]
  let requestMessages ← loopMessages rt job extractionContext request "messages" claudeRequestSite
  let responseMessages ← sitesMessages rt job extractionContext [claudeResponseSite response]
  return withSequenceIndex (systemMessages ++ requestMessages ++ responseMessages)

/-- `_normalize_gemini`. -/
def normalizeGemini (request response : Dict) : m (List NormalizedMessage) := do
  let requestMessages ← loopMessages rt job extractionContext request "contents" geminiRequestSite
  let responseMessages ← loopMessages rt job extractionContext response "candidates" geminiResponseSite
  return withSequenceIndex (requestMessages ++ responseMessages)

/-- The loop of `_normalize_generic_prompt`. -/
def normalizePrompt (request : Dict) : List String → m (List NormalizedMessage)
  | [] => return []
  | key :: keys => do
    let messages ← siteMessages rt job extractionContext (promptSite request key)
    if messages ≠ [] then return messages
    normalizePrompt request keys

/-- `normalize_json_trace`, without the usage result that it returns as well. -/
def normalizeJsonTrace (requestBody responseBody : Str) : m (List NormalizedMessage) := do
  let request ← MonadExcept.ofExcept (loadJsonObject rt requestBody)
  let responseJson ← MonadExcept.ofExcept (loadJsonObject rt responseBody)
  let events ← MonadExcept.ofExcept (loadSseJsonEvents rt responseBody)
  let response := if events ≠ [] ∧ responseJson = [] then responseJsonFromSseEvents events else responseJson
  match job.family with
  | .openaiChat => normalizeOpenaiChat rt job extractionContext request response
  | .openaiResponses => normalizeOpenaiResponses rt job extractionContext request response
  | .claudeMessages => normalizeClaudeMessages rt job extractionContext request response
  | .gemini => normalizeGemini rt job extractionContext request response
  | .generic => normalizePrompt rt job extractionContext request promptKeys

end Normalizers

/-! ## What the core stage makes of a trace -/

namespace Site

/-- What is found at a place, with the path of each part. -/
def drafts (rt : Runtime) (site : Site) : List (Draft × Str) :=
  match site.reading with
  | .parts => (partsOf site.sourcePath site.itemType site.content).filterMap fun part =>
      (partDraft rt site.itemType part.1).map (·, part.2)
  | .text => ((textDraft site.itemType site.content).map (·, site.sourcePath)).toList

/-- The role and the content of a place can be read. -/
structure Reads (rt : Runtime) (site : Site) : Prop where
  role : rt.Renders site.role
  parts : site.reading = .parts →
    ∀ part ∈ partsOf site.sourcePath site.itemType site.content, PartReadable rt part.1
  text : site.reading = .text → Readable rt.frames site.content

def messages (rt : Runtime) (job : TraceCapturedJob) (site : Site) : List NormalizedMessage :=
  (site.drafts rt).map fun x =>
    NormalizedMessage.of rt job site.direction 0 (rt.render site.role) x.2 x.1

/-- The texts of the messages of a place can be encoded. -/
def Hashes (rt : Runtime) (site : Site) : Prop :=
  ∀ x ∈ site.drafts rt, x.1.Hashes (rt.render site.role)

end Site

section Yields

variable (rt : Runtime) (job : TraceCapturedJob)

theorem siteMessages_yields (site : Site) :
    Yields (siteMessages rt job none site : Except PyError _) (site.Reads rt ∧ site.Hashes rt)
      (site.messages rt job) := by
  unfold siteMessages
  simp only [ofExcept_eq]
  obtain ⟨direction, role, content, sourcePath, itemType, reading⟩ := site
  cases reading with
  | parts =>
    refine ((rt.toStr_yields role).bind fun _ => partMessages_yields ..).congr ?_ fun _ => ?_
    · constructor
      · rintro ⟨hrole, hparts⟩
        refine ⟨⟨hrole, fun _ part hpart => (hparts part hpart).1, fun h => by cases h⟩, ?_⟩
        intro x hx
        obtain ⟨part, hpart, hdraft⟩ := List.mem_filterMap.1 hx
        obtain ⟨y, hy, rfl⟩ := Option.map_eq_some_iff.1 hdraft
        exact (hparts part hpart).2 y hy
      · rintro ⟨⟨hrole, hparts, _⟩, hhash⟩
        refine ⟨hrole, fun part hpart => ⟨hparts rfl part hpart, fun y hy => ?_⟩⟩
        exact hhash (y, part.2) (List.mem_filterMap.2 ⟨part, hpart, by rw [hy]; rfl⟩)
    · simp only [Site.messages, Site.drafts, List.map_filterMap, Option.map_map]
      rfl
  | text =>
    have htext : Yields (do
          let text ← contentToText rt.frames content
          if text = [] then pure []
          else do
            let message ← message rt job direction 0 (rt.render role) sourcePath
              { itemType, contentText := text }
            pure [message] : Except PyError _)
        (Readable rt.frames content ∧ ∀ x ∈ textDraft itemType content, x.Hashes (rt.render role))
        (((textDraft itemType content).map
          (NormalizedMessage.of rt job direction 0 (rt.render role) sourcePath)).toList) := by
      refine (contentToText_yields rt.frames content).bind fun _ => ?_
      unfold textDraft
      split
      · exact (Yields.pure []).of_iff (by simp)
      · exact (message_yields ..).bind_pure.of_iff (by simp)
    refine ((rt.toStr_yields role).bind fun _ => htext).congr ?_ fun _ => ?_
    · constructor
      · rintro ⟨hrole, hread, hhash⟩
        refine ⟨⟨hrole, fun h => (by cases h), fun _ => hread⟩, fun x hx => ?_⟩
        obtain ⟨y, hy, rfl⟩ := Option.map_eq_some_iff.1 (Option.mem_toList.1 hx)
        exact hhash y hy
      · rintro ⟨⟨hrole, _, hread⟩, hhash⟩
        refine ⟨hrole, hread rfl, fun y hy => hhash (y, sourcePath) ?_⟩
        exact Option.mem_toList.2 (Option.map_eq_some_iff.2 ⟨y, hy, rfl⟩)
    · simp only [Site.messages, Site.drafts]
      cases textDraft itemType content <;> rfl

theorem sitesMessages_yields (sites : List Site) :
    Yields (sitesMessages rt job none sites : Except PyError _)
      (∀ site ∈ sites, site.Reads rt ∧ site.Hashes rt) (sites.flatMap (Site.messages rt job)) := by
  have h := Yields.mapM (l := sites) fun site _ => siteMessages_yields rt job site
  exact h.bind_pure

theorem loopMessages_yields (document : Dict) (key : String) (site : Dict → Nat → Option Site) :
    Yields (loopMessages rt job none document key site : Except PyError _)
      ((getWithDefault document key (.list [])).Iterable ∧
        ∀ s ∈ dictSites (getWithDefault document key (.list [])).elements site, s.Reads rt ∧ s.Hashes rt)
      ((dictSites (getWithDefault document key (.list [])).elements site).flatMap (Site.messages rt job)) := by
  unfold loopMessages
  simp only [ofExcept_eq]
  exact (Json.iterate_yields _).bind fun _ => sitesMessages_yields ..

end Yields

/-- The places of a loop over a list of a document. -/
def loopSites (document : Dict) (key : String) (site : Dict → Nat → Option Site) : List Site :=
  dictSites (getWithDefault document key (.list [])).elements site

/-- The prompts that are tried: up to the first that has a text. -/
def triedPrompts (request : Dict) : List String → List String
  | [] => []
  | key :: keys => key :: if textOf (Dict.get request key) = [] then triedPrompts request keys else []

/-- The lists of a request that its normalizer goes through, by key. -/
def requestLoops : Family → List String
  | .openaiChat | .claudeMessages => ["messages"]
  | .gemini => ["contents"]
  | .openaiResponses | .generic => []

/-- The lists of a response that its normalizer goes through, by key. -/
def responseLoops : Family → List String
  | .openaiChat => ["choices"]
  | .gemini => ["candidates"]
  | .openaiResponses | .claudeMessages | .generic => []

/-- The places that the normalizer of a trace reads. -/
def sitesOf (request response : Dict) : Family → List Site
  | .openaiChat => loopSites request "messages" chatRequestSite ++ loopSites response "choices" chatResponseSite
  | .openaiResponses => responsesRequestSites request ++ responsesResponseSites response
  | .claudeMessages =>
    [claudeSystemSite request] ++ loopSites request "messages" claudeRequestSite ++ [claudeResponseSite response]
  | .gemini => loopSites request "contents" geminiRequestSite ++ loopSites response "candidates" geminiResponseSite
  | .generic => (triedPrompts request promptKeys).map (promptSite request)

/-- The response that is normalized: of a stream, what its events make together. -/
def responseDict (rt : Runtime) (responseBody : Str) : Dict :=
  if sseEvents rt responseBody ≠ [] ∧ bodyDict rt responseBody = [] then
    responseJsonFromSseEvents (sseEvents rt responseBody)
  else bodyDict rt responseBody

/-- The messages of two documents. -/
def messagesOf (rt : Runtime) (job : TraceCapturedJob) (request response : Dict) : List NormalizedMessage :=
  withSequenceIndex ((sitesOf request response job.family).flatMap (Site.messages rt job))

/-- What the normalization of two documents needs. -/
structure Normalizes (rt : Runtime) (family : Family) (request response : Dict) : Prop where
  requestLoops : ∀ key ∈ requestLoops family, (getWithDefault request key (.list [])).Iterable
  responseLoops : ∀ key ∈ responseLoops family, (getWithDefault response key (.list [])).Iterable
  reads : ∀ site ∈ sitesOf request response family, site.Reads rt
  hashes : ∀ site ∈ sitesOf request response family, site.Hashes rt

section

variable (rt : Runtime) (job : TraceCapturedJob) (request response : Dict)

variable {rt request response} in
theorem normalizes_iff {family : Family} : Normalizes rt family request response ↔
    ((∀ key ∈ requestLoops family, (getWithDefault request key (.list [])).Iterable) ∧
      ∀ key ∈ responseLoops family, (getWithDefault response key (.list [])).Iterable) ∧
    ∀ site ∈ sitesOf request response family, site.Reads rt ∧ site.Hashes rt :=
  ⟨fun ⟨h₁, h₂, h₃, h₄⟩ => ⟨⟨h₁, h₂⟩, fun site hs => ⟨h₃ site hs, h₄ site hs⟩⟩,
    fun ⟨⟨h₁, h₂⟩, h⟩ => ⟨h₁, h₂, fun site hs => (h site hs).1, fun site hs => (h site hs).2⟩⟩

theorem normalizeOpenaiChat_yields (h : job.family = .openaiChat) :
    Yields (normalizeOpenaiChat rt job none request response : Except PyError _)
      (Normalizes rt .openaiChat request response) (messagesOf rt job request response) := by
  unfold normalizeOpenaiChat messagesOf
  rw [h, sitesOf, List.flatMap_append]
  refine ((loopMessages_yields ..).bind fun _ => (loopMessages_yields ..).bind_pure).of_iff ?_
  simp only [normalizes_iff, sitesOf, requestLoops, responseLoops, loopSites, List.forall_mem_append,
    List.forall_mem_singleton]
  tauto

theorem normalizeOpenaiResponses_yields (h : job.family = .openaiResponses) :
    Yields (normalizeOpenaiResponses rt job none request response : Except PyError _)
      (Normalizes rt .openaiResponses request response) (messagesOf rt job request response) := by
  unfold normalizeOpenaiResponses messagesOf
  rw [h, sitesOf, List.flatMap_append]
  refine ((sitesMessages_yields ..).bind fun _ => (sitesMessages_yields ..).bind_pure).of_iff ?_
  simp only [normalizes_iff, sitesOf, requestLoops, responseLoops, List.forall_mem_append]
  tauto

theorem normalizeClaudeMessages_yields (h : job.family = .claudeMessages) :
    Yields (normalizeClaudeMessages rt job none request response : Except PyError _)
      (Normalizes rt .claudeMessages request response) (messagesOf rt job request response) := by
  unfold normalizeClaudeMessages messagesOf
  rw [h, sitesOf, List.flatMap_append, List.flatMap_append]
  refine ((sitesMessages_yields ..).bind fun _ => (loopMessages_yields ..).bind fun _ =>
    (sitesMessages_yields ..).bind_pure).of_iff ?_
  simp only [normalizes_iff, sitesOf, requestLoops, responseLoops, loopSites, List.forall_mem_append,
    List.forall_mem_singleton]
  tauto

theorem normalizeGemini_yields (h : job.family = .gemini) :
    Yields (normalizeGemini rt job none request response : Except PyError _)
      (Normalizes rt .gemini request response) (messagesOf rt job request response) := by
  unfold normalizeGemini messagesOf
  rw [h, sitesOf, List.flatMap_append]
  refine ((loopMessages_yields ..).bind fun _ => (loopMessages_yields ..).bind_pure).of_iff ?_
  simp only [normalizes_iff, sitesOf, requestLoops, responseLoops, loopSites, List.forall_mem_append,
    List.forall_mem_singleton]
  tauto

theorem messages_promptSite (key : String) : (promptSite request key).messages rt job =
    if textOf (Dict.get request key) = [] then []
    else [NormalizedMessage.of rt job .request 0 (rt.render (.str "user")) (promptSite request key).sourcePath
      { itemType := .genericPrompt, contentText := textOf (Dict.get request key) }] := by
  have hdrafts : (promptSite request key).drafts rt =
      ((textDraft .genericPrompt (Dict.get request key)).map (·, (promptSite request key).sourcePath)).toList := rfl
  rw [Site.messages, hdrafts]
  by_cases h : textOf (Dict.get request key) = []
  · rw [textDraft, if_pos h, if_pos h]
    rfl
  · rw [textDraft, if_neg h, if_neg h]
    rfl

theorem normalizePrompt_yields (keys : List String) :
    Yields (normalizePrompt rt job none request keys : Except PyError _)
      (∀ site ∈ (triedPrompts request keys).map (promptSite request), site.Reads rt ∧ site.Hashes rt)
      (((triedPrompts request keys).map (promptSite request)).flatMap (Site.messages rt job)) := by
  induction keys with
  | nil => exact (Yields.pure []).of_iff (by simp [triedPrompts])
  | cons key keys ih =>
    rw [normalizePrompt, triedPrompts, List.map_cons, List.flatMap_cons]
    refine ((siteMessages_yields rt job _).bind fun _ => ?_).of_iff
      (List.forall_mem_cons (p := fun site : Site => site.Reads rt ∧ site.Hashes rt)).symm
    rw [messages_promptSite]
    split
    · simpa using ih
    · exact (Yields.pure _).of_iff (by simp)

theorem withSequenceIndex_prompts (keys : List String) :
    withSequenceIndex (((triedPrompts request keys).map (promptSite request)).flatMap (Site.messages rt job)) =
      ((triedPrompts request keys).map (promptSite request)).flatMap (Site.messages rt job) := by
  induction keys with
  | nil => rfl
  | cons key keys ih =>
    rw [triedPrompts, List.map_cons, List.flatMap_cons, messages_promptSite]
    split
    · simpa using ih
    · rfl

theorem normalizeGeneric_yields (h : job.family = .generic) :
    Yields (normalizePrompt rt job none request promptKeys : Except PyError _)
      (Normalizes rt .generic request response) (messagesOf rt job request response) := by
  unfold messagesOf
  rw [h, sitesOf, withSequenceIndex_prompts]
  refine (normalizePrompt_yields ..).of_iff ?_
  simp [normalizes_iff, sitesOf, requestLoops, responseLoops]

theorem normalizeJsonTrace_yields (requestBody responseBody : Str) :
    Yields (normalizeJsonTrace rt job none requestBody responseBody : Except PyError _)
      ((requestBody ≠ [] → Loads rt requestBody) ∧ (responseBody ≠ [] → Loads rt responseBody) ∧
        (∀ s ∈ sseAttempts rt responseBody, Loads rt s) ∧
        Normalizes rt job.family (bodyDict rt requestBody) (responseDict rt responseBody))
      (messagesOf rt job (bodyDict rt requestBody) (responseDict rt responseBody)) := by
  unfold normalizeJsonTrace
  simp only [ofExcept_eq]
  refine (loadJsonObject_yields rt requestBody).bind fun _ => (loadJsonObject_yields rt responseBody).bind fun _ =>
    (loadSseJsonEvents_yields rt responseBody).bind fun _ => ?_
  cases h : job.family with
  | openaiChat => exact normalizeOpenaiChat_yields rt job _ _ h
  | openaiResponses => exact normalizeOpenaiResponses_yields rt job _ _ h
  | claudeMessages => exact normalizeClaudeMessages_yields rt job _ _ h
  | gemini => exact normalizeGemini_yields rt job _ _ h
  | generic => exact normalizeGeneric_yields rt job _ _ h

end

/-! ## What all messages of a trace have in common -/

/-- The columns of a message that do not depend on the bodies but for its role and content. -/
structure NormalizedMessage.Common (rt : Runtime) (job : TraceCapturedJob) (m : NormalizedMessage) : Prop where
  traceId : m.traceId = job.traceId
  messageKey : m.messageKey = keyOf rt m.role m.modality m.contentText
  contentTextHash : m.contentTextHash = rt.sha256Hex (bytes m.contentText)
  metadata : m.metadata = [("route_pattern", job.routePattern), ("protocol_family", job.protocolFamily)]
  sourcePath : Storable m.sourcePath

theorem indexedPath_storable {path rest : String} (hp : Storable (Str.ofString path))
    (hr : Storable (Str.ofString rest)) (index : Nat) : Storable (indexedPath path index rest) := by
  have hopen : Storable (Str.ofString "[") := by decide
  have hclose : Storable (Str.ofString "]") := by decide
  simp only [indexedPath, Str.ofString_append, storable_append]
  exact ⟨⟨⟨⟨hp, hopen⟩, storable_toString index⟩, hclose⟩, hr⟩

theorem partSourcePath_storable {path : Str} (h : Storable path) (itemType : ItemType) (index : Nat) :
    Storable (partSourcePath path itemType index) := by
  have hclose : Storable (Str.ofString "]") := by decide
  have hchild : Storable (Str.ofString (if itemType = .geminiContentPart then ".parts[" else ".content[")) := by
    split <;> decide
  simp only [partSourcePath, storable_append]
  exact ⟨⟨⟨h, hchild⟩, storable_toString index⟩, hclose⟩

theorem mem_loopSites {document : Dict} {key : String} {site : Dict → Nat → Option Site} {s : Site}
    (h : s ∈ loopSites document key site) : ∃ d index, site d index = some s := by
  obtain ⟨⟨value, index⟩, _, hs⟩ := List.mem_filterMap.1 h
  obtain ⟨d, _, hd⟩ := Option.bind_eq_some_iff.1 hs
  exact ⟨d, index, hd⟩

theorem loopSites_sourcePath {document : Dict} {key : String} {site : Dict → Nat → Option Site}
    (path rest : String) (hp : Storable (Str.ofString path)) (hr : Storable (Str.ofString rest))
    (hsite : ∀ d index s, site d index = some s → s.sourcePath = indexedPath path index rest) :
    ∀ s ∈ loopSites document key site, Storable s.sourcePath := by
  intro s hs
  obtain ⟨d, index, hs⟩ := mem_loopSites hs
  exact hsite d index s hs ▸ indexedPath_storable hp hr index

theorem sitesOf_sourcePath (request response : Dict) (family : Family) :
    ∀ s ∈ sitesOf request response family, Storable s.sourcePath := by
  cases family with
  | openaiChat =>
    refine List.forall_mem_append.2 ⟨?_, ?_⟩
    · refine loopSites_sourcePath "request.messages" "" ?_ ?_ fun d index s hs => ?_
      · decide
      · decide
      · obtain rfl := Option.some.inj hs
        rfl
    · refine loopSites_sourcePath "response.choices" ".message" ?_ ?_ fun d index s hs => ?_
      · decide
      · decide
      · obtain ⟨message, _, rfl⟩ := Option.map_eq_some_iff.1 hs
        rfl
  | openaiResponses =>
    refine List.forall_mem_append.2 ⟨?_, ?_⟩
    · unfold responsesRequestSites
      split
      · rintro s hs
        obtain ⟨⟨item, index⟩, _, rfl⟩ := List.mem_map.1 hs
        exact indexedPath_storable (by decide) (by decide) index
      · refine List.forall_mem_singleton.2 ?_
        show Storable (Str.ofString "request.input")
        decide
    · unfold responsesResponseSites
      split
      · rintro s hs
        obtain ⟨⟨item, index⟩, _, rfl⟩ := List.mem_map.1 hs
        exact indexedPath_storable (by decide) (by decide) index
      · exact fun s hs => nomatch hs
  | claudeMessages =>
    refine List.forall_mem_append.2 ⟨List.forall_mem_append.2 ⟨?_, ?_⟩, ?_⟩
    · refine List.forall_mem_singleton.2 ?_
      show Storable (Str.ofString "request.system")
      decide
    · refine loopSites_sourcePath "request.messages" "" ?_ ?_ fun d index s hs => ?_
      · decide
      · decide
      · obtain rfl := Option.some.inj hs
        rfl
    · refine List.forall_mem_singleton.2 ?_
      show Storable (Str.ofString "response.content")
      decide
  | gemini =>
    refine List.forall_mem_append.2 ⟨?_, ?_⟩
    · refine loopSites_sourcePath "request.contents" "" ?_ ?_ fun d index s hs => ?_
      · decide
      · decide
      · obtain rfl := Option.some.inj hs
        rfl
    · refine loopSites_sourcePath "response.candidates" ".content" ?_ ?_ fun d index s hs => ?_
      · decide
      · decide
      · obtain ⟨content, _, rfl⟩ := Option.map_eq_some_iff.1 hs
        rfl
  | generic =>
    intro s hs
    obtain ⟨key, hkey, rfl⟩ := List.mem_map.1 hs
    have hsub : ∀ keys, triedPrompts request keys ⊆ keys := by
      intro keys
      induction keys with
      | nil => exact List.Subset.refl _
      | cons key keys ih =>
        rw [triedPrompts]
        split
        · exact List.cons_subset_cons key ih
        · exact List.cons_subset_cons key (List.nil_subset _)
    have hall : ∀ key ∈ promptKeys, Storable (Str.ofString ("request." ++ key)) := by decide
    exact hall key (hsub _ hkey)

theorem drafts_sourcePath {rt : Runtime} {site : Site} (h : Storable site.sourcePath) :
    ∀ x ∈ site.drafts rt, Storable x.2 := by
  intro x hx
  unfold Site.drafts at hx
  split at hx
  · obtain ⟨part, hpart, hdraft⟩ := List.mem_filterMap.1 hx
    obtain ⟨y, _, rfl⟩ := Option.map_eq_some_iff.1 hdraft
    unfold partsOf at hpart
    split at hpart
    · obtain ⟨⟨item, index⟩, _, rfl⟩ := List.mem_map.1 hpart
      exact partSourcePath_storable h _ index
    · exact List.mem_singleton.1 hpart ▸ h
  · obtain ⟨y, _, rfl⟩ := Option.map_eq_some_iff.1 (Option.mem_toList.1 hx)
    exact h

theorem messagesOf_common {rt : Runtime} {job : TraceCapturedJob} {request response : Dict} {m : NormalizedMessage}
    (h : m ∈ messagesOf rt job request response) : m.Common rt job := by
  obtain ⟨⟨m', index⟩, hm', rfl⟩ := List.mem_map.1 h
  obtain ⟨site, hsite, hm'⟩ := List.mem_flatMap.1 (List.fst_mem_of_mem_zipIdx hm')
  obtain ⟨x, hx, rfl⟩ := List.mem_map.1 hm'
  exact ⟨rfl, rfl, rfl, rfl, drafts_sourcePath (sitesOf_sourcePath _ _ _ site hsite) x hx⟩

end AuditGateway.Pipeline
