import AuditGateway.Python.Json

/-!
# Jobs and normalized messages

The job of a captured trace, as `load_trace_job_json` reads it from the `traces` row,
and the messages that the normalizers make of its bodies (`models.py`, and `_message`
of `normalizers.py`). A message is identified by the hash of its role, modality and
text, so making one encodes them: `message_yields` says when that raises.
-/

namespace AuditGateway.Pipeline

open AuditGateway.Framework AuditGateway.Python

/-- The fields of `TraceCapturedJob` that the analysis reads. Times are in microseconds. -/
structure TraceCapturedJob where
  traceId : Str
  routePattern : Str
  protocolFamily : Str
  captureMode : Str
  username : Str
  requestRawRef : Str := []
  responseRawRef : Str := []
  requestContentType : Str := []
  responseContentType : Str := []
  modelRequested : Str := []
  usagePromptTokens : Int := 0
  usageCompletionTokens : Int := 0
  usageTotalTokens : Int := 0
  usageReasoningTokens : Int := 0
  usageCachedTokens : Int := 0
  tokenFingerprint : Str := []
  fingerprintDisplay : Str := []
  newApiTokenId : Int := 0
  tokenNameSnapshot : Str := []
  statusCode : Int := 0
  stream : Bool := false
  requestStartedAt : Int := 0
  requestBodySize : Int := 0
  responseBodySize : Int := 0

inductive Direction
  | request
  | response
deriving DecidableEq, Repr

def Direction.value : Direction → Str
  | request => "request"
  | response => "response"

inductive Modality
  | text
  | image
  | audio
  | video
  | media
deriving DecidableEq, Repr

def Modality.value : Modality → Str
  | text => "text"
  | image => "image"
  | audio => "audio"
  | video => "video"
  | media => "media"

/-- The values of `protocol_item_type`. -/
inductive ItemType
  | openaiChatMessage
  | openaiResponsesInput
  | openaiResponsesOutput
  | claudeMessage
  | geminiContentPart
  | genericPrompt
  | base64Media
  | base64MediaExtracted
  | imageUrl
  | mediaUrl
deriving DecidableEq, Repr

def ItemType.value : ItemType → Str
  | openaiChatMessage => "openai_chat_message"
  | openaiResponsesInput => "openai_responses_input"
  | openaiResponsesOutput => "openai_responses_output"
  | claudeMessage => "claude_message"
  | geminiContentPart => "gemini_content_part"
  | genericPrompt => "generic_prompt"
  | base64Media => "base64_media"
  | base64MediaExtracted => "base64_media_extracted"
  | imageUrl => "image_url"
  | mediaUrl => "media_url"

structure NormalizedMessage where
  traceId : Str
  direction : Direction
  sequenceIndex : Nat
  role : Str
  modality : Modality
  contentText : Str
  contentTextHash : Str
  mediaUrl : Str
  sourcePath : Str
  protocolItemType : ItemType
  tokenCountEstimate : Nat
  metadata : List (String × Str)
  messageKey : Str
deriving DecidableEq

/-! ## Hashes -/

/-- `str.encode("utf-8")`. -/
def encode (s : Str) : Except PyError (List UInt8) :=
  match encodeUtf8 s with
  | some bs => .ok bs
  | none => .error .unicodeEncodeError

/-- The bytes of a text that can be encoded. -/
def bytes (s : Str) : List UInt8 :=
  (encodeUtf8 s).getD []

theorem encode_yields (s : Str) : Yields (encode s) (Encodes s) (bytes s) := by
  unfold encode bytes
  have hs := encodeUtf8_isSome_iff (s := s)
  cases he : encodeUtf8 s with
  | some bs => exact (Yields.pure bs).of_iff (by simpa [he] using hs)
  | none => exact (Yields.throw _ _).of_iff (by simpa [he] using hs)

/-- `text_hash`. -/
def textHash (rt : Runtime) (value : Str) : Except PyError Str := do
  return rt.sha256Hex (← encode value)

/-- A part of the payload of a message key, behind its length. -/
def lengthPrefixed (part : List UInt8) : List UInt8 :=
  bytes (toString part.length ++ ":") ++ part

/-- `message_key`. -/
def messageKey (rt : Runtime) (role : Str) (modality : Modality) (contentText : Str) :
    Except PyError Str := do
  let role ← encode role
  let modality ← encode modality.value
  let contentText ← encode contentText
  return rt.sha256Hex (([role, modality, contentText].map lengthPrefixed).flatten)

/-- The key of a message whose texts can be encoded. -/
def keyOf (rt : Runtime) (role : Str) (modality : Modality) (contentText : Str) : Str :=
  rt.sha256Hex (([bytes role, bytes modality.value, bytes contentText].map lengthPrefixed).flatten)

theorem textHash_yields (rt : Runtime) (s : Str) :
    Yields (textHash rt s) (Encodes s) (rt.sha256Hex (bytes s)) :=
  (encode_yields s).bind_pure

theorem Modality.encodes_value (modality : Modality) : Encodes modality.value := by
  cases modality <;> decide

theorem messageKey_yields (rt : Runtime) (role : Str) (modality : Modality) (text : Str) :
    Yields (messageKey rt role modality text) (Encodes role ∧ Encodes text) (keyOf rt role modality text) := by
  refine ((encode_yields role).bind fun _ => (encode_yields modality.value).bind fun _ =>
    (encode_yields text).bind_pure).of_iff ?_
  simp [modality.encodes_value]

/-! ## Messages -/

/-- What a normalizer finds in a part of a body: a text, or a medium. -/
structure Draft where
  itemType : ItemType
  modality : Modality := .text
  contentText : Str := []
  mediaUrl : Str := []
deriving DecidableEq

/-- The message of a draft whose texts can be encoded. -/
def NormalizedMessage.of (rt : Runtime) (job : TraceCapturedJob) (direction : Direction)
    (sequenceIndex : Nat) (role : Str) (sourcePath : Str) (x : Draft) : NormalizedMessage where
  traceId := job.traceId
  direction := direction
  sequenceIndex := sequenceIndex
  role := role
  modality := x.modality
  contentText := x.contentText
  contentTextHash := rt.sha256Hex (bytes x.contentText)
  mediaUrl := x.mediaUrl
  sourcePath := sourcePath
  protocolItemType := x.itemType
  tokenCountEstimate := if x.contentText = [] then 0 else max 1 x.contentText.wordCount
  metadata := [("route_pattern", job.routePattern), ("protocol_family", job.protocolFamily)]
  messageKey := keyOf rt role x.modality x.contentText

/-- `_message`. -/
def message (rt : Runtime) (job : TraceCapturedJob) (direction : Direction) (sequenceIndex : Nat)
    (role : Str) (sourcePath : Str) (x : Draft) : Except PyError NormalizedMessage := do
  let contentTextHash ← textHash rt x.contentText
  let key ← messageKey rt role x.modality x.contentText
  return { traceId := job.traceId
           direction := direction
           sequenceIndex := sequenceIndex
           role := role
           modality := x.modality
           contentText := x.contentText
           contentTextHash := contentTextHash
           mediaUrl := x.mediaUrl
           sourcePath := sourcePath
           protocolItemType := x.itemType
           tokenCountEstimate := if x.contentText = [] then 0 else max 1 x.contentText.wordCount
           metadata := [("route_pattern", job.routePattern), ("protocol_family", job.protocolFamily)]
           messageKey := key }

/-- The texts from which a message key is made can be encoded. -/
def Draft.Hashes (x : Draft) (role : Str) : Prop :=
  Encodes role ∧ Encodes x.contentText

theorem message_yields (rt : Runtime) (job : TraceCapturedJob) (direction : Direction)
    (sequenceIndex : Nat) (role : Str) (sourcePath : Str) (x : Draft) :
    Yields (message rt job direction sequenceIndex role sourcePath x) (x.Hashes role)
      (NormalizedMessage.of rt job direction sequenceIndex role sourcePath x) := by
  refine ((textHash_yields rt x.contentText).bind fun _ =>
    (messageKey_yields rt role x.modality x.contentText).bind_pure).of_iff ?_
  simp only [Draft.Hashes]
  tauto

end AuditGateway.Pipeline
