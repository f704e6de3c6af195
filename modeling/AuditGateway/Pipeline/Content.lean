import AuditGateway.Pipeline.Message

/-!
# The parts of a message's content

How the normalizers turn a content value of a body into messages (`_part_messages`,
`_media_message` and `_content_to_text` of `normalizers.py`). The content comes from
the client or the upstream as it is: a text, a list of parts, an object, or anything
else. With an extractor, media that come as base64 are stored on the way; it is what
`extraction_context` is in the source, and the core stage has none.
-/

namespace AuditGateway.Pipeline

open AuditGateway.Framework AuditGateway.Python

/-! ## Text -/

/-- The types of parts that have no text. -/
def mediaTypes : List Str := ["image_url", "input_image", "image", "input_audio"]

/-- `_content_to_text`, with the number of calls that the stack has room for. A list takes
two of them: the comprehension over it is a call of its own. -/
def contentToText : Nat → Json → Except PyError Str
  | 0, _ => .error .recursionError
  | _ + 1, .str s => .ok s
  | 1, .list _ => .error .recursionError
  | n + 2, .list items => do
    let parts ← items.mapM (contentToText n)
    return Str.join "\n" (parts.filter (· ≠ []))
  | n + 1, .dict d => do
    if (← (Dict.get d "type").isIn mediaTypes) || Dict.hasKey d "inline_data" then return []
    match Dict.get d "text" with
    | .str s => return s
    | _ =>
      match Dict.get d "content" with
      | .str s => return s
      | .list items => contentToText n (.list items)
      | _ => return []
  | _ + 1, _ => .ok []

/-- The list under `content` from which an object's text is taken. -/
def contentList (d : Dict) : Option (List Json) :=
  if mediaTypes.any (Dict.get d "type").isText || Dict.hasKey d "inline_data" then none
  else
    match Dict.get d "text", Dict.get d "content" with
    | .str _, _ => none
    | _, .list items => some items
    | _, _ => none

/-- The value can be turned into text: it nests no deeper than the stack allows, and no
object on the way has a list or an object as its type. -/
def Readable : Nat → Json → Prop
  | 0, _ => False
  | 1, .list _ => False
  | n + 2, .list items => ∀ v ∈ items, Readable n v
  | n + 1, .dict d => (Dict.get d "type").Hashable ∧ ∀ items, contentList d = some items → Readable n (.list items)
  | _ + 1, _ => True

mutual

/-- The text of a value, however deeply it nests. -/
def textOf : Json → Str
  | .str s => s
  | .list items => Str.join "\n" ((textsOf items).filter (· ≠ []))
  | .dict fields =>
    if mediaTypes.any (Dict.get fields "type").isText || Dict.hasKey fields "inline_data" then []
    else
      match Dict.get fields "text", Dict.get fields "content" with
      | .str s, _ => s
      | _, .str s => s
      | _, .list _ => contentText fields
      | _, _ => []
  | _ => []

def textsOf : List Json → List Str
  | [] => []
  | v :: items => textOf v :: textsOf items

/-- The text under the key `content`. -/
def contentText : List (Str × Json) → Str
  | [] => []
  | (key, v) :: fields => if key == ("content" : Str) then textOf v else contentText fields

end

theorem textsOf_eq_map (items : List Json) : textsOf items = items.map textOf := by
  induction items with
  | nil => rw [textsOf, List.map_nil]
  | cons v items ih => rw [textsOf, List.map_cons, ih]

theorem contentText_eq (d : Dict) : contentText d = textOf (Dict.get d "content") := by
  induction d with
  | nil => simp [contentText, Dict.get, Dict.find, textOf]
  | cons field d ih =>
    obtain ⟨key, v⟩ := field
    rw [contentText, ih]
    by_cases hk : key = ("content" : Str)
    · simp [Dict.get, Dict.find, hk]
    · simp [Dict.get, Dict.find, hk]

theorem textOf_dict (d : Dict) : textOf (.dict d) =
    if mediaTypes.any (Dict.get d "type").isText || Dict.hasKey d "inline_data" then []
    else
      match Dict.get d "text", Dict.get d "content" with
      | .str s, _ => s
      | _, .str s => s
      | _, .list items => textOf (.list items)
      | _, _ => [] := by
  rw [textOf, contentText_eq]
  split
  · rfl
  · split <;> simp_all

theorem contentToText_yields (n : Nat) (v : Json) : Yields (contentToText n v) (Readable n v) (textOf v) := by
  induction n using Nat.strongRec generalizing v with
  | ind n ih =>
    match n, v with
    | 0, _ => exact (Yields.throw _ _).of_iff (by simp [Readable])
    | 1, .list _ => exact (Yields.throw _ _).of_iff (by simp [Readable])
    | n + 2, .list items =>
      rw [contentToText, textOf, textsOf_eq_map, Readable]
      exact (Yields.mapM fun v _ => ih n (by omega) v).bind_pure
    | n + 1, .dict d =>
      rw [contentToText, textOf_dict, Readable]
      refine (Json.isIn_yields _ _).bind fun _ => ?_
      unfold contentList
      split
      · exact (Yields.pure []).of_iff (by simp)
      · cases Dict.get d "text" with
        | str s => exact (Yields.pure s).of_iff (by simp)
        | _ =>
          cases Dict.get d "content" with
          | str s => exact (Yields.pure s).of_iff (by simp)
          | list items => exact (ih n (by omega) (.list items)).of_iff (by simp)
          | _ => exact (Yields.pure []).of_iff (by simp)
    | n + 1, .str s => exact (Yields.pure s).congr (by simp [Readable]) (by simp [textOf])
    | n + 1, .null | n + 1, .bool _ | n + 1, .int _ | n + 1, .float _ =>
      exact (Yields.pure []).congr (by simp [Readable]) (by simp [textOf])

/-! ## Media -/

/-- A medium in a part: behind a URL, or as base64 with what an extractor gets of it. -/
inductive Medium
  | url (value : Json) (modality : Modality)
  | base64 (data : Option Str) (mediaType : Json) (modality : Modality)

/-- `_dict_value`. -/
def dictValue (d : Dict) (keys : List Str) : Dict :=
  (keys.findSome? fun key => (Dict.get d key).asDict).getD []

/-- `_string_value`. -/
def stringValue (d : Dict) (keys : List Str) : Str :=
  (keys.findSome? fun key => (Dict.get d key).asStr).getD []

/-- `_modality_from_mime_type`. -/
def modalityFromMimeType (mimeType : Str) : Modality :=
  if mimeType.startsWith "image/" then .image
  else if mimeType.startsWith "audio/" then .audio
  else if mimeType.startsWith "video/" then .video
  else .media

/-- The medium of a part of type `input_image` or `image`. -/
def imageMedium (d : Dict) : Option Medium :=
  let mediaUrl := if (Dict.get d "image_url").truthy then Dict.get d "image_url" else Dict.get d "url"
  if mediaUrl.truthy then some (.url mediaUrl .image)
  else
    match Dict.get d "source" with
    | .dict source =>
      match (Dict.get source "type").isText "base64", Dict.get source "data" with
      | true, .str data => some (.base64 data ((Dict.find source "media_type").getD (.str "image/png")) .image)
      | _, _ => none
    | _ => none

/-- The medium of a part that has none of the types above: the parts of Gemini. -/
def dataMedium (d : Dict) : Option Medium :=
  let inlineData := dictValue d ["inlineData", "inline_data"]
  let fileData := dictValue d ["fileData", "file_data"]
  if inlineData ≠ [] then
    let mimeType := stringValue inlineData ["mimeType", "mime_type"]
    let data := (Dict.get inlineData "data").asStr.filter (· ≠ [])
    let mediaType : Str := if mimeType = [] then "application/octet-stream" else mimeType
    some (.base64 data (.str mediaType) (modalityFromMimeType mimeType))
  else if fileData ≠ [] then
    some (.url (.str (stringValue fileData ["fileUri", "file_uri"]))
      (modalityFromMimeType (stringValue fileData ["mimeType", "mime_type"])))
  else none

/-- The types of parts that hold an image in one of several ways. -/
def imageTypes : List Str := ["input_image", "image"]

/-- The branches of `_media_message`. -/
def mediumOf (d : Dict) : Option Medium :=
  let itemType := Dict.get d "type"
  match itemType.isText "image_url", Dict.get d "image_url" with
  | true, .dict image => some (.url (Dict.get image "url") .image)
  | _, _ =>
    if imageTypes.any itemType.isText then imageMedium d
    else
      match itemType.isText "input_audio", Dict.get d "input_audio" with
      | true, .dict audio =>
        match Dict.get audio "data" with
        | .str data => some (.base64 data (.str "audio/wav") .audio)
        | _ => some (.url (Dict.get audio "url") .audio)
      | _, _ => dataMedium d

/-- `_is_base64_data_url`. -/
def isBase64DataUrl (rt : Runtime) (value : Str) : Bool :=
  let (header, separator, _) := value.partition 44
  separator && (rt.lower header).startsWith "data:" && (rt.lower header).contains ";base64"

/-- What `extraction_context` does with a medium: whether it has become an asset. -/
structure Extractor (m : Type → Type) where
  extractDataUrl : Str → m Bool
  extractRawBase64 : Str → Json → m Bool

theorem ofExcept_eq {α : Type} (x : Except PyError α) : (MonadExcept.ofExcept x : Except PyError α) = x := by
  cases x <;> rfl

section Messages

variable {m : Type → Type} [Monad m] [MonadExceptOf PyError m] (rt : Runtime) (job : TraceCapturedJob)
  (direction : Direction) (role : Str) (sourcePath : Str) (extractionContext : Option (Extractor m))

/-- The message of a medium that comes as base64, which an extractor may take. -/
def base64Message (extract : Extractor m → m Bool) (modality : Modality) : m NormalizedMessage := do
  let extracted ←
    match extractionContext with
    | some x => extract x
    | none => pure false
  let itemType := if extracted then .base64MediaExtracted else .base64Media
  MonadExcept.ofExcept (message rt job direction 0 role sourcePath { itemType, modality })

/-- `_url_media_message`. -/
def urlMediaMessage (mediaUrl : Json) (modality : Modality) : m (Option NormalizedMessage) := do
  match mediaUrl with
  | .str url =>
    if url = [] then return none
    if isBase64DataUrl rt url then
      return some (← base64Message rt job direction role sourcePath extractionContext
        (·.extractDataUrl url) modality)
    if url.startsWith "http://" || url.startsWith "https://" then
      return some (← MonadExcept.ofExcept (message rt job direction 0 role sourcePath
        { itemType := .imageUrl, modality, mediaUrl := url }))
    return some (← MonadExcept.ofExcept (message rt job direction 0 role sourcePath
      { itemType := .mediaUrl, modality }))
  | _ => return none

/-- `_media_message`. The lookup of the type raises if it is a list or an object; where the
source returns before it, the type is a text. -/
def mediaMessage (value : Json) : m (Option NormalizedMessage) := do
  match value with
  | .dict d =>
    let _ ← MonadExcept.ofExcept ((Dict.get d "type").isIn imageTypes)
    match mediumOf d with
    | some (.url value modality) =>
      urlMediaMessage rt job direction role sourcePath extractionContext value modality
    | some (.base64 data mediaType modality) =>
      let extract (x : Extractor m) : m Bool :=
        match data with
        | some data => x.extractRawBase64 data mediaType
        | none => pure false
      return some (← base64Message rt job direction role sourcePath extractionContext extract modality)
    | none => return none
  | _ => return none

/-- The body of the loop of `_part_messages`. -/
def partMessage (itemType : ItemType) (value : Json) : m (Option NormalizedMessage) := do
  if let some media ← mediaMessage rt job direction role sourcePath extractionContext value then
    return some media
  let text ← MonadExcept.ofExcept (contentToText rt.frames value)
  if text = [] then return none
  return some (← MonadExcept.ofExcept (message rt job direction 0 role sourcePath
    { itemType, contentText := text }))

/-- `_part_source_path`. -/
def partSourcePath (sourcePath : Str) (itemType : ItemType) (index : Nat) : Str :=
  sourcePath ++ (if itemType = .geminiContentPart then ".parts[" else ".content[" : String) ++
    (toString index : String) ++ ("]" : String)

/-- The parts of a content, with their paths: the items of a list, or the content itself. -/
def partsOf (sourcePath : Str) (itemType : ItemType) : Json → List (Json × Str)
  | .list items => items.zipIdx.map fun (item, index) => (item, partSourcePath sourcePath itemType index)
  | content => [(content, sourcePath)]

/-- `_part_messages`. -/
def partMessages (itemType : ItemType) (content : Json) : m (List NormalizedMessage) := do
  let messages ← (partsOf sourcePath itemType content).mapM fun (value, path) =>
    partMessage rt job direction role path extractionContext itemType value
  return messages.filterMap id

end Messages

/-! ## What the core stage makes of a part -/

/-- What is found at a URL. -/
def urlDraft (rt : Runtime) (mediaUrl : Json) (modality : Modality) : Option Draft :=
  match mediaUrl with
  | .str url =>
    if url = [] then none
    else if isBase64DataUrl rt url then some { itemType := .base64Media, modality }
    else if url.startsWith "http://" || url.startsWith "https://" then
      some { itemType := .imageUrl, modality, mediaUrl := url }
    else some { itemType := .mediaUrl, modality }
  | _ => none

def mediaDraft (rt : Runtime) : Json → Option Draft
  | .dict d =>
    match mediumOf d with
    | some (.url value modality) => urlDraft rt value modality
    | some (.base64 _ _ modality) => some { itemType := .base64Media, modality }
    | none => none
  | _ => none

def textDraft (itemType : ItemType) (value : Json) : Option Draft :=
  if textOf value = [] then none else some { itemType, contentText := textOf value }

/-- What is found in a part without an extractor: a medium, or else a text. -/
def partDraft (rt : Runtime) (itemType : ItemType) (value : Json) : Option Draft :=
  (mediaDraft rt value).or (textDraft itemType value)

/-- The type of a part can be looked up. -/
def TypeHashable : Json → Prop
  | .dict d => (Dict.get d "type").Hashable
  | _ => True

/-- The part can be read: its type can be looked up, and it is a medium or can be turned
into text. -/
def PartReadable (rt : Runtime) (value : Json) : Prop :=
  TypeHashable value ∧ (mediaDraft rt value = none → Readable rt.frames value)

section Yields

variable (rt : Runtime) (job : TraceCapturedJob) (direction : Direction) (role : Str) (sourcePath : Str)

theorem yields_message (x : Draft) :
    Yields (do return some (← MonadExcept.ofExcept (message rt job direction 0 role sourcePath x)) :
        Except PyError (Option NormalizedMessage))
      (∀ y ∈ some x, y.Hashes role) ((some x).map (NormalizedMessage.of rt job direction 0 role sourcePath)) := by
  rw [ofExcept_eq]
  exact (message_yields rt job direction 0 role sourcePath x).bind_pure.of_iff (by simp)

theorem yields_none : Yields (pure none : Except PyError (Option NormalizedMessage))
    (∀ y ∈ (none : Option Draft), y.Hashes role)
    ((none : Option Draft).map (NormalizedMessage.of rt job direction 0 role sourcePath)) :=
  (Yields.pure none).of_iff (by simp)

theorem urlMediaMessage_yields (value : Json) (modality : Modality) :
    Yields (urlMediaMessage rt job direction role sourcePath none value modality : Except PyError _)
      (∀ x ∈ urlDraft rt value modality, x.Hashes role)
      ((urlDraft rt value modality).map (NormalizedMessage.of rt job direction 0 role sourcePath)) := by
  unfold urlMediaMessage urlDraft
  cases value with
  | str url =>
    simp only
    split
    · exact yields_none ..
    · split
      · exact yields_message ..
      · split <;> exact yields_message ..
  | _ => exact yields_none ..

theorem mediaMessage_yields (value : Json) :
    Yields (mediaMessage rt job direction role sourcePath none value : Except PyError _)
      (TypeHashable value ∧ ∀ x ∈ mediaDraft rt value, x.Hashes role)
      ((mediaDraft rt value).map (NormalizedMessage.of rt job direction 0 role sourcePath)) := by
  unfold mediaMessage mediaDraft TypeHashable
  cases value with
  | dict d =>
    simp only [ofExcept_eq]
    refine (Json.isIn_yields _ _).bind fun _ => ?_
    cases mediumOf d with
    | none => exact yields_none ..
    | some medium =>
      cases medium with
      | url value modality => exact urlMediaMessage_yields ..
      | base64 data mediaType modality => exact yields_message ..
  | _ => exact (yields_none rt job direction role sourcePath).of_iff (by simp)

theorem partMessage_yields (itemType : ItemType) (value : Json) :
    Yields (partMessage rt job direction role sourcePath none itemType value : Except PyError _)
      (PartReadable rt value ∧ ∀ x ∈ partDraft rt itemType value, x.Hashes role)
      ((partDraft rt itemType value).map (NormalizedMessage.of rt job direction 0 role sourcePath)) := by
  unfold partMessage partDraft PartReadable
  cases hmedia : mediaDraft rt value with
  | some x =>
    have h := mediaMessage_yields rt job direction role sourcePath value
    rw [hmedia] at h
    refine (h.bind (Q := True) fun _ => ?_).of_iff ?_
    · exact Yields.pure (some (NormalizedMessage.of rt job direction 0 role sourcePath x))
    · simp
  | none =>
    have h := mediaMessage_yields rt job direction role sourcePath value
    rw [hmedia] at h
    refine (h.bind (Q := Readable rt.frames value ∧ ∀ x ∈ textDraft itemType value, x.Hashes role)
      fun _ => ?_).of_iff ?_
    · simp only [ofExcept_eq, textDraft]
      refine (contentToText_yields rt.frames value).bind fun _ => ?_
      split
      · exact yields_none ..
      · exact (message_yields ..).bind_pure.of_iff (by simp)
    · simp [and_assoc]

theorem partMessages_yields (itemType : ItemType) (content : Json) :
    Yields (partMessages rt job direction role sourcePath none itemType content : Except PyError _)
      (∀ part ∈ partsOf sourcePath itemType content,
        PartReadable rt part.1 ∧ ∀ x ∈ partDraft rt itemType part.1, x.Hashes role)
      ((partsOf sourcePath itemType content).filterMap fun part =>
        (partDraft rt itemType part.1).map (NormalizedMessage.of rt job direction 0 role part.2)) := by
  unfold partMessages
  have h := Yields.mapM (l := partsOf sourcePath itemType content) fun part _ =>
    partMessage_yields rt job direction role part.2 itemType part.1
  exact (h.bind_pure (f := List.filterMap id)).congr Iff.rfl fun _ => by rw [List.filterMap_map]; rfl

end Yields

end AuditGateway.Pipeline
