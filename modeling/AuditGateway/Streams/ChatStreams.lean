import AuditGateway.Gateway.Completeness
import AuditGateway.Pipeline.Normalizers

/-!
# Assembled and raw chat streams

The worker normalizes a chat stream from one of two bodies: the document that the gateway has
assembled of it (`assembleSSE`), or the events themselves, which it puts together on its own
(`_response_json_from_sse_events`). Both collect the roles and the contents of the deltas. The
gateway keeps the first role that is not empty, and has none without one; the worker keeps the
last role, and starts from `assistant`.

An event is a document as the worker reads it. The gateway reads the same with U+FFFD in the place of
lone surrogates (`toGo`). The events of a chat stream have the keys that are looked at once each and in
the spelling of the format (`Spelled`): `encoding/json` would also take other spellings, and a key that is repeated
in another way.
-/

namespace AuditGateway.Streams

open AuditGateway.Framework AuditGateway.Python AuditGateway.Gateway AuditGateway.Pipeline

/-! ## Documents of the two programs -/

/-- A code point as `encoding/json` reads it. -/
def scrubCodePoint (c : CodePoint) : CodePoint := if c.isSurrogate then 0xFFFD else c

def scrub (s : Str) : Str := s.map scrubCodePoint

/-- A text as `encoding/json` reads it. -/
def goString (s : Str) : String := String.ofList (s.map fun c => Char.ofNat (scrubCodePoint c).val)

mutual

/-- A document as `encoding/json` reads it. -/
def toGo : Json → Go.Json
  | .null => .null
  | .bool b => .bool b
  | .int n => .int n
  | .float repr => .decimal (goString repr)
  | .str s => .str (goString s)
  | .list items => .array (toGoItems items)
  | .dict fields => .object (toGoFields fields)

def toGoItems : List Json → List Go.Json
  | [] => []
  | v :: items => toGo v :: toGoItems items

def toGoFields : List (Str × Json) → Go.Fields
  | [] => []
  | (key, v) :: fields => (goString key, toGo v) :: toGoFields fields

end

mutual

/-- A document of the gateway as `json.loads` reads it, up to the way floats are written. -/
def ofGo : Go.Json → Json
  | .null => .null
  | .bool b => .bool b
  | .int n => .int n
  | .decimal literal => .float literal
  | .str s => .str s
  | .array items => .list (ofGoItems items)
  | .object fields => .dict (ofGoFields fields)

def ofGoItems : List Go.Json → List Json
  | [] => []
  | v :: items => ofGo v :: ofGoItems items

def ofGoFields : List (String × Go.Json) → Dict
  | [] => []
  | (key, v) :: fields => (Str.ofString key, ofGo v) :: ofGoFields fields

end

/-- The object that a document is. -/
def ofGoDict (v : Go.Json) : Dict := ((ofGo v).asDict).getD []

section

variable {s t : Str} {key : String}

theorem encodes_ofString (s : String) : Encodes (Str.ofString s) := by
  intro c hc
  obtain ⟨d, -, rfl⟩ := List.mem_map.1 hc
  have hvalid := d.valid
  rw [CodePoint.isSurrogate, CodePoint.ofChar, Fin.val_ofNat, Nat.mod_eq_of_lt]
  · simp only [Bool.and_eq_false_iff, decide_eq_false_iff_not, Char.toNat]
    obtain h | h := hvalid <;> omega
  · simp only [Char.toNat]
    obtain h | h := hvalid <;> omega

theorem isSurrogate_scrubCodePoint (c : CodePoint) : (scrubCodePoint c).isSurrogate = false := by
  unfold scrubCodePoint
  split
  · rfl
  · rename_i h
    exact Bool.eq_false_iff.2 h

theorem scrubCodePoint_eq_self_iff {c : CodePoint} : scrubCodePoint c = c ↔ c.isSurrogate = false := by
  constructor
  · intro h
    rw [← h]
    exact isSurrogate_scrubCodePoint c
  · intro h
    rw [scrubCodePoint, if_neg (by simp [h])]

theorem scrub_eq_self_iff : scrub s = s ↔ Encodes s := by
  rw [scrub]
  induction s with
  | nil => simp [Encodes]
  | cons c s ih =>
    rw [List.map_cons, List.cons.injEq, scrubCodePoint_eq_self_iff, ih]
    simp [Encodes]

theorem ofString_goString (s : Str) : Str.ofString (goString s) = scrub s := by
  rw [Str.ofString, goString, String.toList_ofList, List.map_map, scrub]
  refine List.map_congr_left fun c _ => ?_
  have hlt : (scrubCodePoint c).val < 0x110000 := (scrubCodePoint c).isLt
  have hsurrogate := isSurrogate_scrubCodePoint c
  simp only [CodePoint.isSurrogate, Bool.and_eq_false_iff, decide_eq_false_iff_not] at hsurrogate
  have hvalid : (scrubCodePoint c).val.isValidChar := by
    unfold Nat.isValidChar
    omega
  have hchar : (Char.ofNat (scrubCodePoint c).val).toNat = (scrubCodePoint c).val := by
    rw [Char.ofNat, dif_pos hvalid]
    rfl
  rw [Function.comp_apply, CodePoint.ofChar, hchar]
  exact Fin.ofNat_val_eq_self _

theorem goString_eq_iff {u : String} : goString s = u ↔ scrub s = Str.ofString u := by
  rw [← ofString_goString]
  exact Str.ofString_injective.eq_iff.symm

theorem goString_eq_empty : goString s = "" ↔ s = [] := by
  rw [goString_eq_iff, scrub]
  exact List.map_eq_nil_iff

/-- An object has no key that `encoding/json` takes for a tag, or the tag itself, once. -/
def Spelled (tag : String) (d : Dict) : Prop :=
  (d.map Prod.fst).filter (fun name => Go.Matches (goString name) tag) = [] ∨
    (d.map Prod.fst).filter (fun name => Go.Matches (goString name) tag) = [Str.ofString tag]

instance (tag : String) (d : Dict) : Decidable (Spelled tag d) := inferInstanceAs (Decidable (_ ∨ _))

theorem values_toGoFields (tag : String) (d : Dict) : (toGoFields d).values tag =
    (d.filter fun x => Go.Matches (goString x.1) tag).map fun x => toGo x.2 := by
  induction d with
  | nil => rfl
  | cons field d ih =>
    obtain ⟨name, v⟩ := field
    rw [toGoFields, Go.Fields.values_cons, ih, List.filter_cons]
    split <;> simp_all

variable {tag : String}

theorem Spelled.values_eq {d : Dict} (h : Spelled tag d) :
    (toGoFields d).values tag = (Dict.find d tag).toList.map toGo := by
  have hself : goString (Str.ofString tag) = tag :=
    goString_eq_iff.2 (scrub_eq_self_iff.2 (encodes_ofString tag))
  have hfind : d.find? (fun x => x.1 == Str.ofString tag) =
      (d.filter fun x => Go.Matches (goString x.1) tag).find? fun x => x.1 == Str.ofString tag := by
    rw [List.find?_filter]
    refine List.find?_congr fun x _ => ?_
    by_cases hx : x.1 = Str.ofString tag
    · simp [hx, hself, Go.Matches.refl]
    · simp [hx]
  rw [values_toGoFields, Dict.find, hfind]
  simp only [Spelled, List.filter_map, List.map_eq_nil_iff] at h
  obtain h | h := h
  · have hnil : (d.filter fun x => Go.Matches (goString x.1) tag) = [] := h
    rw [hnil]
    rfl
  · obtain ⟨x, hx, hname⟩ := List.map_eq_singleton_iff.1 h
    have hone : (d.filter fun x => Go.Matches (goString x.1) tag) = [x] := hx
    rw [hone]
    simp [hname]

theorem Spelled.field_toGo {v : Json} (h : Spelled tag (v.asDict.getD [])) :
    (toGo v).field tag = toGo (Dict.get (v.asDict.getD []) tag) := by
  cases v with
  | dict d =>
    have hvalues : (toGoFields d).values tag = (Dict.find d tag).toList.map toGo := h.values_eq
    rw [toGo, Go.Json.field_object, Go.Fields.get, hvalues, Json.asDict, Option.getD_some, Dict.get]
    cases Dict.find d tag with
    | none => rfl
    | some w => exact Go.Json.merge_null_left (toGo w)
  | _ => rfl

theorem Spelled.elements_toGo {d : Dict} (h : Spelled tag d) : (toGo (.dict d)).elements tag =
    match Dict.get d tag with
    | .list items => items.map toGo
    | _ => [] := by
  have hitems : ∀ items : List Json, toGoItems items = items.map toGo := fun items => by
    induction items with
    | nil => rfl
    | cons v items ih => rw [toGoItems, ih, List.map_cons]
  have hvalues : (toGoFields d).values tag = (Dict.find d tag).toList.map toGo := h.values_eq
  rw [toGo, Go.Json.elements_object, Dict.get]
  cases hv : Dict.find d tag with
  | none => rw [Go.Fields.elements, hvalues, hv]; rfl
  | some v =>
    rw [hv] at hvalues
    cases v with
    | list items =>
      exact (Go.Fields.elements_of_values hvalues).trans (hitems items)
    | _ => rw [Go.Fields.elements, hvalues]; rfl

theorem find_ofGoFields (fields : List (String × Go.Json)) (key : String) :
    Dict.find (ofGoFields fields) key = (fields.lookup key).map ofGo := by
  induction fields with
  | nil => rfl
  | cons field fields ih =>
    obtain ⟨name, v⟩ := field
    rw [ofGoFields, List.lookup_cons]
    by_cases hname : key = name
    · simp [Dict.find, hname]
    · have hname' : Str.ofString name ≠ Str.ofString key := fun h => hname (Str.ofString_injective h).symm
      rw [Dict.find] at ih
      simpa [Dict.find, beq_eq_false_iff_ne.2 hname, hname'] using ih

theorem text_toGo (v : Json) : (toGo v).text = goString (v.asStr.getD []) := by
  cases v <;> simp [toGo, Go.Json.text, Json.asStr] <;> rfl

end

/-! ## Deltas -/

/-- The delta of a choice. -/
def deltaOf (choice : Json) : Dict := (Dict.get (choice.asDict.getD []) "delta").asDict.getD []

/-- The choices of an event. -/
def choicesOf (event : Dict) : List Json :=
  match Dict.get event "choices" with
  | .list choices => choices
  | _ => []

/-- The deltas of an event. -/
def deltasOf (event : Dict) : List Dict := (choicesOf event).map deltaOf

/-- The roles that the deltas of a stream give. -/
def rolesOf (events : List Dict) : List Str :=
  (events.flatMap deltasOf).filterMap fun delta => (Dict.get delta "role").asStr

/-- The contents of the deltas of a stream. -/
def contentsOf (events : List Dict) : List Str :=
  (events.flatMap deltasOf).filterMap fun delta => (Dict.get delta "content").asStr

/-- An event of a chat stream: its fields have the types that the gateway expects and the names of the format, and it
is not one of the responses format. -/
structure IsChatEvent (event : Dict) : Prop where
  decodes : (ChatChunk.decode (toGo (.dict event))).isSome = true
  chat : (Dict.get event "type").isText "response.output_text.delta" = false
  spelled : Spelled "choices" event
  choices : ∀ choice ∈ choicesOf event, Spelled "delta" (choice.asDict.getD [])
  deltas : ∀ delta ∈ deltasOf event, Spelled "role" delta ∧ Spelled "content" delta

/-! ## What the worker puts together -/

/-- One delta, for `_response_json_from_sse_events`. -/
def addDelta (x : SseResponse) (delta : Dict) : SseResponse :=
  { x with
    role := (Dict.get delta "role").asStr.getD x.role
    chatContentParts := x.chatContentParts ++ (Dict.get delta "content").asStr.toList }

theorem choice_eq (x : SseResponse) (choice : Json) : x.choice choice = addDelta x (deltaOf choice) := by
  have hnone : addDelta x [] = x := by simp [addDelta, Dict.get, Dict.find, Json.asStr]
  cases choice with
  | dict d =>
    simp only [SseResponse.choice, deltaOf, Json.asDict, Option.getD_some]
    cases Dict.get d "delta" with
    | dict delta => rfl
    | _ => exact hnone.symm
  | _ => exact hnone.symm

theorem event_eq (x : SseResponse) {event : Dict}
    (h : (Dict.get event "type").isText "response.output_text.delta" = false) :
    x.event event = (deltasOf event).foldl addDelta x := by
  unfold SseResponse.event deltasOf choicesOf
  rw [h]
  cases Dict.get event "choices" with
  | list choices =>
    simp only [List.foldl_map]
    exact List.foldl_ext _ _ _ fun x choice _ => choice_eq x choice
  | _ => rfl

theorem foldl_addDelta (x : SseResponse) (deltas : List Dict) : deltas.foldl addDelta x =
    { x with
      role := (deltas.filterMap fun delta => (Dict.get delta "role").asStr).getLast?.getD x.role
      chatContentParts := x.chatContentParts ++ deltas.filterMap fun delta => (Dict.get delta "content").asStr } := by
  induction deltas generalizing x with
  | nil => simp
  | cons delta deltas ih =>
    rw [List.foldl_cons, ih, addDelta]
    cases hrole : (Dict.get delta "role").asStr <;> cases hcontent : (Dict.get delta "content").asStr <;>
      simp [hrole, hcontent, List.getLast?_cons]

theorem raw_deltas {events : List Dict} (h : ∀ event ∈ events, IsChatEvent event) :
    events.foldl SseResponse.event {} =
      { role := (rolesOf events).getLast?.getD "assistant", chatContentParts := contentsOf events } := by
  have hfold : ∀ x : SseResponse, events.foldl SseResponse.event x = (events.flatMap deltasOf).foldl addDelta x := by
    induction events with
    | nil => exact fun x => rfl
    | cons event events ih =>
      intro x
      rw [List.foldl_cons, event_eq x (h event List.mem_cons_self).chat,
        ih fun event' hevent' => h event' (List.mem_cons_of_mem event hevent'), List.flatMap_cons, List.foldl_append]
  rw [hfold, foldl_addDelta]
  rfl

/-! ## What the gateway puts together -/

/-- The first text that is not empty. -/
def firstOf (texts : List String) : String := (texts.find? (· ≠ "")).getD ""

theorem firstOf_append (l m : List String) : firstOf (l ++ m) = if firstOf l = "" then firstOf m else firstOf l := by
  unfold firstOf
  rw [List.find?_append]
  cases h : l.find? (· ≠ "") with
  | none => simp
  | some s =>
    have hs : s ≠ "" := by simpa using List.find?_some h
    simp [hs]

/-- The roles in a payload. -/
def roleTexts (v : Go.Json) : List String :=
  (v.elements "choices").map fun choice => ((choice.field "delta").field "role").text

section

variable {v : Go.Json} {e : ChatExtractor}

theorem decode_role {c : ChoiceDelta} (h : ChoiceDelta.decode v = some c) :
    ((v.field "delta").field "role").text = c.role := by
  simp only [ChoiceDelta.decode, Go.bind_eq_some, Option.pure_def, Option.some.injEq] at h
  obtain ⟨fields, hfields, _, _, _, _, delta, hdelta, role, hrole, _, _, _, _, rfl⟩ := h
  rw [Go.Fields.struct_eq, Go.Json.asStruct_field hfields] at hdelta
  rw [Go.Fields.string_eq, Go.Json.asStruct_field hdelta] at hrole
  exact Go.Json.asString_text hrole

theorem decode_roles {chunk : ChatChunk} (h : ChatChunk.decode v = some chunk) :
    roleTexts v = chunk.choices.map ChoiceDelta.role := by
  simp only [ChatChunk.decode, Go.bind_eq_some, Option.pure_def, Option.some.injEq] at h
  obtain ⟨fields, hfields, _, _, _, _, _, _, choices, hchoices, rfl⟩ := h
  rw [roleTexts, ← Go.Json.asStruct_elements hfields]
  exact map_eq_of_mapM (fun _ _ hc => decode_role hc) (Go.Fields.slice_elements hchoices)

theorem addToolCalls_sseRole (deltas : List ToolCallDelta) :
    (deltas.foldl ChatExtractor.addToolCall e).sseRole = e.sseRole :=
  List.foldlRecOn deltas ChatExtractor.addToolCall (motive := fun e' : ChatExtractor => e'.sseRole = e.sseRole) rfl
    fun _ h _ _ => h

theorem addChoices_sseRole (choices : List ChoiceDelta) : (choices.foldl ChatExtractor.addChoice e).sseRole =
    if e.sseRole = "" then firstOf (choices.map ChoiceDelta.role) else e.sseRole := by
  induction choices generalizing e with
  | nil =>
    by_cases he : e.sseRole = "" <;> simp [he, firstOf]
  | cons choice choices ih =>
    rw [List.foldl_cons, ih, ChatExtractor.addChoice, addToolCalls_sseRole]
    by_cases he : e.sseRole = "" <;> by_cases hrole : choice.role = "" <;> simp [he, hrole, firstOf]

theorem addUsage_sseRole (usage : Option MinimalUsage) : (e.addUsage usage).sseRole = e.sseRole := by
  cases usage with
  | none => rfl
  | some usage =>
    simp only [ChatExtractor.addUsage]
    split <;> rfl

theorem foldl_sseRole {payloads : List Go.Json} (h : ∀ v ∈ payloads, (ChatChunk.decode v).isSome = true) :
    (payloads.foldl ChatExtractor.processSSE e).sseRole =
      if e.sseRole = "" then firstOf (payloads.flatMap roleTexts) else e.sseRole := by
  induction payloads generalizing e with
  | nil =>
    by_cases he : e.sseRole = "" <;> simp [he, firstOf]
  | cons v payloads ih =>
    obtain ⟨chunk, hchunk⟩ := Option.isSome_iff_exists.1 (h v List.mem_cons_self)
    rw [List.foldl_cons, ih fun v' hv' => h v' (List.mem_cons_of_mem v hv'), ChatExtractor.processSSE_of_decode hchunk,
      ChatExtractor.addChunk, addChoices_sseRole, addUsage_sseRole, List.flatMap_cons, firstOf_append,
      decode_roles hchunk]
    by_cases he : e.sseRole = "" <;> simp [he]

end

/-! ## The same roles and contents -/

theorem delta_texts {event : Dict} (h : IsChatEvent event) {key : String}
    (hkey : ∀ delta ∈ deltasOf event, Spelled key delta) :
    ((toGo (.dict event)).elements "choices").map (fun choice => ((choice.field "delta").field key).text) =
      (deltasOf event).map fun delta => goString ((Dict.get delta key).asStr.getD []) := by
  have hchoices : (toGo (.dict event)).elements "choices" = (choicesOf event).map toGo := by
    rw [h.spelled.elements_toGo, choicesOf]
    cases Dict.get event "choices" <;> rfl
  rw [hchoices, deltasOf, List.map_map, List.map_map]
  refine List.map_congr_left fun choice hchoice => ?_
  have hdelta : Spelled key (deltaOf choice) := hkey _ (List.mem_map_of_mem hchoice)
  simp only [Function.comp_apply, (h.choices choice hchoice).field_toGo]
  rw [Spelled.field_toGo hdelta, text_toGo]
  rfl

/-- The first role of a stream that is not empty. -/
def firstRole (events : List Dict) : Str := ((rolesOf events).find? (· ≠ [])).getD []

/-- The last role of a stream. -/
def lastRole (events : List Dict) : Str := (rolesOf events).getLast?.getD "assistant"

theorem firstOf_goString (l : List (Option Str)) : firstOf (l.map fun s => goString (s.getD [])) =
    goString (((l.filterMap id).find? (· ≠ [])).getD []) := by
  induction l with
  | nil => rfl
  | cons s l ih =>
    have hcons : ∀ (t : String) (l : List String), firstOf (t :: l) = if t = "" then firstOf l else t := fun t l => by
      by_cases ht : t = "" <;> simp [firstOf, ht]
    rw [List.map_cons, hcons, ih, List.filterMap_cons]
    cases s with
    | none => rfl
    | some s =>
      by_cases hs : s = []
      · simp [hs, goString_eq_empty.2]
      · simp [hs, goString_eq_empty]

theorem ofString_join (l : List (Option Str)) :
    Str.ofString (String.join (l.map fun s => goString (s.getD []))) = scrub (l.filterMap id).flatten := by
  induction l with
  | nil => rfl
  | cons s l ih =>
    rw [List.map_cons, String.join_cons, Str.ofString_append, ih, ofString_goString]
    cases s with
    | none => rfl
    | some s => simp [scrub]

/-- The payloads of a stream. -/
def payloads (events : List Dict) : List Go.Json := events.map fun event => toGo (.dict event)

theorem assembled_deltas {events : List Dict} (h : ∀ event ∈ events, IsChatEvent event) :
    Str.ofString ((payloads events).foldl ChatExtractor.processSSE {}).sseRole = scrub (firstRole events) ∧
      Str.ofString (String.join ((payloads events).foldl ChatExtractor.processSSE {}).sseParts) =
        scrub (contentsOf events).flatten := by
  have hdecodes : ∀ v ∈ payloads events, (ChatChunk.decode v).isSome = true := by
    intro v hv
    obtain ⟨event, hevent, rfl⟩ := List.mem_map.1 hv
    exact (h event hevent).decodes
  have htexts : ∀ (key : String) (texts : Go.Json → List String),
      (∀ event ∈ events, ∀ delta ∈ deltasOf event, Spelled key delta) →
      (∀ v : Go.Json, texts v = (v.elements "choices").map fun choice => ((choice.field "delta").field key).text) →
      (payloads events).flatMap texts = ((events.flatMap deltasOf).map fun delta => (Dict.get delta key).asStr).map
        fun s => goString (s.getD []) := by
    intro key texts hkey htexts
    rw [payloads, List.flatMap_map, List.map_map, List.map_flatMap]
    exact List.flatMap_congr fun event hevent => (htexts _).trans (delta_texts (h event hevent) (hkey event hevent))
  constructor
  · rw [foldl_sseRole hdecodes, if_pos rfl, htexts "role" roleTexts
      (fun event hevent delta hdelta => ((h event hevent).deltas delta hdelta).1) fun _ => rfl, firstOf_goString,
      ofString_goString, firstRole, rolesOf, List.filterMap_map]
    rfl
  · have hjoin : String.join ((payloads events).map chatText) =
        String.join ((payloads events).flatMap fun v => (fragments .openaiChat v).map Prod.snd) := by
      rw [← List.map_flatMap, join_map_flatMap]
      rfl
    rw [ChatExtractor.foldl_content, List.filter_eq_self.2 hdecodes, hjoin, String.join_nil, String.empty_append,
      htexts "content" _ (fun event hevent delta hdelta => ((h event hevent).deltas delta hdelta).2)
        fun v => by rw [fragments, List.map_map]; rfl, ofString_join, contentsOf, List.filterMap_map]
    rfl

/-! ## Response messages -/

/-- Role and text of the response messages, in order. -/
def responsesOf (messages : List NormalizedMessage) : List (Str × Str) :=
  (messages.filter (·.direction = .response)).map fun m => (m.role, m.contentText)

/-- The response messages of two documents. -/
def normalizedResponses (rt : Runtime) (job : TraceCapturedJob) (request response : Dict) :
    Except PyError (List (Str × Str)) := do
  return responsesOf (← normalizeOpenaiChat rt job none request response)

/-- The place of the only choice of a response. -/
def responseSite (role text : Str) : Site where
  direction := .response
  role := .str role
  content := .str text
  sourcePath := indexedPath "response.choices" 0 ".message"
  itemType := .openaiChatMessage

section

variable {rt : Runtime} {job : TraceCapturedJob} {request response : Dict} {role text : Str}

theorem responsesOf_withSequenceIndex (messages : List NormalizedMessage) :
    responsesOf (withSequenceIndex messages) = responsesOf messages := by
  have hfrom : ∀ k, responsesOf ((messages.zipIdx k).map fun x => { x.1 with sequenceIndex := x.2 }) =
      responsesOf messages := by
    induction messages with
    | nil => exact fun _ => rfl
    | cons m messages ih =>
      intro k
      have hrest := ih (k + 1)
      unfold responsesOf at hrest ⊢
      rw [List.zipIdx_cons, List.map_cons]
      by_cases hm : m.direction = .response
      · simpa [hm] using hrest
      · simpa [hm] using hrest
  exact hfrom 0

theorem responsesOf_append (l m : List NormalizedMessage) : responsesOf (l ++ m) = responsesOf l ++ responsesOf m := by
  rw [responsesOf, List.filter_append, List.map_append]
  rfl

theorem responsesOf_request {messages : List NormalizedMessage}
    (h : loopMessages rt job none request "messages" chatRequestSite = (.ok messages : Except PyError _)) :
    responsesOf messages = [] := by
  obtain ⟨-, rfl⟩ := (loopMessages_yields rt job request "messages" chatRequestSite).eq_of_ok h
  refine List.map_eq_nil_iff.2 (List.filter_eq_nil_iff.2 fun m hm => ?_)
  obtain ⟨site, hsite, hm⟩ := List.mem_flatMap.1 hm
  obtain ⟨x, -, rfl⟩ := List.mem_map.1 hm
  obtain ⟨⟨value, index⟩, -, hvalue⟩ := List.mem_filterMap.1 hsite
  obtain ⟨d, -, hd⟩ := Option.bind_eq_some_iff.1 hvalue
  obtain rfl := Option.some.inj hd
  simp [NormalizedMessage.of]

theorem responseSite_drafts (htext : text ≠ []) : (responseSite role text).drafts rt =
    [({ itemType := .openaiChatMessage, contentText := text }, indexedPath "response.choices" 0 ".message")] := by
  simp [Site.drafts, responseSite, partsOf, partDraft, mediaDraft, textDraft, textOf, htext]

theorem render_str (s : Str) : rt.render (.str s) = s := by
  simp [Runtime.render, rt.toStr_str, Except.toOption]

theorem responseSite_yields (hframes : 0 < rt.frames) (htext : text ≠ []) :
    (responseSite role text).Reads rt ∧ (responseSite role text).Hashes rt ↔ Encodes role ∧ Encodes text := by
  have hreads : (responseSite role text).Reads rt := by
    refine ⟨?_, fun _ part hpart => ?_, fun h => by cases h⟩
    · simp [Runtime.Renders, responseSite, rt.toStr_str, Except.isOk, Except.toBool]
    · obtain rfl : part = (.str text, indexedPath "response.choices" 0 ".message") := List.mem_singleton.1 hpart
      obtain ⟨n, hn⟩ := Nat.exists_eq_add_of_lt hframes
      refine ⟨trivial, fun _ => ?_⟩
      rw [hn]
      simp [Readable]
  rw [Site.Hashes, responseSite_drafts htext, List.forall_mem_singleton, Draft.Hashes, responseSite, render_str]
  exact and_iff_right hreads

variable {requestMessages : List NormalizedMessage}

theorem normalizedResponses_yields (hframes : 0 < rt.frames)
    (hrequest : loopMessages rt job none request "messages" chatRequestSite = (.ok requestMessages : Except PyError _))
    (hlist : (getWithDefault response "choices" (.list [])).Iterable)
    (hsites : dictSites (getWithDefault response "choices" (.list [])).elements chatResponseSite =
      [responseSite role text]) (htext : text ≠ []) :
    Yields (normalizedResponses rt job request response) (Encodes role ∧ Encodes text) [(role, text)] := by
  have hresponse := (loopMessages_yields rt job response "choices" chatResponseSite).of_iff
    ((and_iff_right hlist).trans (by rw [hsites, List.forall_mem_singleton, responseSite_yields hframes htext]))
  have hmessages : ((dictSites (getWithDefault response "choices" (.list [])).elements chatResponseSite).flatMap
      (Site.messages rt job)) = [NormalizedMessage.of rt job .response 0 role
        (indexedPath "response.choices" 0 ".message") { itemType := .openaiChatMessage, contentText := text }] := by
    rw [hsites, List.flatMap_singleton, Site.messages, responseSite_drafts htext, responseSite, render_str]
    rfl
  rw [hmessages] at hresponse
  unfold normalizedResponses normalizeOpenaiChat
  rw [hrequest]
  refine (hresponse.bind_pure.bind_pure (f := responsesOf)).congr Iff.rfl fun _ => ?_
  rw [responsesOf_withSequenceIndex, responsesOf_append, responsesOf_request hrequest]
  rfl

theorem document_sites (e : ChatExtractor) (toolCalls : List Go.Json) :
    getWithDefault (ofGoDict (e.document toolCalls)) "choices" (.list []) =
        .list [ofGo (.object [("index", .int 0), ("message", e.message toolCalls),
          ("finish_reason", .str e.sseFinishReason)])] ∧
      dictSites [ofGo (.object [("index", .int 0), ("message", e.message toolCalls),
          ("finish_reason", .str e.sseFinishReason)])] chatResponseSite =
        [responseSite e.sseRole (String.join e.sseParts)] := by
  constructor
  · rw [ChatExtractor.document, getWithDefault, ofGoDict, ofGo, Json.asDict, Option.getD_some, find_ofGoFields]
    simp [List.lookup, ofGo, ofGoItems]
  · simp only [dictSites, List.zipIdx_cons, List.zipIdx_nil, List.filterMap_cons, List.filterMap_nil, ofGo, Json.asDict,
      Option.bind_some, chatResponseSite, Dict.get, find_ofGoFields, ChatExtractor.message, getWithDefault]
    simp [List.lookup, ofGo, find_ofGoFields, responseSite, String.join]

theorem assembled_yields (hframes : 0 < rt.frames)
    (hrequest : loopMessages rt job none request "messages" chatRequestSite = (.ok requestMessages : Except PyError _))
    (e : ChatExtractor) (toolCalls : List Go.Json) (hparts : String.join e.sseParts ≠ "") :
    normalizedResponses rt job request (ofGoDict (e.document toolCalls)) =
      .ok [(Str.ofString e.sseRole, Str.ofString (String.join e.sseParts))] := by
  obtain ⟨hchoices, hsites⟩ := document_sites e toolCalls
  refine (normalizedResponses_yields hframes hrequest ?_ ?_ fun h => hparts ?_).ok
    ⟨encodes_ofString _, encodes_ofString _⟩
  · rw [hchoices]
    trivial
  · rw [hchoices]
    exact hsites
  · exact Str.ofString_injective h

theorem raw_yields (hframes : 0 < rt.frames)
    (hrequest : loopMessages rt job none request "messages" chatRequestSite = (.ok requestMessages : Except PyError _))
    {events : List Dict} (hevents : ∀ event ∈ events, IsChatEvent event)
    (hcontents : (contentsOf events).flatten ≠ []) :
    Yields (normalizedResponses rt job request (responseJsonFromSseEvents events))
      (Encodes (lastRole events) ∧ Encodes (contentsOf events).flatten)
      [(lastRole events, (contentsOf events).flatten)] := by
  have hparts : contentsOf events ≠ [] := fun h => hcontents (by rw [h]; rfl)
  have hdocument : responseJsonFromSseEvents events = [((("choices" : String) : Str), .list [.dict [("message",
      .dict [("role", .str (lastRole events)), ("content", .str (contentsOf events).flatten)])]])] := by
    rw [responseJsonFromSseEvents, raw_deltas hevents]
    simp [hparts, lastRole]
  rw [hdocument]
  exact normalizedResponses_yields hframes hrequest trivial rfl hcontents

end

/-! ## When the two agree -/

theorem encodes_flatten {parts : List Str} : Encodes parts.flatten ↔ ∀ part ∈ parts, Encodes part := by
  simp only [Encodes, List.mem_flatten]
  refine ⟨fun h part hpart c hc => h c ⟨part, hpart, hc⟩, ?_⟩
  rintro h c ⟨part, hpart, hc⟩
  exact h part hpart c hc

theorem assembleSSE_some_iff {payloads : List Go.Json}
    (hparts : String.join (payloads.foldl ChatExtractor.processSSE {}).sseParts ≠ "") :
    (∃ toolCalls, (payloads.foldl ChatExtractor.processSSE {}).assembleSSE =
        .ok (some ((payloads.foldl ChatExtractor.processSSE {}).document toolCalls))) ↔
      Numbered (toolIndices payloads) := by
  rw [← ChatExtractor.assembleSSE_isOk_iff]
  constructor
  · rintro ⟨toolCalls, h⟩
    rw [h]
    rfl
  · intro h
    obtain ⟨doc, hdoc⟩ : ∃ doc, (payloads.foldl ChatExtractor.processSSE {}).assembleSSE = .ok doc := by
      cases hassemble : (payloads.foldl ChatExtractor.processSSE {}).assembleSSE with
      | ok doc => exact ⟨doc, rfl⟩
      | error p =>
        rw [hassemble] at h
        cases h
    cases doc with
    | some doc =>
      obtain ⟨toolCalls, rfl⟩ := ChatExtractor.assembleSSE_some hdoc
      exact ⟨toolCalls, hdoc⟩
    | none =>
      refine absurd ?_ hparts
      unfold ChatExtractor.assembleSSE at hdoc
      split at hdoc
      · rename_i hnothing
        rw [hnothing.2.1]
        rfl
      · generalize ChatExtractor.toolCalls _ = toolCalls at hdoc
        cases toolCalls <;> cases hdoc

section

variable (rt : Runtime) (job : TraceCapturedJob) {request : Dict} {requestMessages : List NormalizedMessage}
  {events : List Dict}

/-- **Assembled and raw chat streams**: for a stream with a content, the worker has the same response messages from
both bodies if and only if the gateway can assemble it, the contents are Unicode texts, and the first role that is not
empty is the last role. -/
theorem chat_streams_normalize_alike_iff (hframes : 0 < rt.frames) (hevents : ∀ event ∈ events, IsChatEvent event)
    (hcontent : ∃ s ∈ contentsOf events, s ≠ [])
    (hrequest : loopMessages rt job none request "messages" chatRequestSite =
      (.ok requestMessages : Except PyError _)) :
    (∃ doc responses,
      ((payloads events).foldl ChatExtractor.processSSE {}).assembleSSE = .ok (some doc) ∧
      normalizedResponses rt job request (ofGoDict doc) = .ok responses ∧
      normalizedResponses rt job request (responseJsonFromSseEvents events) = .ok responses) ↔
    Numbered (toolIndices (payloads events)) ∧ (∀ s ∈ contentsOf events, Encodes s) ∧
      scrub (firstRole events) = lastRole events := by
  obtain ⟨hrole, htext⟩ := assembled_deltas hevents
  have hflatten : (contentsOf events).flatten ≠ [] := by
    obtain ⟨s, hs, hne⟩ := hcontent
    exact fun h => hne (List.flatten_eq_nil_iff.1 h s hs)
  have hparts : String.join ((payloads events).foldl ChatExtractor.processSSE {}).sseParts ≠ "" := by
    intro h
    rw [h] at htext
    exact hflatten (List.map_eq_nil_iff.1 htext.symm)
  have hraw := raw_yields hframes hrequest hevents hflatten
  rw [← encodes_flatten, ← scrub_eq_self_iff, ← assembleSSE_some_iff hparts]
  constructor
  · rintro ⟨doc, responses, hdoc, hassembled, hresponses⟩
    obtain ⟨toolCalls, rfl⟩ := ChatExtractor.assembleSSE_some hdoc
    rw [assembled_yields hframes hrequest _ _ hparts, hrole, htext] at hassembled
    obtain ⟨-, rfl⟩ := hraw.eq_of_ok hresponses
    have hsame := Except.ok.inj hassembled
    simp only [List.cons.injEq, Prod.mk.injEq, and_true] at hsame
    exact ⟨⟨toolCalls, hdoc⟩, hsame.2, hsame.1⟩
  · rintro ⟨⟨toolCalls, hdoc⟩, hcontents, hroles⟩
    refine ⟨_, _, hdoc, assembled_yields hframes hrequest _ _ hparts, ?_⟩
    rw [hrole, htext, hcontents, hroles]
    refine hraw.ok ⟨?_, scrub_eq_self_iff.1 hcontents⟩
    rw [← hroles, ← ofString_goString]
    exact encodes_ofString _

end

/-- A chunk with one choice. -/
def chunkOf (delta : Dict) : Dict := [("choices", .list [.dict [("index", .int 0), ("delta", .dict delta)]])]

def chatJob : TraceCapturedJob where
  traceId := "trace_1"
  routePattern := "/v1/chat/completions"
  protocolFamily := "openai_chat"
  captureMode := "raw_and_normalized"
  username := "ada"
  stream := true

theorem noRequest_messages : loopMessages (plainRuntime []) chatJob none [] "messages" chatRequestSite =
    (.ok [] : Except PyError _) := rfl

def roleFirst : List Dict :=
  [chunkOf [("role", .str "assistant"), ("content", .str [])], chunkOf [("content", .str "Hi")]]

theorem isChatEvent_roleFirst : ∀ event ∈ roleFirst, IsChatEvent event := by
  unfold roleFirst
  simp only [List.forall_mem_cons, List.not_mem_nil, false_imp_iff, implies_true, and_true]
  exact ⟨⟨rfl, rfl, by decide, by decide, by decide⟩, ⟨rfl, rfl, by decide, by decide, by decide⟩⟩

theorem chat_streams_normalize_alike_iff_roleFirst :
    ∃ doc responses,
      ((payloads roleFirst).foldl ChatExtractor.processSSE {}).assembleSSE = .ok (some doc) ∧
      normalizedResponses (plainRuntime []) chatJob [] (ofGoDict doc) = .ok responses ∧
      normalizedResponses (plainRuntime []) chatJob [] (responseJsonFromSseEvents roleFirst) = .ok responses :=
  (chat_streams_normalize_alike_iff (plainRuntime []) chatJob (by decide) isChatEvent_roleFirst
    ⟨Str.ofString "Hi", by decide, by decide⟩ noRequest_messages).2 ⟨by decide, by decide, by decide⟩

/-- A stream without a role. -/
def roleMissing : List Dict := [chunkOf [("content", .str "Hi")]]

/-- The message of a stream without a role has none in the assembled document, and `assistant` in the raw one. -/
theorem missing_role_differs : (∀ event ∈ roleMissing, IsChatEvent event) ∧
    (∃ doc, ((payloads roleMissing).foldl ChatExtractor.processSSE {}).assembleSSE = .ok (some doc) ∧
      normalizedResponses (plainRuntime []) chatJob [] (ofGoDict doc) = .ok [([], "Hi")]) ∧
    normalizedResponses (plainRuntime []) chatJob [] (responseJsonFromSseEvents roleMissing) =
      .ok [("assistant", "Hi")] := by
  have hevents : ∀ event ∈ roleMissing, IsChatEvent event := by
    unfold roleMissing
    simp only [List.forall_mem_cons, List.not_mem_nil, false_imp_iff, implies_true, and_true]
    exact ⟨rfl, rfl, by decide, by decide, by decide⟩
  refine ⟨hevents, ⟨_, rfl, assembled_yields (by decide) noRequest_messages _ [] (by decide)⟩, ?_⟩
  exact (raw_yields (by decide) noRequest_messages hevents (by decide)).ok ⟨by decide, by decide⟩

end AuditGateway.Streams
