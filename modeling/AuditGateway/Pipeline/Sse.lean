import AuditGateway.Pipeline.Message

/-!
# JSON documents and event streams in a body

`_load_json_object` and `_load_sse_json_events` of `normalizers.py`, which read a
body as one JSON object or as a stream of them, and
`_response_json_from_sse_events`, which puts the deltas of a stream together.
A text that is not JSON is no error, but `json.loads` can raise otherwise.
-/

namespace AuditGateway.Pipeline

open AuditGateway.Framework AuditGateway.Python

/-- `json.loads` returns, or raises `JSONDecodeError`. -/
def Loads (rt : Runtime) (s : Str) : Prop :=
  match rt.loads s with
  | .raises _ => False
  | _ => True

/-- The object that a text is, or else the empty one. -/
def dictOf (rt : Runtime) (s : Str) : Dict :=
  match rt.loads s with
  | .value (.dict d) => d
  | _ => []

/-- `_load_json_dict`. -/
def loadJsonDict (rt : Runtime) (value : Str) : Except PyError Dict :=
  match rt.loads value with
  | .value (.dict d) => .ok d
  | .value _ => .ok []
  | .notJson => .ok []
  | .raises e => .error e

/-- `_load_json_object`. -/
def loadJsonObject (rt : Runtime) (body : Str) : Except PyError Dict :=
  if body = [] then .ok [] else loadJsonDict rt body

theorem loadJsonDict_yields (rt : Runtime) (s : Str) : Yields (loadJsonDict rt s) (Loads rt s) (dictOf rt s) := by
  unfold loadJsonDict Loads dictOf
  cases rt.loads s with
  | value v => cases v <;> exact Yields.pure _
  | notJson => exact Yields.pure _
  | raises e => exact Yields.throw e _

/-- The object that a body is. -/
def bodyDict (rt : Runtime) (body : Str) : Dict :=
  if body = [] then [] else dictOf rt body

theorem loadJsonObject_yields (rt : Runtime) (body : Str) :
    Yields (loadJsonObject rt body) (body ≠ [] → Loads rt body) (bodyDict rt body) := by
  unfold loadJsonObject bodyDict
  split
  · rename_i h
    exact (Yields.pure []).of_iff (by simp [h])
  · rename_i h
    exact (loadJsonDict_yields rt body).of_iff (by simp [h])

/-! ## Events -/

def doneMark : Str := "[DONE]"

/-- The loop of `_load_sse_event_data` over the lines of an event. -/
def loadSseLines (rt : Runtime) (events : List Dict) : List Str → Except PyError (List Dict)
  | [] => .ok events
  | line :: lines =>
    if line = doneMark then loadSseLines rt events lines
    else do
      let loaded ← loadJsonDict rt line
      if loaded = [] then return []
      loadSseLines rt (events ++ [loaded]) lines

/-- `_load_sse_event_data`. -/
def loadSseEventData (rt : Runtime) (dataLines : List Str) : Except PyError (List Dict) := do
  let loaded ← loadJsonDict rt (Str.join "\n" dataLines)
  if loaded ≠ [] then return [loaded]
  loadSseLines rt [] dataLines

/-- `_append_sse_event`. -/
def appendSseEvent (rt : Runtime) (events : List Dict) (dataLines : List Str) : Except PyError (List Dict) := do
  if dataLines = [] ∨ dataLines = [doneMark] then return events
  return events ++ (← loadSseEventData rt dataLines)

/-- The loop of `_load_sse_json_events` over the lines of a body. -/
def loadSseEventsFrom (rt : Runtime) (events : List Dict) (dataLines : List Str) :
    List Str → Except PyError (List Dict)
  | [] => appendSseEvent rt events dataLines
  | rawLine :: lines =>
    if rawLine.strip = [] then do
      let events ← appendSseEvent rt events dataLines
      loadSseEventsFrom rt events [] lines
    else if rawLine.strip.startsWith "data:" then
      loadSseEventsFrom rt events (dataLines ++ [(rawLine.strip.removePre "data:").strip]) lines
    else loadSseEventsFrom rt events dataLines lines

/-- `_load_sse_json_events`. -/
def loadSseJsonEvents (rt : Runtime) (body : Str) : Except PyError (List Dict) :=
  loadSseEventsFrom rt [] [] body.splitlines

/-! ## What the reading needs and gives -/

/-- The lines of an event that are loaded one by one, up to the first that is no object. -/
def lineAttempts (rt : Runtime) : List Str → List Str
  | [] => []
  | line :: lines =>
    if line = doneMark then lineAttempts rt lines
    else line :: if dictOf rt line = [] then [] else lineAttempts rt lines

/-- The objects of the lines, or nothing if one of them is no object. -/
def lineEvents (rt : Runtime) (events : List Dict) : List Str → List Dict
  | [] => events
  | line :: lines =>
    if line = doneMark then lineEvents rt events lines
    else if dictOf rt line = [] then [] else lineEvents rt (events ++ [dictOf rt line]) lines

/-- The texts of an event that are given to `json.loads`. -/
def eventAttempts (rt : Runtime) (dataLines : List Str) : List Str :=
  if dataLines = [] ∨ dataLines = [doneMark] then []
  else
    Str.join "\n" dataLines ::
      if dictOf rt (Str.join "\n" dataLines) ≠ [] then [] else lineAttempts rt dataLines

/-- The objects of an event. -/
def eventDicts (rt : Runtime) (dataLines : List Str) : List Dict :=
  if dataLines = [] ∨ dataLines = [doneMark] then []
  else
    if dictOf rt (Str.join "\n" dataLines) ≠ [] then [dictOf rt (Str.join "\n" dataLines)]
    else lineEvents rt [] dataLines

/-- The data lines of the events, which blank lines separate. -/
def dataGroups (dataLines : List Str) : List Str → List (List Str)
  | [] => [dataLines]
  | rawLine :: lines =>
    if rawLine.strip = [] then dataLines :: dataGroups [] lines
    else if rawLine.strip.startsWith "data:" then
      dataGroups (dataLines ++ [(rawLine.strip.removePre "data:").strip]) lines
    else dataGroups dataLines lines

section

variable (rt : Runtime)

theorem loadSseLines_yields (events : List Dict) (lines : List Str) :
    Yields (loadSseLines rt events lines) (∀ s ∈ lineAttempts rt lines, Loads rt s)
      (lineEvents rt events lines) := by
  induction lines generalizing events with
  | nil => exact (Yields.pure events).of_iff (by simp [lineAttempts])
  | cons line lines ih =>
    rw [loadSseLines, lineAttempts, lineEvents]
    split
    · exact ih events
    · refine ((loadJsonDict_yields rt line).bind fun _ => ?_).of_iff List.forall_mem_cons.symm
      split
      · exact (Yields.pure []).of_iff (by simp)
      · exact ih _

theorem appendSseEvent_yields (events : List Dict) (dataLines : List Str) :
    Yields (appendSseEvent rt events dataLines) (∀ s ∈ eventAttempts rt dataLines, Loads rt s)
      (events ++ eventDicts rt dataLines) := by
  unfold appendSseEvent eventAttempts eventDicts
  split
  · exact (Yields.pure events).congr (by simp) (by simp)
  · refine Yields.bind_pure (f := fun x => events ++ x) ?_
    refine ((loadJsonDict_yields rt (Str.join "\n" dataLines)).bind fun _ => ?_).of_iff List.forall_mem_cons.symm
    split
    · exact (Yields.pure _).of_iff (by simp)
    · exact loadSseLines_yields rt [] dataLines

theorem loadSseEventsFrom_yields (events : List Dict) (dataLines lines : List Str) :
    Yields (loadSseEventsFrom rt events dataLines lines)
      (∀ s ∈ (dataGroups dataLines lines).flatMap (eventAttempts rt), Loads rt s)
      (events ++ (dataGroups dataLines lines).flatMap (eventDicts rt)) := by
  induction lines generalizing events dataLines with
  | nil => simpa [dataGroups, loadSseEventsFrom] using appendSseEvent_yields rt events dataLines
  | cons rawLine lines ih =>
    rw [loadSseEventsFrom, dataGroups]
    split
    · refine ((appendSseEvent_yields rt events dataLines).bind fun _ => ih _ []).congr ?_ fun _ => ?_
      · simp only [List.flatMap_cons, List.forall_mem_append]
      · rw [List.flatMap_cons, List.append_assoc]
    · split
      · exact ih events _
      · exact ih events dataLines

/-- The texts of the events of a body that are given to `json.loads`. -/
def sseAttempts (body : Str) : List Str :=
  (dataGroups [] body.splitlines).flatMap (eventAttempts rt)

/-- The events of a body. -/
def sseEvents (body : Str) : List Dict :=
  (dataGroups [] body.splitlines).flatMap (eventDicts rt)

theorem loadSseJsonEvents_yields (body : Str) :
    Yields (loadSseJsonEvents rt body) (∀ s ∈ sseAttempts rt body, Loads rt s) (sseEvents rt body) :=
  loadSseEventsFrom_yields rt [] [] body.splitlines

end

/-! ## The response of a stream -/

/-- The variables of `_response_json_from_sse_events`. -/
structure SseResponse where
  role : Str := "assistant"
  chatContentParts : List Str := []
  responsesContentParts : List Str := []

/-- The inner loop, for one choice of an event. -/
def SseResponse.choice (x : SseResponse) : Json → SseResponse
  | .dict choice =>
    match Dict.get choice "delta" with
    | .dict delta =>
      { x with
        role := (Dict.get delta "role").asStr.getD x.role
        chatContentParts := x.chatContentParts ++ (Dict.get delta "content").asStr.toList }
    | _ => x
  | _ => x

/-- The outer loop, for one event. -/
def SseResponse.event (x : SseResponse) (event : Dict) : SseResponse :=
  match (Dict.get event "type").isText "response.output_text.delta", Dict.get event "delta",
      Dict.get event "choices" with
  | true, .str delta, _ => { x with responsesContentParts := x.responsesContentParts ++ [delta] }
  | _, _, .list choices => choices.foldl SseResponse.choice x
  | _, _, _ => x

/-- `_response_json_from_sse_events`. -/
def responseJsonFromSseEvents (events : List Dict) : Dict :=
  let x := events.foldl SseResponse.event {}
  if x.responsesContentParts ≠ [] then
    [("output", .list [.dict [("type", .str "message"), ("role", .str x.role),
      ("content", .list [.dict [("type", .str "output_text"),
        ("text", .str x.responsesContentParts.flatten)]])]])]
  else if x.chatContentParts ≠ [] then
    [("choices", .list [.dict [("message",
      .dict [("role", .str x.role), ("content", .str x.chatContentParts.flatten)])]])]
  else []

/-! ## A plain interpreter -/

/-- An interpreter that reads the given documents as JSON and no others, with a digest that
has no collisions. -/
def plainRuntime (documents : List (Str × Json)) : Runtime where
  loads s :=
    match documents.find? fun document => document.1 = s with
    | some document => .value document.2
    | none => .notJson
  toStr := strOfText
  lower := id
  urlScheme _ := .ok (Str.ofString "https")
  sha256Hex data := data.map fun b => Fin.ofNat _ (256 + b.toNat)
  frames := 900
  toStr_str := strOfText_str
  lower_storable := id_storable
  sha256Hex_storable data := by
    refine storable_iff_forall.2 fun c hc => ?_
    obtain ⟨b, _, rfl⟩ := List.mem_map.1 hc
    have hb := b.toNat_lt
    have hval : (Fin.ofNat 0x110000 (256 + b.toNat)).val = 256 + b.toNat := by
      rw [Fin.val_ofNat, Nat.mod_eq_of_lt (by omega)]
    refine ⟨fun c hc => ?_, fun h => ?_⟩
    · rw [List.mem_singleton.1 hc, CodePoint.isSurrogate, hval]
      simp only [Bool.and_eq_false_iff, decide_eq_false_iff_not]
      omega
    · have h0 := congrArg Fin.val (List.mem_singleton.1 h)
      rw [hval, Fin.val_zero] at h0
      omega

end AuditGateway.Pipeline
