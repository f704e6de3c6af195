import AuditGateway.Pipeline.Sse
import AuditGateway.Pipeline.WorkRelevance

/-!
# The judge

`LLMJudgeClient.judge` of `llm_judge.py`: the body of a response is read as JSON, the text of the first choice is read
as JSON again, without the fence that models put around it, and what it holds is checked and converted to a verdict.
Each of these steps has exceptions that the client turns into `LLMJudgeUnavailable`, and some that it does not expect.
-/

namespace AuditGateway.Pipeline

open AuditGateway.Python
open AuditGateway.Framework

/-! ## Floats -/

/-- A float, as far as it matters to be clamped. -/
inductive PyFloat
  | finite (q : ℚ)
  | nan
  | inf (negative : Bool)
deriving DecidableEq

namespace PyFloat

/-- `x < y`. -/
def lt : PyFloat → PyFloat → Bool
  | finite p, finite q => p < q
  | finite _, inf negative => !negative
  | inf negative, finite _ => negative
  | inf negative, inf negative' => negative && !negative'
  | _, _ => false

/-- `min(x, y)`, which is `x` unless `y` is less. -/
def min (x y : PyFloat) : PyFloat :=
  if y.lt x then y else x

/-- `max(x, y)`, which is `x` unless `y` is greater. -/
def max (x y : PyFloat) : PyFloat :=
  if x.lt y then y else x

theorem clamped (x : PyFloat) : ∃ q : ℚ, max (finite 0) (min (finite 1) x) = finite q ∧ 0 ≤ q ∧ q ≤ 1 := by
  have hzero : max (finite 0) (finite 1) = finite 1 := by
    rw [max, if_pos (by simp [lt])]
  cases x with
  | nan => exact ⟨1, hzero, zero_le_one, le_rfl⟩
  | inf negative =>
    cases negative with
    | true => exact ⟨0, rfl, le_rfl, zero_le_one⟩
    | false => exact ⟨1, hzero, zero_le_one, le_rfl⟩
  | finite q =>
    by_cases hone : q < 1
    · have hmin : min (finite 1) (finite q) = finite q := if_pos (by simpa [lt] using hone)
      rw [hmin]
      by_cases hpos : 0 < q
      · exact ⟨q, if_pos (by simpa [lt] using hpos), hpos.le, hone.le⟩
      · exact ⟨0, if_neg (by simpa [lt] using hpos), le_rfl, zero_le_one⟩
    · have hmin : min (finite 1) (finite q) = finite 1 := if_neg (by simpa [lt] using hone)
      rw [hmin]
      exact ⟨1, hzero, zero_le_one, le_rfl⟩

end PyFloat

/-! ## The client -/

/-- What the client uses of the interpreter and its libraries, beyond what the analysis does. -/
structure JudgeRuntime extends Runtime where
  /-- How `json.loads` decodes bytes, which it may refuse with a `UnicodeDecodeError`. -/
  decode : List UInt8 → Option Str
  /-- `repr(value)`, which raises if the value nests too deeply. -/
  reprOf : Json → Except PyError Str
  /-- The float with a `repr`. -/
  floatOf : Str → PyFloat
  /-- `float(text)`, which may be refused with a `ValueError`. -/
  parseFloat : Str → Option PyFloat
  /-- The exception of `response.json()`, as a text. -/
  bodyError : List UInt8 → Str
  /-- The exception of a response without a content, as a text. -/
  shapeError : Dict → Str
  /-- The `msg` of a `JSONDecodeError`. -/
  decodeErrorMsg : Str → Str
  reprOf_str : ∀ s, (reprOf (.str s)).isOk = true

/-- What the client raises: `LLMJudgeUnavailable`, or an exception that it does not expect. -/
inductive JudgeError
  | unavailable (errorType message : Str)
  | raised (e : PyError)
  | overflowError
deriving DecidableEq

def JudgeError.Unavailable : JudgeError → Prop
  | unavailable _ _ => True
  | _ => False

/-- The subclasses of `ValueError`. -/
def IsValueError (e : PyError) : Prop :=
  e = .valueError ∨ e = .unicodeDecodeError ∨ e = .unicodeEncodeError

instance (e : PyError) : Decidable (IsValueError e) :=
  inferInstanceAs (Decidable (_ ∨ _))

/-- A verdict as Python has it: nothing is known of its fields. -/
structure RawVerdict where
  decision : Str
  recommendedAction : Str
  confidence : PyFloat
  taskCategory : Str
  taskDomain : Str
  reason : Str
deriving DecidableEq

/-- `DECISIONS`. -/
def decisions : List Decision := [.workRelated, .nonWorkRelated, .needsReview, .unknown]

/-- `ACTIONS`. -/
def actions : List Action := [.allow, .alertNonWork, .reviewConflict, .recordOnly]

/-- `value[0]`, where it does not raise. -/
def firstItem : Json → Option Json
  | .list (v :: _) => some v
  | .str (c :: _) => some (.str [c])
  | _ => none

/-- `value[key]` for a text, where it does not raise. -/
def itemAt (key : Str) : Json → Option Json
  | .dict fields => Dict.find fields key
  | _ => none

def jsonFence : Str := "```"

/-- `json`, whatever the case of its letters is. -/
def isJsonLabel : Str → Bool
  | [j, s, o, n] =>
    [106, 74].contains j.val && [115, 83, 0x17F].contains s.val && [111, 79].contains o.val && [110, 78].contains n.val
  | _ => false

/-- `_unwrap_json_fence`. -/
def unwrapJsonFence (content : Str) : Str :=
  if 6 ≤ content.length ∧ jsonFence.isPrefixOf content ∧ jsonFence.isSuffixOf content then
    let inner := (content.drop 3).take (content.length - 6)
    Str.strip (if isJsonLabel (inner.take 4) then inner.drop 4 else inner)
  else content

section Client

variable (rt : JudgeRuntime)

/-- `_response_json`. -/
def responseJson (body : List UInt8) : Except JudgeError Dict :=
  match (rt.decode body).map rt.loads with
  | some (.value (.dict fields)) => .ok fields
  | some (.value _) => .error (.unavailable "invalid_response" "LLM judge response JSON must be an object")
  | some (.raises e) =>
    if IsValueError e then
      .error (.unavailable "invalid_response"
        (Str.ofString "LLM judge response was not valid JSON: " ++ rt.bodyError body))
    else .error (.raised e)
  | some .notJson | none =>
    .error (.unavailable "invalid_response"
      (Str.ofString "LLM judge response was not valid JSON: " ++ rt.bodyError body))

/-- `_extract_content`. -/
def extractContent (response : Dict) : Except JudgeError Str :=
  match (((response.find "choices").bind firstItem).bind (itemAt "message")).bind (itemAt "content") with
  | some (.str content) => .ok content
  | some _ => .error (.unavailable "invalid_response" "LLM judge response content must be a string")
  | none =>
    .error (.unavailable "invalid_response"
      (Str.ofString "LLM judge response shape was invalid: " ++ rt.shapeError response))

/-- The text that `_parse_json_object` reads. -/
def judgeBody (content : Str) : Str :=
  unwrapJsonFence content.strip

/-- `_parse_json_object`. -/
def parseJsonObject (content : Str) : Except JudgeError Dict :=
  match rt.loads (judgeBody content) with
  | .value (.dict fields) => .ok fields
  | .value _ =>
    .error (.unavailable "invalid_json" (Str.ofString "LLM judge response must be a JSON object; content_length=" ++
      Str.ofString (toString (judgeBody content).length)))
  | .notJson =>
    .error (.unavailable "invalid_json" (Str.ofString "LLM judge returned invalid JSON: " ++
      rt.decodeErrorMsg (judgeBody content) ++ Str.ofString "; content_length=" ++
      Str.ofString (toString (judgeBody content).length)))
  | .raises e => .error (.raised e)

/-- The least integer that rounds to more than the greatest float. -/
def floatBound : Nat := 2 ^ 1024 - 2 ^ 970

/-- `float(value)`. An integer is not rounded: that does not matter where it is clamped. -/
def toFloat : Json → Except JudgeError PyFloat
  | .bool b => .ok (.finite (if b then 1 else 0))
  | .int n => if n.natAbs < floatBound then .ok (.finite n) else .error .overflowError
  | .float repr => .ok (rt.floatOf repr)
  | .str s =>
    match rt.parseFloat s with
    | some x => .ok x
    | none => .error (.raised .valueError)
  | .null | .list _ | .dict _ => .error (.raised .typeError)

/-- `_clamp_float`. -/
def clampFloat (value : Json) (lower upper : PyFloat) : Except JudgeError PyFloat :=
  match toFloat rt value with
  | .ok numeric => .ok (lower.max (upper.min numeric))
  | .error (.raised .typeError) | .error (.raised .valueError) => .ok (lower.max (upper.min lower))
  | .error e => .error e

/-- `decision in VALID_DECISIONS and action in VALID_ACTIONS`: the action is looked up only if the decision is found. -/
def inVocabulary (decision action : Json) : Except PyError Bool := do
  let found ← decision.isIn (decisions.map (·.value))
  if found then action.isIn (actions.map (·.value)) else .ok false

/-- `VALID_DECISION_ACTIONS.get(decision, frozenset())`. -/
def validActions (decision : Json) : List Str :=
  (decisions.filter fun d => decision.isText d.value).map (·.action.value)

/-- The exception of a decision and an action that are refused, with `repr` of both. -/
def invalidResult (what : String) (decision action : Json) : Except JudgeError RawVerdict := do
  let decisionRepr ← (rt.reprOf decision).mapError .raised
  let actionRepr ← (rt.reprOf action).mapError .raised
  .error (.unavailable "invalid_result" (Str.ofString "LLM judge returned " ++ Str.ofString what ++
    Str.ofString " decision/action: decision=" ++ decisionRepr ++ Str.ofString " action=" ++ actionRepr))

/-- `str(raw.get(key) or default)`. -/
def textOr (raw : Dict) (key default : Str) : Except JudgeError Str :=
  (rt.toStr (if (raw.get key).truthy then raw.get key else .str default)).mapError .raised

/-- The verdict of a decision and an action that have been checked. -/
def convertVerdict (raw : Dict) (decision action : Str) : Except JudgeError RawVerdict := do
  let confidence ← clampFloat rt ((raw.find "confidence").getD (.float "0.7")) (.finite 0) (.finite 1)
  let taskCategory ← textOr rt raw "task_category" "unknown"
  let taskDomain ← textOr rt raw "task_domain" []
  let reason ← textOr rt raw "reason" []
  .ok { decision, recommendedAction := action, confidence, taskCategory, taskDomain, reason }

/-- `_build_verdict`. -/
def buildVerdict (raw : Dict) : Except JudgeError RawVerdict := do
  let decision := raw.get "decision"
  let action := raw.get "recommended_action"
  let legal ← (inVocabulary decision action).mapError .raised
  if !legal then invalidResult rt "illegal" decision action
  else
    let paired ← (action.isIn (validActions decision)).mapError .raised
    if !paired then invalidResult rt "mismatched" decision action
    else
      match decision, action with
      | .str d, .str a => convertVerdict rt raw d a
      -- Only a text is found in a set of texts.
      | _, _ => invalidResult rt "mismatched" decision action

/-- What comes back from the server. -/
inductive HttpOutcome
  | timeout (text : Str)
  | statusError (text : Str)
  | connectionError (text : Str)
  | ok (body : List UInt8)

/-- `LLMJudgeClient.judge`, from the response on. -/
def judge (timeoutSeconds : Str) : HttpOutcome → Except JudgeError RawVerdict
  | .timeout text =>
    .error (.unavailable "timeout" (Str.ofString "LLM judge timed out after " ++ timeoutSeconds ++
      Str.ofString "s: " ++ text))
  | .statusError text =>
    .error (.unavailable "http_error" (Str.ofString "LLM judge returned HTTP error: " ++ text))
  | .connectionError text =>
    .error (.unavailable "connection_error" (Str.ofString "LLM judge request failed: " ++ text))
  | .ok body => do
    let response ← responseJson rt body
    let content ← extractContent rt response
    let raw ← parseJsonObject rt content
    buildVerdict rt raw

end Client

variable {rt : JudgeRuntime} {raw : Dict} {v : RawVerdict}

/-! ## What is returned -/

/-- A verdict with its invariant, as Python has it. -/
def Verdict.toRaw (x : Verdict) : RawVerdict where
  decision := x.decision.value
  recommendedAction := x.recommendedAction.value
  confidence := .finite x.confidence
  taskCategory := x.taskCategory
  taskDomain := x.taskDomain
  reason := x.reason

theorem mem_decisions (d : Decision) : d ∈ decisions := by
  cases d <;> decide

theorem mem_actions (a : Action) : a ∈ actions := by
  cases a <;> decide

variable {value : Json}

theorem isText_iff {text : Str} : value.isText text = true ↔ value = .str text := by
  cases value <;> simp [Json.isText]

theorem any_isText_iff {texts : List Str} :
    texts.any value.isText = true ↔ ∃ text ∈ texts, value = .str text := by
  simp only [List.any_eq_true, isText_iff]

theorem isIn_validActions_iff {decision action : Json} :
    (validActions decision).any action.isText = true ↔
      ∃ d : Decision, decision = .str d.value ∧ action = .str d.action.value := by
  rw [any_isText_iff]
  constructor
  · rintro ⟨text, htext, rfl⟩
    obtain ⟨d, hd, rfl⟩ := List.mem_map.1 htext
    exact ⟨d, isText_iff.1 (List.mem_filter.1 hd).2, rfl⟩
  · rintro ⟨d, hdecision, haction⟩
    exact ⟨_, List.mem_map.2 ⟨d, List.mem_filter.2 ⟨mem_decisions d, isText_iff.2 hdecision⟩, rfl⟩, haction⟩

/-- `decision` is one of the vocabulary. -/
def LegalDecision (decision : Json) : Prop := ∃ d : Decision, decision = .str d.value

/-- `action` is one of the vocabulary. -/
def LegalAction (action : Json) : Prop := ∃ a : Action, action = .str a.value

/-- The action is the one of the decision. -/
def Paired (decision action : Json) : Prop := ∃ d : Decision, decision = .str d.value ∧ action = .str d.action.value

theorem any_decisions_iff {decision : Json} :
    (decisions.map (·.value)).any decision.isText = true ↔ LegalDecision decision := by
  simp only [List.any_map, List.any_eq_true, Function.comp_apply, isText_iff]
  exact ⟨fun ⟨d, _, h⟩ => ⟨d, h⟩, fun ⟨d, h⟩ => ⟨d, mem_decisions d, h⟩⟩

theorem any_actions_iff {action : Json} :
    (actions.map (·.value)).any action.isText = true ↔ LegalAction action := by
  simp only [List.any_map, List.any_eq_true, Function.comp_apply, isText_iff]
  exact ⟨fun ⟨a, _, h⟩ => ⟨a, h⟩, fun ⟨a, h⟩ => ⟨a, mem_actions a, h⟩⟩

/-! ## What is raised -/

theorem mapError_eq_ok {α : Type} {x : Except PyError α} {a : α} :
    x.mapError JudgeError.raised = .ok a ↔ x = .ok a := by
  cases x <;> simp [Except.mapError]

theorem raisesOnly_mapError {α : Type} {x : Except PyError α} :
    RaisesOnly JudgeError.Unavailable (x.mapError .raised) ↔ x.isOk = true := by
  cases x <;> simp [Except.mapError, JudgeError.Unavailable, Except.isOk, Except.toBool]

theorem mapError_returns {α : Type} {x : Except PyError α}
    (h : RaisesOnly JudgeError.Unavailable (x.mapError .raised)) : ∃ a, x.mapError JudgeError.raised = .ok a := by
  cases x with
  | ok a => exact ⟨a, rfl⟩
  | error e => exact absurd (h _ rfl) id

theorem inVocabulary_yields (decision action : Json) :
    Yields (inVocabulary decision action) (decision.Hashable ∧ (LegalDecision decision → action.Hashable))
      ((decisions.map (·.value)).any decision.isText && (actions.map (·.value)).any action.isText) := by
  refine (decision.isIn_yields _).bind fun _ => ?_
  by_cases hlegal : (decisions.map (·.value)).any decision.isText = true
  · rw [hlegal, Bool.true_and, if_pos rfl]
    exact (action.isIn_yields _).of_iff (by simp [any_decisions_iff.1 hlegal])
  · rw [if_neg hlegal, Bool.eq_false_iff.2 hlegal, Bool.false_and]
    exact (Yields.pure false).of_iff (by simp [mt any_decisions_iff.2 hlegal])

theorem responseJson_raisesOnly {body : List UInt8} :
    RaisesOnly JudgeError.Unavailable (responseJson rt body) ↔
      ∀ text, rt.decode body = some text → ∀ e, rt.loads text = .raises e → IsValueError e := by
  unfold responseJson
  cases hdecode : rt.decode body with
  | none => simp [JudgeError.Unavailable]
  | some text =>
    cases hloads : rt.loads text with
    | value value => cases value <;> simp [hloads, JudgeError.Unavailable]
    | notJson => simp [hloads, JudgeError.Unavailable]
    | raises e => by_cases he : IsValueError e <;> simp [hloads, he, JudgeError.Unavailable]

theorem extractContent_raisesOnly {response : Dict} :
    RaisesOnly JudgeError.Unavailable (extractContent rt response) := by
  unfold extractContent
  split
  · simp
  · simp [JudgeError.Unavailable]
  · simp [JudgeError.Unavailable]

theorem parseJsonObject_raisesOnly {content : Str} :
    RaisesOnly JudgeError.Unavailable (parseJsonObject rt content) ↔ ∀ e, rt.loads (judgeBody content) ≠ .raises e := by
  unfold parseJsonObject
  split <;> simp_all [JudgeError.Unavailable]

theorem parseJsonObject_eq_ok {content : Str} :
    parseJsonObject rt content = .ok raw ↔ rt.loads (judgeBody content) = .value (.dict raw) := by
  unfold parseJsonObject
  split <;> simp_all

theorem clampFloat_raisesOnly {lower upper : PyFloat} :
    RaisesOnly JudgeError.Unavailable (clampFloat rt value lower upper) ↔
      ∀ n, value = .int n → n.natAbs < floatBound := by
  cases value with
  | int n =>
    by_cases hn : n.natAbs < floatBound <;> simp [clampFloat, toFloat, hn, JudgeError.Unavailable]
  | str s => cases hs : rt.parseFloat s <;> simp [clampFloat, toFloat, hs]
  | _ => simp [clampFloat, toFloat]

theorem textOr_raisesOnly {key default : Str} :
    RaisesOnly JudgeError.Unavailable (textOr rt raw key default) ↔
      ((raw.get key).truthy = true → rt.Renders (raw.get key)) := by
  rw [textOr, raisesOnly_mapError]
  by_cases htruthy : (raw.get key).truthy = true
  · simp [htruthy, Runtime.Renders]
  · simp [htruthy, rt.toStr_str, Except.isOk, Except.toBool]

theorem textOr_returns {key default : Str} (h : RaisesOnly JudgeError.Unavailable (textOr rt raw key default)) :
    ∃ text, textOr rt raw key default = .ok text :=
  mapError_returns h

theorem clampFloat_returns {lower upper : PyFloat}
    (h : RaisesOnly JudgeError.Unavailable (clampFloat rt value lower upper)) :
    ∃ x, clampFloat rt value lower upper = .ok x := by
  unfold clampFloat at h ⊢
  split at h
  · exact ⟨_, rfl⟩
  · exact ⟨_, rfl⟩
  · exact ⟨_, rfl⟩
  · rename_i e _ _ he
    have hunavailable := h e rfl
    -- The conversion itself raises nothing that the client raises.
    cases value with
    | int n =>
      by_cases hn : n.natAbs < floatBound <;> simp [toFloat, hn] at he
      rw [← he] at hunavailable
      exact absurd hunavailable id
    | str s => cases hs : rt.parseFloat s <;> simp_all [toFloat]
    | _ => simp_all [toFloat]

theorem invalidResult_raisesOnly {what : String} {decision action : Json} :
    RaisesOnly JudgeError.Unavailable (invalidResult rt what decision action) ↔
      (rt.reprOf decision).isOk = true ∧ (rt.reprOf action).isOk = true := by
  unfold invalidResult
  rw [RaisesOnly.bind_iff_and mapError_returns, raisesOnly_mapError]
  intro decisionRepr _
  rw [RaisesOnly.bind_iff_and mapError_returns, raisesOnly_mapError, and_true]
  intro actionRepr _
  simp [JudgeError.Unavailable]

/-- The keys of the texts. -/
def textKeys : List Str := ["task_category", "task_domain", "reason"]

theorem convertVerdict_raisesOnly {decision action : Str} :
    RaisesOnly JudgeError.Unavailable (convertVerdict rt raw decision action) ↔
      (∀ n, raw.find "confidence" = some (.int n) → n.natAbs < floatBound) ∧
        ∀ key ∈ textKeys, (raw.get key).truthy = true → rt.Renders (raw.get key) := by
  have hconfidence : (∀ n, (raw.find "confidence").getD (.float "0.7") = .int n → n.natAbs < floatBound) ↔
      ∀ n, raw.find "confidence" = some (.int n) → n.natAbs < floatBound := by
    cases raw.find "confidence" <;> simp
  have htexts (P : Str → Prop) : (∀ key ∈ textKeys, P key) ↔ P "task_category" ∧ P "task_domain" ∧ P "reason" := by
    simp [textKeys]
  unfold convertVerdict
  rw [htexts, RaisesOnly.bind_iff_and clampFloat_returns, clampFloat_raisesOnly, hconfidence]
  intro confidence _
  rw [RaisesOnly.bind_iff_and textOr_returns, textOr_raisesOnly]
  intro taskCategory _
  rw [RaisesOnly.bind_iff_and textOr_returns, textOr_raisesOnly]
  intro taskDomain _
  rw [RaisesOnly.bind_iff_and textOr_returns, textOr_raisesOnly, and_true]
  intro reason _
  simp

/-- What the checks and the conversions need of the object that the model has written. -/
structure Convertible (rt : JudgeRuntime) (raw : Dict) : Prop where
  decision : (raw.get "decision").Hashable
  action : LegalDecision (raw.get "decision") → (raw.get "recommended_action").Hashable
  reprs : ¬ (LegalDecision (raw.get "decision") ∧ LegalAction (raw.get "recommended_action")) →
    (rt.reprOf (raw.get "decision")).isOk = true ∧ (rt.reprOf (raw.get "recommended_action")).isOk = true
  confidence : Paired (raw.get "decision") (raw.get "recommended_action") →
    ∀ n, raw.find "confidence" = some (.int n) → n.natAbs < floatBound
  texts : Paired (raw.get "decision") (raw.get "recommended_action") →
    ∀ key ∈ textKeys, (raw.get key).truthy = true → rt.Renders (raw.get key)

theorem Paired.legal {decision action : Json} (h : Paired decision action) :
    LegalDecision decision ∧ LegalAction action := by
  obtain ⟨d, hdecision, haction⟩ := h
  exact ⟨⟨d, hdecision⟩, ⟨d.action, haction⟩⟩

theorem buildVerdict_eq (rt : JudgeRuntime) (hdecision : (raw.get "decision").Hashable)
    (haction : LegalDecision (raw.get "decision") → (raw.get "recommended_action").Hashable) :
    (∃ d : Decision, raw.get "decision" = .str d.value ∧ raw.get "recommended_action" = .str d.action.value ∧
        buildVerdict rt raw = convertVerdict rt raw d.value d.action.value) ∨
      ¬ Paired (raw.get "decision") (raw.get "recommended_action") ∧
        ∃ what, buildVerdict rt raw = invalidResult rt what (raw.get "decision") (raw.get "recommended_action") := by
  have hfound := (inVocabulary_yields (raw.get "decision") (raw.get "recommended_action")).ok ⟨hdecision, haction⟩
  have hfound_iff : ((decisions.map (·.value)).any (raw.get "decision").isText &&
      (actions.map (·.value)).any (raw.get "recommended_action").isText) = true ↔
      LegalDecision (raw.get "decision") ∧ LegalAction (raw.get "recommended_action") := by
    rw [Bool.and_eq_true, any_decisions_iff, any_actions_iff]
  unfold buildVerdict
  dsimp only
  rw [hfound]
  by_cases hlegal : LegalDecision (raw.get "decision") ∧ LegalAction (raw.get "recommended_action")
  · rw [hfound_iff.2 hlegal]
    have hpaired := ((raw.get "recommended_action").isIn_yields (validActions (raw.get "decision"))).ok
      (haction hlegal.1)
    by_cases hpair : Paired (raw.get "decision") (raw.get "recommended_action")
    · left
      rw [isIn_validActions_iff.2 hpair] at hpaired
      obtain ⟨d, hd, ha⟩ := hpair
      refine ⟨d, hd, ha, ?_⟩
      rw [hpaired, hd, ha]
      rfl
    · refine .inr ⟨hpair, "mismatched", ?_⟩
      rw [hpaired, Bool.eq_false_iff.2 (mt isIn_validActions_iff.1 hpair)]
      rfl
  · rw [Bool.eq_false_iff.2 (mt hfound_iff.1 hlegal)]
    exact .inr ⟨fun hpair => hlegal hpair.legal, "illegal", rfl⟩

theorem buildVerdict_raisesOnly :
    RaisesOnly JudgeError.Unavailable (buildVerdict rt raw) ↔ Convertible rt raw := by
  have hvocabulary : RaisesOnly JudgeError.Unavailable (buildVerdict rt raw) →
      (raw.get "decision").Hashable ∧
        (LegalDecision (raw.get "decision") → (raw.get "recommended_action").Hashable) := by
    intro h
    have hreturns := mapError_returns (RaisesOnly.bind_iff.1 h).1
    obtain ⟨found, hfound⟩ := hreturns
    exact (inVocabulary_yields _ _).returns_iff.1 ⟨found, mapError_eq_ok.1 hfound⟩
  constructor
  · intro h
    obtain ⟨hdecision, haction⟩ := hvocabulary h
    obtain ⟨d, hd, ha, heq⟩ | ⟨hpair, what, heq⟩ := buildVerdict_eq rt hdecision haction
    · rw [heq, convertVerdict_raisesOnly] at h
      refine ⟨hdecision, haction, fun hlegal => ?_, fun _ => h.1, fun _ => h.2⟩
      exact absurd ⟨⟨d, hd⟩, d.action, ha⟩ hlegal
    · rw [heq, invalidResult_raisesOnly] at h
      exact ⟨hdecision, haction, fun _ => h, fun hpaired => absurd hpaired hpair, fun hpaired => absurd hpaired hpair⟩
  · intro h
    obtain ⟨d, hd, ha, heq⟩ | ⟨hpair, what, heq⟩ := buildVerdict_eq rt h.decision h.action
    · rw [heq, convertVerdict_raisesOnly]
      exact ⟨h.confidence ⟨d, hd, ha⟩, h.texts ⟨d, hd, ha⟩⟩
    · rw [heq, invalidResult_raisesOnly]
      by_cases hlegal : LegalDecision (raw.get "decision") ∧ LegalAction (raw.get "recommended_action")
      · -- Both are texts.
        obtain ⟨⟨d, hd⟩, a, ha⟩ := hlegal
        rw [hd, ha]
        exact ⟨rt.reprOf_str _, rt.reprOf_str _⟩
      · exact h.reprs hlegal

/-! ## The contract -/

theorem clampFloat_mem {x : PyFloat} (h : clampFloat rt value (.finite 0) (.finite 1) = .ok x) :
    ∃ q : ℚ, x = .finite q ∧ 0 ≤ q ∧ q ≤ 1 := by
  unfold clampFloat at h
  split at h
  · obtain rfl := Except.ok.inj h
    exact PyFloat.clamped _
  · obtain rfl := Except.ok.inj h
    exact PyFloat.clamped _
  · obtain rfl := Except.ok.inj h
    exact PyFloat.clamped _
  · cases h

theorem convertVerdict_ok {d : Decision} (h : convertVerdict rt raw d.value d.action.value = .ok v) :
    ∃ x : Verdict, v = x.toRaw := by
  obtain ⟨confidence, hconfidence, h⟩ := bind_eq_ok_iff.1 h
  obtain ⟨taskCategory, -, h⟩ := bind_eq_ok_iff.1 h
  obtain ⟨taskDomain, -, h⟩ := bind_eq_ok_iff.1 h
  obtain ⟨reason, -, h⟩ := bind_eq_ok_iff.1 h
  obtain ⟨q, rfl, hq⟩ := clampFloat_mem hconfidence
  obtain rfl := Except.ok.inj h
  exact ⟨⟨d, d.action, q, taskCategory, taskDomain, reason, rfl, hq⟩, rfl⟩

theorem buildVerdict_ok (h : buildVerdict rt raw = .ok v) : ∃ x : Verdict, v = x.toRaw := by
  obtain ⟨found, hfound, -⟩ := bind_eq_ok_iff.1 h
  obtain ⟨hdecision, haction⟩ := (inVocabulary_yields _ _).returns_iff.1 ⟨found, mapError_eq_ok.1 hfound⟩
  obtain ⟨d, -, -, heq⟩ | ⟨-, what, heq⟩ := buildVerdict_eq rt hdecision haction
  · exact convertVerdict_ok (heq ▸ h)
  · -- The other outcome is always an exception.
    rw [heq] at h
    obtain ⟨_, -, h⟩ := bind_eq_ok_iff.1 h
    obtain ⟨_, -, h⟩ := bind_eq_ok_iff.1 h
    cases h

theorem judge_verdict {timeoutSeconds : Str} {outcome : HttpOutcome} (h : judge rt timeoutSeconds outcome = .ok v) :
    ∃ x : Verdict, v = x.toRaw := by
  cases outcome with
  | ok body =>
    obtain ⟨response, -, h⟩ := bind_eq_ok_iff.1 h
    obtain ⟨content, -, h⟩ := bind_eq_ok_iff.1 h
    obtain ⟨raw, -, h⟩ := bind_eq_ok_iff.1 h
    exact buildVerdict_ok h
  | _ => cases h

/-- The class of an exception. -/
def errorClass : PyError → Str
  | .unicodeDecodeError => "UnicodeDecodeError"
  | .unicodeEncodeError => "UnicodeEncodeError"
  | .typeError => "TypeError"
  | .valueError => "ValueError"
  | .recursionError => "RecursionError"
  | .dataError => "DataError"
  | .fileNotFoundError => "FileNotFoundError"
  | .programLimitExceeded => "ProgramLimitExceeded"
  | .judgeUnavailable errorType => errorType

/-- `getattr(exc, "error_type", exc.__class__.__name__)`. -/
def JudgeError.errorType : JudgeError → Str
  | unavailable errorType _ => errorType
  | raised e => errorClass e
  | overflowError => "OverflowError"

/-- A client with a server is a judge, as the classification sees one. -/
theorem exists_judge (rt : JudgeRuntime) (timeoutSeconds : Str) (server : LlmBundle → HttpOutcome) :
    ∃ llmJudge : Judge, ∀ bundle,
      (judge rt timeoutSeconds (server bundle)).mapError JudgeError.errorType =
        (llmJudge bundle).map Verdict.toRaw := by
  have hbundle : ∀ bundle, ∃ answer : Except Str Verdict,
      (judge rt timeoutSeconds (server bundle)).mapError JudgeError.errorType = answer.map Verdict.toRaw := by
    intro bundle
    cases hjudge : judge rt timeoutSeconds (server bundle) with
    | error e => exact ⟨.error e.errorType, rfl⟩
    | ok v =>
      obtain ⟨x, rfl⟩ := judge_verdict hjudge
      exact ⟨.ok x, rfl⟩
  exact ⟨fun bundle => (hbundle bundle).choose, fun bundle => (hbundle bundle).choose_spec⟩

/-- What the client needs of a body: it can be read, as far as `ValueError` does not say why not; so can the content,
where there is one, with `JSONDecodeError` only; and if the content is an object it can be checked and converted. -/
structure Judgeable (rt : JudgeRuntime) (body : List UInt8) : Prop where
  bodyLoads : ∀ text, rt.decode body = some text → ∀ e, rt.loads text = .raises e → IsValueError e
  contentLoads : ∀ response content, responseJson rt body = .ok response → extractContent rt response = .ok content →
    ∀ e, rt.loads (judgeBody content) ≠ .raises e
  convertible : ∀ response content raw, responseJson rt body = .ok response → extractContent rt response = .ok content →
    rt.loads (judgeBody content) = .value (.dict raw) → Convertible rt raw

theorem judge_raisesOnly (timeoutSeconds : Str) {body : List UInt8} :
    RaisesOnly JudgeError.Unavailable (judge rt timeoutSeconds (.ok body)) ↔ Judgeable rt body := by
  show RaisesOnly JudgeError.Unavailable (responseJson rt body >>= _) ↔ _
  simp only [RaisesOnly.bind_iff, responseJson_raisesOnly, extractContent_raisesOnly, true_and,
    parseJsonObject_raisesOnly, parseJsonObject_eq_ok, buildVerdict_raisesOnly]
  constructor
  · rintro ⟨hbody, h⟩
    exact ⟨hbody, fun response content hr hc => (h response hr content hc).1,
      fun response content raw hr hc hraw => (h response hr content hc).2 raw hraw⟩
  · rintro ⟨hbody, hcontent, hraw⟩
    exact ⟨hbody, fun response hr content hc => ⟨hcontent response content hr hc, fun raw =>
      hraw response content raw hr hc⟩⟩

/-- The client returns a verdict with its invariant, or raises `LLMJudgeUnavailable`, exactly if nothing in the body
makes a conversion raise what is not caught. -/
theorem judge_contract_iff (rt : JudgeRuntime) (timeoutSeconds : Str) (body : List UInt8) :
    ((∃ x : Verdict, judge rt timeoutSeconds (.ok body) = .ok x.toRaw) ∨
        ∃ errorType message, judge rt timeoutSeconds (.ok body) = .error (.unavailable errorType message)) ↔
      Judgeable rt body := by
  rw [← judge_raisesOnly timeoutSeconds]
  cases hjudge : judge rt timeoutSeconds (.ok body) with
  | ok v =>
    obtain ⟨x, rfl⟩ := judge_verdict hjudge
    exact ⟨fun _ => RaisesOnly.ok_iff _ |>.2 trivial, fun _ => .inl ⟨x, rfl⟩⟩
  | error e =>
    rw [RaisesOnly.error_iff]
    cases e <;> simp [JudgeError.Unavailable]

/-- A client that reads ASCII, and reads some documents as JSON. -/
def plainJudgeRuntime (documents : List (Str × Json)) : JudgeRuntime where
  toRuntime := plainRuntime documents
  decode body := some (body.map fun b => Fin.ofNat _ b.toNat)
  reprOf _ := .ok []
  floatOf _ := .finite 0
  parseFloat _ := none
  bodyError _ := []
  shapeError _ := []
  decodeErrorMsg _ := []
  reprOf_str _ := rfl

/-- A model that writes a list where the decision is expected. -/
def listedDecision : Str := "\x7b\"decision\":[]\x7d"

def listedDecisionResponse : Str :=
  "\x7b\"choices\":[\x7b\"message\":\x7b\"content\":\"\x7b\\\"decision\\\":[]\x7d\"\x7d\x7d]\x7d"

def listedDecisionRuntime : JudgeRuntime :=
  plainJudgeRuntime
    [(listedDecision, .dict [("decision", .list [])]),
     (listedDecisionResponse,
     .dict [("choices", .list [.dict [("message", .dict [("content", .str listedDecision)])]])])]

/-- A list has no hash: the `TypeError` of the lookup is not caught. -/
theorem listed_decision_escapes :
    judge listedDecisionRuntime "30.0" (.ok (bytes listedDecisionResponse)) = .error (.raised .typeError) := by
  rfl

end AuditGateway.Pipeline
