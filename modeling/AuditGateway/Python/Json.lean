import AuditGateway.Framework.Raising
import AuditGateway.Python.Text

/-!
# JSON values in Python

What `json.loads` returns, and the operations on such values that may raise: the
worker iterates over them and looks them up in sets without asking first what they
are. `Runtime` collects what is not modelled further of the interpreter and its
libraries, with what is assumed of it.
-/

namespace AuditGateway.Python

open AuditGateway.Framework

/-- The exceptions that the analysis of a trace can raise, by class. -/
inductive PyError
  | unicodeDecodeError
  | unicodeEncodeError
  | typeError
  | valueError
  | recursionError
  | dataError
  | fileNotFoundError
  | programLimitExceeded
  | judgeUnavailable (errorType : Str)
deriving DecidableEq, Repr

/-- A value from `json.loads`. A float is given by its `repr`. -/
inductive Json
  | null
  | bool (b : Bool)
  | int (n : Int)
  | float (repr : Str)
  | str (s : Str)
  | list (items : List Json)
  | dict (fields : List (Str × Json))

/-- The fields of a `dict`. -/
abbrev Dict := List (Str × Json)

/-- `d[key]`, where there is one. -/
def Dict.find (d : Dict) (key : Str) : Option Json :=
  (List.find? (fun field => field.1 == key) d).map Prod.snd

/-- `d.get(key)`, which is `None` for a key that is not there. -/
def Dict.get (d : Dict) (key : Str) : Json :=
  (d.find key).getD .null

/-- `key in d`. -/
def Dict.hasKey (d : Dict) (key : Str) : Bool :=
  (d.find key).isSome

namespace Json

/-- Whether `if value` takes the branch. -/
def truthy : Json → Bool
  | null => false
  | bool b => b
  | int n => n != 0
  | float repr => repr != ("0.0" : Str) && repr != ("-0.0" : Str)
  | str s => s != []
  | list items => !items.isEmpty
  | dict fields => !fields.isEmpty

/-- `value == text`. -/
def isText : Json → Str → Bool
  | str s, text => s == text
  | _, _ => false

def asStr : Json → Option Str
  | str s => some s
  | _ => none

def asDict : Json → Option Dict
  | dict fields => some fields
  | _ => none

/-- The values that have a hash, and so can be looked up in a set. -/
def Hashable : Json → Prop
  | list _ | dict _ => False
  | _ => True

instance (v : Json) : Decidable v.Hashable := by
  unfold Hashable
  split <;> infer_instance

/-- The values that a `for` loop can go through. -/
def Iterable : Json → Prop
  | str _ | list _ | dict _ => True
  | _ => False

instance (v : Json) : Decidable v.Iterable := by
  unfold Iterable
  split <;> infer_instance

/-- What a `for` loop goes through: items, keys or characters. -/
def elements : Json → List Json
  | str s => s.map fun c => str [c]
  | list items => items
  | dict fields => fields.map fun field => str field.1
  | _ => []

/-- `for x in value`. -/
def iterate (v : Json) : Except PyError (List Json) :=
  if v.Iterable then .ok v.elements else .error .typeError

/-- `value in {texts}`. -/
def isIn (v : Json) (texts : List Str) : Except PyError Bool :=
  if v.Hashable then .ok (texts.any v.isText) else .error .typeError

theorem iterate_yields (v : Json) : Yields v.iterate v.Iterable v.elements :=
  ⟨fun h => if_pos h, fun h => ⟨_, if_neg h⟩⟩

theorem isIn_yields (v : Json) (texts : List Str) : Yields (v.isIn texts) v.Hashable (texts.any v.isText) :=
  ⟨fun h => if_pos h, fun h => ⟨_, if_neg h⟩⟩

end Json

/-- What `json.loads` does with a text: it returns a value, raises `JSONDecodeError`, or
raises something else (`RecursionError` for deep nesting, `ValueError` for an integer of
too many digits). -/
inductive Loaded
  | value (v : Json)
  | notJson
  | raises (e : PyError)

/-- The interpreter and its libraries, as far as the worker's behaviour depends on them. -/
structure Runtime where
  /-- `json.loads`. -/
  loads : Str → Loaded
  /-- `str(value)`, which raises if the value nests too deeply. -/
  toStr : Json → Except PyError Str
  lower : Str → Str
  /-- `urlparse(url).scheme`, which raises on a malformed host. -/
  urlScheme : Str → Except PyError Str
  /-- `sha256(data).hexdigest()`. -/
  sha256Hex : List UInt8 → Str
  /-- The calls that the stack has room for where a content is turned into text. -/
  frames : Nat
  toStr_str : ∀ s, toStr (.str s) = .ok s
  lower_storable : ∀ s, Storable s → Storable (lower s)
  sha256Hex_storable : ∀ data, Storable (sha256Hex data)

/-- A `str` for texts only. -/
def strOfText : Json → Except PyError Str
  | .str s => .ok s
  | _ => .ok []

theorem strOfText_str (s : Str) : strOfText (.str s) = .ok s := rfl

theorem id_storable (s : Str) (h : Storable s) : Storable (id s) := h

/-- `str(value)`, where it returns. -/
def Runtime.render (rt : Runtime) (v : Json) : Str :=
  (rt.toStr v).toOption.getD []

def Runtime.Renders (rt : Runtime) (v : Json) : Prop :=
  (rt.toStr v).isOk = true

theorem Runtime.toStr_yields (rt : Runtime) (v : Json) : Yields (rt.toStr v) (rt.Renders v) (rt.render v) := by
  unfold Runtime.Renders Runtime.render
  cases rt.toStr v with
  | ok s => exact (Yields.pure s).of_iff (by simp [Except.isOk, Except.toBool])
  | error e => exact (Yields.throw e []).of_iff (by simp [Except.isOk, Except.toBool])

end AuditGateway.Python
