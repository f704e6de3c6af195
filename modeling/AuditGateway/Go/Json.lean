import Mathlib

/-!
# JSON documents in Go

A JSON document, and what `json.Unmarshal` makes of it for a target of a given
type. An absent key and `null` leave the zero value; a value of another type makes the
whole call fail, and the gateway then uses nothing of the target. A conversion to a Go
type is therefore a function to `Option`, named after the type.

The keys of an object are compared with the tags of a struct up to case (`Matches`), and all
values under keys that match are decoded one after another into the same field
(`values`): scalars are replaced, structs filled up, and `null` leaves a field as it is unless
it is a pointer or a slice. The text of a document is not modelled: `json.Unmarshal` starts
from the document that a text stands for.
-/

namespace AuditGateway.Go

-- Conversions are long chains of binds. `simp` unfolds them with these two, as the congruence lemma
-- for `Option.bind` makes it visit the rest of the chain twice at each bind.

theorem some_bind {α β : Type} (a : α) (f : α → Option β) : (some a >>= f) = f a := rfl

theorem bind_eq_some {α β : Type} {x : Option α} {f : α → Option β} {b : β} :
    (x >>= f) = some b ↔ ∃ a, x = some a ∧ f a = some b := Option.bind_eq_some_iff

/-- A JSON document. A number that is not written as an integer is given by its text. -/
inductive Json
  | null
  | bool (b : Bool)
  | int (n : Int)
  | decimal (literal : String)
  | str (s : String)
  | array (items : List Json)
  | object (fields : List (String × Json))

/-- The fields of an object. -/
abbrev Fields := List (String × Json)

/-- The range of `int` on a 64-bit platform. -/
def InRange (n : Int) : Prop := -2 ^ 63 ≤ n ∧ n < 2 ^ 63

instance (n : Int) : Decidable (InRange n) := inferInstanceAs (Decidable (_ ∧ _))

/-- The sum of two values of type `int`, which wraps around. -/
def add (a b : Int) : Int := (a + b).bmod (2 ^ 64)

theorem add_eq_zero_iff {a b : Int} (ha : 0 ≤ a) (ha' : InRange a) (hb : 0 ≤ b) (hb' : InRange b) :
    add a b = 0 ↔ a = 0 ∧ b = 0 := by
  unfold add InRange at *
  rw [Int.bmod_def]
  omega

theorem foldl_add_eq (l : List Int) (a : Int) (ha : InRange a) : l.foldl add a = (a + l.sum).bmod (2 ^ 64) := by
  have hwrap : ∀ n : Int, InRange n → n.bmod (2 ^ 64) = n := fun n hn => by
    unfold InRange at hn
    exact Int.bmod_eq_of_le (by omega) (by omega)
  induction l generalizing a with
  | nil => rw [List.foldl_nil, List.sum_nil, Int.add_zero, hwrap a ha]
  | cons b l ih =>
    have hin : InRange (add a b) := by
      have hle := Int.le_bmod (x := a + b) (m := 2 ^ 64) (by decide)
      have hlt := Int.bmod_lt (x := a + b) (m := 2 ^ 64) (by decide)
      unfold InRange add
      omega
    rw [List.foldl_cons, ih _ hin, List.sum_cons, add, Int.bmod_add_bmod, Int.add_assoc]

theorem foldl_add_eq_sum_iff (l : List Int) : l.foldl add 0 = l.sum ↔ InRange l.sum := by
  rw [foldl_add_eq l 0 (by decide), Int.zero_add]
  constructor
  · intro h
    have hle := Int.le_bmod (x := l.sum) (m := 2 ^ 64) (by decide)
    have hlt := Int.bmod_lt (x := l.sum) (m := 2 ^ 64) (by decide)
    unfold InRange
    omega
  · intro h
    unfold InRange at h
    exact Int.bmod_eq_of_le (by omega) (by omega)

/-! ## Keys -/

/-- A key or a tag as the two are compared: in upper case, also U+212A and U+017F. -/
def foldName : List UInt8 → List UInt8
  | 0xE2 :: 0x84 :: 0xAA :: rest => 75 :: foldName rest
  | 0xC5 :: 0xBF :: rest => 83 :: foldName rest
  | b :: rest => (if 97 ≤ b ∧ b ≤ 122 then b - 32 else b) :: foldName rest
  | [] => []

/-- The value under a key goes to the field with a tag. -/
def Matches (name tag : String) : Prop := foldName name.toUTF8.data.toList = foldName tag.toUTF8.data.toList

instance (name tag : String) : Decidable (Matches name tag) := inferInstanceAs (Decidable (_ = _))

theorem Matches.refl (tag : String) : Matches tag tag := rfl

namespace Json

/-! ## One value after another -/

/-- Two values that go to the same field. No field takes the result if one of them has another type. -/
def merge : Json → Json → Json
  | v, null => v
  | null, w => w
  | str _, str t => str t
  | int n, int m => if InRange n then int m else int n
  | object fields, object more => object (fields ++ more)
  | _, _ => bool false

/-- The same for a pointer. -/
def mergePointer : Json → Json → Json
  | _, null => null
  | v, w => merge v w

/-- The items of an array go to the elements that the slice had before. -/
def overlay : List Json → List Json → List Json
  | store, [] => store
  | [], items => items
  | v :: store, w :: items => merge v w :: overlay store items

/-- The same for a slice, which is given by all the elements it ever had, and its length. -/
def mergeSlice (slice : List Json × Nat) : Json → List Json × Nat
  | array items => (if items = [] then [] else overlay slice.1 items, items.length)
  | _ => ([], 0)

@[simp] theorem merge_null_left (v : Json) : merge null v = v := by cases v <;> rfl

@[simp] theorem overlay_nil_left (items : List Json) : overlay [] items = items := by cases items <;> rfl

/-! ## Conversion to a Go type -/

def asStruct : Json → Option Fields
  | null => some []
  | object fields => some fields
  | _ => none

def asString : Json → Option String
  | null => some ""
  | str s => some s
  | _ => none

def asInt : Json → Option Int
  | null => some 0
  | int n => if InRange n then some n else none
  | _ => none

def asSlice {α : Type} (elem : Json → Option α) : Json → Option (List α)
  | null => some []
  | array items => items.mapM elem
  | _ => none

/-- A pointer: `nil` for `null`. -/
def asPointer {α : Type} (target : Json → Option α) : Json → Option (Option α)
  | null => some none
  | v => (target v).map some

end Json

namespace Fields

/-- The values that go to the field with a tag. -/
def values (fields : Fields) (tag : String) : List Json := (fields.filter fun x => Matches x.1 tag).map Prod.snd

/-- What they come to, for a field that `null` leaves as it is. -/
def get (fields : Fields) (tag : String) : Json := (fields.values tag).foldl Json.merge .null

/-- The elements of a slice. -/
def elements (fields : Fields) (tag : String) : List Json :=
  let slice := (fields.values tag).foldl Json.mergeSlice ([], 0)
  slice.1.take slice.2

/-- `json.RawMessage`. -/
def raw (fields : Fields) (tag : String) : Option Json := (fields.values tag).getLast?

def string (fields : Fields) (tag : String) : Option String := (fields.get tag).asString

def int (fields : Fields) (tag : String) : Option Int := (fields.get tag).asInt

def struct (fields : Fields) (tag : String) : Option Fields := (fields.get tag).asStruct

/-- All the values have to be of the type, also those that are replaced later. -/
def slice {α : Type} (fields : Fields) (tag : String) (elem : Json → Option α) : Option (List α) :=
  if ∀ v ∈ fields.values tag, (v.asSlice elem).isSome then (fields.elements tag).mapM elem else none

def pointer {α : Type} (fields : Fields) (tag : String) (target : Json → Option α) : Option (Option α) :=
  if ∀ v ∈ fields.values tag, (v.asPointer target).isSome then
    ((fields.values tag).foldl Json.mergePointer .null).asPointer target
  else none

variable {fields : Fields} {tag : String}

@[simp] theorem values_nil (tag : String) : values [] tag = [] := rfl

@[simp] theorem values_cons (name tag : String) (v : Json) (fields : Fields) :
    values ((name, v) :: fields) tag = if Matches name tag then v :: values fields tag else values fields tag := by
  rw [values, List.filter_cons]
  split <;> simp_all [values]

@[simp] theorem get_nil (tag : String) : get [] tag = .null := rfl

@[simp] theorem get_cons (name tag : String) (v : Json) (fields : Fields) : get ((name, v) :: fields) tag =
    if Matches name tag then (values fields tag).foldl Json.merge v else get fields tag := by
  rw [get, values_cons]
  split
  · rw [List.foldl_cons, Json.merge_null_left]
  · rfl

theorem elements_of_values {l : List Json} (h : fields.values tag = [.array l]) : fields.elements tag = l := by
  rw [elements, h]
  by_cases hl : l = [] <;> simp [Json.mergeSlice, hl]

theorem of_pointer {α : Type} {target : Json → Option α} {a : α} (h : fields.pointer tag target = some (some a)) :
    ∃ v, target v = some a := by
  rw [pointer] at h
  split at h
  · revert h
    generalize (fields.values tag).foldl Json.mergePointer .null = v
    intro h
    cases v with
    | null => cases h
    | _ =>
      obtain ⟨a', ha', heq⟩ := Option.map_eq_some_iff.1 h
      exact ⟨_, ha'.trans heq⟩
  · cases h

theorem slice_elements {α : Type} {elem : Json → Option α} {l : List α} (h : fields.slice tag elem = some l) :
    (fields.elements tag).mapM elem = some l := by
  rw [slice] at h
  split at h
  · exact h
  · cases h

@[simp] theorem string_eq (fields : Fields) (tag : String) : fields.string tag = (fields.get tag).asString := rfl

@[simp] theorem int_eq (fields : Fields) (tag : String) : fields.int tag = (fields.get tag).asInt := rfl

@[simp] theorem struct_eq (fields : Fields) (tag : String) : fields.struct tag = (fields.get tag).asStruct := rfl

end Fields

namespace Json

/-! ## Reading a document, whatever the types -/

/-- The value under a key; `null` if there is none. -/
def field (v : Json) (tag : String) : Json :=
  match v with
  | object fields => Fields.get fields tag
  | _ => null

/-- The items of the array under a key. -/
def elements (v : Json) (tag : String) : List Json :=
  match v with
  | object fields => Fields.elements fields tag
  | _ => []

def text : Json → String
  | str s => s
  | _ => ""

/-- An integer; 0 if it is none. -/
def number : Json → Int
  | int n => n
  | _ => 0

/-- The item at a position; `null` if there is none. -/
def itemAt (items : List Json) (index : Int) : Json :=
  if 0 ≤ index then (items[index.toNat]?).getD null else null

@[simp] theorem field_object (fields : Fields) (tag : String) : (object fields).field tag = fields.get tag := rfl

@[simp] theorem elements_object (fields : Fields) (tag : String) :
    (object fields).elements tag = fields.elements tag := rfl

@[simp] theorem text_str (s : String) : (str s).text = s := rfl

@[simp] theorem asStruct_null : null.asStruct = some [] := rfl

@[simp] theorem asStruct_object (fields : Fields) : (object fields).asStruct = some fields := rfl

@[simp] theorem asString_null : null.asString = some "" := rfl

@[simp] theorem asString_str (s : String) : (str s).asString = some s := rfl

@[simp] theorem asInt_null : null.asInt = some 0 := rfl

@[simp] theorem asInt_zero : (int 0).asInt = some 0 := rfl

variable {v : Json}

theorem asStruct_field {fields : Fields} (h : v.asStruct = some fields) (tag : String) :
    fields.get tag = v.field tag := by
  cases v <;> simp only [asStruct, Option.some.injEq, reduceCtorEq] at h <;> subst h <;> rfl

theorem asStruct_elements {fields : Fields} (h : v.asStruct = some fields) (tag : String) :
    fields.elements tag = v.elements tag := by
  cases v <;> simp only [asStruct, Option.some.injEq, reduceCtorEq] at h <;> subst h <;> rfl

theorem asString_text {s : String} (h : v.asString = some s) : v.text = s := by
  cases v <;> simp only [asString, Option.some.injEq, reduceCtorEq] at h <;> exact h

theorem asInt_number {n : Int} (h : v.asInt = some n) : v.number = n := by
  cases v with
  | int m =>
    simp only [asInt] at h
    split at h <;> cases h
    rfl
  | null => exact Option.some.inj h
  | _ => cases h

end Json

end AuditGateway.Go
