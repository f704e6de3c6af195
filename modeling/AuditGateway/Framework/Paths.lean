import AuditGateway.Framework.Segments

/-!
# Paths as texts

A path is read element by element, as if no element were a link: an empty element and `.` stay where they are,
`..` goes up, and any other element goes down. Above the root there is only the root.
What is reached is a path of plain elements, and such paths are compared by their elements.

The characters are of any type with a separator `slash` and a `dot`.

* `walk_plain`: plain elements go down.
* `walk_eq_filter`: a path without `..` goes down by those of its elements that are plain.
* `AbsPath.ofElements`: from the root, a path of plain elements is reached.
* `AbsPath.text_inj`: its text determines the path.
-/

namespace AuditGateway.Framework

variable {α : Type}

/-- An element that names something in a directory. -/
structure PlainElement (slash dot : α) (element : List α) : Prop where
  segment : IsSegment slash element
  notHere : element ≠ [dot]
  notUp : element ≠ [dot, dot]

instance [DecidableEq α] (slash dot : α) (element : List α) : Decidable (PlainElement slash dot element) :=
  decidable_of_iff (IsSegment slash element ∧ element ≠ [dot] ∧ element ≠ [dot, dot])
    ⟨fun h => ⟨h.1, h.2.1, h.2.2⟩, fun h => ⟨h.segment, h.notHere, h.notUp⟩⟩

section

variable [DecidableEq α] (dot : α)

/-- One element, from the place that `elements` lead to. Only a path from the root can be left with no way up. -/
def walkElement (rooted : Bool) (elements : List (List α)) (element : List α) : List (List α) :=
  if element = [] ∨ element = [dot] then elements
  else if element = [dot, dot] then
    if elements = [] ∨ elements.getLast? = some [dot, dot] then
      if rooted then elements else elements ++ [[dot, dot]]
    else elements.dropLast
  else elements ++ [element]

/-- All elements of a path, one after another. -/
def walk (rooted : Bool) (start path : List (List α)) : List (List α) := path.foldl (walkElement dot rooted) start

variable {dot} {slash : α} {rooted : Bool} {start path : List (List α)} {element : List α}

theorem walkElement_plain (h : PlainElement slash dot element) :
    walkElement dot rooted start element = start ++ [element] := by
  rw [walkElement, if_neg (not_or.2 ⟨h.segment.1, h.notHere⟩), if_neg h.notUp]

theorem walk_append (path' : List (List α)) :
    walk dot rooted start (path ++ path') = walk dot rooted (walk dot rooted start path) path' :=
  List.foldl_append

theorem walk_cons : walk dot rooted start (element :: path) =
    walk dot rooted (walkElement dot rooted start element) path :=
  rfl

theorem walk_filter : walk dot rooted start (path.filter fun element => element ≠ [] ∧ element ≠ [dot]) =
    walk dot rooted start path := by
  induction path generalizing start with
  | nil => rfl
  | cons element path ih =>
    by_cases h : element ≠ [] ∧ element ≠ [dot]
    · rw [List.filter_cons_of_pos (by simpa using h), walk_cons, walk_cons, ih]
    · have hstay : walkElement dot rooted start element = start := if_pos (by tauto)
      rw [List.filter_cons_of_neg (by simpa using h), walk_cons, hstay, ih]

theorem walk_plain (h : ∀ element ∈ path, PlainElement slash dot element) :
    walk dot rooted start path = start ++ path := by
  induction path generalizing start with
  | nil => exact (List.append_nil start).symm
  | cons element path ih =>
    obtain ⟨helement, hpath⟩ := List.forall_mem_cons.1 h
    rw [walk_cons, walkElement_plain helement, ih hpath, List.append_assoc, List.singleton_append]

theorem walk_eq_filter (hsep : ∀ element ∈ path, slash ∉ element) (hup : [dot, dot] ∉ path) :
    walk dot rooted start path = start ++ path.filter fun element => element ≠ [] ∧ element ≠ [dot] := by
  have hplain : ∀ element ∈ path.filter (fun element => element ≠ [] ∧ element ≠ [dot]),
      PlainElement slash dot element := by
    intro element helement
    obtain ⟨hmem, hkept⟩ := List.mem_filter.1 helement
    obtain ⟨hne, hhere⟩ := of_decide_eq_true hkept
    exact ⟨⟨hne, hsep element hmem⟩, hhere, fun heq => hup (heq ▸ hmem)⟩
  rw [← walk_filter]
  exact walk_plain hplain

theorem walkElement_from_root (hstart : ∀ element ∈ start, PlainElement slash dot element) (hsep : slash ∉ element) :
    ∀ reached ∈ walkElement dot true start element, PlainElement slash dot reached := by
  unfold walkElement
  split
  · exact hstart
  · rename_i hhere
    split
    · split
      · exact hstart
      · exact fun reached hreached => hstart reached (List.dropLast_subset start hreached)
    · rename_i hup
      intro reached hreached
      obtain hreached | hreached := List.mem_append.1 hreached
      · exact hstart reached hreached
      · rw [List.mem_singleton.1 hreached]
        exact ⟨⟨fun h => hhere (.inl h), hsep⟩, fun h => hhere (.inr h), hup⟩

theorem walk_from_root (hstart : ∀ element ∈ start, PlainElement slash dot element)
    (hsep : ∀ element ∈ path, slash ∉ element) :
    ∀ reached ∈ walk dot true start path, PlainElement slash dot reached := by
  induction path generalizing start with
  | nil => exact hstart
  | cons element path ih =>
    obtain ⟨helement, hpath⟩ := List.forall_mem_cons.1 hsep
    exact ih (walkElement_from_root hstart helement) hpath

end

/-! ## Paths from the root -/

/-- A path from the root, each element of which goes down. -/
structure AbsPath (slash dot : α) where
  elements : List (List α)
  plain : ∀ element ∈ elements, PlainElement slash dot element

namespace AbsPath

variable {slash dot : α}

@[ext] theorem ext {p q : AbsPath slash dot} (h : p.elements = q.elements) : p = q := by
  cases p
  cases q
  cases h
  rfl

instance [DecidableEq α] : DecidableEq (AbsPath slash dot) :=
  fun p q => decidable_of_iff (p.elements = q.elements) ⟨ext, congrArg elements⟩

def text (p : AbsPath slash dot) : List α := slash :: [slash].intercalate p.elements

/-- `q` is `p` or is below it. -/
def Holds (p q : AbsPath slash dot) : Prop := p.elements <+: q.elements

instance [DecidableEq α] (p q : AbsPath slash dot) : Decidable (p.Holds q) :=
  inferInstanceAs (Decidable (_ <+: _))

/-- What is below `p` by plain elements. -/
def below (p : AbsPath slash dot) (path : List (List α)) (h : ∀ element ∈ path, PlainElement slash dot element) :
    AbsPath slash dot :=
  ⟨p.elements ++ path, fun element helement => (List.mem_append.1 helement).elim (p.plain element) (h element)⟩

theorem holds_below (p : AbsPath slash dot) {path : List (List α)}
    (h : ∀ element ∈ path, PlainElement slash dot element) :
    p.Holds (p.below path h) :=
  List.prefix_append _ _

theorem below_below (p : AbsPath slash dot) {path path' : List (List α)}
    (h : ∀ element ∈ path, PlainElement slash dot element)
    (h' : ∀ element ∈ path', PlainElement slash dot element)
    (happend : ∀ element ∈ path ++ path', PlainElement slash dot element) :
    (p.below path h).below path' h' = p.below (path ++ path') happend :=
  ext (List.append_assoc _ _ _)

/-- Where a path leads to, from one of plain elements. -/
def ofElements [DecidableEq α] (start : AbsPath slash dot) (path : List (List α))
    (h : ∀ element ∈ path, slash ∉ element) : AbsPath slash dot :=
  ⟨walk dot true start.elements path, walk_from_root start.plain h⟩

theorem splitOn_text [DecidableEq α] (p : AbsPath slash dot) (hne : p.elements ≠ []) :
    p.text.splitOn slash = [] :: p.elements := by
  rw [text, List.splitOn_cons_eq_if_modifyHead, if_pos (beq_self_eq_true slash),
    List.splitOn_intercalate slash (fun element helement => (p.plain element helement).segment.2) hne]

theorem filter_splitOn_text [DecidableEq α] (p : AbsPath slash dot) :
    (p.text.splitOn slash).filter (· ≠ []) = p.elements := by
  by_cases hne : p.elements = []
  · rw [text, hne]
    simp [List.splitOn_cons_eq_if_modifyHead]
  · rw [splitOn_text p hne, List.filter_cons_of_neg (by simp)]
    exact List.filter_eq_self.2 fun element helement => decide_eq_true (p.plain element helement).segment.1

theorem walk_splitOn_text [DecidableEq α] (p : AbsPath slash dot) (rooted : Bool) (start : List (List α)) :
    walk dot rooted start (p.text.splitOn slash) = start ++ p.elements := by
  have hfirst : walkElement dot rooted start [] = start := if_pos (.inl rfl)
  by_cases hne : p.elements = []
  · have hsplit : p.text.splitOn slash = [[], []] := by
      rw [text, hne]
      simp [List.splitOn_cons_eq_if_modifyHead]
    rw [hsplit, walk_cons, hfirst, walk_cons, hfirst, hne, List.append_nil]
    rfl
  · rw [splitOn_text p hne, walk_cons, hfirst, walk_plain p.plain]

theorem text_inj [DecidableEq α] {p q : AbsPath slash dot} (h : p.text = q.text) : p = q := by
  apply AbsPath.ext
  rw [← filter_splitOn_text p, h, filter_splitOn_text q]

end AbsPath

end AuditGateway.Framework
