import AuditGateway.Framework.Paths
import AuditGateway.Python.Utf8

/-!
# Paths of files in Python

This is the part of `pathlib` that the worker uses on a POSIX system. A `PurePath` is a text that was read: its empty
parts and those that are `.` are gone, and `..` stays. `resolve` follows the parts from the root as if
none were a link.
-/

namespace AuditGateway.Python

open AuditGateway.Framework

/-- `PurePosixPath`: what the text begins with, nothing or slashes, and its parts. -/
structure PurePath where
  root : Str
  parts : List Str
  noSlash : ∀ part ∈ parts, 47 ∉ part

abbrev ResolvedPath := AbsPath (47 : CodePoint) 46

/-- The characters of a name that `os.lstat` takes: those that are bytes, escaped bytes among them. -/
def fsEncodable (c : CodePoint) : Bool := c ≠ 0 && (!c.isSurrogate || (0xDC80 ≤ c.val && c.val ≤ 0xDCFF))

namespace PurePath

def readParts (path : Str) : List Str := (path.splitOn 47).filter fun part => part ≠ [] ∧ part ≠ [46]

/-- `Path(path)`. Two slashes at the front are a root of their own. -/
def ofText (path : Str) : PurePath where
  root :=
    if ¬ [47].isPrefixOf path then []
    else if [47, 47].isPrefixOf path ∧ ¬ [47, 47, 47].isPrefixOf path then [47, 47]
    else [47]
  parts := readParts path
  noSlash part hpart := notMem_of_mem_splitOn path part (List.mem_of_mem_filter hpart)

def ofResolved (path : ResolvedPath) : PurePath :=
  ⟨[47], path.elements, fun part hpart => (path.plain part hpart).segment.2⟩

def isAbsolute (path : PurePath) : Bool := path.root ≠ []

/-- `path / other`. -/
def join (path other : PurePath) : PurePath :=
  if other.isAbsolute then other
  else ⟨path.root, path.parts ++ other.parts, fun part hpart =>
    (List.mem_append.1 hpart).elim (path.noSlash part) (other.noSlash part)⟩

/-- `path.resolve()`, or `none` if the system raises `ValueError` for a name. -/
def resolve (cwd : ResolvedPath) (path : PurePath) : Option ResolvedPath :=
  if path.parts.all (·.all fsEncodable) then
    some (AbsPath.ofElements (if path.isAbsolute then ⟨[], by simp⟩ else cwd) path.parts path.noSlash)
  else none

end PurePath

/-- `path.parents`, each by its parts. -/
def ResolvedPath.parents (path : ResolvedPath) : List (List Str) :=
  (List.range path.elements.length).reverse.map path.elements.take

theorem mem_parents_iff {path dir : ResolvedPath} :
    path = dir ∨ dir.elements ∈ ResolvedPath.parents path ↔ dir.Holds path := by
  simp only [ResolvedPath.parents, List.mem_map, List.mem_reverse, List.mem_range]
  constructor
  · rintro (rfl | ⟨n, -, hn⟩)
    · exact List.prefix_rfl
    · rw [AbsPath.Holds, ← hn]
      exact List.take_prefix n path.elements
  · intro h
    obtain hlt | heq := Nat.lt_or_eq_of_le h.length_le
    · exact .inr ⟨dir.elements.length, hlt, (List.prefix_iff_eq_take.1 h).symm⟩
    · exact .inl (AbsPath.ext (h.eq_of_length heq).symm)

namespace PurePath

variable {cwd path candidate : ResolvedPath} {relative : Str}

theorem resolve_join (hrelative : (ofText relative).isAbsolute = false) (hup : [46, 46] ∉ relative.splitOn 47) :
    ((ofResolved path).join (ofText relative)).resolve cwd = some candidate ↔
      (∀ part ∈ path.elements ++ readParts relative, part.all fsEncodable = true) ∧
        candidate.elements = path.elements ++ readParts relative := by
  have hjoin : (ofResolved path).join (ofText relative) = ⟨[47], path.elements ++ readParts relative, by
      exact fun part hpart => (List.mem_append.1 hpart).elim ((ofResolved path).noSlash part)
        ((ofText relative).noSlash part)⟩ := if_neg (by simp [hrelative])
  have hwalk : walk 46 true [] (path.elements ++ readParts relative) = path.elements ++ readParts relative := by
    rw [walk_append, walk_plain path.plain, List.nil_append, readParts, walk_filter,
      walk_eq_filter (notMem_of_mem_splitOn relative) hup]
  rw [hjoin, resolve]
  simp only [List.all_eq_true]
  split
  · rename_i hnames
    refine ⟨fun h => ⟨by simpa using hnames, ?_⟩, fun h => congrArg some (AbsPath.ext ?_)⟩
    · rw [← Option.some.inj h]
      exact hwalk
    · rw [h.2]
      exact hwalk
  · rename_i hnames
    refine iff_of_false (by simp) fun h => hnames ?_
    simpa using h.1

end PurePath

/-! ## Names of files -/

theorem Str.contains_iff {s needle : Str} : s.contains needle = true ↔ needle <:+: s := by
  simp only [Str.contains, List.any_eq_true, List.mem_tails, List.isPrefixOf_iff_prefix, List.infix_iff_prefix_suffix,
    and_comm]

theorem Str.bytes_intercalate {c : CodePoint} (hc : c.IsAscii) (parts : List Str) :
    Str.bytes ([c].intercalate parts) = [c.byte].intercalate (parts.map Str.bytes) := by
  induction parts with
  | nil => rfl
  | cons part parts ih =>
    cases parts with
    | nil => simp
    | cons second parts =>
      rw [List.intercalate_cons_cons, List.map_cons, List.map_cons, List.intercalate_cons_cons, Str.bytes_append,
        Str.bytes_append, ih, Str.bytes_cons, encodeCodePoint_ascii hc]
      rfl

theorem Str.splitOn_bytes {c : CodePoint} (hc : c.IsAscii) (s : Str) :
    s.bytes.splitOn c.byte = (s.splitOn c).map Str.bytes := by
  have hbytes : s.bytes = [c.byte].intercalate ((s.splitOn c).map Str.bytes) := by
    rw [← Str.bytes_intercalate hc, List.intercalate_splitOn]
  rw [hbytes, List.splitOn_intercalate]
  · intro part hpart
    obtain ⟨part, hmem, rfl⟩ := List.mem_map.1 hpart
    rw [mem_bytes hc]
    exact notMem_of_mem_splitOn s part hmem
  · simp [List.splitOn_ne_nil]

theorem Str.splitOn_slash_bytes (s : Str) : s.bytes.splitOn 47 = (s.splitOn 47).map Str.bytes :=
  Str.splitOn_bytes (c := 47) (by decide) s

theorem encodeUtf8_eq_some_iff {s : Str} {bs : List UInt8} : encodeUtf8 s = some bs ↔ Encodes s ∧ bs = s.bytes := by
  constructor
  · intro h
    have hs : Encodes s := encodeUtf8_isSome_iff.1 (by simp [h])
    exact ⟨hs, Option.some.inj (h.symm.trans (encodeUtf8_eq hs))⟩
  · rintro ⟨hs, rfl⟩
    exact encodeUtf8_eq hs

theorem Str.bytes_eq_nil {s : Str} (h : s.bytes = []) : s = [] := by
  cases s with
  | nil => rfl
  | cons c s =>
    by_cases hc : c.IsAscii
    · rw [Str.bytes_cons, encodeCodePoint_ascii hc] at h
      cases h
    · obtain ⟨b, bs, henc, -⟩ := encodeCodePoint_high hc
      rw [Str.bytes_cons, henc] at h
      cases h

theorem Str.eq_of_bytes_eq {s p : Str} (hp : ∀ c ∈ p, c.IsAscii) (h : s.bytes = p.bytes) : s = p := by
  have hfront : p.bytes <+: s.bytes := h ▸ List.prefix_rfl
  obtain ⟨t, rfl⟩ := (isPrefix_bytes hp).1 hfront
  rw [Str.bytes_append] at h
  rw [Str.bytes_eq_nil (List.append_right_eq_self.1 h), List.append_nil]

theorem plain_bytes {part : Str} (h : PlainElement 47 46 part) : PlainElement 47 46 part.bytes := by
  have hslash : CodePoint.IsAscii 47 := by decide
  have hdot : CodePoint.IsAscii 46 := by decide
  refine ⟨⟨fun hnil => h.segment.1 (Str.bytes_eq_nil hnil), ?_⟩, fun hhere => ?_, fun hup => ?_⟩
  · exact fun hmem => h.segment.2 ((mem_bytes hslash).1 hmem)
  · exact h.notHere (Str.eq_of_bytes_eq (by simp [hdot]) (hhere.trans (by decide)))
  · exact h.notUp (Str.eq_of_bytes_eq (by simp [hdot]) (hup.trans (by decide)))

/-- The path by the names that the system has. -/
def ResolvedPath.encode (path : ResolvedPath) : AbsPath (47 : UInt8) 46 where
  elements := path.elements.map Str.bytes
  plain name hname := by
    obtain ⟨part, hpart, rfl⟩ := List.mem_map.1 hname
    exact plain_bytes (path.plain part hpart)

theorem ResolvedPath.bytes_text (path : ResolvedPath) : Str.bytes path.text = path.encode.text := by
  have hslash : CodePoint.IsAscii 47 := by decide
  rw [AbsPath.text, Str.bytes_cons, Str.bytes_intercalate hslash, encodeCodePoint_ascii hslash]
  rfl

end AuditGateway.Python
