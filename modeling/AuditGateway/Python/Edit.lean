import AuditGateway.Python.Text

/-!
# Texts taken apart and put together

The methods of `str` that the names of stored objects and their edited copies are made
with: `rpartition` and `rsplit` with one separator, `replace`, and numbers padded with zeros.

* `rpartition_append`: a text is split at the last separator.
* `afterLast_append`: what is after the last separator, of which the names of objects in
  different directories are compared.
-/

namespace AuditGateway.Python.Str

variable {s t : Str} {sep : CodePoint}

/-- What is after the last separator: everything, if there is none. -/
def afterLast (s : Str) (sep : CodePoint) : Str :=
  s.rtakeWhile (· != sep)

/-- `rpartition`: the text before the last separator, whether there is one, and the rest. -/
def rpartition (s : Str) (sep : CodePoint) : Str × Bool × Str :=
  if sep ∈ s then ((s.rdropWhile (· != sep)).dropLast, true, s.afterLast sep) else ([], false, s)

/-- `rsplit(sep, 1)[0]`. -/
def beforeLast (s : Str) (sep : CodePoint) : Str :=
  if sep ∈ s then (s.rdropWhile (· != sep)).dropLast else s

/-- The occurrences of `old` from the left, after the next `skip` characters. -/
def replaceFrom (old new : Str) : Nat → Str → Str
  | _, [] => []
  | skip + 1, _ :: s => replaceFrom old new skip s
  | 0, c :: s =>
    if old.isPrefixOf (c :: s) then new ++ replaceFrom old new (old.length - 1) s
    else c :: replaceFrom old new 0 s

/-- `replace`. The empty text occurs before every character, and at the end. -/
def replace (s old new : Str) : Str :=
  if old = [] then new ++ s.flatMap fun c => c :: new else replaceFrom old new 0 s

/-- The format `06d`. -/
def sixDigits (n : Nat) : Str :=
  List.replicate (6 - (toString n).length) (CodePoint.ofChar '0') ++ Str.ofString (toString n)

example : sixDigits 42 = Str.ofString "000042" := by decide

example : (Str.ofString "a.b.bin").replace (Str.ofString "b") (Str.ofString "cc") = Str.ofString "a.cc.ccin" := by
  decide

theorem ne_of_mem_reverse (h : sep ∉ t) : ∀ c ∈ t.reverse, (c != sep) = true := by
  intro c hc
  have hne : c ≠ sep := by
    rintro rfl
    exact h (List.mem_reverse.1 hc)
  simpa using hne

theorem afterLast_append (h : sep ∉ t) : (s ++ sep :: t).afterLast sep = t := by
  rw [afterLast, List.rtakeWhile, List.reverse_append, List.reverse_cons, List.append_assoc,
    List.takeWhile_append_of_pos (ne_of_mem_reverse h)]
  simp

theorem rdropWhile_append (h : sep ∉ t) : (s ++ sep :: t).rdropWhile (· != sep) = s ++ [sep] := by
  rw [List.rdropWhile, List.reverse_append, List.reverse_cons, List.append_assoc,
    List.dropWhile_append_of_pos (ne_of_mem_reverse h)]
  simp

theorem rpartition_append (h : sep ∉ t) : (s ++ sep :: t).rpartition sep = (s, true, t) := by
  rw [rpartition, if_pos (by simp), rdropWhile_append h, List.dropLast_concat, afterLast_append h]

theorem mem_sixDigits {n : Nat} {c : CodePoint} (h : c ∈ sixDigits n) : 48 ≤ c.val ∧ c.val ≤ 57 := by
  rw [sixDigits, List.mem_append] at h
  obtain h | h := h
  · rw [List.eq_of_mem_replicate h]
    decide
  · exact mem_ofString_toString h

end AuditGateway.Python.Str
