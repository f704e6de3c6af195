import Mathlib.Data.List.Infix

/-!
# Texts made of segments

Segments without a separator are joined with it. The text determines them, and they can be read off it with
`splitOn`.

* `intercalate_inj`: the text determines the segments.
* `getLast?_intercalate_ne`, `not_infix_sep_sep`: the text does not end in a separator, or have two in a row.
* `infix_segment`: what is in the text without a separator is in a segment.
-/

namespace AuditGateway.Framework

variable {α : Type} {sep : α} {segments segments' : List (List α)}

/-- A segment that is not empty. -/
def IsSegment (sep : α) (segment : List α) : Prop := segment ≠ [] ∧ sep ∉ segment

instance [DecidableEq α] (segment : List α) : Decidable (IsSegment sep segment) :=
  inferInstanceAs (Decidable (_ ∧ _))

theorem infix_or_infix {text before after : List α} (hsep : sep ∉ text) (h : text <:+: before ++ sep :: after) :
    text <:+: before ∨ text <:+: after := by
  obtain ⟨left, right, htext⟩ := h
  rw [List.append_assoc] at htext
  obtain ⟨between, rfl, hrest⟩ | ⟨between, rfl, hrest⟩ := List.append_eq_append_iff.1 htext
  · obtain ⟨tail, rfl, -⟩ | ⟨tail, rfl, hright⟩ := List.append_eq_append_iff.1 hrest
    · exact .inl ⟨left, tail, by simp⟩
    · cases tail with
      | nil => exact .inl ⟨left, [], by simp⟩
      | cons a tail =>
        obtain ⟨rfl, -⟩ := List.cons.inj hright
        exact absurd (by simp) hsep
  · cases between with
    | nil =>
      cases text with
      | nil => exact .inl List.nil_infix
      | cons a text =>
        obtain ⟨rfl, -⟩ := List.cons.inj hrest
        exact absurd List.mem_cons_self hsep
    | cons a between =>
      obtain ⟨-, rfl⟩ := List.cons.inj hrest
      exact .inr ⟨between, right, by simp⟩

theorem intercalate_inj [DecidableEq α] (h : ∀ segment ∈ segments, sep ∉ segment)
    (h' : ∀ segment ∈ segments', sep ∉ segment) (hne : segments ≠ []) (hne' : segments' ≠ [])
    (heq : [sep].intercalate segments = [sep].intercalate segments') : segments = segments' := by
  rw [← List.splitOn_intercalate sep h hne, heq, List.splitOn_intercalate sep h' hne']

theorem intercalate_ne_nil (sep : α) (h : ∀ segment ∈ segments, segment ≠ []) (hne : segments ≠ []) :
    [sep].intercalate segments ≠ [] := by
  cases segments with
  | nil => exact absurd rfl hne
  | cons first segments =>
    cases segments with
    | nil => simpa using h
    | cons second segments => simp [List.intercalate_cons_cons]

theorem intercalate_append (sep : α) (hne : segments ≠ []) (hne' : segments' ≠ []) :
    [sep].intercalate (segments ++ segments') =
      [sep].intercalate segments ++ sep :: [sep].intercalate segments' := by
  induction segments with
  | nil => exact absurd rfl hne
  | cons first segments ih =>
    cases segments with
    | nil => rw [List.singleton_append, List.intercalate_cons_of_ne_nil hne', List.intercalate_singleton]; simp
    | cons second segments =>
      rw [List.cons_append, List.intercalate_cons_of_ne_nil (by simp), ih (List.cons_ne_nil second segments),
        List.intercalate_cons_cons]
      simp

theorem infix_intercalate {segment : List α} (h : segment ∈ segments) : segment <:+: [sep].intercalate segments := by
  induction segments with
  | nil => cases h
  | cons first segments ih =>
    obtain rfl | h := List.mem_cons.1 h
    · cases segments with
      | nil => rw [List.intercalate_singleton]
      | cons second segments =>
        rw [List.intercalate_cons_cons, List.append_assoc]
        exact (List.prefix_append _ _).isInfix
    · rw [List.intercalate_cons_of_ne_nil (List.ne_nil_of_mem h)]
      exact (ih h).trans (List.suffix_append _ _).isInfix

/-! ## Reading segments off a text -/

theorem notMem_of_mem_splitOn [DecidableEq α] (text : List α) : ∀ segment ∈ text.splitOn sep, sep ∉ segment := by
  induction text with
  | nil => simp
  | cons a text ih =>
    rw [List.splitOn_cons_eq_if_modifyHead]
    split
    · exact List.forall_mem_cons.2 ⟨List.not_mem_nil, ih⟩
    · rename_i ha
      cases htext : text.splitOn sep with
      | nil => simp
      | cons segment segments =>
        rw [htext] at ih
        obtain ⟨hsegment, hsegments⟩ := List.forall_mem_cons.1 ih
        refine List.forall_mem_cons.2 ⟨fun hmem => ?_, hsegments⟩
        obtain rfl | hmem := List.mem_cons.1 hmem
        · exact ha (by simp)
        · exact hsegment hmem

theorem splitOn_intercalate_eq [DecidableEq α] (hne : segments ≠ []) :
    ([sep].intercalate segments).splitOn sep = segments.flatMap (List.splitOn sep) := by
  induction segments with
  | nil => exact absurd rfl hne
  | cons first segments ih =>
    cases segments with
    | nil => simp
    | cons second segments =>
      rw [List.intercalate_cons_cons, List.append_assoc, List.singleton_append, List.splitOn_append_cons_self,
        ih (List.cons_ne_nil second segments)]
      rfl

theorem infix_of_mem_splitOn [DecidableEq α] {text segment : List α} (h : segment ∈ text.splitOn sep) :
    segment <:+: text := by
  have hwithin : segment <:+: [sep].intercalate (text.splitOn sep) := infix_intercalate h
  rwa [List.intercalate_splitOn] at hwithin

theorem infix_segment {text : List α} (hsep : sep ∉ text) (hne : text ≠ []) (h : text <:+: [sep].intercalate segments) :
    ∃ segment ∈ segments, text <:+: segment := by
  induction segments with
  | nil => exact absurd (List.eq_nil_of_infix_nil (by simpa using h)) hne
  | cons first segments ih =>
    cases segments with
    | nil => exact ⟨first, List.mem_cons_self, by simpa using h⟩
    | cons second segments =>
      rw [List.intercalate_cons_cons, List.append_assoc, List.singleton_append] at h
      obtain h | h := infix_or_infix hsep h
      · exact ⟨first, List.mem_cons_self, h⟩
      · obtain ⟨segment, hsegment, hin⟩ := ih h
        exact ⟨segment, List.mem_cons_of_mem first hsegment, hin⟩

theorem not_infix_sep_sep [DecidableEq α] (h : ∀ segment ∈ segments, IsSegment sep segment) (hne : segments ≠ []) :
    ¬ [sep, sep] <:+: [sep].intercalate segments := by
  rintro ⟨before, after, htext⟩
  have hsplit := List.splitOn_intercalate sep (fun segment hsegment => (h segment hsegment).2) hne
  rw [← htext, List.append_assoc, List.cons_append, List.cons_append, List.nil_append,
    List.splitOn_append_cons_self, ← List.nil_append (sep :: after), List.splitOn_append_cons_self,
    List.splitOn_nil] at hsplit
  exact (h [] (by rw [← hsplit]; simp)).1 rfl

theorem mem_intercalate {a : α} (h : a ∈ [sep].intercalate segments) : a = sep ∨ ∃ segment ∈ segments, a ∈ segment := by
  induction segments with
  | nil => simp at h
  | cons first segments ih =>
    cases segments with
    | nil => exact .inr ⟨first, List.mem_cons_self, by simpa using h⟩
    | cons second segments =>
      rw [List.intercalate_cons_cons, List.append_assoc, List.singleton_append, List.mem_append, List.mem_cons] at h
      obtain h | h | h := h
      · exact .inr ⟨first, List.mem_cons_self, h⟩
      · exact .inl h
      · obtain h | ⟨segment, hsegment, ha⟩ := ih h
        · exact .inl h
        · exact .inr ⟨segment, List.mem_cons_of_mem first hsegment, ha⟩

theorem getLast?_intercalate_ne (h : ∀ segment ∈ segments, IsSegment sep segment) :
    ([sep].intercalate segments).getLast? ≠ some sep := by
  induction segments with
  | nil => simp
  | cons first segments ih =>
    obtain ⟨hfirst, h⟩ := List.forall_mem_cons.1 h
    cases segments with
    | nil =>
      rw [List.intercalate_singleton]
      exact fun hlast => hfirst.2 (List.mem_of_getLast? hlast)
    | cons second segments =>
      have hne := intercalate_ne_nil sep (fun segment hsegment => (h segment hsegment).1)
        (List.cons_ne_nil second segments)
      rw [List.intercalate_cons_cons, List.getLast?_append_of_ne_nil _ hne]
      exact ih h

end AuditGateway.Framework
