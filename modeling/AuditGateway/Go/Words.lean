import AuditGateway.Go.Strings

/-!
# White space and words

What `strings.TrimSpace` leaves has no white space at its ends, and `strings.Fields` gives the words between
white space. A character of white space is no part of another, neither from the left nor from the right, so
that white space ends where a word begins.
-/

namespace AuditGateway.Go

variable {units : List GoString} {s t w rest : GoString}

/-! ## Trimming -/

theorem spaceOf_stripSpaces (hne : ∀ unit ∈ units, unit ≠ []) {n : Nat} (hn : s.length ≤ n) :
    spaceOf units (stripSpaces units n s) = none := by
  induction n generalizing s with
  | zero =>
    rw [List.length_eq_zero_iff.1 (Nat.le_zero.1 hn), stripSpaces, spaceOf_eq_none]
    exact fun unit hunit hfront => hne unit hunit (List.prefix_nil.1 hfront)
  | succ n ih =>
    rw [stripSpaces]
    cases hspace : spaceOf units s with
    | none => exact hspace
    | some unit =>
      obtain ⟨hunit, hfront⟩ := spaceOf_eq_some hspace
      have hlength := List.length_pos_iff.2 (hne unit hunit)
      exact ih (by rw [List.length_drop]; omega)

theorem spaceOf_of_prefix (h : spaceOf units s = none) (hfront : t <+: s) : spaceOf units t = none :=
  spaceOf_eq_none.2 fun unit hunit ht => spaceOf_eq_none.1 h unit hunit (ht.trans hfront)

/-- There is no white space at either end. -/
def Trimmed (s : GoString) : Prop :=
  spaceOf spaces s = none ∧ spaceOf (spaces.map List.reverse) s.reverse = none

theorem spaceOf_reverse_eq_none :
    spaceOf (spaces.map List.reverse) s.reverse = none ↔ ∀ unit ∈ spaces, ¬ unit <:+ s := by
  rw [spaceOf_eq_none, List.forall_mem_map]
  simp only [List.reverse_prefix]

theorem trimLeft_suffix (s : GoString) : trimLeft s <:+ s := by
  obtain ⟨us, -, hleft⟩ : ∃ us : List GoString, (∀ unit ∈ us, unit ∈ spaces) ∧ s = us.flatten ++ trimLeft s :=
    stripSpaces_eq spaces s.length s
  exact ⟨us.flatten, hleft.symm⟩

theorem trimRight_isPrefix (s : GoString) : trimRight s <+: s := by
  obtain ⟨us, -, hright⟩ := stripSpaces_eq (spaces.map List.reverse) s.length s.reverse
  refine List.reverse_suffix.1 ?_
  rw [trimRight, List.reverse_reverse]
  exact ⟨us.flatten, hright.symm⟩

theorem trimSpace_isInfix (s : GoString) : trimSpace s <:+: s :=
  (trimRight_isPrefix _).isInfix.trans (trimLeft_suffix s).isInfix

theorem trimmed_trimSpace (s : GoString) : Trimmed (trimSpace s) := by
  constructor
  · exact spaceOf_of_prefix (spaceOf_stripSpaces delimited_spaces.1.ne_nil le_rfl) (trimRight_isPrefix (trimLeft s))
  · rw [trimSpace, trimRight, List.reverse_reverse]
    exact spaceOf_stripSpaces delimited_spaces.2.ne_nil (List.length_reverse ..).le

theorem trimSpace_of_trimmed (h : Trimmed s) : trimSpace s = s := by
  rw [trimSpace, trimLeft, stripSpaces_of_none h.1, trimRight, stripSpaces_of_none h.2, List.reverse_reverse]

theorem Blank.nil : Blank [] := ⟨[], List.forall_mem_nil _, rfl⟩

theorem Blank.append (hs : Blank s) (ht : Blank t) : Blank (s ++ t) := by
  obtain ⟨us, hus, rfl⟩ := hs
  obtain ⟨vs, hvs, rfl⟩ := ht
  exact ⟨us ++ vs, List.forall_mem_append.2 ⟨hus, hvs⟩, (List.flatten_append).symm⟩

theorem Blank.of_mem (h : s ∈ spaces) : Blank s := ⟨[s], List.forall_mem_singleton.2 h, (List.append_nil s).symm⟩

theorem spaces_heads : ∀ unit ∈ spaces, ∀ x ∈ unit.tails, x ≠ [] → x ≠ unit → ∀ unit' ∈ spaces,
    x.head? ≠ unit'.head? := by decide +kernel

theorem Blank.exists_prefix (h : Blank s) (hne : s ≠ []) : ∃ unit ∈ spaces, unit <+: s := by
  obtain ⟨us, hus, rfl⟩ := h
  cases us with
  | nil => exact absurd rfl hne
  | cons unit us => exact ⟨unit, hus unit List.mem_cons_self, List.prefix_append _ _⟩

theorem head?_eq_of_isPrefix (h : s <+: t) (hne : s ≠ []) : s.head? = t.head? := by
  obtain ⟨rest, rfl⟩ := h
  exact (List.head?_append_of_ne_nil s hne).symm

theorem Blank.tail_of_head {sep : GoString} (h : Blank sep) (hhead : sep.head? = some 32) :
    ∃ sep', sep = 32 :: sep' ∧ Blank sep' := by
  obtain ⟨us, hus, rfl⟩ := h
  cases us with
  | nil => cases hhead
  | cons unit us =>
    obtain ⟨hunit, hrest⟩ := List.forall_mem_cons.1 hus
    have hsingle : ∀ unit ∈ spaces, unit.head? = some 32 → unit = [32] := by decide
    rw [List.flatten_cons, List.head?_append_of_ne_nil _ (delimited_spaces.1.ne_nil unit hunit)] at hhead
    obtain rfl := hsingle unit hunit hhead
    exact ⟨us.flatten, rfl, us, hrest, rfl⟩

theorem Blank.notMem {b : UInt8} (hb : ∀ unit ∈ spaces, b ∉ unit) (h : Blank s) : b ∉ s := by
  obtain ⟨us, hus, rfl⟩ := h
  intro hmem
  obtain ⟨unit, hunit, hmem⟩ := List.mem_flatten.1 hmem
  exact hb unit (hus unit hunit) hmem

theorem spaceOf_append_blank {trail : GoString} (ht : spaceOf spaces t = none) (hne : t ≠ []) (htrail : Blank trail) :
    spaceOf spaces (t ++ trail) = none := by
  refine spaceOf_eq_none.2 fun unit hunit hfront => ?_
  obtain hinside | ⟨x, rfl⟩ := List.prefix_or_prefix_of_prefix hfront (List.prefix_append t trail)
  · exact spaceOf_eq_none.1 ht unit hunit hinside
  · have hx : x <+: trail := (List.prefix_append_right_inj t).1 hfront
    have hxne : x ≠ [] := by
      rintro rfl
      exact spaceOf_eq_none.1 ht _ hunit (by rw [List.append_nil])
    have hxt : x ≠ t ++ x := fun h => hne (List.append_left_eq_self.1 h.symm)
    have htrailne : trail ≠ [] := fun h => hxne (List.prefix_nil.1 (h ▸ hx))
    obtain ⟨unit', hunit', hfront'⟩ := htrail.exists_prefix htrailne
    refine spaces_heads _ hunit x ((List.mem_tails x _).2 (List.suffix_append t x)) hxne hxt unit' hunit' ?_
    rw [head?_eq_of_isPrefix hx hxne, head?_eq_of_isPrefix hfront' (delimited_spaces.1.ne_nil unit' hunit')]

theorem trimRight_append {trail : GoString} (htrail : Blank trail)
    (ht : spaceOf (spaces.map List.reverse) t.reverse = none) : trimRight (t ++ trail) = t := by
  obtain ⟨us, hus, rfl⟩ := htrail
  have hus' : ∀ unit ∈ (us.map List.reverse).reverse, unit ∈ spaces.map List.reverse := by
    intro unit hunit
    obtain ⟨u, hu, rfl⟩ := List.mem_map.1 (List.mem_reverse.1 hunit)
    exact List.mem_map_of_mem (hus u hu)
  have hreverse : (t ++ us.flatten).reverse = (us.map List.reverse).reverse.flatten ++ t.reverse := by
    rw [List.reverse_append, List.reverse_flatten]
  have hlength := congrArg List.length hreverse
  rw [List.length_reverse] at hlength
  rw [trimRight, hreverse, stripSpaces_flatten delimited_spaces.2 hus' ht hlength.ge, List.reverse_reverse]

theorem trimSpace_unique {lead trail : GoString} (hlead : Blank lead) (htrail : Blank trail) (ht : Trimmed t) :
    trimSpace (lead ++ (t ++ trail)) = t := by
  by_cases hne : t = []
  · subst hne
    have hnone : spaceOf spaces [] = none := rfl
    have hall := trimLeft_append (hlead.append htrail) hnone
    rw [List.append_nil] at hall
    rw [trimSpace, List.nil_append, hall]
    rfl
  · rw [trimSpace, trimLeft_append hlead (spaceOf_append_blank ht.1 hne htrail), trimRight_append htrail ht.2]

/-! ## Words -/

/-- No white space begins in a text, whatever it is part of. -/
def Solid (w rest : GoString) : Prop := ∀ u, u <:+ w → u ≠ [] → spaceOf spaces (u ++ rest) = none

/-- A text is made of words, with white space between them and perhaps at its ends. -/
inductive Words : GoString → List GoString → Prop
  | blank {lead : GoString} (hlead : Blank lead) : Words lead []
  | cons {lead w rest : GoString} {ws : List GoString} (hlead : Blank lead) (hne : w ≠ []) (hsolid : Solid w rest)
      (hend : rest = [] ∨ ∃ unit ∈ spaces, unit <+: rest) (hrest : Words rest ws) :
      Words (lead ++ (w ++ rest)) (w :: ws)

theorem Words.blank_append {ws : List GoString} (hs : Blank s) (h : Words t ws) : Words (s ++ t) ws := by
  cases h with
  | blank hlead => exact .blank (hs.append hlead)
  | cons hlead hne hsolid hend hrest =>
    rw [← List.append_assoc]
    exact .cons (hs.append hlead) hne hsolid hend hrest

theorem words_fieldsFrom (n : Nat) (s : GoString) (hn : s.length < n) :
    Words s (fieldsFrom [] n s) ∧ ∀ field, field ≠ [] → ∃ w rest ws, fieldsFrom field n s = (field ++ w) :: ws ∧
      s = w ++ rest ∧ Solid w rest ∧ (rest = [] ∨ ∃ unit ∈ spaces, unit <+: rest) ∧ Words rest ws := by
  induction n generalizing s with
  | zero => exact absurd hn (Nat.not_lt_zero _)
  | succ n ih =>
    have hsolid_nil (rest : GoString) : Solid [] rest := fun u hu hne => absurd (List.suffix_nil.1 hu) hne
    cases s with
    | nil =>
      refine ⟨.blank .nil, fun field hfield => ⟨[], [], [], ?_, rfl, hsolid_nil [], .inl rfl, .blank .nil⟩⟩
      simp [fieldsFrom, hfield]
    | cons b s =>
      rw [List.length_cons] at hn
      cases hspace : spaceOf spaces (b :: s) with
      | some unit =>
        obtain ⟨hunit, t, ht⟩ := spaceOf_eq_some hspace
        have hlength := congrArg List.length ht
        have hpos := List.length_pos_iff.2 (delimited_spaces.1.ne_nil unit hunit)
        rw [List.length_append, List.length_cons] at hlength
        have hwords := (ih t (by omega)).1
        have hdrop : (b :: s).drop unit.length = t := by rw [← ht, List.drop_left]
        refine ⟨?_, fun field hfield => ⟨[], b :: s, fieldsFrom [] n t, ?_, rfl, hsolid_nil _, ?_, ?_⟩⟩
        · simp only [fieldsFrom, hspace, hdrop]
          exact ht ▸ hwords.blank_append (.of_mem hunit)
        · simp [fieldsFrom, hspace, hdrop, hfield]
        · exact .inr ⟨unit, hunit, t, ht⟩
        · exact ht ▸ hwords.blank_append (.of_mem hunit)
      | none =>
        have hbegun : ∀ field, ∃ w rest ws, fieldsFrom field (n + 1) (b :: s) = (field ++ b :: w) :: ws ∧
            s = w ++ rest ∧ Solid (b :: w) rest ∧ (rest = [] ∨ ∃ unit ∈ spaces, unit <+: rest) ∧ Words rest ws := by
          intro field
          obtain ⟨w, rest, ws, hfields, rfl, hsolid, hend, hrest⟩ := (ih s (by omega)).2 (field ++ [b]) (by simp)
          refine ⟨w, rest, ws, ?_, rfl, fun u hu hne => ?_, hend, hrest⟩
          · simp only [fieldsFrom, hspace, hfields, List.append_assoc, List.singleton_append]
          · obtain rfl | hu := List.suffix_cons_iff.1 hu
            · exact hspace
            · exact hsolid u hu hne
        constructor
        · obtain ⟨w, rest, ws, hfields, rfl, hsolid, hend, hrest⟩ := hbegun []
          rw [hfields]
          exact .cons .nil (List.cons_ne_nil b w) hsolid hend hrest
        · intro field _
          obtain ⟨w, rest, ws, hfields, rfl, hsolid, hend, hrest⟩ := hbegun field
          exact ⟨b :: w, rest, ws, hfields, rfl, hsolid, hend, hrest⟩

theorem words_fields (s : GoString) : Words s (fields s) := (words_fieldsFrom (s.length + 1) s (Nat.lt_succ_self _)).1

/-! ## Two words -/

theorem Blank.exists_suffix (h : Blank s) (hne : s ≠ []) : ∃ unit ∈ spaces, unit <:+ s := by
  obtain ⟨us, hus, rfl⟩ := h
  obtain rfl | ⟨us, unit, rfl⟩ := List.eq_nil_or_concat us
  · exact absurd rfl hne
  · refine ⟨unit, hus unit (by simp), ?_⟩
    rw [List.concat_eq_append, List.flatten_append, List.flatten_singleton]
    exact List.suffix_append _ _

theorem Solid.not_infix (h : Solid w []) : ∀ unit ∈ spaces, ¬ unit <:+: w := by
  rintro unit hunit ⟨x, y, rfl⟩
  have hne : unit ++ y ≠ [] := List.append_ne_nil_of_left_ne_nil (delimited_spaces.1.ne_nil unit hunit) y
  have hnone := h (unit ++ y) (by rw [List.append_assoc]; exact List.suffix_append _ _) hne
  rw [List.append_nil] at hnone
  exact spaceOf_eq_none.1 hnone unit hunit (List.prefix_append _ _)

theorem Words.two {a b : GoString} (h : Words t [a, b]) (ht : Trimmed t) :
    ∃ sep, t = a ++ (sep ++ b) ∧ Blank sep ∧ sep ≠ [] ∧ b ≠ [] ∧ Solid b [] := by
  cases h with
  | @cons lead _ rest _ hlead _ _ hend hrest =>
    cases hrest with
    | @cons sep _ rest' _ hsep hb hsolid _ hrest' =>
      cases hrest' with
      | blank htrail =>
        have hnil : lead = [] := by
          by_contra hne
          obtain ⟨unit, hunit, hfront⟩ := hlead.exists_prefix hne
          exact spaceOf_eq_none.1 ht.1 unit hunit (hfront.trans (List.prefix_append _ _))
        have hnil' : rest' = [] := by
          by_contra hne
          obtain ⟨unit, hunit, hsuffix⟩ := htrail.exists_suffix hne
          refine spaceOf_reverse_eq_none.1 ht.2 unit hunit (hsuffix.trans ?_)
          simp only [← List.append_assoc]
          exact List.suffix_append _ _
        subst hnil hnil'
        refine ⟨sep, by simp, hsep, ?_, hb, hsolid⟩
        rintro rfl
        -- White space would have to begin where the second word does.
        obtain hnil | ⟨unit, hunit, hfront⟩ := hend
        · simp [hb] at hnil
        · exact spaceOf_eq_none.1 (hsolid b (List.suffix_refl b) hb) unit hunit hfront

theorem spaces_apart : ∀ unit ∈ spaces, ∀ unit' ∈ spaces, ∀ x ∈ unit.inits, x ≠ [] → x ≠ unit →
    ¬ x <:+ unit' ∧ ¬ unit' <:+ x := by decide +kernel

theorem not_suffix_of_last {lead sep : GoString} (hsep : Blank sep) (hne : sep ≠ []) (hw : w ≠ [])
    (hlast : ∀ unit ∈ spaces, ¬ unit <:+ w) : ∀ unit ∈ spaces, ¬ unit <:+ lead ++ (sep ++ w) := by
  intro unit hunit hsuffix
  rw [← List.append_assoc] at hsuffix
  obtain hinside | ⟨x, hx⟩ := List.suffix_or_suffix_of_suffix hsuffix (List.suffix_append _ w)
  · exact hlast unit hunit hinside
  · -- The last part is the end of a character that begins before it.
    subst hx
    have hx : x <:+ lead ++ sep := ((List.suffix_append_inj_of_length_eq rfl).1 hsuffix).1
    obtain ⟨unit', hunit', hsuffix'⟩ := hsep.exists_suffix hne
    have hxne : x ≠ [] := by
      rintro rfl
      exact hlast _ hunit (List.suffix_refl _)
    have hxw : x ≠ x ++ w := fun h => hw (List.append_right_eq_self.1 h.symm)
    have hapart := spaces_apart _ hunit unit' hunit' x ((List.mem_inits x _).2 (List.prefix_append x w)) hxne hxw
    obtain h | h := List.suffix_or_suffix_of_suffix hx (hsuffix'.trans (List.suffix_append lead sep))
    · exact hapart.1 h
    · exact hapart.2 h

end AuditGateway.Go
