import AuditGateway.Gateway.AuthKeys
import AuditGateway.Go.Words
import Mathlib.Data.List.TakeWhile

/-!
# Spellings of a key

A key is the same however a request presents it. `Extract` splits the value of `Authorization` at white space and
canonicalizes the second word; `Canonicalize`, which the admin lookup uses, takes the scheme off the whole value, but
only if a plain space follows it. It takes the scheme off once, so that a key may itself begin with one. The
items of `Sec-WebSocket-Protocol` end at commas, which may be in a key.
-/

namespace AuditGateway.Gateway

open AuditGateway.Framework AuditGateway.Go

/-- The letters of the scheme have no other forms than those of ASCII. -/
structure FoldsBearer (U : Unicode) : Prop where
  lower : ∀ s, isASCII s = false → (ascii "bearer " <+: U.toLower s ↔ ascii "bearer " <+: s.map lowerByte)
  fold : ∀ s, isASCII s = false → U.equalFold s (ascii "Bearer") = false

/-- The scheme and a space, in letters of either case. -/
def HasScheme (s : GoString) : Prop := ascii "bearer " <+: s.map lowerByte

instance (s : GoString) : Decidable (HasScheme s) := inferInstanceAs (Decidable (_ <+: _))

/-- A key without scheme and `sk-`, before it is cut at a hyphen. -/
def uncut (U : Unicode) (value : GoString) : GoString :=
  let value := trimSpace value
  let value := if (ascii "bearer ").isPrefixOf (toLower U value) then trimSpace (value.drop 7) else value
  if (ascii "sk-").isPrefixOf value then value.drop 3 else value

/-- `sk-` is taken off. -/
def withoutMark (value : GoString) : GoString := if (ascii "sk-").isPrefixOf value then value.drop 3 else value

/-- What is left of a trimmed value without a scheme. -/
def withoutScheme (value : GoString) : GoString := if HasScheme value then trimSpace (value.drop 7) else value

section

variable {U : Unicode} {s t value key raw : GoString}

theorem bearer_isPrefixOf_iff (hU : FoldsBearer U) (s : GoString) :
    (ascii "bearer ").isPrefixOf (toLower U s) = true ↔ HasScheme s := by
  rw [List.isPrefixOf_iff_prefix, toLower, HasScheme]
  cases hascii : isASCII s with
  | true => rfl
  | false => exact hU.lower s hascii

theorem uncut_eq (hU : FoldsBearer U) (value : GoString) :
    uncut U value = withoutMark (withoutScheme (trimSpace value)) := by
  simp only [uncut, bearer_isPrefixOf_iff hU]
  rfl

theorem canonicalize_eq_cut (U : Unicode) (value : GoString) :
    canonicalize U value = trimSpace ((uncut U value).takeWhile (· != 45)) := rfl

theorem canonicalize_congr (h : trimSpace s = trimSpace t) : canonicalize U s = canonicalize U t := by
  rw [canonicalize_eq_cut, canonicalize_eq_cut, uncut, uncut, h]

theorem withoutMark_suffix (value : GoString) : withoutMark value <:+ value := by
  unfold withoutMark
  split
  · exact List.drop_suffix 3 value
  · exact List.suffix_refl value

theorem withoutScheme_isInfix (value : GoString) : withoutScheme value <:+: value := by
  unfold withoutScheme
  split
  · exact (trimSpace_isInfix _).trans (List.drop_suffix 7 value).isInfix
  · exact List.infix_rfl

theorem canonicalize_infix_uncut (U : Unicode) (value : GoString) : canonicalize U value <:+: uncut U value :=
  (trimSpace_isInfix _).trans (List.takeWhile_prefix _).isInfix

theorem uncut_isInfix (hU : FoldsBearer U) (value : GoString) : uncut U value <:+: value := by
  rw [uncut_eq hU]
  exact (withoutMark_suffix _).isInfix.trans ((withoutScheme_isInfix _).trans (trimSpace_isInfix _))

theorem canonicalKey_eq_some : canonicalKey U value = some key ↔ canonicalize U value = key ∧ key ≠ [] := by
  unfold canonicalKey
  split
  · rename_i h
    exact iff_of_false nofun fun h' => h'.2 (h'.1 ▸ h)
  · rename_i h
    rw [Option.some_inj]
    exact ⟨fun heq => ⟨heq, heq ▸ h⟩, And.left⟩

theorem hyphen_notMem_canonicalize (U : Unicode) (value : GoString) : 45 ∉ canonicalize U value := by
  intro hmem
  have hcut := List.mem_takeWhile_imp ((trimSpace_isInfix ((uncut U value).takeWhile (· != 45))).subset hmem)
  simp at hcut

/-! ## Canonical keys -/

theorem takeWhile_append_of_notMem {b : UInt8} (hs : b ∉ s) (t : GoString) :
    (s ++ t).takeWhile (· != b) = s ++ t.takeWhile (· != b) :=
  List.takeWhile_append_of_pos fun _ hc => bne_iff_ne.2 fun h => hs (h ▸ hc)

theorem takeWhile_of_notMem {b : UInt8} (hs : b ∉ s) : s.takeWhile (· != b) = s := by
  have h := takeWhile_append_of_notMem hs []
  rwa [List.append_nil, List.takeWhile_nil, List.append_nil] at h

theorem canonicalize_canonical_iff (hU : FoldsBearer U) (hkey : canonicalKey U raw = some key) :
    canonicalKey U key = some key ↔ ¬ HasScheme key := by
  obtain ⟨rfl, hne⟩ := canonicalKey_eq_some.1 hkey
  have htrim : trimSpace (canonicalize U raw) = canonicalize U raw := trimSpace_of_trimmed (trimmed_trimSpace _)
  have hhyphen := hyphen_notMem_canonicalize U raw
  generalize canonicalize U raw = key at *
  rw [canonicalKey_eq_some, and_iff_left hne, canonicalize_eq_cut, uncut_eq hU, htrim, withoutScheme]
  constructor
  · -- A key from which a scheme is taken gets shorter.
    intro heq hscheme
    rw [if_pos hscheme] at heq
    have hlength := congrArg List.length heq
    have h1 := (trimSpace_isInfix ((withoutMark (trimSpace (key.drop 7))).takeWhile (· != 45))).length_le
    have h2 := (List.takeWhile_prefix (· != (45 : UInt8)) (l := withoutMark (trimSpace (key.drop 7)))).length_le
    have h3 := (withoutMark_suffix (trimSpace (key.drop 7))).length_le
    have h4 := (trimSpace_isInfix (key.drop 7)).length_le
    have h5 := hscheme.length_le
    rw [List.length_drop] at h4
    rw [List.length_map, show (ascii "bearer ").length = 7 from rfl] at h5
    omega
  · intro hscheme
    have hmark : withoutMark key = key := by
      refine if_neg fun hfront => hhyphen ?_
      exact (List.isPrefixOf_iff_prefix.1 hfront).subset (by decide)
    rw [if_neg hscheme, hmark, takeWhile_of_notMem hhyphen, htrim]

/-! ## The value of `Authorization` -/

theorem lowerByte_eq_space {b : UInt8} : lowerByte b = 32 ↔ b = 32 := by
  unfold lowerByte
  split
  · rename_i h
    simp only [UInt8.le_iff_toNat_le, UInt8.reduceToNat] at h
    simp only [← UInt8.toNat_inj, UInt8.toNat_add, UInt8.reduceToNat]
    omega
  · rfl

theorem scheme_lower (hU : FoldsBearer U) (h : equalFold U s (ascii "Bearer") = true) :
    s.map lowerByte = ascii "bearer" := by
  unfold equalFold at h
  cases hascii : isASCII s with
  | true =>
    rw [hascii, show isASCII (ascii "Bearer") = true by decide] at h
    exact beq_iff_eq.1 h
  | false =>
    rw [hascii] at h
    exact absurd ((hU.fold s hascii).symm.trans h) Bool.false_ne_true

theorem hasScheme_append (hs : s.map lowerByte = ascii "bearer") (t : GoString) :
    HasScheme (s ++ t) ↔ t.head? = some 32 := by
  rw [HasScheme, List.map_append, hs, show ascii "bearer " = ascii "bearer" ++ [32] from rfl,
    List.prefix_append_right_inj]
  cases t with
  | nil => simp
  | cons b t =>
    rw [List.map_cons, List.cons_prefix_cons, and_iff_left List.nil_prefix, List.head?_cons, Option.some_inj, eq_comm,
      lowerByte_eq_space]

theorem not_hasScheme_of_solid (h : ∀ unit ∈ spaces, ¬ unit <:+: s) : ¬ HasScheme s := by
  intro hscheme
  have hspace : 32 ∈ s.map lowerByte := hscheme.subset (by decide)
  obtain ⟨b, hb, hlower⟩ := List.mem_map.1 hspace
  obtain rfl := lowerByte_eq_space.1 hlower
  obtain ⟨x, y, rfl⟩ := List.append_of_mem hb
  exact h [32] (by decide) ⟨x, y, by simp⟩

/-- A value of two words, without white space at its ends. -/
structure TwoWords (value scheme sep word : GoString) : Prop where
  eq : trimSpace value = scheme ++ (sep ++ word)
  bearer : scheme.map lowerByte = ascii "bearer"
  blank : Blank sep
  blank_ne : sep ≠ []
  word_ne : word ≠ []
  solid : ∀ unit ∈ spaces, ¬ unit <:+: word

section

variable {scheme sep word : GoString}

theorem TwoWords.trimmed (h : TwoWords value scheme sep word) : Trimmed word :=
  ⟨spaceOf_eq_none.2 fun unit hunit hfront => h.solid unit hunit hfront.isInfix,
    spaceOf_reverse_eq_none.2 fun unit hunit hsuffix => h.solid unit hunit hsuffix.isInfix⟩

theorem TwoWords.uncut_word (hU : FoldsBearer U) (h : TwoWords value scheme sep word) :
    uncut U word = withoutMark word := by
  rw [uncut_eq hU, trimSpace_of_trimmed h.trimmed, withoutScheme, if_neg (not_hasScheme_of_solid h.solid)]

theorem TwoWords.hasScheme_iff (h : TwoWords value scheme sep word) :
    HasScheme (trimSpace value) ↔ sep.head? = some 32 := by
  rw [h.eq, hasScheme_append h.bearer, List.head?_append_of_ne_nil _ h.blank_ne]

theorem TwoWords.canonicalize_spaced (hU : FoldsBearer U) (h : TwoWords value scheme sep word)
    (hhead : sep.head? = some 32) : canonicalize U value = canonicalize U word := by
  obtain ⟨sep', hsep, hblank⟩ := h.blank.tail_of_head hhead
  have hlength : (scheme ++ [32]).length = 7 := by
    have := congrArg List.length h.bearer
    rw [List.length_map] at this
    rw [List.length_append, this]
    rfl
  have hsplit : trimSpace value = scheme ++ [32] ++ (sep' ++ word) := by
    rw [h.eq, hsep]
    simp
  have hdrop : (trimSpace value).drop 7 = sep' ++ (word ++ []) := by
    rw [hsplit, ← hlength, List.drop_left, List.append_nil]
  rw [canonicalize_eq_cut, canonicalize_eq_cut, h.uncut_word hU, uncut_eq hU, withoutScheme,
    if_pos (h.hasScheme_iff.2 hhead), hdrop, trimSpace_unique hblank .nil h.trimmed]

theorem TwoWords.canonicalize_kept (hU : FoldsBearer U) (h : TwoWords value scheme sep word)
    (hhead : sep.head? ≠ some 32) (hne : canonicalize U word ≠ []) :
    canonicalize U value = scheme ++ (sep ++ word.takeWhile (· != 45)) := by
  have hhyphen : 45 ∉ scheme := by
    intro hmem
    have hlower : lowerByte 45 ∈ scheme.map lowerByte := List.mem_map_of_mem hmem
    rw [h.bearer] at hlower
    exact absurd hlower (by decide)
  have hmark : withoutMark (trimSpace value) = trimSpace value := by
    refine if_neg fun hfront => ?_
    have hlower : (ascii "sk-").map lowerByte <+: (trimSpace value).map lowerByte :=
      (List.isPrefixOf_iff_prefix.1 hfront).map lowerByte
    rw [h.eq, List.map_append, h.bearer] at hlower
    exact absurd (List.cons_prefix_cons.1 hlower).1 (by decide)
  have hword : word.takeWhile (· != 45) ≠ [] := by
    intro hnil
    refine hne ?_
    rw [canonicalize_eq_cut, h.uncut_word hU]
    cases word with
    | nil => exact absurd rfl h.word_ne
    | cons b word =>
      have hb : b = 45 := by
        by_contra hb
        simp [hb] at hnil
      subst hb
      rfl
  rw [canonicalize_eq_cut, uncut_eq hU, withoutScheme, if_neg (h.hasScheme_iff.not.2 hhead), hmark, h.eq,
    takeWhile_append_of_notMem hhyphen, takeWhile_append_of_notMem (h.blank.notMem (by decide))]
  refine trimSpace_of_trimmed ⟨?_, spaceOf_reverse_eq_none.2 ?_⟩
  · refine spaceOf_of_prefix (trimmed_trimSpace value).1 ?_
    rw [h.eq, List.prefix_append_right_inj, List.prefix_append_right_inj]
    exact List.takeWhile_prefix _
  · exact not_suffix_of_last h.blank h.blank_ne hword fun unit hunit hsuffix =>
      h.solid unit hunit (hsuffix.isInfix.trans (List.takeWhile_prefix _).isInfix)

theorem TwoWords.canonicalize_iff (hU : FoldsBearer U) (h : TwoWords value scheme sep word)
    (hkey : canonicalKey U word = some key) : canonicalKey U value = some key ↔ sep.head? = some 32 := by
  obtain ⟨rfl, hne⟩ := canonicalKey_eq_some.1 hkey
  rw [canonicalKey_eq_some, and_iff_left hne]
  constructor
  · intro heq
    by_contra hhead
    rw [h.canonicalize_kept hU hhead hne] at heq
    -- The white space would have to be in the word.
    obtain ⟨unit, hunit, hfront⟩ := h.blank.exists_prefix h.blank_ne
    have hwithin : canonicalize U word <:+: word := (canonicalize_infix_uncut U word).trans (uncut_isInfix hU word)
    rw [← heq] at hwithin
    refine h.solid unit hunit (List.IsInfix.trans ?_ hwithin)
    exact (hfront.trans (List.prefix_append _ _)).isInfix.trans (List.suffix_append _ _).isInfix
  · exact h.canonicalize_spaced hU

end

theorem canonicalize_authorization (hU : FoldsBearer U) (h : authorizationBearerKey U value = some key) :
    canonicalKey U value = some key ↔ (trimSpace value)[6]? = some 32 := by
  unfold authorizationBearerKey at h
  split at h
  · rename_i scheme word hfields
    split at h
    · rename_i hfold
      have hwords := words_fields (trimSpace value)
      rw [hfields] at hwords
      obtain ⟨sep, heq, hsep, hne, hword, hsolid⟩ := hwords.two (trimmed_trimSpace value)
      have htwo : TwoWords value scheme sep word := ⟨heq, scheme_lower hU hfold, hsep, hne, hword, hsolid.not_infix⟩
      have hlength : scheme.length = 6 := by
        have := congrArg List.length htwo.bearer
        rwa [List.length_map] at this
      rw [htwo.canonicalize_iff hU h, heq, List.getElem?_append_right hlength.le, hlength, Nat.sub_self,
        ← List.head?_eq_getElem?, List.head?_append_of_ne_nil _ hne]
    · cases h
  · cases h

/-! ## Items of `Sec-WebSocket-Protocol` -/

theorem splitOn_eq (sep : UInt8) (s : GoString) : s.splitOn sep = s.takeWhile (· != sep) :: (s.splitOn sep).tail := by
  induction s with
  | nil => rfl
  | cons b s ih =>
    rw [List.splitOn, List.splitOnP_cons_eq_if_modifyHead]
    rw [List.splitOn] at ih
    by_cases hb : b = sep
    · simp [hb]
    · rw [if_neg (by simpa using hb), ih]
      simp [hb]

theorem tail_splitOn_append {sep : UInt8} {m : GoString} (hm : sep ∉ m) (s : GoString) :
    ((m ++ s).splitOn sep).tail = (s.splitOn sep).tail := by
  induction m with
  | nil => rfl
  | cons b m ih =>
    obtain ⟨hb, hm⟩ := not_or.1 (List.mem_cons.not.1 hm)
    rw [List.cons_append, List.splitOn, List.splitOnP_cons_eq_if_modifyHead, if_neg (by simpa using Ne.symm hb)]
    rw [List.splitOn] at ih
    rw [← ih hm]
    cases (m ++ s).splitOnP (· == sep) <;> rfl

theorem trimSpace_append_blank {lead : GoString} (hlead : Blank lead) (s : GoString) :
    trimSpace (lead ++ s) = trimSpace s := by
  obtain ⟨lead', trail, hlead', htrail, hs⟩ := trimSpace_spec s
  conv_lhs => rw [hs, ← List.append_assoc]
  exact trimSpace_unique (hlead.append hlead') htrail (trimmed_trimSpace s)

theorem realtimeKey_mark (U : Unicode) {lead : GoString} (hlead : Blank lead) (s : GoString) :
    realtimeKey U (lead ++ (realtimeMark ++ s)) = canonicalKey U s := by
  have hnone : spaceOf spaces (realtimeMark ++ s) = none := rfl
  obtain ⟨y, hy⟩ : realtimeMark <+: trimSpace (realtimeMark ++ s) :=
    hasPrefix_trimSpace (m := ascii "openai-insecure-api-key") (b := 46) .nil (by decide) hnone
  obtain ⟨lead', trail, hlead', htrail, heq⟩ := trimSpace_spec (realtimeMark ++ s)
  have hnil : lead' = [] := by
    by_contra hne
    obtain ⟨unit, hunit, hfront⟩ := hlead'.exists_prefix hne
    exact spaceOf_eq_none.1 hnone unit hunit (heq ▸ hfront.trans (List.prefix_append _ _))
  rw [hnil, ← hy, List.nil_append, List.append_assoc] at heq
  have hs : s = y ++ trail := List.append_cancel_left heq
  -- What is removed after the mark is white space, which is removed from a key anyway.
  have htrim : trimSpace y = trimSpace s := by
    obtain ⟨lead', trail', hlead', htrail', hy'⟩ := trimSpace_spec y
    rw [hs, hy', List.append_assoc, List.append_assoc, trimSpace_unique hlead' (htrail'.append htrail)
      (trimmed_trimSpace y), ← hy']
  rw [realtimeKey, trimSpace_append_blank hlead, ← hy, if_pos (List.isPrefixOf_iff_prefix.2 (List.prefix_append _ _)),
    List.drop_left, canonicalKey, canonicalKey, canonicalize_congr htrim]

/-- A value of `Sec-WebSocket-Protocol`: an item, with what the list has before it and after it. -/
def protocols (before : List GoString) (item : GoString) (after : List GoString) : GoString :=
  before.flatMap (· ++ [44]) ++ (item ++ after.flatMap (44 :: ·))

/-- The items of parts of a list. -/
def itemsOf (parts : List GoString) : List GoString := parts.flatMap (·.splitOn 44)

theorem comma_notMem_itemsOf {parts : List GoString} {item : GoString} (h : item ∈ itemsOf parts) : 44 ∉ item := by
  obtain ⟨part, -, hitem⟩ := List.mem_flatMap.1 h
  exact notMem_of_mem_splitOn part item hitem

theorem splitOn_protocols (before : List GoString) (item : GoString) (after : List GoString) :
    (protocols before item after).splitOn 44 = itemsOf before ++ (item.splitOn 44 ++ itemsOf after) := by
  unfold protocols itemsOf
  induction before with
  | nil =>
    induction after generalizing item with
    | nil => simp
    | cons part after ih => simpa [List.splitOn_append_cons_self] using ih part
  | cons part before ih => simpa [List.splitOn_append_cons_self] using ih

section

variable {U : Unicode} {before after : List GoString} {lead raw : GoString}

theorem realtimeKeyOf_protocols (hlead : Blank lead) (hbefore : ∀ item ∈ itemsOf before, realtimeKey U item = none) :
    realtimeKeyOf U (protocols before (lead ++ (realtimeMark ++ raw)) after) =
      (canonicalKey U (raw.takeWhile (· != 44))).or
        (((raw.splitOn 44).tail ++ itemsOf after).findSome? (realtimeKey U)) := by
  have hmark : 44 ∉ realtimeMark := by decide
  have hblank : 44 ∉ lead := hlead.notMem (by decide)
  have hne : protocols before (lead ++ (realtimeMark ++ raw)) after ≠ [] := by
    refine List.append_ne_nil_of_right_ne_nil _ (List.append_ne_nil_of_left_ne_nil ?_ _)
    exact List.append_ne_nil_of_right_ne_nil _ (List.append_ne_nil_of_left_ne_nil (by decide) raw)
  rw [realtimeKeyOf, if_neg hne, splitOn_protocols, List.findSome?_append, List.findSome?_eq_none_iff.2 hbefore,
    Option.none_or, splitOn_eq, tail_splitOn_append hblank, tail_splitOn_append hmark,
    takeWhile_append_of_notMem hblank, takeWhile_append_of_notMem hmark, List.cons_append, List.findSome?_cons,
    realtimeKey_mark U hlead]
  cases canonicalKey U (raw.takeWhile (· != 44)) <;> rfl

end

/-! ## Commas

What is cut from a key does not depend on what follows the hyphen at which it is cut, a comma for instance. -/

section

variable {c m p q x : GoString}

theorem prefix_before {b : UInt8} (hb : b ∉ s) (h : s <+: x ++ b :: q) : s <+: x := by
  have hx : x ++ [b] <+: x ++ b :: q := (List.prefix_append_right_inj x).2 ⟨q, rfl⟩
  obtain h | h := List.prefix_or_prefix_of_prefix h hx
  · obtain rfl | h := List.prefix_concat_iff.1 h
    · exact absurd (by simp) hb
    · exact h
  · exact absurd (h.subset (by simp)) hb

theorem trimSpace_hyphen {lead : GoString} (hlead : Blank lead) (hx : spaceOf spaces x = none) (q : GoString) :
    ∃ q', trimSpace (lead ++ (x ++ 45 :: q)) = x ++ 45 :: q' := by
  have hhyphen : ∀ unit ∈ spaces, 45 ∉ unit := by decide
  have hnone : spaceOf spaces (x ++ [45] ++ q) = none := by
    refine spaceOf_eq_none.2 fun unit hunit hfront => spaceOf_eq_none.1 hx unit hunit ?_
    rw [List.append_assoc] at hfront
    exact prefix_before (hhyphen unit hunit) hfront
  obtain ⟨q', hq'⟩ := hasPrefix_trimSpace hlead hhyphen hnone
  refine ⟨q', ?_⟩
  rw [List.append_assoc, List.append_assoc] at hq'
  exact hq'.symm

theorem hasScheme_hyphen (x q : GoString) : HasScheme (x ++ 45 :: q) ↔ HasScheme x := by
  unfold HasScheme
  rw [List.map_append, List.map_cons]
  exact ⟨prefix_before (by decide), fun h => h.trans (List.prefix_append _ _)⟩

theorem withoutMark_hyphen (hcut : withoutMark c = m ++ 45 :: q) (hm : 45 ∉ m) :
    ∃ p, c = p ++ 45 :: q ∧ (44 ∉ m → 44 ∉ p) ∧ ∀ q', withoutMark (p ++ 45 :: q') = m ++ 45 :: q' := by
  unfold withoutMark at hcut
  split at hcut
  · rename_i hmark
    obtain ⟨rest, rfl⟩ := List.isPrefixOf_iff_prefix.1 hmark
    have hrest : rest = m ++ 45 :: q := hcut
    refine ⟨ascii "sk-" ++ m, by rw [hrest, List.append_assoc], fun hcomma => ?_, fun q' => ?_⟩
    · exact List.mem_append.not.2 (not_or.2 ⟨by decide, hcomma⟩)
    · rw [List.append_assoc, withoutMark, if_pos (List.isPrefixOf_iff_prefix.2 (List.prefix_append _ _))]
      rfl
  · rename_i hmark
    refine ⟨m, hcut, id, fun q' => if_neg fun hmark' => hmark ?_⟩
    -- Without a hyphen before it, the mark would be all that precedes the hyphen.
    rw [List.isPrefixOf_iff_prefix] at hmark' ⊢
    have hsk : ascii "sk" <+: m := by
      refine prefix_before (b := 45) (by decide) (List.IsPrefix.trans ?_ hmark')
      exact ⟨[45], rfl⟩
    obtain ⟨rest, rfl⟩ := hsk
    cases rest with
    | nil => exact hcut ▸ ⟨q, rfl⟩
    | cons b rest =>
      have hb : b = 45 :=
        (List.cons_prefix_cons.1 (List.cons_prefix_cons.1 (List.cons_prefix_cons.1 hmark').2).2).1.symm
      exact absurd (by simp [hb]) hm

theorem withoutScheme_hyphen (hcut : withoutScheme c = p ++ 45 :: q) :
    ∃ x q₁, c = x ++ 45 :: q₁ ∧ (44 ∉ p → 44 ∉ x) ∧ ∀ q', ∃ q'', withoutScheme (x ++ 45 :: q') = p ++ 45 :: q'' := by
  unfold withoutScheme at hcut
  split at hcut
  · rename_i hscheme
    obtain ⟨lead, trail, hlead, -, hdrop⟩ := trimSpace_spec (c.drop 7)
    have hp : spaceOf spaces p = none := by
      refine spaceOf_of_prefix (trimmed_trimSpace (c.drop 7)).1 ?_
      rw [hcut]
      exact List.prefix_append _ _
    rw [hcut] at hdrop
    have hc' : c = c.take 7 ++ (lead ++ p) ++ 45 :: (q ++ trail) := by
      conv_lhs => rw [← List.take_append_drop 7 c, hdrop]
      simp
    have hlower : (c.take 7).map lowerByte = ascii "bearer " := by
      rw [List.map_take]
      exact (List.prefix_iff_eq_take.1 hscheme).symm
    have hlength : (c.take 7).length = 7 := by
      have := congrArg List.length hlower
      rwa [List.length_map] at this
    refine ⟨c.take 7 ++ (lead ++ p), q ++ trail, hc', fun hcomma => ?_, fun q' => ?_⟩
    · refine List.mem_append.not.2 (not_or.2 ⟨fun hmem => ?_, List.mem_append.not.2 (not_or.2 ⟨?_, hcomma⟩)⟩)
      · have hmem' : lowerByte 44 ∈ (c.take 7).map lowerByte := List.mem_map_of_mem hmem
        rw [hlower] at hmem'
        exact absurd hmem' (by decide)
      · exact hlead.notMem (by decide)
    · have hscheme' : HasScheme (c.take 7 ++ (lead ++ (p ++ 45 :: q'))) := by
        rw [HasScheme, List.map_append, hlower]
        exact List.prefix_append _ _
      obtain ⟨q'', hq''⟩ := trimSpace_hyphen hlead hp q'
      refine ⟨q'', ?_⟩
      rw [List.append_assoc, List.append_assoc, withoutScheme, if_pos hscheme', List.drop_left' hlength, hq'']
  · rename_i hscheme
    refine ⟨p, q, hcut, id, fun q' => ⟨q', if_neg ?_⟩⟩
    rw [hcut, hasScheme_hyphen] at hscheme
    rwa [hasScheme_hyphen]

theorem comma_mem_trimSpace (h : 44 ∈ s) : 44 ∈ trimSpace s := by
  have hspaces : ∀ unit ∈ spaces, 44 ∉ unit := by decide
  obtain ⟨lead, trail, hlead, htrail, heq⟩ := trimSpace_spec s
  rw [heq, List.mem_append, List.mem_append] at h
  obtain h | h | h := h
  · exact absurd h (hlead.notMem hspaces)
  · exact h
  · exact absurd h (htrail.notMem hspaces)

theorem comma_mem_uncut (hU : FoldsBearer U) (h : 44 ∈ raw) : 44 ∈ uncut U raw := by
  have hscheme {s : GoString} (hs : 44 ∈ s) : 44 ∈ withoutScheme s := by
    unfold withoutScheme
    split
    · rename_i hscheme
      refine comma_mem_trimSpace ?_
      rw [← List.take_append_drop 7 s, List.mem_append] at hs
      obtain hs | hs := hs
      · have hmem : lowerByte 44 ∈ (s.take 7).map lowerByte := List.mem_map_of_mem hs
        have hlower : ascii "bearer " = (s.map lowerByte).take 7 := List.prefix_iff_eq_take.1 hscheme
        rw [List.map_take, ← hlower] at hmem
        exact absurd hmem (by decide)
      · exact hs
    · exact hs
  have hmark {s : GoString} (hs : 44 ∈ s) : 44 ∈ withoutMark s := by
    unfold withoutMark
    split
    · rename_i hfront
      obtain ⟨rest, rfl⟩ := List.isPrefixOf_iff_prefix.1 hfront
      obtain hs | hs := List.mem_append.1 hs
      · exact absurd hs (by decide)
      · exact hs
    · exact hs
  rw [uncut_eq hU]
  exact hmark (hscheme (comma_mem_trimSpace h))

theorem canonicalize_before_comma (hU : FoldsBearer U) (h : 44 ∉ (uncut U raw).takeWhile (· != 45)) :
    canonicalize U (raw.takeWhile (· != 44)) = canonicalize U raw := by
  by_cases hcomma : 44 ∈ raw
  · by_cases hhyphen : 45 ∈ uncut U raw
    · obtain ⟨m, q, hcut, hm⟩ := List.eq_append_cons_of_mem hhyphen
      have hkey (q : GoString) : (m ++ 45 :: q).takeWhile (· != 45) = m := by
        rw [takeWhile_append_of_notMem hm]
        simp
      rw [hcut, hkey] at h
      rw [canonicalize_eq_cut, canonicalize_eq_cut, hcut, hkey]
      rw [uncut_eq hU] at hcut
      obtain ⟨p, hp, hpcomma, hmark⟩ := withoutMark_hyphen hcut hm
      obtain ⟨x, q₁, hx, hxcomma, hscheme⟩ := withoutScheme_hyphen hp
      obtain ⟨lead, trail, hlead, -, hraw⟩ := trimSpace_spec raw
      have hnone : spaceOf spaces x = none :=
        spaceOf_of_prefix (trimmed_trimSpace raw).1 (hx ▸ List.prefix_append _ _)
      -- The text before the comma goes beyond the hyphen.
      have hfront : raw.takeWhile (· != 44) = lead ++ (x ++ 45 :: (q₁ ++ trail).takeWhile (· != 44)) := by
        conv_lhs => rw [hraw, hx]
        rw [takeWhile_append_of_notMem (hlead.notMem (by decide)), List.append_assoc,
          takeWhile_append_of_notMem (hxcomma (hpcomma h)), List.cons_append, List.takeWhile_cons_of_pos (by decide)]
      obtain ⟨q₂, hq₂⟩ := trimSpace_hyphen hlead hnone ((q₁ ++ trail).takeWhile (· != 44))
      obtain ⟨q₃, hq₃⟩ := hscheme q₂
      rw [uncut_eq hU, hfront, hq₂, hq₃, hmark, hkey]
    · refine absurd ?_ h
      rw [takeWhile_of_notMem hhyphen]
      exact comma_mem_uncut hU hcomma
  · rw [takeWhile_of_notMem hcomma]

/-- A key gets through `Sec-WebSocket-Protocol`: no comma precedes the hyphen at which it is cut, and if nothing
precedes it, no later item has a key. -/
def OneItem (U : Unicode) (raw : GoString) (after : List GoString) : Prop :=
  44 ∉ (uncut U raw).takeWhile (· != 45) ∧
    (canonicalize U raw = [] → ∀ item ∈ (raw.splitOn 44).tail ++ itemsOf after, realtimeKey U item = none)

theorem canonicalKey_isInfix (hU : FoldsBearer U) (h : canonicalKey U s = some key) : key <:+: s :=
  (canonicalKey_eq_some.1 h).1 ▸ (canonicalize_infix_uncut U s).trans (uncut_isInfix hU s)

theorem realtimeKey_isInfix (hU : FoldsBearer U) (h : realtimeKey U s = some key) : key <:+: s := by
  unfold realtimeKey at h
  split at h
  · exact (canonicalKey_isInfix hU h).trans ((List.drop_suffix _ _).isInfix.trans (trimSpace_isInfix s))
  · cases h

theorem realtimeKeyOf_protocols_iff (hU : FoldsBearer U) {before after : List GoString} {lead : GoString}
    (hlead : Blank lead) (hbefore : ∀ item ∈ itemsOf before, realtimeKey U item = none) :
    realtimeKeyOf U (protocols before (lead ++ (realtimeMark ++ raw)) after) = canonicalKey U raw ↔
      OneItem U raw after := by
  rw [realtimeKeyOf_protocols hlead hbefore]
  constructor
  · intro h
    refine ⟨fun hcomma => ?_, fun hnone => ?_⟩
    · -- The key would have a comma, but no item has one.
      have hmem : 44 ∈ canonicalize U raw := comma_mem_trimSpace hcomma
      have hsome : canonicalKey U raw = some (canonicalize U raw) := if_neg (List.ne_nil_of_mem hmem)
      rw [hsome] at h
      obtain h | ⟨-, h⟩ := Option.or_eq_some_iff.1 h
      · exact absurd ((canonicalKey_isInfix hU h).subset hmem) fun h => by simpa using List.mem_takeWhile_imp h
      · obtain ⟨item, hitem, hkey⟩ := List.exists_of_findSome?_eq_some h
        have hitem' : 44 ∉ item := (List.mem_append.1 hitem).elim
          (fun hitem => notMem_of_mem_splitOn raw item (List.mem_of_mem_tail hitem)) comma_notMem_itemsOf
        exact hitem' ((realtimeKey_isInfix hU hkey).subset hmem)
    · have hkey : canonicalKey U raw = none := if_pos hnone
      rw [hkey, Option.or_eq_none_iff] at h
      exact List.findSome?_eq_none_iff.1 h.2
  · rintro ⟨hcomma, hitems⟩
    have hfront := canonicalize_before_comma hU hcomma
    rw [canonicalKey, hfront, canonicalKey]
    split
    · rename_i hnone
      rw [Option.none_or]
      exact List.findSome?_eq_none_iff.2 (hitems hnone)
    · rfl

end

end

/-! ## Requests -/

/-- The order in which `Extract` looks at its sources. -/
def KeySource.place : KeySource → Nat
  | .authorization => 0
  | .anthropic => 1
  | .geminiQuery => 2
  | .geminiHeader => 3
  | .midjourney => 4
  | .realtime => 5

/-- No source that `Extract` looks at before this one has a key. -/
def NoneBefore (U : Unicode) (req : KeyRequest) (source : KeySource) : Prop :=
  ∀ key ∈ [authorizationBearerKey U (headerGet req.header "Authorization"),
    canonicalKey U (headerGet req.header "x-api-key"), canonicalKey U (((keyParam req.rawQuery).map Prod.snd).getD []),
    canonicalKey U (headerGet req.header "x-goog-api-key"),
    canonicalKey U (headerGet req.header "mj-api-secret")].take source.place, key = none

def keyHeaders : List (String × KeySource) :=
  [("x-api-key", .anthropic), ("x-goog-api-key", .geminiHeader), ("mj-api-secret", .midjourney)]

section

variable {U : Unicode} {req : KeyRequest} {key : GoString}

theorem authorizationBearerKey_of_extract (h : extract U req = some ⟨key, .authorization⟩) :
    authorizationBearerKey U (headerGet req.header "Authorization") = some key := by
  simp only [extract, Option.or_eq_some_iff, Option.map_eq_some_iff, Option.map_eq_none_iff, ExtractedKey.mk.injEq,
    reduceCtorEq, and_false, exists_false, or_false, and_true, exists_eq_right] at h
  exact h

theorem extract_header_iff : ∀ header ∈ keyHeaders, NoneBefore U req header.2 →
    (extract U req = some ⟨key, header.2⟩ ↔ canonicalKey U (headerGet req.header header.1) = some key) := by
  simp only [keyHeaders, List.forall_mem_cons]
  refine ⟨fun h => ?_, fun h => ?_, fun h => ?_, List.forall_mem_nil _⟩ <;>
    simp_all [NoneBefore, KeySource.place, extract, Option.or_eq_some_iff]

theorem extract_query_iff {encoded raw : GoString} (hquery : keyParam req.rawQuery = some (encoded, raw))
    (h : NoneBefore U req .geminiQuery) :
    extract U req = some ⟨key, .geminiQuery⟩ ↔ canonicalKey U raw = some key := by
  simp_all [NoneBefore, KeySource.place, extract, Option.or_eq_some_iff]

theorem extract_realtime (h : NoneBefore U req .realtime) :
    extract U req = (realtimeKeyOf U (headerGet req.header "Sec-WebSocket-Protocol")).map (⟨·, .realtime⟩) := by
  simp_all [NoneBefore, KeySource.place, extract]

end

/-- When the key of a request does not depend on how it is presented. -/
theorem key_spellings_iff (U : Unicode) (hU : FoldsBearer U) :
    (∀ req key, extract U req = some ⟨key, .authorization⟩ →
      (canonicalKey U (headerGet req.header "Authorization") = some key ↔
        (trimSpace (headerGet req.header "Authorization"))[6]? = some 32)) ∧
      (∀ req key, ∀ header ∈ keyHeaders, NoneBefore U req header.2 →
        (extract U req = some ⟨key, header.2⟩ ↔ canonicalKey U (headerGet req.header header.1) = some key)) ∧
      (∀ req key encoded raw, keyParam req.rawQuery = some (encoded, raw) → NoneBefore U req .geminiQuery →
        (extract U req = some ⟨key, .geminiQuery⟩ ↔ canonicalKey U raw = some key)) ∧
      (∀ req before lead raw after, NoneBefore U req .realtime →
        headerGet req.header "Sec-WebSocket-Protocol" = protocols before (lead ++ (realtimeMark ++ raw)) after →
        (∀ item ∈ itemsOf before, realtimeKey U item = none) → Blank lead →
        (extract U req = (canonicalKey U raw).map (⟨·, .realtime⟩) ↔ OneItem U raw after)) ∧
      ∀ raw key, canonicalKey U raw = some key → (canonicalKey U key = some key ↔ ¬ HasScheme key) := by
  refine ⟨fun req key h => canonicalize_authorization hU (authorizationBearerKey_of_extract h),
    fun req key => extract_header_iff, fun req key encoded raw => extract_query_iff,
    fun req before lead raw after hnone hvalue hbefore hlead => ?_, fun raw key => canonicalize_canonical_iff hU⟩
  have hinj : Function.Injective fun key : GoString => (⟨key, .realtime⟩ : ExtractedKey) :=
    fun key key' h => (ExtractedKey.mk.inj h).1
  rw [extract_realtime hnone, hvalue, ← realtimeKeyOf_protocols_iff hU hlead hbefore]
  exact (Option.map_injective hinj).eq_iff

/-- A request with one header. -/
def headerRequest (name : String) (value : GoString) : KeyRequest where
  header := ⟨[(canonicalHeaderKey (ascii name), [value])], List.nodup_singleton _⟩
  rawQuery := []

theorem foldsBearer_byteUnicode : FoldsBearer byteUnicode := by
  refine ⟨fun s _ => Iff.rfl, fun s hs => Bool.eq_false_iff.2 fun h => ?_⟩
  have hfold : s.map lowerByte = (ascii "Bearer").map lowerByte := beq_iff_eq.1 h
  have hascii := isASCII_map_lowerByte s
  rw [hfold, hs] at hascii
  exact absurd hascii (by decide)

/-- A value with a space after the scheme. -/
theorem key_spellings_iff_space :
    extract byteUnicode (headerRequest "Authorization" (ascii "Bearer sk-abc-1")) = some ⟨ascii "abc", .authorization⟩ ∧
      canonicalKey byteUnicode (ascii "Bearer sk-abc-1") = some (ascii "abc") := by
  have hextract : extract byteUnicode (headerRequest "Authorization" (ascii "Bearer sk-abc-1")) =
      some ⟨ascii "abc", .authorization⟩ := by decide +kernel
  exact ⟨hextract, ((key_spellings_iff byteUnicode foldsBearer_byteUnicode).1 _ _ hextract).2 (by decide +kernel)⟩

/-- With a tab after the scheme it is taken for the key, a key that begins with a scheme is canonicalized again, and a
key ends at a comma. -/
theorem key_depends_on_spelling :
    (extract byteUnicode (headerRequest "Authorization" (ascii "Bearer\tsk-abc")) = some ⟨ascii "abc", .authorization⟩ ∧
      canonicalKey byteUnicode (ascii "Bearer\tsk-abc") = some (ascii "Bearer\tsk")) ∧
    (canonicalKey byteUnicode (ascii "bearer bearer abc") = some (ascii "bearer abc") ∧
      canonicalKey byteUnicode (ascii "bearer abc") = some (ascii "abc")) ∧
    (canonicalKey byteUnicode (ascii "abc,def") = some (ascii "abc,def") ∧
      extract byteUnicode (headerRequest "Sec-WebSocket-Protocol" (realtimeMark ++ ascii "abc,def")) =
        some ⟨ascii "abc", .realtime⟩) := by
  decide +kernel

end AuditGateway.Gateway
