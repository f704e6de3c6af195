import Mathlib.Data.List.Infix

/-!
# Brackets

A block goes from an opening bracket to the closing bracket that matches it: the depth, which an opening bracket
raises and a closing one lowers, comes back for the first time. Brackets need not match elsewhere.

* `IsBlock.unique`: at most one block begins at a place.
* `IsBlock.matched`: an opening bracket in a block begins a block, which ends in it.
* `blocks_induct`: a text is gone through from the end, block by block and otherwise element by element.
* `Replaced`: the blocks that are in no other are replaced, if they have a property, and all else is kept.
-/

namespace AuditGateway.Framework

structure Brackets (α : Type) where
  opening : α
  closing : α
  ne : opening ≠ closing

namespace Brackets

variable {α : Type} [DecidableEq α] {B : Brackets α} {s t b : List α} {c : α} {d : Int}

/-- What an element adds to the depth. -/
def step (B : Brackets α) (c : α) : Int := if c = B.opening then 1 else if c = B.closing then -1 else 0

/-- The depth is `d` before the elements, and comes to zero with the last of them and not before. -/
def Closes (B : Brackets α) (d : Int) : List α → Prop
  | [] => d = 0
  | c :: s => 0 < d ∧ B.Closes (d + B.step c) s

def IsBlock (B : Brackets α) (b : List α) : Prop := ∃ s, b = B.opening :: s ∧ B.Closes 1 s

/-- The text begins with an opening bracket, and with no block. -/
def Unmatched (B : Brackets α) (s : List α) : Prop := s.head? = some B.opening ∧ ∀ b, b <+: s → ¬ B.IsBlock b

/-- The second text is the first with some of its blocks replaced by a mark: those with `p` that are in no larger
block. The first is cut into blocks and elements where no block begins, so that a block is cut out if and only if it
is in no other. -/
inductive Replaced (B : Brackets α) (p : List α → Prop) (mark : List α) : List α → List α → Prop
  | nil : Replaced B p mark [] []
  | plain {c : α} {s t : List α} (h : ∀ b, b <+: c :: s → ¬ B.IsBlock b) (rest : Replaced B p mark s t) :
    Replaced B p mark (c :: s) (c :: t)
  | kept {b s t : List α} (h : B.IsBlock b) (hp : ¬ p b) (rest : Replaced B p mark s t) :
    Replaced B p mark (b ++ s) (b ++ t)
  | marked {b s t : List α} (h : B.IsBlock b) (hp : p b) (rest : Replaced B p mark s t) :
    Replaced B p mark (b ++ s) (mark ++ t)

/-! ## Blocks -/

theorem neg_one_le_step (c : α) : -1 ≤ B.step c := by
  unfold step
  split
  · decide
  · split <;> decide

theorem Closes.unique (h : B.Closes d s) (h' : B.Closes d t) {text : List α} (hs : s <+: text) (ht : t <+: text) :
    s = t := by
  induction text generalizing d s t with
  | nil => rw [List.prefix_nil.1 hs, List.prefix_nil.1 ht]
  | cons c text ih =>
    cases s with
    | nil =>
      cases t with
      | nil => rfl
      | cons _ _ => exact absurd h'.1 (by rw [show d = 0 from h]; decide)
    | cons a s =>
      cases t with
      | nil => exact absurd h.1 (by rw [show d = 0 from h']; decide)
      | cons a' t =>
        obtain ⟨rfl, hs'⟩ := List.cons_prefix_cons.1 hs
        obtain ⟨rfl, ht'⟩ := List.cons_prefix_cons.1 ht
        rw [ih h.2 h'.2 hs' ht']

theorem IsBlock.unique {b' : List α} (h : B.IsBlock b) (h' : B.IsBlock b') (hb : b <+: t) (hb' : b' <+: t) :
    b = b' := by
  obtain ⟨s, rfl, hs⟩ := h
  obtain ⟨s', rfl, hs'⟩ := h'
  obtain ⟨rest, rfl⟩ := hb
  rw [hs.unique hs' (List.prefix_append s rest) (List.cons_prefix_cons.1 hb').2]

theorem IsBlock.ne_nil (h : B.IsBlock b) : b ≠ [] := by
  obtain ⟨s, rfl, -⟩ := h
  exact List.cons_ne_nil _ _

theorem Closes.exists_below {e : Int} (h : B.Closes d s) (he : 0 < e) (hle : e ≤ d) :
    ∃ z, z <+: s ∧ B.Closes e z := by
  induction s generalizing d e with
  | nil =>
    have hzero : d = 0 := h
    omega
  | cons c s ih =>
    by_cases hc : e + B.step c = 0
    · exact ⟨[c], List.cons_prefix_cons.2 ⟨rfl, List.nil_prefix⟩, he, hc⟩
    · have hstep := neg_one_le_step (B := B) c
      obtain ⟨z, hz, hclose⟩ := ih h.2 (by omega) (Int.add_le_add_right hle _)
      exact ⟨c :: z, List.cons_prefix_cons.2 ⟨rfl, hz⟩, he, hclose⟩

theorem Closes.matched (h : B.Closes d s) (ht : t <:+ s) (hopen : t.head? = some B.opening) :
    ∃ b, b <+: t ∧ B.IsBlock b := by
  induction s generalizing d with
  | nil =>
    rw [List.suffix_nil.1 ht] at hopen
    cases hopen
  | cons c s ih =>
    obtain rfl | ht := List.suffix_cons_iff.1 ht
    · obtain rfl := Option.some.inj hopen
      have hstep : B.step B.opening = 1 := if_pos rfl
      have hpos := h.1
      obtain ⟨z, hz, hclose⟩ := h.2.exists_below Int.one_pos (by omega)
      exact ⟨B.opening :: z, List.cons_prefix_cons.2 ⟨rfl, hz⟩, z, rfl, hclose⟩
    · exact ih h.2 ht

theorem IsBlock.matched (h : B.IsBlock b) (ht : t <:+ b) (hopen : t.head? = some B.opening) :
    ∃ b', b' <+: t ∧ B.IsBlock b' := by
  obtain ⟨s, rfl, hs⟩ := h
  obtain rfl | ht := List.suffix_cons_iff.1 ht
  · exact ⟨_, List.prefix_rfl, s, rfl, hs⟩
  · exact hs.matched ht hopen

theorem blocks_induct {P : List α → Prop} (nil : P []) (plain : ∀ c s, c ≠ B.opening → P s → P (c :: s))
    (block : ∀ b s, B.IsBlock b → P s → P (b ++ s))
    (unmatched : ∀ s, B.Unmatched (B.opening :: s) → P s → P (B.opening :: s)) (s : List α) : P s := by
  induction hn : s.length using Nat.strong_induction_on generalizing s with
  | _ n ih =>
    cases s with
    | nil => exact nil
    | cons c s =>
      have hs : P s := ih s.length (by rw [← hn]; exact Nat.lt_succ_self _) s rfl
      by_cases hc : c = B.opening
      · subst hc
        by_cases hblock : ∃ b, b <+: B.opening :: s ∧ B.IsBlock b
        · obtain ⟨b, ⟨rest, hrest⟩, hb⟩ := hblock
          have hpos := List.length_pos_of_ne_nil hb.ne_nil
          have hlength : b.length + rest.length = n := by rw [← hn, ← hrest, List.length_append]
          rw [← hrest]
          exact block b rest hb (ih rest.length (by omega) rest rfl)
        · exact unmatched s ⟨rfl, fun b hbegin hb => hblock ⟨b, hbegin, hb⟩⟩ hs
      · exact plain c s hc hs

theorem not_isBlock_of_ne (hc : c ≠ B.opening) (hb : b <+: c :: s) : ¬ B.IsBlock b := by
  rintro ⟨z, rfl, -⟩
  exact hc (List.cons_prefix_cons.1 hb).1.symm

omit [DecidableEq α] in
theorem suffix_append_cases {r : List α} (h : r <:+ b ++ s) : r <:+ s ∨ ∃ y, y <:+ b ∧ r = y ++ s := by
  obtain hr | ⟨y, rfl⟩ := List.suffix_or_suffix_of_suffix h (List.suffix_append b s)
  · exact .inl hr
  · exact .inr ⟨y, (List.suffix_append_inj_of_length_eq rfl).1 h |>.1, rfl⟩

theorem IsBlock.unmatched_suffix {r : List α} (h : B.IsBlock b) (hr : B.Unmatched r) (hsuffix : r <:+ b ++ s) :
    r <:+ s := by
  obtain hs | ⟨y, hy, rfl⟩ := suffix_append_cases hsuffix
  · exact hs
  · cases y with
    | nil => exact List.suffix_rfl
    | cons a y =>
      obtain ⟨b', hbegin, hb'⟩ := h.matched hy hr.1
      exact absurd hb' (hr.2 b' (hbegin.trans (List.prefix_append _ _)))

theorem IsBlock.infix_cases {b' : List α} (h : B.IsBlock b) (h' : B.IsBlock b') (hpart : b' <:+: b ++ s) :
    b' <:+: s ∨ b' <:+: b := by
  obtain ⟨r, hbegin, hsuffix⟩ := List.infix_iff_prefix_suffix.1 hpart
  obtain hs | ⟨y, hy, rfl⟩ := suffix_append_cases hsuffix
  · exact .inl (List.infix_iff_prefix_suffix.2 ⟨r, hbegin, hs⟩)
  · cases y with
    | nil => exact .inl hbegin.isInfix
    | cons a y =>
      obtain ⟨z, rfl, -⟩ := id h'
      have hopen : a = B.opening := (List.cons_prefix_cons.1 hbegin).1.symm
      obtain ⟨b'', hbegin', hb''⟩ := h.matched hy (by rw [hopen]; rfl)
      rw [h'.unique hb'' hbegin (hbegin'.trans (List.prefix_append _ _))]
      exact .inr (hbegin'.isInfix.trans hy.isInfix)

/-! ## Replaced blocks -/

section

variable {p : List α → Prop} {mark : List α}

theorem Replaced.rest_of_plain (hnone : ∀ b, b <+: c :: s → ¬ B.IsBlock b)
    (h : B.Replaced p mark (c :: s) (c :: t)) : B.Replaced p mark s t := by
  generalize hx : c :: s = x, hy : c :: t = y at h
  cases h with
  | nil => cases hx
  | plain _ rest =>
    obtain ⟨rfl, rfl⟩ := List.cons.inj hx
    obtain ⟨-, rfl⟩ := List.cons.inj hy
    exact rest
  | kept hb | marked hb => exact absurd hb (hnone _ (hx ▸ List.prefix_append _ _))

theorem Replaced.rest_of_block [Decidable (p b)] (hb : B.IsBlock b)
    (h : B.Replaced p mark (b ++ s) ((if p b then mark else b) ++ t)) : B.Replaced p mark s t := by
  generalize hx : b ++ s = x, hy : (if p b then mark else b) ++ t = y at h
  cases h with
  | nil => exact absurd (List.append_eq_nil_iff.1 hx).1 hb.ne_nil
  | plain hnone _ => exact absurd hb (hnone b (hx ▸ List.prefix_append _ _))
  | kept hb' hp rest =>
    obtain rfl := hb.unique hb' (List.prefix_append b s) (hx ▸ List.prefix_append _ _)
    rw [if_neg hp] at hy
    rwa [List.append_cancel_left hx, List.append_cancel_left hy]
  | marked hb' hp rest =>
    obtain rfl := hb.unique hb' (List.prefix_append b s) (hx ▸ List.prefix_append _ _)
    rw [if_pos hp] at hy
    rwa [List.append_cancel_left hx, List.append_cancel_left hy]

theorem replaced_self (h : ∀ b, b <:+: s → B.IsBlock b → ¬ p b) : B.Replaced p mark s s := by
  induction s using B.blocks_induct with
  | nil => exact .nil
  | plain c s hc ih =>
    exact .plain (fun b => not_isBlock_of_ne hc) (ih fun b hb => h b (hb.trans (List.suffix_cons c s).isInfix))
  | block b s hb ih =>
    exact .kept hb (h b (List.prefix_append b s).isInfix hb)
      (ih fun b' hb' => h b' (hb'.trans (List.suffix_append b s).isInfix))
  | unmatched s hs ih => exact .plain hs.2 (ih fun b hb => h b (hb.trans (List.suffix_cons _ s).isInfix))

variable (hmark : ∀ b, p b → mark.length < b.length)

include hmark

theorem Replaced.length_le (h : B.Replaced p mark s t) : t.length ≤ s.length := by
  induction h with
  | nil => exact Nat.le_refl 0
  | plain _ _ ih => exact Nat.succ_le_succ ih
  | kept _ _ _ ih =>
    rw [List.length_append, List.length_append]
    exact Nat.add_le_add_left ih _
  | marked _ hp _ ih =>
    rw [List.length_append, List.length_append]
    exact Nat.add_le_add (Nat.le_of_lt (hmark _ hp)) ih

theorem Replaced.none_of_length (hmono : ∀ b b', b <:+: b' → p b → p b') (h : B.Replaced p mark s t)
    (hlength : s.length ≤ t.length) : ∀ b, b <:+: s → B.IsBlock b → ¬ p b := by
  induction h with
  | nil =>
    intro b hpart hb
    exact absurd (List.infix_nil.1 hpart) hb.ne_nil
  | plain hnone _ ih =>
    intro b hpart hb
    obtain hbegin | hrest := List.infix_cons_iff.1 hpart
    · exact absurd hb (hnone b hbegin)
    · exact ih (Nat.le_of_succ_le_succ hlength) b hrest hb
  | kept hblock hp _ ih =>
    intro b hpart hb
    rw [List.length_append, List.length_append] at hlength
    obtain hrest | hinside := hblock.infix_cases hb hpart
    · exact ih (Nat.le_of_add_le_add_left hlength) b hrest hb
    · exact fun hpb => hp (hmono b _ hinside hpb)
  | marked _ hp rest _ =>
    have hshort := hmark _ hp
    have hrest := rest.length_le hmark
    rw [List.length_append, List.length_append] at hlength
    omega

end

end Brackets

end AuditGateway.Framework
