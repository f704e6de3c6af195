import AuditGateway.Framework.Brackets
import AuditGateway.Framework.Cursor
import AuditGateway.Pipeline.Intent

/-!
# Long JSON in the text of an intent

`_replace_long_json` goes through a text and replaces what is between matching braces, if it is long and looks like
JSON. At an opening brace it searches for the one that closes it; if there is none, the rest of the text is kept as
it is, with the long JSON that may follow.

* `jsonTurn`: a turn of the loop, with the positions that it visits.
* `jsonSegment_eq_some_iff`: the search finds the block that begins at a brace.
* `loop_jsonTurn`: the loop ends, and visits no position more than five times.
* `replaced_replaceLongJson_iff`: all long JSON is replaced unless some of it follows an unmatched brace.
-/

namespace AuditGateway.Pipeline

open AuditGateway.Framework AuditGateway.Python

/-! ## The loop -/

/-- The inner loop: the position after the brace that closes the first, and the positions that were visited. -/
def closingBrace (j depth : Nat) : Str → Option Nat × List Nat
  | [] => (none, [])
  | c :: s =>
    if c = 123 then ((closingBrace (j + 1) (depth + 1) s).1, j :: (closingBrace (j + 1) (depth + 1) s).2)
    else if c = 125 then
      if depth = 1 then (some (j + 1), [j])
      else ((closingBrace (j + 1) (depth - 1) s).1, j :: (closingBrace (j + 1) (depth - 1) s).2)
    else ((closingBrace (j + 1) depth s).1, j :: (closingBrace (j + 1) depth s).2)

structure JsonScan where
  i : Nat
  result : Str
  visits : List Nat

/-- A turn of the outer loop of `_replace_long_json`. A segment is copied, and searched for a quote and a colon. -/
def jsonTurn (text : Str) (s : JsonScan) : (Str × List Nat) ⊕ JsonScan :=
  match text[s.i]? with
  | none => .inl (s.result, s.visits)
  | some c =>
    if c ≠ 123 then .inr ⟨s.i + 1, s.result ++ [c], s.visits ++ [s.i]⟩
    else
      match closingBrace s.i 0 (text.drop s.i) with
      | (some j, searched) =>
        let copied := List.range' s.i (j - s.i)
        .inr ⟨j, s.result ++ jsonReplacement ((text.drop s.i).take (j - s.i)),
          s.visits ++ (s.i :: searched ++ copied ++ copied ++ copied)⟩
      | (none, searched) =>
        .inl (s.result ++ text.drop s.i, s.visits ++ (s.i :: searched ++ List.range' s.i (text.length - s.i)))

/-! ## What should be replaced -/

def braces : Brackets CodePoint := ⟨123, 125, by decide⟩

/-- Text between braces that is taken for JSON. -/
def LongJson (segment : Str) : Prop := minJsonLength ≤ segment.length ∧ 34 ∈ segment ∧ 58 ∈ segment

instance (segment : Str) : Decidable (LongJson segment) := inferInstanceAs (Decidable (_ ∧ _))

def jsonMark : Str := Str.ofString "[JSON_BLOCK]"

/-- The loop ends and visits each position a bounded number of times; in its result, long JSON between matching
braces that is not in a larger block is replaced, and all other text is as it was. -/
def ReplacesLongJson (text : Str) : Prop :=
  (∃ visits, (∀ turns > text.length, loop (jsonTurn text) turns ⟨0, [], []⟩ = some (replaceLongJson text, visits)) ∧
    ∀ k, visits.count k ≤ 5) ∧
  braces.Replaced LongJson jsonMark text (replaceLongJson text)

/-! ## The search -/

section

variable {text s b : Str} {i j k : Nat}

theorem jsonReplacement_eq (segment : Str) :
    jsonReplacement segment = if LongJson segment then jsonMark else segment := rfl

theorem length_jsonMark_lt (segment : Str) (h : LongJson segment) : jsonMark.length < segment.length :=
  Nat.lt_of_lt_of_le (by decide) h.1

theorem LongJson.mono (segment larger : Str) (hpart : segment <:+: larger) (h : LongJson segment) : LongJson larger :=
  ⟨Nat.le_trans h.1 hpart.length_le, hpart.subset h.2.1, hpart.subset h.2.2⟩

theorem jsonSegment_eq_some_iff {depth : Nat} (hdepth : 0 < depth) (s segment : Str) :
    jsonSegment depth s = some segment ↔ segment <+: s ∧ braces.Closes depth segment := by
  induction s generalizing depth segment with
  | nil =>
    refine iff_of_false nofun fun ⟨hbegin, hcloses⟩ => ?_
    rw [List.prefix_nil.1 hbegin] at hcloses
    exact absurd (Int.ofNat_eq_zero.1 hcloses) (Nat.ne_of_gt hdepth)
  | cons c s ih =>
    -- The search goes on behind `c`.
    have hnext (next : Nat) (hpos : 0 < next) (hstep : (next : Int) = depth + braces.step c) :
        (jsonSegment next s).map (c :: ·) = some segment ↔ segment <+: c :: s ∧ braces.Closes depth segment := by
      rw [Option.map_eq_some_iff]
      constructor
      · rintro ⟨rest, hrest, rfl⟩
        obtain ⟨hbegin, hcloses⟩ := (ih hpos rest).1 hrest
        exact ⟨List.cons_prefix_cons.2 ⟨rfl, hbegin⟩, Int.natCast_pos.2 hdepth, hstep ▸ hcloses⟩
      · rintro ⟨hbegin, hcloses⟩
        cases segment with
        | nil => exact absurd (Int.ofNat_eq_zero.1 hcloses) (Nat.ne_of_gt hdepth)
        | cons c' rest =>
          obtain ⟨rfl, hrest⟩ := List.cons_prefix_cons.1 hbegin
          exact ⟨rest, (ih hpos rest).2 ⟨hrest, hstep ▸ hcloses.2⟩, rfl⟩
    rw [jsonSegment]
    split
    · rename_i hopening
      have hstep : braces.step c = 1 := if_pos hopening
      exact hnext (depth + 1) (by omega) (by omega)
    · rename_i hopening
      split
      · rename_i hclosing
        have hstep : braces.step c = -1 := (if_neg hopening).trans (if_pos hclosing)
        split
        · rename_i hone
          -- Nothing is read behind the brace.
          rw [Option.some.injEq]
          constructor
          · rintro rfl
            refine ⟨List.cons_prefix_cons.2 ⟨rfl, List.nil_prefix⟩, Int.natCast_pos.2 hdepth, ?_⟩
            rw [hone, hstep]
            rfl
          · rintro ⟨hbegin, hcloses⟩
            cases segment with
            | nil => exact absurd (Int.ofNat_eq_zero.1 hcloses) (Nat.ne_of_gt hdepth)
            | cons c' rest =>
              obtain ⟨rfl, -⟩ := List.cons_prefix_cons.1 hbegin
              cases rest with
              | nil => rfl
              | cons _ _ =>
                have hpos := hcloses.2.1
                omega
        · exact hnext (depth - 1) (by omega) (by omega)
      · rename_i hclosing
        have hstep : braces.step c = 0 := (if_neg hopening).trans (if_neg hclosing)
        exact hnext depth hdepth (by omega)

theorem jsonSegment_brace (s b : Str) :
    jsonSegment 0 (123 :: s) = some b ↔ b <+: 123 :: s ∧ braces.IsBlock b := by
  show (jsonSegment 1 s).map (123 :: ·) = some b ↔ _
  rw [Option.map_eq_some_iff]
  constructor
  · rintro ⟨rest, hrest, rfl⟩
    obtain ⟨hbegin, hcloses⟩ := (jsonSegment_eq_some_iff Nat.one_pos s rest).1 hrest
    exact ⟨List.cons_prefix_cons.2 ⟨rfl, hbegin⟩, rest, rfl, hcloses⟩
  · rintro ⟨hbegin, rest, rfl, hcloses⟩
    have hrest := (List.cons_prefix_cons.1 hbegin).2
    exact ⟨rest, (jsonSegment_eq_some_iff Nat.one_pos s rest).2 ⟨hrest, hcloses⟩, rfl⟩

theorem jsonSegment_block (hb : braces.IsBlock b) (s : Str) : jsonSegment 0 (b ++ s) = some b := by
  obtain ⟨rest, rfl, -⟩ := id hb
  exact (jsonSegment_brace (rest ++ s) _).2 ⟨List.prefix_append _ s, hb⟩

theorem jsonSegment_eq_none_iff : jsonSegment 0 (123 :: s) = none ↔ braces.Unmatched (123 :: s) := by
  rw [Option.eq_none_iff_forall_ne_some, Brackets.Unmatched]
  refine ⟨fun h => ⟨rfl, fun b hbegin hb => h b ((jsonSegment_brace s b).2 ⟨hbegin, hb⟩)⟩, fun h b hb => ?_⟩
  obtain ⟨hbegin, hblock⟩ := (jsonSegment_brace s b).1 hb
  exact h.2 b hbegin hblock

theorem closingBrace_eq (j depth : Nat) (s : Str) :
    closingBrace j depth s =
      match jsonSegment depth s with
      | some segment => (some (j + segment.length), List.range' j segment.length)
      | none => (none, List.range' j s.length) := by
  induction s generalizing j depth with
  | nil => rfl
  | cons c s ih =>
    have hnext (depth : Nat) :
        ((closingBrace (j + 1) depth s).1, j :: (closingBrace (j + 1) depth s).2) =
          match (jsonSegment depth s).map (c :: ·) with
          | some segment => (some (j + segment.length), List.range' j segment.length)
          | none => (none, List.range' j (c :: s).length) := by
      rw [ih]
      cases jsonSegment depth s with
      | none => rfl
      | some segment =>
        rw [Option.map_some]
        dsimp only
        rw [List.length_cons, List.range'_succ, Nat.add_right_comm]
        rfl
    rw [closingBrace, jsonSegment]
    split
    · exact hnext (depth + 1)
    · split
      · split
        · rfl
        · exact hnext (depth - 1)
      · exact hnext depth

/-! ## The result -/

theorem replaceLongJsonFrom_skip (skip : Nat) (s : Str) :
    replaceLongJsonFrom skip s = replaceLongJson (s.drop skip) := by
  induction skip generalizing s with
  | zero => rfl
  | succ skip ih =>
    cases s with
    | nil => rw [List.drop_nil, replaceLongJsonFrom, replaceLongJson, replaceLongJsonFrom]
    | cons c s => rw [replaceLongJsonFrom, ih, List.drop_succ_cons]

theorem replaceLongJson_plain {c : CodePoint} (hc : c ≠ 123) (s : Str) :
    replaceLongJson (c :: s) = c :: replaceLongJson s := by
  rw [replaceLongJson, replaceLongJsonFrom, if_pos hc]
  rfl

theorem replaceLongJson_block (hb : braces.IsBlock b) (s : Str) :
    replaceLongJson (b ++ s) = jsonReplacement b ++ replaceLongJson s := by
  have hsegment := jsonSegment_block hb s
  obtain ⟨rest, rfl, -⟩ := hb
  rw [List.cons_append] at hsegment ⊢
  rw [replaceLongJson, replaceLongJsonFrom, if_neg (not_not.2 (show braces.opening = 123 from rfl)), hsegment]
  dsimp only
  rw [replaceLongJsonFrom_skip, List.length_cons, Nat.add_sub_cancel, List.drop_left]

theorem replaceLongJson_unmatched (h : braces.Unmatched (123 :: s)) : replaceLongJson (123 :: s) = 123 :: s := by
  rw [replaceLongJson, replaceLongJsonFrom, if_neg (not_not.2 rfl), jsonSegment_eq_none_iff.2 h]

theorem replaced_replaceLongJson_iff (text : Str) :
    braces.Replaced LongJson jsonMark text (replaceLongJson text) ↔
      ∀ rest, rest <:+ text → braces.Unmatched rest → ∀ b, b <:+: rest → braces.IsBlock b → ¬ LongJson b := by
  induction text using braces.blocks_induct with
  | nil =>
    refine iff_of_true .nil fun rest hrest hunmatched => ?_
    rw [List.suffix_nil.1 hrest] at hunmatched
    cases hunmatched.1
  | plain c s hc ih =>
    have hnone : ∀ b, b <+: c :: s → ¬ braces.IsBlock b := fun b => Brackets.not_isBlock_of_ne hc
    rw [replaceLongJson_plain hc]
    refine ⟨fun h rest hrest hunmatched => ?_, fun h => .plain hnone (ih.2 fun rest hrest => ?_)⟩
    · obtain rfl | hrest := List.suffix_cons_iff.1 hrest
      · exact absurd (Option.some.inj hunmatched.1) hc
      · exact ih.1 (h.rest_of_plain hnone) rest hrest hunmatched
    · exact h rest (hrest.trans (List.suffix_cons c s))
  | block b s hb ih =>
    rw [replaceLongJson_block hb, jsonReplacement_eq]
    refine ⟨fun h rest hrest hunmatched => ?_, fun h => ?_⟩
    · exact ih.1 (h.rest_of_block hb) rest (hb.unmatched_suffix hunmatched hrest) hunmatched
    · have hs := ih.2 fun rest hrest => h rest (hrest.trans (List.suffix_append b s))
      split
      · exact .marked hb ‹_› hs
      · exact .kept hb ‹_› hs
  | unmatched s hs _ =>
    rw [show replaceLongJson (braces.opening :: s) = braces.opening :: s from replaceLongJson_unmatched hs]
    constructor
    · intro h rest hrest _ b hb
      -- The text is kept, and would get shorter if there were long JSON.
      exact h.none_of_length length_jsonMark_lt LongJson.mono (Nat.le_refl _) b (hb.trans hrest.isInfix)
    · exact fun h => Brackets.replaced_self (h _ List.suffix_rfl hs)

/-! ## Runs -/

/-- Positions before `i` have been visited five times at most, and others not at all. -/
def VisitsBefore (i : Nat) (visits : List Nat) : Prop := ∀ k, visits.count k ≤ if k < i then 5 else 0

theorem count_range'_le (a n k : Nat) : (List.range' a n).count k ≤ if a ≤ k ∧ k < a + n then 1 else 0 := by
  split
  · exact List.nodup_iff_count_le_one.1 List.nodup_range' k
  · rename_i hk
    exact Nat.le_of_eq (List.count_eq_zero.2 fun hmem => hk (List.mem_range'_1.1 hmem))

theorem VisitsBefore.turn {visits more : List Nat} (h : VisitsBefore i visits) {n length : Nat} (hn : n ≤ 4)
    (hpos : 0 < length)
    (hmore : ∀ k, more.count k = (if i = k then 1 else 0) + n * (List.range' i length).count k) :
    VisitsBefore (i + length) (visits ++ more) := by
  intro k
  have hvisits := h k
  have hturn := Nat.mul_le_mul hn (count_range'_le i length k)
  rw [List.count_append, hmore]
  split_ifs at hvisits hturn ⊢ <;> omega

theorem VisitsBefore.le {visits : List Nat} (h : VisitsBefore i visits) (k : Nat) : visits.count k ≤ 5 :=
  (h k).trans (by split <;> decide)

theorem jsonTurn_nil (hrest : text.drop i = []) (result : Str) (visits : List Nat) :
    jsonTurn text ⟨i, result, visits⟩ = .inl (result, visits) := by
  rw [jsonTurn, ← List.head?_drop, hrest]
  rfl

theorem jsonTurn_plain {c : CodePoint} (hc : c ≠ 123) (hrest : text.drop i = c :: s) (result : Str)
    (visits : List Nat) :
    jsonTurn text ⟨i, result, visits⟩ = .inr ⟨i + 1, result ++ [c], visits ++ [i]⟩ := by
  rw [jsonTurn, ← List.head?_drop, hrest]
  exact if_pos hc

theorem jsonTurn_block (hb : braces.IsBlock b) (hrest : text.drop i = b ++ s) (result : Str) (visits : List Nat) :
    ∃ more, (∀ k, more.count k = (if i = k then 1 else 0) + 4 * (List.range' i b.length).count k) ∧
      jsonTurn text ⟨i, result, visits⟩ =
        .inr ⟨i + b.length, result ++ jsonReplacement b, visits ++ more⟩ := by
  let copied := List.range' i b.length
  refine ⟨i :: copied ++ copied ++ copied ++ copied, fun k => ?_, ?_⟩
  · simp only [copied, List.count_append, List.count_cons, beq_iff_eq]
    omega
  · have hhead : (b ++ s).head? = some 123 := by
      obtain ⟨_, rfl, -⟩ := hb
      rfl
    have hsearch := closingBrace_eq i 0 (b ++ s)
    rw [jsonSegment_block hb] at hsearch
    rw [jsonTurn, ← List.head?_drop, hrest, hhead]
    dsimp only
    rw [if_neg (not_not.2 rfl), hsearch]
    dsimp only
    rw [Nat.add_sub_cancel_left, List.take_left]

theorem jsonTurn_unmatched (h : braces.Unmatched (123 :: s)) (hrest : text.drop i = 123 :: s) (result : Str)
    (visits : List Nat) :
    ∃ more, (∀ k, more.count k = (if i = k then 1 else 0) + 2 * (List.range' i (s.length + 1)).count k) ∧
      jsonTurn text ⟨i, result, visits⟩ = .inl (result ++ 123 :: s, visits ++ more) := by
  let copied := List.range' i (s.length + 1)
  refine ⟨i :: copied ++ copied, fun k => ?_, ?_⟩
  · simp only [copied, List.count_append, List.count_cons, beq_iff_eq]
    omega
  · have hsearch := closingBrace_eq i 0 (123 :: s)
    rw [jsonSegment_eq_none_iff.2 h] at hsearch
    rw [jsonTurn, ← List.head?_drop, hrest]
    dsimp only [List.head?_cons]
    rw [if_neg (not_not.2 rfl), hsearch, ← List.length_drop, hrest]
    rfl

theorem loop_jsonTurn (text rest : Str) (hrest : text.drop i = rest) (result : Str) (visits : List Nat)
    (hvisits : VisitsBefore i visits) :
    ∃ all, (∀ turns > rest.length,
        loop (jsonTurn text) turns ⟨i, result, visits⟩ = some (result ++ replaceLongJson rest, all)) ∧
      ∀ k, all.count k ≤ 5 := by
  induction rest using braces.blocks_induct generalizing i result visits with
  | nil =>
    refine ⟨visits, fun turns hturns => ?_, hvisits.le⟩
    rw [loop_of_inl hturns (jsonTurn_nil hrest result visits), replaceLongJson, replaceLongJsonFrom, List.append_nil]
  | plain c s hc ih =>
    have hmore : ∀ k, [i].count k = (if i = k then 1 else 0) + 0 * (List.range' i 1).count k := by
      simp [List.count_singleton]
    have hnext : text.drop (i + 1) = s := by rw [← List.tail_drop, hrest, List.tail_cons]
    obtain ⟨all, hrun, hall⟩ := ih hnext (result ++ [c]) (visits ++ [i]) (hvisits.turn (by decide) Nat.one_pos hmore)
    refine ⟨all, fun turns hturns => ?_, hall⟩
    rw [loop_of_inr (Nat.zero_lt_of_lt hturns) (jsonTurn_plain hc hrest result visits),
      hrun _ (Nat.lt_sub_of_add_lt hturns), replaceLongJson_plain hc, List.append_assoc]
    rfl
  | block b s hb ih =>
    have hpos := List.length_pos_of_ne_nil hb.ne_nil
    obtain ⟨more, hmore, hturn⟩ := jsonTurn_block hb hrest result visits
    have hnext : text.drop (i + b.length) = s := by rw [← List.drop_drop, hrest, List.drop_left]
    obtain ⟨all, hrun, hall⟩ := ih hnext (result ++ jsonReplacement b) (visits ++ more)
      (hvisits.turn (by decide) hpos hmore)
    refine ⟨all, fun turns hturns => ?_, hall⟩
    rw [List.length_append] at hturns
    rw [loop_of_inr (Nat.zero_lt_of_lt hturns) hturn, hrun _ (by omega), replaceLongJson_block hb, List.append_assoc]
  | unmatched s hs _ =>
    obtain ⟨more, hmore, hturn⟩ := jsonTurn_unmatched hs hrest result visits
    refine ⟨visits ++ more, fun turns hturns => ?_, (hvisits.turn (by decide) (Nat.succ_pos _) hmore).le⟩
    rw [loop_of_inl (Nat.zero_lt_of_lt hturns) hturn]
    exact congrArg (fun kept => some (result ++ kept, visits ++ more)) (replaceLongJson_unmatched hs).symm

end

/-- The loop always ends, after few visits; it replaces all long JSON if and only if no opening brace without a closing
one is before some. -/
theorem replaces_long_json_iff (text : Str) :
    ReplacesLongJson text ↔
      ∀ rest, rest <:+ text → braces.Unmatched rest → ∀ b, b <:+: rest → braces.IsBlock b → ¬ LongJson b := by
  have hrun := loop_jsonTurn (i := 0) text text rfl [] [] fun _ => Nat.zero_le _
  rw [ReplacesLongJson, replaced_replaceLongJson_iff]
  exact and_iff_right hrun

/-- Two hundred characters of JSON. -/
def longBlock : Str := [123, 34, 58] ++ List.replicate 196 97 ++ [125]

theorem longBlock_isBlock : braces.IsBlock longBlock :=
  ((jsonSegment_brace longBlock.tail longBlock).1 (by decide +kernel)).2

theorem longBlock_unmatched : braces.Unmatched (123 :: longBlock) :=
  jsonSegment_eq_none_iff.1 (by decide +kernel)

/-- Long JSON after an unmatched brace is not replaced. -/
theorem hidden_json_kept :
    braces.IsBlock longBlock ∧ LongJson longBlock ∧ replaceLongJson (123 :: longBlock) = 123 :: longBlock ∧
      ¬ ReplacesLongJson (123 :: longBlock) := by
  have hlong : LongJson longBlock := by decide +kernel
  refine ⟨longBlock_isBlock, hlong, replaceLongJson_unmatched longBlock_unmatched, fun h => ?_⟩
  exact (replaced_replaceLongJson_iff _).1 h.2 _ List.suffix_rfl longBlock_unmatched longBlock
    (List.suffix_cons _ _).isInfix longBlock_isBlock hlong

end AuditGateway.Pipeline
