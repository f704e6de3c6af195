import AuditGateway.Pipeline.Message

/-!
# The intent of a trace

`extract_user_intent` of `work_relevance.py`: of what the user wrote, or else the
developer or the system, a text of bounded length without code, long JSON and base64.
The intent is what the trace is classified by, and pieces of it are stored.
-/

namespace AuditGateway.Pipeline

open AuditGateway.Python

/-! ## Noise -/

/-- The substitution of `_CODE_BLOCK_RE`, with the text behind an opening fence. A fence that
is not closed stays, with everything behind it. -/
def replaceCodeBlocks : Option Str → Str → Str
  | none, [] => []
  | some block, [] => 96 :: 96 :: 96 :: block
  | none, 96 :: 96 :: 96 :: s => replaceCodeBlocks (some []) s
  | some _, 96 :: 96 :: 96 :: s => Str.ofString "[CODE_BLOCK]" ++ replaceCodeBlocks none s
  | none, c :: s => c :: replaceCodeBlocks none s
  | some block, c :: s => replaceCodeBlocks (some (block ++ [c])) s

/-- The inner loop of `_replace_long_json`: the text up to the brace that closes the first. -/
def jsonSegment (depth : Nat) : Str → Option Str
  | [] => none
  | c :: s =>
    if c = 123 then (jsonSegment (depth + 1) s).map (c :: ·)
    else if c = 125 then
      if depth = 1 then some [c] else (jsonSegment (depth - 1) s).map (c :: ·)
    else (jsonSegment depth s).map (c :: ·)

def minJsonLength : Nat := 200

/-- What a segment between braces is replaced by. -/
def jsonReplacement (segment : Str) : Str :=
  if minJsonLength ≤ segment.length ∧ 34 ∈ segment ∧ 58 ∈ segment then Str.ofString "[JSON_BLOCK]" else segment

/-- `_replace_long_json`. Instead of moving an index behind a segment, the characters of the
segment that are still to come are skipped. -/
def replaceLongJsonFrom : Nat → Str → Str
  | _, [] => []
  | skip + 1, _ :: s => replaceLongJsonFrom skip s
  | 0, c :: s =>
    if c ≠ 123 then c :: replaceLongJsonFrom 0 s
    else
      match jsonSegment 0 (c :: s) with
      | some segment => jsonReplacement segment ++ replaceLongJsonFrom (segment.length - 1) s
      | none => c :: s

def replaceLongJson (text : Str) : Str :=
  replaceLongJsonFrom 0 text

/-- `[A-Za-z0-9+/=]`. -/
def isBase64Char (c : CodePoint) : Bool :=
  (65 ≤ c.val && c.val ≤ 90) || (97 ≤ c.val && c.val ≤ 122) || (47 ≤ c.val && c.val ≤ 57) || c.val == 43 || c.val == 61

/-- The substitution of `_BASE64_RE`: the runs of at least a hundred such characters. -/
def replaceBase64 (text : Str) : Str :=
  (text.splitBy fun a b => isBase64Char a == isBase64Char b).flatMap fun run =>
    if run.all isBase64Char ∧ 100 ≤ run.length then Str.ofString "[BASE64]" else run

/-- `_strip_content_noise`. -/
def stripContentNoise (text : Str) : Str :=
  replaceBase64 (replaceLongJson (replaceCodeBlocks none text))

/-! ## The intent -/

def maxMessageChars : Nat := 800

/-- `_truncate_message`. -/
def truncateMessage (text : Str) : Str :=
  if text.length ≤ maxMessageChars then text
  else
    text.take maxMessageChars ++ Str.ofString "[...truncated, " ++
      Str.ofString (toString (text.length - maxMessageChars)) ++ Str.ofString " chars omitted]"

/-- The first and the last three of a list that has more than six elements. -/
def headAndTail {α : Type} (l : List α) : List α :=
  if l.length ≤ 6 then l else l.take 3 ++ l.drop (l.length - 3)

/-- `_filter_intent_messages`. -/
def filterIntentMessages (messages : List NormalizedMessage) (roles : List Str) : List Str :=
  headAndTail ((messages.filter fun m =>
    m.direction = .request ∧ m.role ∈ roles ∧ m.protocolItemType ≠ .base64Media ∧
      m.protocolItemType ≠ .base64MediaExtracted ∧ m.contentText ≠ []).map (·.contentText))

structure ExtractedIntent where
  text : Str
  originalLength : Nat
  truncated : Bool
deriving DecidableEq

def maxIntentChars : Nat := 4000

/-- `extract_user_intent`. -/
def extractUserIntent (rt : Runtime) (messages : List NormalizedMessage) : ExtractedIntent :=
  let ofUser := filterIntentMessages messages ["user"]
  let relevant := if ofUser = [] then filterIntentMessages messages ["developer", "system"] else ofUser
  let text := rt.lower (Str.join "\n" (relevant.map fun t => truncateMessage (stripContentNoise t)))
  { text := text.take maxIntentChars
    originalLength := text.length
    truncated := text.length > maxIntentChars }

/-! ## What is left can be stored -/

theorem replaceCodeBlocks_storable {block : Option Str} {s : Str} (hblock : ∀ b ∈ block, Storable b)
    (hs : Storable s) : Storable (replaceCodeBlocks block s) := by
  fun_induction replaceCodeBlocks block s with
  | case1 => exact storable_nil
  | case2 block =>
    have hfence : Storable [96, 96, 96] := by decide
    exact storable_append.2 ⟨hfence, hblock block rfl⟩
  | case3 s ih => exact ih (by simp) (hs.of_subset (by grind))
  | case4 block s ih =>
    have hmark : Storable (Str.ofString "[CODE_BLOCK]") := by decide
    exact storable_append.2 ⟨hmark, ih (by simp) (hs.of_subset (by grind))⟩
  | case5 c s _ ih =>
    obtain ⟨hc, hs⟩ := storable_cons.1 hs
    exact storable_cons.2 ⟨hc, ih hblock hs⟩
  | case6 block c s _ ih =>
    obtain ⟨hc, hs⟩ := storable_cons.1 hs
    refine ih (fun b hb => ?_) hs
    obtain rfl := Option.mem_some.1 hb
    exact storable_append.2 ⟨hblock block rfl, hc⟩

theorem jsonSegment_subset {depth : Nat} {s segment : Str} (h : jsonSegment depth s = some segment) :
    segment ⊆ s := by
  induction s generalizing depth segment with
  | nil => cases h
  | cons c s ih =>
    have hcons {d : Nat} (h : (jsonSegment d s).map (c :: ·) = some segment) : segment ⊆ c :: s := by
      obtain ⟨t, ht, rfl⟩ := Option.map_eq_some_iff.1 h
      exact List.cons_subset_cons c (ih ht)
    rw [jsonSegment] at h
    split at h
    · exact hcons h
    · split at h
      · split at h
        · obtain rfl := Option.some.inj h
          simp
        · exact hcons h
      · exact hcons h

theorem jsonReplacement_storable {segment : Str} (h : Storable segment) : Storable (jsonReplacement segment) := by
  unfold jsonReplacement
  split
  · decide
  · exact h

theorem replaceLongJsonFrom_storable {skip : Nat} {s : Str} (hs : Storable s) :
    Storable (replaceLongJsonFrom skip s) := by
  fun_induction replaceLongJsonFrom skip s with
  | case1 => exact storable_nil
  | case2 skip c s ih => exact ih (storable_cons.1 hs).2
  | case3 c s _ ih =>
    obtain ⟨hc, hs⟩ := storable_cons.1 hs
    exact storable_cons.2 ⟨hc, ih hs⟩
  | case4 c s _ segment hsegment ih =>
    have hseg := hs.of_subset (jsonSegment_subset hsegment)
    exact storable_append.2 ⟨jsonReplacement_storable hseg, ih (storable_cons.1 hs).2⟩
  | case5 => exact hs

theorem replaceBase64_storable {s : Str} (hs : Storable s) : Storable (replaceBase64 s) := by
  rw [replaceBase64, List.flatMap_def, storable_flatten]
  rw [← List.flatten_splitBy (fun a b => isBase64Char a == isBase64Char b) s, storable_flatten] at hs
  intro t ht
  obtain ⟨run, hrun, rfl⟩ := List.mem_map.1 ht
  split
  · decide
  · exact hs run hrun

theorem truncateMessage_storable {s : Str} (hs : Storable s) : Storable (truncateMessage s) := by
  unfold truncateMessage
  split
  · exact hs
  · have htake : Storable (s.take maxMessageChars) := hs.of_subset (List.take_subset _ _)
    simp only [storable_append, htake, storable_toString]
    decide

theorem headAndTail_subset {α : Type} (l : List α) : headAndTail l ⊆ l := by
  unfold headAndTail
  split
  · exact List.Subset.refl l
  · exact List.append_subset.2 ⟨List.take_subset _ _, List.drop_subset _ _⟩

theorem filterIntentMessages_storable {messages : List NormalizedMessage} {roles : List Str}
    (h : ∀ m ∈ messages, Storable m.contentText) : ∀ s ∈ filterIntentMessages messages roles, Storable s := by
  intro s hs
  obtain ⟨m, hm, rfl⟩ := List.mem_map.1 (headAndTail_subset _ hs)
  exact h m (List.mem_of_mem_filter hm)

theorem extractUserIntent_storable (rt : Runtime) {messages : List NormalizedMessage}
    (h : ∀ m ∈ messages, Storable m.contentText) : Storable (extractUserIntent rt messages).text := by
  refine Storable.of_subset (rt.lower_storable _ (Str.storable_join ?_ fun s hs => ?_)) (List.take_subset _ _)
  · decide
  · obtain ⟨t, ht, rfl⟩ := List.mem_map.1 hs
    have htext : Storable t := by
      split at ht
      · exact filterIntentMessages_storable h t ht
      · exact filterIntentMessages_storable h t ht
    exact truncateMessage_storable (replaceBase64_storable (replaceLongJsonFrom_storable
      (replaceCodeBlocks_storable (by simp) htext)))

end AuditGateway.Pipeline
