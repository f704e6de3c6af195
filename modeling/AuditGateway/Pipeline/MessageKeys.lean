import AuditGateway.Framework.SelfDelimiting
import AuditGateway.Pipeline.MessageStore
import AuditGateway.Python.Utf8

/-!
# The keys of messages

`message_key` hashes the role, the modality and the text of a message, each behind its length. The lengths tell where
the parts end, whatever is in them, so that the hash is the only thing that could be the same for two contents.

* `payload_inj`: what is hashed determines the parts.
* `message_keys_distinct`: as far as the hash has no collision, keys are different for different contents, and a row
  of `messages` has the content of every message that refers to it.
-/

namespace AuditGateway.Pipeline

open AuditGateway.Framework AuditGateway.Python

/-! ## What is hashed -/

theorem bytes_eq {s : Str} (h : Encodes s) : bytes s = s.bytes := by
  rw [bytes, encodeUtf8_eq h]
  rfl

theorem bytes_injective {s t : Str} (hs : Encodes s) (ht : Encodes t) (h : bytes s = bytes t) : s = t := by
  rw [bytes_eq hs, bytes_eq ht] at h
  have hdecode := decodeUtf8_bytes hs
  rw [h, decodeUtf8_bytes ht] at hdecode
  exact (Option.some.inj hdecode).symm

/-- A length as it is written. -/
def lengthDigits (n : Nat) : List UInt8 :=
  bytes (toString n : String)

theorem encodes_toString (n : Nat) : Encodes (Str.ofString (toString n)) :=
  (storable_toString n).1

theorem lengthDigits_injective : Function.Injective lengthDigits := by
  intro a b h
  have htext : Nat.repr a = Nat.repr b :=
    Str.ofString_injective (bytes_injective (encodes_toString a) (encodes_toString b) h)
  rw [Nat.repr_eq_ofList_toDigits, Nat.repr_eq_ofList_toDigits, String.ofList_inj] at htext
  have hread := congrArg (fun digits => Nat.ofDigitChars 10 digits 0) htext
  simpa only [Nat.ofDigitChars_ten_toDigits] using hread

theorem colon_not_mem_lengthDigits (n : Nat) : (58 : UInt8) ∉ lengthDigits n := by
  have hcolon : CodePoint.IsAscii 58 := by decide
  intro h
  rw [lengthDigits, bytes_eq (encodes_toString n)] at h
  have hmem := (mem_bytes hcolon).1 h
  exact absurd (mem_ofString_toString hmem).2 (by decide)

theorem lengthPrefixed_eq (part : List UInt8) : lengthPrefixed part = lengthDigits part.length ++ 58 :: part := by
  have hcolon : Encodes (Str.ofString ":") := by decide
  have hboth : Encodes (Str.ofString (toString part.length) ++ Str.ofString ":") :=
    fun c hc => (List.mem_append.1 hc).elim (encodes_toString _ c) (hcolon c)
  rw [lengthPrefixed, lengthDigits, bytes_eq hboth, bytes_eq (encodes_toString _), Str.bytes_append, List.append_assoc]
  rfl

theorem lengthPrefixed_selfDelimiting : SelfDelimiting lengthPrefixed := by
  have h := selfDelimiting_length 58 colon_not_mem_lengthDigits lengthDigits_injective
  rwa [← funext lengthPrefixed_eq] at h

/-- The bytes that a key is the hash of. -/
def payload (parts : List (List UInt8)) : List UInt8 :=
  (parts.map lengthPrefixed).flatten

theorem payload_inj {a b c a' b' c' : List UInt8} (h : payload [a, b, c] = payload [a', b', c']) :
    a = a' ∧ b = b' ∧ c = c' := by
  have hlength : [a, b, c].length = [a', b', c'].length := rfl
  rw [payload, payload, ← List.flatMap_def, ← List.flatMap_def] at h
  have hparts := lengthPrefixed_selfDelimiting.flatMap_inj hlength h
  simpa only [List.cons.injEq, and_true] using hparts

/-! ## Keys -/

/-- `message_key`, for any text as modality. -/
def messageKeyText (rt : Runtime) (role modality contentText : Str) : Except PyError Str := do
  let role ← encode role
  let modality ← encode modality
  let contentText ← encode contentText
  return rt.sha256Hex (payload [role, modality, contentText])

theorem messageKey_eq (rt : Runtime) (role : Str) (modality : Modality) (contentText : Str) :
    messageKey rt role modality contentText = messageKeyText rt role modality.value contentText :=
  rfl

/-- The texts that a key is made from. -/
structure KeyTexts where
  role : Str
  modality : Str
  contentText : Str
deriving DecidableEq

namespace KeyTexts

/-- All three can be encoded. -/
structure Encode (x : KeyTexts) : Prop where
  role : Encodes x.role
  modality : Encodes x.modality
  contentText : Encodes x.contentText

def payload (x : KeyTexts) : List UInt8 :=
  Pipeline.payload [bytes x.role, bytes x.modality, bytes x.contentText]

def key (rt : Runtime) (x : KeyTexts) : Except PyError Str :=
  messageKeyText rt x.role x.modality x.contentText

theorem key_yields (rt : Runtime) (x : KeyTexts) : Yields (x.key rt) x.Encode (rt.sha256Hex x.payload) := by
  refine ((encode_yields x.role).bind fun _ => (encode_yields x.modality).bind fun _ =>
    (encode_yields x.contentText).bind_pure).of_iff ?_
  exact ⟨fun ⟨hrole, hmodality, htext⟩ => ⟨hrole, hmodality, htext⟩, fun h => ⟨h.role, h.modality, h.contentText⟩⟩

theorem eq_of_payload_eq {x y : KeyTexts} (hx : x.Encode) (hy : y.Encode) (h : x.payload = y.payload) : x = y := by
  obtain ⟨hrole, hmodality, htext⟩ := payload_inj h
  obtain ⟨role, modality, contentText⟩ := x
  obtain ⟨role', modality', contentText'⟩ := y
  rw [KeyTexts.mk.injEq]
  exact ⟨bytes_injective hx.role hy.role hrole, bytes_injective hx.modality hy.modality hmodality,
    bytes_injective hx.contentText hy.contentText htext⟩

/-- The key is the one of the texts, and the digest is asked for no payload but the given ones. -/
structure HasKey (rt : Runtime) (S : Set (List UInt8)) (x : KeyTexts) (key : Str) : Prop where
  key_eq : x.key rt = .ok key
  mem : x.payload ∈ S

theorem HasKey.inj {rt : Runtime} {S : Set (List UInt8)} (hash : Set.InjOn rt.sha256Hex S) {x y : KeyTexts} {key : Str}
    (hx : x.HasKey rt S key) (hy : y.HasKey rt S key) : x = y := by
  obtain ⟨hxe, hxkey⟩ := (key_yields rt x).eq_of_ok hx.key_eq
  obtain ⟨hye, hykey⟩ := (key_yields rt y).eq_of_ok hy.key_eq
  exact eq_of_payload_eq hxe hye (hash hx.mem hy.mem (hxkey.symm.trans hykey))

end KeyTexts

/-! ## Rows -/

def NormalizedMessage.keyTexts (m : NormalizedMessage) : KeyTexts :=
  ⟨m.role, m.modality.value, m.contentText⟩

def MessageRow.keyTexts (row : MessageRow) : KeyTexts :=
  ⟨row.role, row.modality.value, row.contentText⟩

/-- The message has the key of its own content. -/
abbrev NormalizedMessage.Hashed (rt : Runtime) (S : Set (List UInt8)) (m : NormalizedMessage) : Prop :=
  m.keyTexts.HasKey rt S m.messageKey

/-- Every row is under the key of its own content. -/
def Tables.Hashed (rt : Runtime) (S : Set (List UInt8)) (T : Tables) : Prop :=
  ∀ key row, T.messages.find key = some row → row.keyTexts.HasKey rt S key

section Rows

variable {rt : Runtime} {pg : Postgres} {S : Set (List UInt8)} {T : Tables}

theorem storeMessage_hashed {m : NormalizedMessage} (hm : m.Hashed rt S) (h : T.Hashed rt S) :
    (T.storeMessage m).Hashed rt S := by
  intro key row hrow
  rw [find_storeMessage] at hrow
  split at hrow
  · rename_i hkey
    split at hrow
    · obtain rfl := Option.some.inj hrow
      exact hkey ▸ hm
    · rename_i old hold
      -- one more occurrence does not change what the key is made from
      split at hrow
      · obtain rfl := Option.some.inj hrow
        exact h key old hold
      · obtain rfl := Option.some.inj hrow
        exact h key old hold
  · exact h key row hrow

theorem foldl_hashed {messages : List NormalizedMessage} (hm : ∀ m ∈ messages, m.Hashed rt S) (h : T.Hashed rt S) :
    (messages.foldl Tables.storeMessage T).Hashed rt S := by
  induction messages generalizing T with
  | nil => exact h
  | cons m messages ih =>
    obtain ⟨hfirst, hrest⟩ := List.forall_mem_cons.1 hm
    exact ih hrest (storeMessage_hashed hfirst h)

theorem saveCall_hashed {call : SaveCall} (hm : ∀ m ∈ call.2.messages, m.Hashed rt S) (h : T.Hashed rt S) :
    (saveCall rt pg T call).Hashed rt S := by
  obtain ⟨_, hmessages, _⟩ | ⟨_, heq⟩ := saveCall_cases rt pg T call
  · rw [Tables.Hashed, hmessages]
    exact foldl_hashed hm h
  · rwa [heq]

theorem calls_hashed (pg : Postgres) {calls : List SaveCall} (hm : ∀ call ∈ calls, ∀ m ∈ call.2.messages, m.Hashed rt S)
    (h : T.Hashed rt S) : (calls.foldl (saveCall rt pg) T).Hashed rt S := by
  induction calls generalizing T with
  | nil => exact h
  | cons call calls ih =>
    obtain ⟨hfirst, hrest⟩ := List.forall_mem_cons.1 hm
    exact ih hrest (saveCall_hashed hfirst h)

end Rows

theorem Modality.value_injective : Function.Injective Modality.value := by
  intro x y h
  cases x <;> cases y <;> first | rfl | exact absurd h (by decide)

/-- A row has the content of a message. -/
structure MessageRow.Holds (row : MessageRow) (m : NormalizedMessage) : Prop where
  role : row.role = m.role
  modality : row.modality = m.modality
  contentText : row.contentText = m.contentText

theorem MessageRow.holds_of_keyTexts {row : MessageRow} {m : NormalizedMessage} (h : row.keyTexts = m.keyTexts) :
    row.Holds m := by
  obtain ⟨hrole, hmodality, htext⟩ := KeyTexts.mk.inj h
  exact ⟨hrole, Modality.value_injective hmodality, htext⟩

theorem normalizeJsonTrace_keys {rt : Runtime} {job : TraceCapturedJob} {requestBody responseBody : Str}
    {messages : List NormalizedMessage}
    (h : (normalizeJsonTrace rt job none requestBody responseBody : Except PyError _) = .ok messages) :
    ∀ m ∈ messages, messageKey rt m.role m.modality m.contentText = .ok m.messageKey := by
  obtain ⟨⟨-, -, -, hnormalizes⟩, rfl⟩ := (normalizeJsonTrace_yields rt job requestBody responseBody).eq_of_ok h
  intro m hm
  obtain ⟨⟨m', index⟩, hm', rfl⟩ := List.mem_map.1 hm
  obtain ⟨site, hsite, hm'⟩ := List.mem_flatMap.1 (List.fst_mem_of_mem_zipIdx hm')
  obtain ⟨x, hx, rfl⟩ := List.mem_map.1 hm'
  have hhashes := hnormalizes.hashes site hsite x hx
  rw [messageKey_eq]
  exact (KeyTexts.key_yields rt ⟨_, _, _⟩).ok ⟨hhashes.1, Modality.encodes_value _, hhashes.2⟩

/-- What is hashed determines the parts, whatever bytes are in them. As far as the digest has no collision, two triples
of texts that can be encoded have the same key only if they are the same, and after any sequence of calls each message
of a call that was committed is in `messages` with its own role, modality and text. The messages of a trace have keys
from their own contents, as is asked for in such a sequence. -/
theorem message_keys_distinct (rt : Runtime) (S : Set (List UInt8)) (hash : Set.InjOn rt.sha256Hex S) :
    (∀ a b c a' b' c', payload [a, b, c] = payload [a', b', c'] → a = a' ∧ b = b' ∧ c = c') ∧
    (∀ x y : KeyTexts, x.Encode → y.Encode → x.payload ∈ S → y.payload ∈ S → x.key rt = y.key rt → x = y) ∧
    (∀ (pg : Postgres) (calls : List SaveCall), (∀ call ∈ calls, ∀ m ∈ call.2.messages, m.Hashed rt S) →
      ∀ call ∈ calls, call.2.Savable rt pg → ∀ m ∈ call.2.messages, ∃ row,
        (calls.foldl (saveCall rt pg) .empty).messages.find m.messageKey = some row ∧ row.Holds m) ∧
    ∀ job requestBody responseBody messages,
      (normalizeJsonTrace rt job none requestBody responseBody : Except PyError _) = .ok messages →
      ∀ m ∈ messages, messageKey rt m.role m.modality m.contentText = .ok m.messageKey := by
  refine ⟨fun a b c a' b' c' h => ?_, fun x y hx hy hxS hyS h => ?_, fun pg calls hm call hcall hs m hmem => ?_,
    fun _ _ _ _ => normalizeJsonTrace_keys⟩
  · exact payload_inj h
  · have hkey := (KeyTexts.key_yields rt x).ok hx
    exact KeyTexts.HasKey.inj hash ⟨hkey, hxS⟩ ⟨h.symm.trans hkey, hyS⟩
  · have hempty : Tables.empty.Hashed rt S := fun _ _ h => nomatch h
    have hhas := (calls_has (T := .empty) calls hcall hs m hmem).1
    obtain ⟨row, hrow⟩ := Option.ne_none_iff_exists'.1 hhas
    have hhashed := calls_hashed pg hm hempty m.messageKey row hrow
    exact ⟨row, hrow, MessageRow.holds_of_keyTexts (hhashed.inj hash (hm call hcall m hmem))⟩

theorem plainRuntime_digest_injective (documents : List (Str × Json)) :
    Function.Injective (plainRuntime documents).sha256Hex := by
  refine List.map_injective_iff.2 fun a b h => UInt8.toNat_inj.1 ?_
  have ha := a.toNat_lt
  have hb := b.toNat_lt
  have hval := congrArg Fin.val h
  simp only [Fin.val_ofNat] at hval
  omega

theorem promptAnalysis_hashed (text : String) (htext : Encodes (Str.ofString text)) :
    ∀ m ∈ (promptAnalysis text).messages, m.Hashed (plainRuntime []) Set.univ := by
  have huser : Encodes (Str.ofString "user") := by decide
  refine List.forall_mem_singleton.2 ⟨(KeyTexts.key_yields _ _).ok ⟨huser, ?_, htext⟩, trivial⟩
  exact Modality.encodes_value .text

/-- A digit and a colon at the end of one part are not taken for the length of the next one. -/
theorem message_keys_distinct_prompts :
    Set.InjOn (plainRuntime []).sha256Hex Set.univ ∧
    KeyTexts.key (plainRuntime []) ⟨"user", "text", "0:"⟩ ≠ KeyTexts.key (plainRuntime []) ⟨"user", "text0:", ""⟩ ∧
    ∃ row, ([(0, promptAnalysis "hello"), (1, promptAnalysis "0:")].foldl
        (saveCall (plainRuntime []) ⟨fun _ => true⟩) .empty).messages.find
          (keyOf (plainRuntime []) "user" .text "0:") = some row ∧ row.contentText = "0:" := by
  have hash : Set.InjOn (plainRuntime []).sha256Hex Set.univ := (plainRuntime_digest_injective []).injOn
  obtain ⟨_, hkeys, hrows, _⟩ := message_keys_distinct (plainRuntime []) Set.univ hash
  refine ⟨hash, fun h => ?_, ?_⟩
  · have heq := hkeys _ _ ⟨by decide, by decide, by decide⟩ ⟨by decide, by decide, by decide⟩ trivial trivial h
    exact absurd heq (by decide)
  · have hm : ∀ call ∈ [((0 : Int), promptAnalysis "hello"), (1, promptAnalysis "0:")],
        ∀ m ∈ call.2.messages, m.Hashed (plainRuntime []) Set.univ :=
      List.forall_mem_cons.2 ⟨promptAnalysis_hashed "hello" (by decide),
        List.forall_mem_singleton.2 (promptAnalysis_hashed "0:" (by decide))⟩
    have hsaved : (promptAnalysis "0:").Savable (plainRuntime []) ⟨fun _ => true⟩ := by
      have hyields := saveTraceAnalysis_yields (plainRuntime []) ⟨fun _ => true⟩ 0 .empty (promptAnalysis "0:")
      exact hyields.returns_iff.1 ⟨_, rfl⟩
    obtain ⟨row, hrow, hholds⟩ := hrows ⟨fun _ => true⟩ _ hm (1, promptAnalysis "0:") (by simp) hsaved _
      List.mem_cons_self
    exact ⟨row, hrow, hholds.contentText⟩

end AuditGateway.Pipeline
