import AuditGateway.Gateway.AuthKeys

/-!
# Header evidence

`headers.go`: the headers of a request are stored with the values of the credential headers, and the
keys in `Sec-WebSocket-Protocol`, replaced. What is stored should not depend on them. The extractor
of keys and this code read header names and the items of `Sec-WebSocket-Protocol` each in their own way.
-/

namespace AuditGateway.Gateway

open AuditGateway.Framework AuditGateway.Go

/-! ## What is stored -/

def redacted : GoString := ascii "[REDACTED]"

def sensitiveHeaderNames : List GoString :=
  ["authorization", "x-api-key", "x-goog-api-key", "mj-api-secret", "proxy-authorization", "openai-organization",
    "anthropic-api-key", "anthropic-auth-token"].map ascii

section

variable (U : Unicode)

def headerEvidenceKey (key : GoString) : GoString :=
  if equalFold U (canonicalHeaderKey key) (ascii "Sec-Websocket-Protocol") then ascii "Sec-WebSocket-Protocol"
  else canonicalHeaderKey key

/-- An item of `Sec-WebSocket-Protocol` without its key. -/
def sanitizeItem (first : Bool) (item : GoString) : GoString :=
  if realtimeMark.isPrefixOf (trimSpace item) then (if first then [] else [32]) ++ realtimeMark ++ redacted else item

/-- The items of `Sec-WebSocket-Protocol` without keys. -/
def sanitizeItems : List GoString → List GoString
  | [] => []
  | item :: items => sanitizeItem true item :: items.map (sanitizeItem false)

def sanitizeHeaderValue (key value : GoString) : GoString :=
  let normalized := toLower U (trimSpace key)
  if normalized ∈ sensitiveHeaderNames then redacted
  else if normalized = ascii "sec-websocket-protocol" then [44].intercalate (sanitizeItems (value.splitOn 44))
  else value

/-- The keys of a header in the order of `sort.Strings`. -/
def sortedKeys (header : HttpHeader) : List GoString := (header.rows.map Prod.fst).mergeSort fun a b => a ≤ b

/-- What is stored under a name. -/
def evidenceValues (header : HttpHeader) (key : GoString) : List GoString :=
  ((header.find key).getD []).map (sanitizeHeaderValue U key)

/-- The map that is stored as JSON. -/
def headerSnapshot (header : HttpHeader) : HttpHeader :=
  (sortedKeys header).foldl (fun snapshot key =>
    snapshot.upsert (headerEvidenceKey U key) (evidenceValues U header key) (· ++ evidenceValues U header key)) .empty

/-- `headerEvidenceJSON`, with `json.Marshal`. -/
def headerEvidenceJSON (marshal : HttpHeader → GoString) (header : HttpHeader) : GoString :=
  marshal (headerSnapshot U header)

/-! ## Headers that differ in credentials -/

def credentialNames : List String := ["authorization", "x-api-key", "x-goog-api-key", "mj-api-secret"]

/-- The key of a header with a name, in letters of either case. -/
def IsNamed (key : GoString) (name : String) : Prop := key.map lowerByte = ascii name

/-- Two items of `Sec-WebSocket-Protocol` are equal except for the text after the mark. -/
def SameItem (item item' : GoString) : Prop :=
  item = item' ∨ ∃ lead text text', Blank lead ∧ item = lead ++ (realtimeMark ++ text) ∧
    item' = lead ++ (realtimeMark ++ text')

/-- The values of a header in two sets. -/
def SameValues (key : GoString) (values values' : List GoString) : Prop :=
  values = values' ∨
  ((∃ name ∈ credentialNames, IsNamed key name) ∧ values.length = values'.length) ∨
  (IsNamed key "sec-websocket-protocol" ∧
    List.Forall₂ (fun value value' => List.Forall₂ SameItem (value.splitOn 44) (value'.splitOn 44)) values values')

/-- Two sets of headers are equal except for the values of the credential headers, of which there are as many, and
for the text after the mark in the items of `Sec-WebSocket-Protocol`. -/
def SameButCredentials (header header' : HttpHeader) : Prop :=
  ∀ key, (header.find key = none ∧ header'.find key = none) ∨
    ∃ values values', header.find key = some values ∧ header'.find key = some values' ∧ SameValues key values values'

/-! ## What is stored does not depend on them -/

variable {U} {key : GoString} {values values' : List GoString} {header header' : HttpHeader}

theorem normalized_of_isNamed {name : String} (h : IsNamed key name) (hname : Graph (ascii name)) :
    toLower U (trimSpace key) = ascii name := by
  have hkey : Graph key := graph_of_lower (h ▸ hname)
  rw [trimSpace_of_graph hkey, toLower_of_graph U hkey, h]

theorem mark_isPrefixOf_trimSpace {lead : GoString} (hlead : Blank lead) (text : GoString) :
    realtimeMark.isPrefixOf (trimSpace (lead ++ (realtimeMark ++ text))) = true :=
  List.isPrefixOf_iff_prefix.2 (hasPrefix_trimSpace (m := ascii "openai-insecure-api-key") (b := 46)
    hlead (by decide) rfl)

theorem sanitizeItem_congr (first : Bool) {item item' : GoString} (h : SameItem item item') :
    sanitizeItem first item = sanitizeItem first item' := by
  obtain rfl | ⟨lead, text, text', hlead, rfl, rfl⟩ := h
  · rfl
  · rw [sanitizeItem, if_pos (mark_isPrefixOf_trimSpace hlead text), sanitizeItem,
      if_pos (mark_isPrefixOf_trimSpace hlead text')]

theorem sanitizeItems_congr {items items' : List GoString} (h : List.Forall₂ SameItem items items') :
    sanitizeItems items = sanitizeItems items' := by
  cases h with
  | nil => rfl
  | cons hitem hitems =>
    rw [sanitizeItems, sanitizeItems, sanitizeItem_congr true hitem]
    congr 1
    induction hitems with
    | nil => rfl
    | cons hitem _ ih => rw [List.map_cons, List.map_cons, sanitizeItem_congr false hitem, ih]

theorem sanitizeHeaderValue_congr (h : SameValues key values values') :
    values.map (sanitizeHeaderValue U key) = values'.map (sanitizeHeaderValue U key) := by
  obtain rfl | ⟨⟨name, hname, hkey⟩, hlength⟩ | ⟨hkey, hvalues⟩ := h
  · rfl
  · -- Every value of a credential header is replaced.
    have hall : ∀ name ∈ credentialNames, Graph (ascii name) ∧ ascii name ∈ sensitiveHeaderNames := by decide
    have hconst : ∀ value, sanitizeHeaderValue U key value = redacted := fun value => by
      rw [sanitizeHeaderValue, normalized_of_isNamed hkey (hall name hname).1]
      exact if_pos (hall name hname).2
    rw [List.map_congr_left fun value _ => hconst value, List.map_congr_left fun value _ => hconst value,
      List.map_const', List.map_const', hlength]
  · have hgraph : Graph (ascii "sec-websocket-protocol") := by decide
    have hvalue : ∀ value, sanitizeHeaderValue U key value = [44].intercalate (sanitizeItems (value.splitOn 44)) :=
      fun value => by
        rw [sanitizeHeaderValue, normalized_of_isNamed hkey hgraph]
        exact (if_neg (by decide)).trans (if_pos rfl)
    simp only [funext hvalue]
    induction hvalues with
    | nil => rfl
    | cons hitems _ ih => rw [List.map_cons, List.map_cons, sanitizeItems_congr hitems, ih]

theorem sortedKeys_congr (h : ∀ key, header.find key = none ↔ header'.find key = none) :
    sortedKeys header = sortedKeys header' := by
  have hperm : (header.rows.map Prod.fst).Perm (header'.rows.map Prod.fst) := by
    refine (List.perm_ext_iff_of_nodup header.nodup header'.nodup).2 fun key => not_iff_not.1 ?_
    rw [← Keyed.find_eq_none, ← Keyed.find_eq_none]
    exact h key
  have hsorted : ∀ l : List GoString, (l.mergeSort fun a b => a ≤ b).Pairwise fun a b => a ≤ b := fun l => by
    refine (List.pairwise_mergeSort (fun a b c hab hbc => ?_) (fun a b => ?_) l).imp of_decide_eq_true
    · exact decide_eq_true (List.le_trans (of_decide_eq_true hab) (of_decide_eq_true hbc))
    · simpa using List.le_total a b
  refine List.Perm.eq_of_pairwise (fun a b _ _ => List.le_antisymm) (hsorted _) (hsorted _) ?_
  exact ((List.mergeSort_perm _ _).trans hperm).trans (List.mergeSort_perm _ _).symm

theorem headerSnapshot_congr (h : SameButCredentials header header') :
    headerSnapshot U header = headerSnapshot U header' := by
  have hkeys : sortedKeys header = sortedKeys header' := by
    refine sortedKeys_congr fun key => ?_
    obtain ⟨hnone, hnone'⟩ | ⟨values, values', hsome, hsome', -⟩ := h key
    · simp [hnone, hnone']
    · simp [hsome, hsome']
  have hvalues : evidenceValues U header = evidenceValues U header' := by
    funext key
    unfold evidenceValues
    obtain ⟨hnone, hnone'⟩ | ⟨values, values', hsome, hsome', hsame⟩ := h key
    · rw [hnone, hnone']
    · rw [hsome, hsome']
      exact sanitizeHeaderValue_congr hsame
  rw [headerSnapshot, headerSnapshot, hkeys, hvalues]

end

/-! ## The place of the key -/

/-- The first element with a property is replaced. -/
def replaceFirst {α : Type} (p : α → Bool) (f : α → α) : List α → List α
  | [] => []
  | a :: l => if p a then f a :: l else a :: replaceFirst p f l

section

variable (U : Unicode)

/-- The first value of a header is replaced. -/
def withFirst (name : String) (f : GoString → GoString) (header : HttpHeader) : HttpHeader :=
  header.modify (canonicalHeaderKey (ascii name)) fun
    | [] => []
    | value :: values => f value :: values

/-- A text in the place of the key of an item. -/
def putKey (text item : GoString) : GoString :=
  item.take (item.length - (trimLeft item).length) ++ (realtimeMark ++ text)

/-- A text in the place of the key that `Extract` takes from a value of `Sec-WebSocket-Protocol`. -/
def putRealtimeKey (text value : GoString) : GoString :=
  [44].intercalate (replaceFirst (fun item => (realtimeKey U item).isSome) (putKey text) (value.splitOn 44))

/-- The headers with a text in the place that a key has been taken from. -/
def withKey (text : GoString) (header : HttpHeader) : KeySource → HttpHeader
  | .authorization => withFirst "Authorization" (fun _ => text) header
  | .anthropic => withFirst "x-api-key" (fun _ => text) header
  | .geminiQuery => header
  | .geminiHeader => withFirst "x-goog-api-key" (fun _ => text) header
  | .midjourney => withFirst "mj-api-secret" (fun _ => text) header
  | .realtime => withFirst "Sec-WebSocket-Protocol" (putRealtimeKey U text) header

variable {U}

theorem putKey_same {text item : GoString} (h : (realtimeKey U item).isSome = true) :
    SameItem item (putKey text item) := by
  have hmark : realtimeMark.isPrefixOf (trimSpace item) = true := by
    by_contra hno
    rw [realtimeKey, if_neg hno] at h
    cases h
  obtain ⟨rest, hrest⟩ := List.isPrefixOf_iff_prefix.1 hmark
  obtain ⟨lead, trail, hlead, -, hitem⟩ := trimSpace_spec item
  have hitem' : item = lead ++ (realtimeMark ++ (rest ++ trail)) := by
    rw [hitem, ← hrest]
    simp
  have hleft : trimLeft item = realtimeMark ++ (rest ++ trail) := by
    rw [hitem']
    exact trimLeft_append hlead rfl
  refine .inr ⟨lead, rest ++ trail, text, hlead, hitem', ?_⟩
  rw [putKey, hleft, hitem', List.length_append, Nat.add_sub_cancel, List.take_left]

theorem comma_notMem_putKey {text item : GoString} (htext : 44 ∉ text) (hitem : 44 ∉ item) : 44 ∉ putKey text item := by
  have hmark : 44 ∉ realtimeMark := by decide
  simp only [putKey, List.mem_append, not_or]
  exact ⟨fun h => hitem (List.mem_of_mem_take h), hmark, htext⟩

theorem putRealtimeKey_same {text : GoString} (htext : 44 ∉ text) (value : GoString) :
    List.Forall₂ SameItem (value.splitOn 44) ((putRealtimeKey U text value).splitOn 44) := by
  have hsame : ∀ items : List GoString, (∀ item ∈ items, 44 ∉ item) →
      List.Forall₂ SameItem items (replaceFirst (fun item => (realtimeKey U item).isSome) (putKey text) items) ∧
      ∀ item ∈ replaceFirst (fun item => (realtimeKey U item).isSome) (putKey text) items, 44 ∉ item := by
    intro items hitems
    induction items with
    | nil => exact ⟨.nil, hitems⟩
    | cons item items ih =>
      obtain ⟨hitem, hitems⟩ := List.forall_mem_cons.1 hitems
      rw [replaceFirst]
      split
      · rename_i hkey
        exact ⟨.cons (putKey_same hkey) (List.forall₂_same.2 fun _ _ => .inl rfl),
          List.forall_mem_cons.2 ⟨comma_notMem_putKey htext hitem, hitems⟩⟩
      · exact ⟨.cons (.inl rfl) (ih hitems).1, List.forall_mem_cons.2 ⟨hitem, (ih hitems).2⟩⟩
  obtain ⟨hitems, hcomma⟩ := hsame (value.splitOn 44) (notMem_of_mem_splitOn value)
  rwa [putRealtimeKey, List.splitOn_intercalate 44 hcomma]
  intro hnil
  rw [hnil] at hitems
  exact List.splitOn_ne_nil 44 value (List.forall₂_nil_right_iff.1 hitems)

theorem withFirst_same {name : String} {f : GoString → GoString} (header : HttpHeader)
    (h : ∀ value values, SameValues (canonicalHeaderKey (ascii name)) (value :: values) (f value :: values)) :
    SameButCredentials header (withFirst name f header) := by
  intro key
  rw [withFirst, Keyed.find_modify]
  cases hfind : header.find key with
  | none => simp
  | some values =>
    by_cases hkey : key = canonicalHeaderKey (ascii name)
    · refine .inr ⟨values, _, rfl, if_pos hkey, ?_⟩
      rw [hkey]
      cases values with
      | nil => exact .inl rfl
      | cons value values => exact h value values
    · exact .inr ⟨values, values, rfl, if_neg hkey, .inl rfl⟩

theorem withKey_same {source : KeySource} {text : GoString} (htext : source = .realtime → 44 ∉ text)
    (header : HttpHeader) : SameButCredentials header (withKey U text header source) := by
  have hcredential : ∀ name : String, (∃ name' ∈ credentialNames, IsNamed (canonicalHeaderKey (ascii name)) name') →
      SameButCredentials header (withFirst name (fun _ => text) header) :=
    fun name hname => withFirst_same header fun value values => .inr (.inl ⟨hname, rfl⟩)
  cases source with
  | authorization => exact hcredential "Authorization" ⟨"authorization", by decide, rfl⟩
  | anthropic => exact hcredential "x-api-key" ⟨"x-api-key", by decide, rfl⟩
  | geminiQuery =>
    intro key
    cases hfind : header.find key with
    | none => exact .inl ⟨rfl, hfind⟩
    | some values => exact .inr ⟨values, values, rfl, hfind, .inl rfl⟩
  | geminiHeader => exact hcredential "x-goog-api-key" ⟨"x-goog-api-key", by decide, rfl⟩
  | midjourney => exact hcredential "mj-api-secret" ⟨"mj-api-secret", by decide, rfl⟩
  | realtime =>
    refine withFirst_same header fun value values => .inr (.inr ⟨rfl, .cons (putRealtimeKey_same (htext rfl) value) ?_⟩)
    exact List.forall₂_same.2 fun _ _ => List.forall₂_same.2 fun _ _ => .inl rfl

variable (U)

/-- **Header evidence hides credentials**: what is stored of two sets of headers that differ in credentials only is
the same. So what is stored of a request whose key is in a header does not depend on the text in its place. -/
theorem header_evidence_hides_credentials (marshal : HttpHeader → GoString) :
    (∀ header header', SameButCredentials header header' →
      headerEvidenceJSON U marshal header = headerEvidenceJSON U marshal header') ∧
    ∀ (req : KeyRequest) (found : ExtractedKey), extract U req = some found → found.source ≠ .geminiQuery →
      ∀ text, (found.source = .realtime → 44 ∉ text) →
        headerEvidenceJSON U marshal (withKey U text req.header found.source) =
          headerEvidenceJSON U marshal req.header := by
  have hsame : ∀ header header', SameButCredentials header header' →
      headerEvidenceJSON U marshal header = headerEvidenceJSON U marshal header' := fun header header' h =>
    congrArg marshal (headerSnapshot_congr h)
  exact ⟨hsame, fun req found _ _ text htext => (hsame _ _ (withKey_same htext req.header)).symm⟩

end

/-- A table of lower case letters that is not asked. -/
def asciiOnly : Unicode := ⟨id, fun s t => s == t⟩

/-- A request for a realtime session, with the key in the second of its protocols. -/
def realtimeRequest (key : String) : KeyRequest where
  header := ⟨[(ascii "Sec-Websocket-Protocol", [ascii ("realtime, openai-insecure-api-key." ++ key)])],
    List.nodup_singleton _⟩
  rawQuery := ascii "model=gpt-4o"

/-- Names and values one after another. -/
def plainMarshal (header : HttpHeader) : GoString := header.rows.flatMap fun row => row.1 ++ row.2.flatten

theorem header_evidence_hides_credentials_realtime :
    (extract asciiOnly (realtimeRequest "alpha")).map (·.canonicalKey) = some (ascii "alpha") ∧
    (extract asciiOnly (realtimeRequest "beta")).map (·.canonicalKey) = some (ascii "beta") ∧
    headerEvidenceJSON asciiOnly plainMarshal (realtimeRequest "beta").header =
      headerEvidenceJSON asciiOnly plainMarshal (realtimeRequest "alpha").header := by
  have hheader : withKey asciiOnly (ascii "beta") (realtimeRequest "alpha").header .realtime =
      (realtimeRequest "beta").header := by
    ext1
    decide
  refine ⟨by decide, by decide, ?_⟩
  rw [← hheader]
  exact (header_evidence_hides_credentials asciiOnly plainMarshal).2 (realtimeRequest "alpha")
    ⟨ascii "alpha", .realtime⟩
    (by decide) (by decide) (ascii "beta") (by decide)

end AuditGateway.Gateway
