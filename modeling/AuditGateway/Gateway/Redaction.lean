import AuditGateway.Framework.Scan
import AuditGateway.Gateway.Headers

/-!
# Redacted error messages

When a request can not be forwarded, the text of the error goes to the trace, and it has the URL with the
query string. `redactAuditMessage` replaces what the patterns for bearer tokens and for the parameter
`key` match, and all of a message that has the mark of a key left.

The pattern for `key` is matched with the text of the URL, while the key is taken from the parsed query
string, where the name of the parameter may be escaped.
-/

namespace AuditGateway.Gateway

open AuditGateway.Framework AuditGateway.Go

/-! ## The patterns -/

/-- `\s`. -/
def isSpaceByte (b : UInt8) : Bool := [9, 10, 12, 13, 32].contains b

/-- U+212A, a `k` when case is ignored. -/
def kelvinSign : GoString := [0xE2, 0x84, 0xAA]

/-- U+017F, an `s` when case is ignored. -/
def longS : GoString := [0xC5, 0xBF]

/-- A letter of a pattern when case is ignored: what it matches, and the rest. -/
def foldLetter (letter : UInt8) (s : GoString) : Option (GoString × GoString) :=
  if letter = 107 ∧ kelvinSign.isPrefixOf s then some (kelvinSign, s.drop kelvinSign.length)
  else
    match s with
    | b :: s => if lowerByte b = letter then some ([b], s) else none
    | [] => none

/-- The letters of a pattern, one after another. -/
def foldLetters : GoString → GoString → Option (GoString × GoString)
  | [], s => some ([], s)
  | letter :: letters, s =>
    (foldLetter letter s).bind fun first => (foldLetters letters first.2).map fun more => (first.1 ++ more.1, more.2)

/-- The bytes of `[A-Za-z0-9._~+/=-]`. -/
def isBearerByte (b : UInt8) : Bool :=
  (48 ≤ b && b ≤ 57) || (65 ≤ b && b ≤ 90) || (97 ≤ b && b ≤ 122) || [46, 95, 126, 43, 47, 61, 45].contains b

/-- What follows the characters of a bearer token, at most `n`. When case is ignored, they are two more. -/
def dropBearer : Nat → GoString → GoString
  | 0, s => s
  | n + 1, s =>
    if longS.isPrefixOf s then dropBearer n (s.drop longS.length)
    else if kelvinSign.isPrefixOf s then dropBearer n (s.drop kelvinSign.length)
    else
      match s with
      | b :: rest => if isBearerByte b then dropBearer n rest else s
      | [] => []

/-- `bearerTokenPattern`. -/
def bearerToken (s : GoString) : Option (GoString × GoString) :=
  (foldLetters (ascii "bearer") s).bind fun scheme =>
    let space := scheme.2.takeWhile isSpaceByte
    let token := scheme.2.dropWhile isSpaceByte
    let rest := dropBearer token.length token
    if space = [] ∨ rest.length = token.length then none else some (scheme.1 ++ space, rest)

/-- The bytes that end the value of a parameter, for `queryKeyPattern`. -/
def endsValue (b : UInt8) : Bool := b == 38 || isSpaceByte b

/-- `[?&]key=`: what it matches, and the rest. -/
def keyName : GoString → Option (GoString × GoString)
  | b :: s => if b = 63 ∨ b = 38 then (foldLetters (ascii "key=") s).map fun name => (b :: name.1, name.2) else none
  | [] => none

/-- `queryKeyPattern`. -/
def queryKey (s : GoString) : Option (GoString × GoString) :=
  (keyName s).bind fun name =>
    if name.2.takeWhile (! endsValue ·) = [] then none else some (name.1, name.2.dropWhile (! endsValue ·))

def markers : List GoString := ["sk-", "x-api-key", "x-goog-api-key", "mj-api-secret"].map ascii

/-- The two replacements of `redactAuditMessage`. -/
def maskPatterns (value : GoString) : GoString :=
  replaceAll queryKey redacted (replaceAll bearerToken redacted value)

section

variable (U : Unicode)

/-- The message has a mark of a key left. -/
def Marked (value : GoString) : Prop := ∃ marker ∈ markers, marker <:+: toLower U value

instance (value : GoString) : Decidable (Marked U value) := inferInstanceAs (Decidable (∃ marker ∈ markers, _))

def redactAuditMessage (value : GoString) : GoString :=
  if Marked U (maskPatterns value) then redacted else maskPatterns value

end

/-! ## Word by word -/

/-- The value of the first parameter of a word that is written `key` is replaced. -/
def maskWord : GoString → GoString
  | [] => []
  | b :: word =>
    match keyName (b :: word) with
    | some (name, value) => if value = [] then b :: maskWord word else name ++ redacted
    | none => b :: maskWord word

/-- A text with the values of the parameters that are written `key` replaced in each of its words, which begin at
ampersands and white space. -/
def maskWords (s : GoString) : GoString := (cutBefore endsValue s).flatMap maskWord

section

variable {letter : UInt8} {letters s m rest : GoString}

theorem lowerByte_of_endsValue {b : UInt8} (h : endsValue b = true) : lowerByte b = b := by
  have hb : b ∈ [38, 9, 10, 12, 13, 32] := by simpa [endsValue, isSpaceByte] using h
  have hall : ([38, 9, 10, 12, 13, 32] : List UInt8).all (fun b => lowerByte b == b) = true := by decide
  exact beq_iff_eq.1 (List.all_eq_true.1 hall b hb)

theorem foldLetter_eq_some (hletter : endsValue letter = false) (h : foldLetter letter s = some (m, rest)) :
    s = m ++ rest ∧ ∀ b ∈ m, endsValue b = false := by
  unfold foldLetter at h
  split at h
  · rename_i hk
    obtain ⟨t, rfl⟩ := List.isPrefixOf_iff_prefix.1 hk.2
    simp only [Option.some.injEq, Prod.mk.injEq, List.drop_left] at h
    obtain ⟨rfl, rfl⟩ := h
    have hall : kelvinSign.all (! endsValue ·) = true := by decide
    exact ⟨rfl, fun b hb => by simpa using List.all_eq_true.1 hall b hb⟩
  · cases s with
    | nil => cases h
    | cons b s =>
      simp only at h
      split at h
      · rename_i hb
        simp only [Option.some.injEq, Prod.mk.injEq] at h
        obtain ⟨rfl, rfl⟩ := h
        refine ⟨rfl, fun c hc => ?_⟩
        rw [List.mem_singleton.1 hc]
        by_contra hends
        rw [lowerByte_of_endsValue (by simpa using hends)] at hb
        rw [hb] at hends
        exact hends hletter
      · cases h

theorem foldLetter_takeWhile (hletter : endsValue letter = false) (s : GoString) :
    foldLetter letter (s.takeWhile (! endsValue ·)) =
      (foldLetter letter s).map fun found => (found.1, found.2.takeWhile (! endsValue ·)) := by
  by_cases hk : letter = 107 ∧ kelvinSign.isPrefixOf s
  · obtain ⟨t, rfl⟩ := List.isPrefixOf_iff_prefix.1 hk.2
    rw [hk.1]
    rfl
  · have hk' : ¬ (letter = 107 ∧ kelvinSign.isPrefixOf (s.takeWhile (! endsValue ·))) := fun h =>
      hk ⟨h.1, List.isPrefixOf_iff_prefix.2 ((List.isPrefixOf_iff_prefix.1 h.2).trans (List.takeWhile_prefix _))⟩
    unfold foldLetter
    rw [if_neg hk', if_neg hk]
    cases s with
    | nil => rfl
    | cons b s =>
      cases hb : endsValue b with
      | true =>
        have hne : lowerByte b ≠ letter := by
          intro h
          rw [lowerByte_of_endsValue hb] at h
          rw [h, hletter] at hb
          cases hb
        simp [hb, hne]
      | false =>
        simp only [List.takeWhile_cons, hb, Bool.not_false, if_true]
        split <;> rfl

theorem foldLetters_eq_some (hletters : ∀ letter ∈ letters, endsValue letter = false)
    (h : foldLetters letters s = some (m, rest)) : s = m ++ rest ∧ ∀ b ∈ m, endsValue b = false := by
  induction letters generalizing s m with
  | nil =>
    obtain ⟨rfl, rfl⟩ := Prod.mk.inj (Option.some.inj h)
    exact ⟨rfl, by simp⟩
  | cons letter letters ih =>
    obtain ⟨hletter, hletters⟩ := List.forall_mem_cons.1 hletters
    obtain ⟨⟨first, rest₁⟩, hfirst, h⟩ := Option.bind_eq_some_iff.1 h
    obtain ⟨⟨more, rest₂⟩, hmore, h⟩ := Option.map_eq_some_iff.1 h
    obtain ⟨rfl, rfl⟩ := Prod.mk.inj h
    obtain ⟨rfl, hall⟩ := foldLetter_eq_some hletter hfirst
    obtain ⟨hrest, hall'⟩ := ih hletters hmore
    refine ⟨by rw [List.append_assoc, ← hrest], fun b hb => ?_⟩
    exact (List.mem_append.1 hb).elim (hall b) (hall' b)

theorem foldLetters_takeWhile (hletters : ∀ letter ∈ letters, endsValue letter = false) (s : GoString) :
    foldLetters letters (s.takeWhile (! endsValue ·)) =
      (foldLetters letters s).map fun found => (found.1, found.2.takeWhile (! endsValue ·)) := by
  induction letters generalizing s with
  | nil => rfl
  | cons letter letters ih =>
    obtain ⟨hletter, hletters⟩ := List.forall_mem_cons.1 hletters
    rw [foldLetters, foldLetter_takeWhile hletter, foldLetters]
    cases foldLetter letter s with
    | none => rfl
    | some first =>
      simp only [Option.map_some, Option.bind_some, ih hletters, Option.map_map]
      rfl

theorem endsValue_key : ∀ letter ∈ ascii "key=", endsValue letter = false := by
  have hall : (ascii "key=").all (! endsValue ·) = true := by decide
  exact fun letter hletter => by simpa using List.all_eq_true.1 hall letter hletter

theorem keyName_cons (b : UInt8) (s : GoString) : keyName (b :: s) = if b = 63 ∨ b = 38 then
    (foldLetters (ascii "key=") s).map fun name => (b :: name.1, name.2) else none := rfl

theorem keyName_takeWhile (b : UInt8) (s : GoString) :
    keyName (b :: s.takeWhile (! endsValue ·)) =
      (keyName (b :: s)).map fun found => (found.1, found.2.takeWhile (! endsValue ·)) := by
  rw [keyName_cons, keyName_cons]
  split
  · rw [foldLetters_takeWhile endsValue_key, Option.map_map, Option.map_map]
    rfl
  · rfl

theorem dropWhile_of_keyName {b : UInt8} {name value : GoString} (h : keyName (b :: s) = some (name, value)) :
    s.dropWhile (! endsValue ·) = value.dropWhile (! endsValue ·) ∧ value.length ≤ s.length := by
  rw [keyName_cons] at h
  split at h
  · obtain ⟨⟨m, rest⟩, hfold, heq⟩ := Option.map_eq_some_iff.1 h
    obtain ⟨-, rfl⟩ := Prod.mk.inj heq
    obtain ⟨rfl, hall⟩ := foldLetters_eq_some endsValue_key hfold
    exact ⟨List.dropWhile_append_of_pos fun c hc => by simp [hall c hc], by simp⟩
  · cases h

theorem maskWords_cons (b : UInt8) (s : GoString) : maskWords (b :: s) = maskWord (b :: s.takeWhile (! endsValue ·)) ++
    ((cutBefore endsValue (s.dropWhile (! endsValue ·))).tail).flatMap maskWord := by
  rw [maskWords, cutBefore_cons]
  split
  · rfl
  · rfl

theorem maskWords_dropWhile (s : GoString) : maskWords (s.dropWhile (! endsValue ·)) =
    ((cutBefore endsValue (s.dropWhile (! endsValue ·))).tail).flatMap maskWord := by
  rw [maskWords, cutBefore_dropWhile, List.flatMap_cons]
  rfl

theorem replaceAll_queryKey (s : GoString) : replaceAll queryKey redacted s = maskWords s := by
  refine replaceAll_eq rfl (fun b s kept rest h => ?_) (fun b s h => ?_) s
  · obtain ⟨⟨name, value⟩, hname, h⟩ := Option.bind_eq_some_iff.1 h
    simp only at h
    split at h
    · cases h
    · rename_i hvalue
      obtain ⟨rfl, rfl⟩ := Prod.mk.inj (Option.some.inj h)
      obtain ⟨hdrop, hlength⟩ := dropWhile_of_keyName hname
      refine ⟨?_, (List.dropWhile_sublist _).length_le.trans hlength⟩
      rw [maskWords_cons, maskWord, keyName_takeWhile, hname, hdrop, ← maskWords_dropWhile]
      simp only [Option.map_some]
      rw [if_neg hvalue]
  · have hword : maskWord (b :: s.takeWhile (! endsValue ·)) = b :: maskWord (s.takeWhile (! endsValue ·)) := by
      rw [maskWord, keyName_takeWhile]
      cases hname : keyName (b :: s) with
      | none => rfl
      | some found =>
        rw [queryKey, hname, Option.bind_some] at h
        split at h
        · rename_i hvalue
          simp only [Option.map_some]
          rw [if_pos hvalue]
        · cases h
    have hs : maskWords s = maskWord (s.takeWhile (! endsValue ·)) ++
        ((cutBefore endsValue (s.dropWhile (! endsValue ·))).tail).flatMap maskWord := by
      rw [maskWords, cutBefore_eq]
      rfl
    rw [maskWords_cons, hword, hs]
    rfl

end

/-! ## Requests with a key in the query string -/

/-- A request whose key is in its query string and that could not be forwarded, with the message of the error. The
URL that it was forwarded to has the query string as it is, and the message has the URL. -/
structure FailedForward (U : Unicode) where
  req : KeyRequest
  key : GoString
  raw : GoString
  value : GoString
  message : GoString
  extracted : extract U req = some ⟨key, .geminiQuery⟩
  param : keyParam req.rawQuery = some (raw, value)
  quotes : 63 :: req.rawQuery <:+: message

/-! ## What is shown of a word -/

/-- The text begins with a parameter that is written `key` and has a value. -/
def HasKey (s : GoString) : Prop := ∃ name value, keyName s = some (name, value) ∧ value ≠ []

/-- What is shown of a word: all of it, or what comes before the value of the first parameter that is written `key`,
and the mark. -/
inductive Shown : GoString → GoString → Prop
  | plain {word : GoString} : (∀ rest, rest <:+ word → ¬ HasKey rest) → Shown word word
  | masked {before rest name value : GoString} : keyName rest = some (name, value) → value ≠ [] →
    (∀ b later, b :: later <:+ before → ¬ HasKey (b :: (later ++ rest))) →
    Shown (before ++ rest) (before ++ (name ++ redacted))

section

variable {b : UInt8} {word name value : GoString}

theorem maskWord_of_key (h : keyName word = some (name, value)) (hvalue : value ≠ []) :
    maskWord word = name ++ redacted := by
  cases word with
  | nil => cases h
  | cons b word =>
    rw [maskWord, h]
    exact if_neg hvalue

theorem maskWord_of_not_hasKey (h : ¬ HasKey (b :: word)) : maskWord (b :: word) = b :: maskWord word := by
  rw [maskWord]
  split
  · rename_i name value hname
    exact if_pos (by_contra fun hvalue => h ⟨name, value, hname, hvalue⟩)
  · rfl

theorem maskWord_plain (h : ∀ rest, rest <:+ word → ¬ HasKey rest) : maskWord word = word := by
  induction word with
  | nil => rfl
  | cons b word ih =>
    rw [maskWord_of_not_hasKey (h _ List.suffix_rfl), ih fun rest hrest => h rest (hrest.trans (List.suffix_cons ..))]

theorem maskWord_masked {before rest : GoString} (h : keyName rest = some (name, value)) (hvalue : value ≠ [])
    (hfirst : ∀ b later, b :: later <:+ before → ¬ HasKey (b :: (later ++ rest))) :
    maskWord (before ++ rest) = before ++ (name ++ redacted) := by
  induction before with
  | nil => exact maskWord_of_key h hvalue
  | cons b before ih =>
    rw [List.cons_append, maskWord_of_not_hasKey (hfirst b before List.suffix_rfl),
      ih fun c later hlater => hfirst c later (hlater.trans (List.suffix_cons ..))]
    rfl

theorem Shown.cons {text : GoString} (h : ¬ HasKey (b :: word)) (hword : Shown word text) :
    Shown (b :: word) (b :: text) := by
  cases hword with
  | plain hplain =>
    refine .plain fun rest hrest => ?_
    obtain rfl | hrest := List.suffix_cons_iff.1 hrest
    · exact h
    · exact hplain rest hrest
  | @masked before rest name value hname hvalue hfirst =>
    refine @Shown.masked (b :: before) rest name value hname hvalue fun c later hlater => ?_
    obtain heq | hlater := List.suffix_cons_iff.1 hlater
    · obtain ⟨rfl, rfl⟩ := List.cons.inj heq
      exact h
    · exact hfirst c later hlater

theorem shown_maskWord (word : GoString) : Shown word (maskWord word) := by
  induction word with
  | nil => exact .plain fun rest hrest => by simp [List.suffix_nil.1 hrest, HasKey, keyName]
  | cons b word ih =>
    by_cases h : HasKey (b :: word)
    · obtain ⟨name, value, hname, hvalue⟩ := h
      rw [maskWord_of_key hname hvalue]
      exact @Shown.masked [] (b :: word) name value hname hvalue (by simp)
    · rw [maskWord_of_not_hasKey h]
      exact ih.cons h

theorem shown_iff {text : GoString} : Shown word text ↔ maskWord word = text := by
  constructor
  · intro h
    cases h with
    | plain h => exact maskWord_plain h
    | masked h hvalue hfirst => exact maskWord_masked h hvalue hfirst
  · rintro rfl
    exact shown_maskWord word

theorem keyName_clean (h : keyName (b :: word) = some (name, value)) :
    ∃ rest, name = b :: rest ∧ ∀ c ∈ rest, endsValue c = false := by
  rw [keyName_cons] at h
  split at h
  · obtain ⟨⟨rest, _⟩, hfold, heq⟩ := Option.map_eq_some_iff.1 h
    exact ⟨rest, (Prod.mk.inj heq).1.symm, (foldLetters_eq_some endsValue_key hfold).2⟩
  · cases h

theorem maskWord_cons (b : UInt8) (word : GoString) : ∃ rest, maskWord (b :: word) = b :: rest ∧
    ((∀ c ∈ word, endsValue c = false) → ∀ c ∈ rest, endsValue c = false) := by
  by_cases h : HasKey (b :: word)
  · obtain ⟨name, value, hname, hvalue⟩ := h
    obtain ⟨rest, rfl, hrest⟩ := keyName_clean hname
    have hmark : ∀ c ∈ redacted, endsValue c = false := by decide +kernel
    exact ⟨rest ++ redacted, maskWord_of_key hname hvalue, fun _ => List.forall_mem_append.2 ⟨hrest, hmark⟩⟩
  · rw [maskWord_of_not_hasKey h]
    refine ⟨maskWord word, rfl, fun hword => ?_⟩
    cases word with
    | nil => exact hword
    | cons c word =>
      obtain ⟨rest, hrest, hclean⟩ := maskWord_cons c word
      obtain ⟨hc, hword⟩ := List.forall_mem_cons.1 hword
      rw [hrest]
      exact List.forall_mem_cons.2 ⟨hc, hclean hword⟩

theorem cutBefore_maskWords (s : GoString) :
    cutBefore endsValue (maskWords s) = (cutBefore endsValue s).map maskWord :=
  cutBefore_flatMap maskWord_cons rfl s

end

section

variable {U : Unicode}

end

/-- The key is in the query string, with the name of the parameter escaped or not. -/
def queryRequest (name : String) : KeyRequest where
  header := .empty
  rawQuery := ascii (name ++ "=AIzaSecret")

def forwardError (name : String) : GoString :=
  ascii ("Post \"http://new-api:3000/v1beta/models?" ++ name ++ "=AIzaSecret\": EOF")

def escapedName : FailedForward asciiOnly where
  req := queryRequest "%6Bey"
  key := ascii "AIzaSecret"
  raw := ascii "AIzaSecret"
  value := ascii "AIzaSecret"
  message := forwardError "%6Bey"
  extracted := by decide
  param := by decide
  quotes := by decide

end AuditGateway.Gateway
