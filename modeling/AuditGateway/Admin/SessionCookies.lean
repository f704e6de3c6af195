import AuditGateway.Go.Base64
import Mathlib.Data.List.Forall2

/-!
# Session cookies

The value of a session cookie is the id of the session, a dot and a signature of the id, encoded twice: the signature
first, and then the whole. A cookie is accepted if its signature is that of its id. Many texts stand for one cookie,
since line ends and the last bits of an encoding are passed over; they do not stand for other ids.

* `CookieOf`: the id and the signature that a text stands for, which do not depend on the secret.
* `verifyCookie_eq_some_iff`: the cookies that are accepted.
* `session_cookies_authentic`: a cookie for an id is accepted with that id, and each one that is accepted has
  the signature of its id.
-/

namespace AuditGateway.Admin

open AuditGateway.Go

/-- `hmac.New(sha256.New, key)` and its sum of a message, which is of 32 bytes. -/
structure HmacSha256 where
  sum : GoString → GoString → GoString
  length_sum : ∀ key message, (sum key message).length = 32

/-- `subtle.ConstantTimeCompare`. -/
def constantTimeCompare (x y : GoString) : Nat :=
  if x.length ≠ y.length then 0
  else if (x.zip y).foldl (fun v pair => v ||| (pair.1 ^^^ pair.2)) 0 = 0 then 1
  else 0

def signSessionID (H : HmacSha256) (secret sessionID : GoString) : GoString :=
  let signature := H.sum secret sessionID
  let payload := sessionID ++ ascii "." ++ rawURLEncode signature
  rawURLEncode payload

/-- The id of the session, or `none` if the cookie is not accepted. -/
def verifyCookie (H : HmacSha256) (secret value : GoString) : Option GoString := do
  let payload ← rawURLDecode value
  let (sessionID, signatureValue) := cut 46 payload
  if 46 ∉ payload ∨ sessionID = [] ∨ signatureValue = [] then none
  else do
    let signature ← rawURLDecode signatureValue
    if constantTimeCompare signature (H.sum secret sessionID) ≠ 1 then none else some sessionID

/-- A text stands for a cookie with this id and this signature. -/
def CookieOf (value sessionID signature : GoString) : Prop :=
  ∃ signatureValue, rawURLDecode value = some (sessionID ++ 46 :: signatureValue) ∧ 46 ∉ sessionID ∧
    rawURLDecode signatureValue = some signature

/-- A signature of a message that was never signed. -/
def Forged (H : HmacSha256) (secret : GoString) (signed : Set GoString) (message signature : GoString) : Prop :=
  message ∉ signed ∧ signature = H.sum secret message

/-! ## Comparing signatures -/

theorem foldl_xor_eq_zero_iff (pairs : List (UInt8 × UInt8)) (v : UInt8) :
    pairs.foldl (fun v pair => v ||| (pair.1 ^^^ pair.2)) v = 0 ↔ v = 0 ∧ ∀ pair ∈ pairs, pair.1 = pair.2 := by
  induction pairs generalizing v with
  | nil => simp
  | cons pair pairs ih =>
    rw [List.foldl_cons, ih, UInt8.or_eq_zero_iff, UInt8.xor_eq_zero_iff, List.forall_mem_cons, and_assoc]

theorem constantTimeCompare_eq_one_iff (x y : GoString) : constantTimeCompare x y = 1 ↔ x = y := by
  unfold constantTimeCompare
  split
  · rename_i hlength
    exact iff_of_false (by decide) fun h => hlength (congrArg List.length h)
  rename_i hlength
  have hzip : (∀ pair ∈ x.zip y, pair.1 = pair.2) ↔ x = y := by
    rw [← List.forall₂_eq_eq_eq, List.forall₂_iff_zip, and_iff_right (not_not.1 hlength), Prod.forall]
  have hfold := foldl_xor_eq_zero_iff (x.zip y) 0
  rw [hzip, and_iff_right rfl] at hfold
  split
  · rename_i hzero
    exact iff_of_true rfl (hfold.1 hzero)
  · rename_i hzero
    exact iff_of_false (by decide) fun h => hzero (hfold.2 h)

/-! ## Cookies -/

section

variable {H : HmacSha256} {secret value sessionID : GoString}

theorem verifyCookie_eq_some_iff :
    verifyCookie H secret value = some sessionID ↔
      sessionID ≠ [] ∧ CookieOf value sessionID (H.sum secret sessionID) := by
  unfold verifyCookie
  constructor
  · intro h
    obtain ⟨payload, hvalue, h⟩ := Option.bind_eq_some_iff.1 h
    dsimp only at h
    split at h
    · cases h
    rename_i hparts
    simp only [not_or, not_not] at hparts
    obtain ⟨hdot, hid, -⟩ := hparts
    obtain ⟨before, after, rfl, hbefore⟩ := List.eq_append_cons_of_mem hdot
    rw [cut_append hbefore] at h hid
    obtain ⟨signature, hsignature, h⟩ := Option.bind_eq_some_iff.1 h
    split at h
    · cases h
    rename_i hcompare
    obtain rfl := Option.some.inj h
    rw [not_not, constantTimeCompare_eq_one_iff] at hcompare
    exact ⟨hid, after, hvalue, hbefore, hcompare ▸ hsignature⟩
  · rintro ⟨hid, signatureValue, hvalue, hdot, hsignature⟩
    -- The signature is not empty, and so neither is its text.
    have hne : signatureValue ≠ [] := by
      rintro rfl
      have hlength := H.length_sum secret sessionID
      rw [← Option.some.inj hsignature] at hlength
      cases hlength
    simp only [hvalue, Option.bind_eq_bind, Option.bind_some, cut_append hdot, hsignature]
    rw [if_neg (by simp [hid, hne]), if_neg (not_not.2 ((constantTimeCompare_eq_one_iff _ _).2 rfl))]

theorem CookieOf.unique {other signature signature' : GoString} (h : CookieOf value sessionID signature)
    (h' : CookieOf value other signature') : other = sessionID ∧ signature' = signature := by
  obtain ⟨signatureValue, hvalue, hdot, hsignature⟩ := h
  obtain ⟨signatureValue', hvalue', hdot', hsignature'⟩ := h'
  have hcut := cut_append hdot' signatureValue'
  rw [Option.some.inj (hvalue'.symm.trans hvalue), cut_append hdot, Prod.mk.injEq] at hcut
  rw [← hcut.2, hsignature] at hsignature'
  exact ⟨hcut.1.symm, (Option.some.inj hsignature').symm⟩

theorem cookieOf_signSessionID (h : 46 ∉ sessionID) :
    CookieOf (signSessionID H secret sessionID) sessionID (H.sum secret sessionID) := by
  refine ⟨rawURLEncode (H.sum secret sessionID), ?_, h, rawURLDecode_rawURLEncode _⟩
  rw [signSessionID, rawURLDecode_rawURLEncode, List.append_assoc]
  rfl

end

/-- The cookie for an id is accepted with that id. Any text that is accepted stands for a cookie with the signature
of its id; if the id was never signed, the signature is forged. -/
theorem session_cookies_authentic (H : HmacSha256) (secret : GoString) :
    (∀ sessionID, sessionID ≠ [] → 46 ∉ sessionID →
      verifyCookie H secret (signSessionID H secret sessionID) = some sessionID) ∧
    ∀ value sessionID, verifyCookie H secret value = some sessionID →
      CookieOf value sessionID (H.sum secret sessionID) ∧
        ∀ other signature, CookieOf value other signature → other = sessionID ∧ signature = H.sum secret sessionID ∧
          ∀ signed, sessionID ∉ signed → Forged H secret signed sessionID signature := by
  constructor
  · intro sessionID hid hdot
    exact verifyCookie_eq_some_iff.2 ⟨hid, cookieOf_signSessionID hdot⟩
  · intro value sessionID h
    obtain ⟨-, hcookie⟩ := verifyCookie_eq_some_iff.1 h
    refine ⟨hcookie, fun other signature hother => ?_⟩
    obtain ⟨hid, hsignature⟩ := hcookie.unique hother
    exact ⟨hid, hsignature, fun signed hsigned => ⟨hsigned, hsignature⟩⟩

def paddedSum : HmacSha256 where
  sum key message := (key ++ message).takeD 32 0
  length_sum _ _ := List.takeD_length ..

/-- The cookie of a session is accepted, and the one of another session is forged. -/
theorem session_cookies_authentic_padded :
    verifyCookie paddedSum (ascii "secret") (signSessionID paddedSum (ascii "secret") (ascii "s1")) =
      some (ascii "s1") ∧
      Forged paddedSum (ascii "secret") {ascii "s2"} (ascii "s1") (paddedSum.sum (ascii "secret") (ascii "s1")) := by
  have hother : ascii "s1" ≠ ascii "s2" := by decide
  obtain ⟨haccepted, hforged⟩ := session_cookies_authentic paddedSum (ascii "secret")
  have hcookie := haccepted (ascii "s1") (by decide) (by decide)
  refine ⟨hcookie, ?_⟩
  obtain ⟨hself, hall⟩ := hforged _ _ hcookie
  exact (hall _ _ hself).2.2 _ hother

end AuditGateway.Admin
