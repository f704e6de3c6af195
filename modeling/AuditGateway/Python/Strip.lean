import Mathlib

/-!
# Python's `str.strip`

`strip` drops the characters of `str.isspace` at both ends. `strip_strip`: doing
it twice changes nothing, so a text that was stripped once can be republished.
-/

namespace AuditGateway.Python

/-- The code points for which `str.isspace` is true. -/
def isSpace (c : Nat) : Bool :=
  (9 ≤ c && c ≤ 13) || (28 ≤ c && c ≤ 32) || c == 0x85 || c == 0xA0 || c == 0x1680 ||
    (0x2000 ≤ c && c ≤ 0x200A) || c == 0x2028 || c == 0x2029 || c == 0x202F || c == 0x205F || c == 0x3000

/-- Drops the elements that satisfy `p` at both ends. -/
def stripBy {α : Type} (p : α → Bool) (l : List α) : List α :=
  (l.dropWhile p).rdropWhile p

def strip (s : String) : String :=
  String.ofList (stripBy (fun c => isSpace c.toNat) s.toList)

theorem dropWhile_rdropWhile {α : Type} {p : α → Bool} {l : List α} (h : l.dropWhile p = l) :
    (l.rdropWhile p).dropWhile p = l.rdropWhile p := by
  rw [List.dropWhile_eq_self_iff] at h ⊢
  intro hpos
  have hp := List.rdropWhile_prefix p (l := l)
  have hl : 0 < l.length := hpos.trans_le hp.length_le
  rw [hp.getElem hpos]
  exact h hl

theorem stripBy_stripBy {α : Type} (p : α → Bool) (l : List α) :
    stripBy p (stripBy p l) = stripBy p l := by
  unfold stripBy
  rw [dropWhile_rdropWhile (List.dropWhile_idempotent p l), List.rdropWhile_idempotent p]

@[simp] theorem strip_strip (s : String) : strip (strip s) = strip s := by
  simp only [strip, String.toList_ofList, stripBy_stripBy]

end AuditGateway.Python
