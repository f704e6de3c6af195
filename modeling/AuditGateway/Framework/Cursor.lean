import Mathlib.Data.List.Basic
import Mathlib.Order.Defs.PartialOrder

/-!
# Loops and cursors

A loop without a condition goes on until its body ends it (`loop`; the number bounds the turns). A list with
increasing keys is read in pages by such a loop, each page beginning after the last entry of the one before.

* `after_take`: what is after the last of the entries that were read is what was not read.
* `loop_pages`: a loop whose turns read pages ends when all of the list has been read.
-/

namespace AuditGateway.Framework

variable {σ ρ α K : Type}

/-- The body ends the loop with a result, or goes on from another state. -/
def loop (body : σ → ρ ⊕ σ) : Nat → σ → Option ρ
  | 0, _ => none
  | n + 1, s =>
    match body s with
    | .inl result => some result
    | .inr s' => loop body n s'

section

variable {body : σ → ρ ⊕ σ} {n : Nat} {s s' : σ} {result : ρ}

theorem loop_of_inl (hn : 0 < n) (h : body s = .inl result) : loop body n s = some result := by
  cases n with
  | zero => cases hn
  | succ n => rw [loop, h]

theorem loop_of_inr (hn : 0 < n) (h : body s = .inr s') : loop body n s = loop body (n - 1) s' := by
  cases n with
  | zero => cases hn
  | succ n =>
    rw [loop, h]
    rfl

end

/-- The entries with a key after that of another; all of them, if there is none. -/
def entriesAfter [Preorder K] [DecidableLT K] (key : α → K) (entries : List α) : Option α → List α
  | none => entries
  | some last => entries.filter fun entry => key last < key entry

theorem after_take [Preorder K] [DecidableLT K] {key : α → K} {entries : List α}
    (h : entries.Pairwise fun a b => key a < key b) (k : Nat) :
    entriesAfter key entries (entries.take k).getLast? = entries.drop k := by
  cases hlast : (entries.take k).getLast? with
  | none =>
    rw [List.getLast?_eq_none_iff] at hlast
    conv_rhs => rw [← List.nil_append (entries.drop k), ← hlast, List.take_append_drop]
    rfl
  | some last =>
    obtain ⟨before, hbefore⟩ := List.getLast?_eq_some_iff.1 hlast
    -- The entries up to the last are not after it, and the others are.
    rw [← List.take_append_drop k entries, hbefore] at h
    obtain ⟨hread, -, hrest⟩ := List.pairwise_append.1 h
    have hnone : (entries.take k).filter (fun entry => key last < key entry) = [] := by
      rw [hbefore, List.filter_eq_nil_iff]
      intro entry hentry hlt
      obtain hentry | hentry := List.mem_append.1 hentry
      · have hbelow := (List.pairwise_append.1 hread).2.2 entry hentry last List.mem_cons_self
        exact lt_asymm hbelow (of_decide_eq_true hlt)
      · rw [List.mem_singleton.1 hentry] at hlt
        exact lt_irrefl _ (of_decide_eq_true hlt)
    have hall : (entries.drop k).filter (fun entry => key last < key entry) = entries.drop k :=
      List.filter_eq_self.2 fun entry hentry =>
        decide_eq_true (hrest last (List.mem_append_right _ List.mem_cons_self) entry hentry)
    rw [entriesAfter, ← List.take_append_drop k entries, List.filter_append, List.take_append_drop, hnone, hall]
    rfl

theorem loop_pages {body : σ → ρ ⊕ σ} {total size : Nat} {result : ρ} (state : Nat → σ) (hsize : 0 < size)
    (hturn : ∀ k ≤ total, body (state k) = if total < k + size then .inl result else .inr (state (k + size)))
    {k fuel : Nat} (hk : k ≤ total) (hfuel : total - k < fuel) : loop body fuel (state k) = some result := by
  induction fuel generalizing k with
  | zero => omega
  | succ fuel ih =>
    rw [loop, hturn k hk]
    by_cases hlast : total < k + size
    · rw [if_pos hlast]
    · rw [if_neg hlast]
      exact ih (Nat.not_lt.1 hlast) (by omega)

end AuditGateway.Framework
