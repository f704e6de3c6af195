import Mathlib.Data.List.Basic

/-!
# Encodings that say where they end

* `SelfDelimiting.flatMap_inj`: lists of the same length are told apart by the encodings of their elements, written one
  after another.
* `selfDelimiting_length`: a list behind its length, if the length ends with a mark that does not occur in it.
-/

namespace AuditGateway.Framework

variable {α β : Type}

/-- Whatever follows the encoding of a value, the value can be read from it. -/
def SelfDelimiting (f : α → List β) : Prop :=
  ∀ a b s t, f a ++ s = f b ++ t → a = b ∧ s = t

theorem SelfDelimiting.flatMap_inj {f : α → List β} (hf : SelfDelimiting f) {l l' : List α}
    (hlength : l.length = l'.length) (h : l.flatMap f = l'.flatMap f) : l = l' := by
  induction l generalizing l' with
  | nil => exact (List.length_eq_zero_iff.1 hlength.symm).symm
  | cons a l ih =>
    cases l' with
    | nil => cases hlength
    | cons b l' =>
      rw [List.flatMap_cons, List.flatMap_cons] at h
      obtain ⟨rfl, hrest⟩ := hf a b _ _ h
      rw [ih (Nat.succ.inj hlength) hrest]

theorem append_mark_inj {mark : β} {x y s t : List β} (hx : mark ∉ x) (hy : mark ∉ y)
    (h : x ++ mark :: s = y ++ mark :: t) : x = y ∧ s = t := by
  induction x generalizing y with
  | nil =>
    cases y with
    | nil => exact ⟨rfl, (List.cons.inj h).2⟩
    | cons b y => exact absurd ((List.cons.inj h).1 ▸ List.mem_cons_self) hy
  | cons a x ih =>
    cases y with
    | nil => exact absurd ((List.cons.inj h).1 ▸ List.mem_cons_self) hx
    | cons b y =>
      obtain ⟨rfl, hrest⟩ := List.cons.inj h
      obtain ⟨rfl, hst⟩ := ih (fun hmem => hx (List.mem_cons_of_mem _ hmem))
        (fun hmem => hy (List.mem_cons_of_mem _ hmem)) hrest
      exact ⟨rfl, hst⟩

theorem selfDelimiting_length {header : Nat → List β} (mark : β) (hmark : ∀ n, mark ∉ header n)
    (hinj : Function.Injective header) : SelfDelimiting fun l : List β => header l.length ++ mark :: l := by
  intro a b s t h
  rw [List.append_assoc, List.append_assoc] at h
  obtain ⟨hheader, hrest⟩ := append_mark_inj (hmark _) (hmark _) h
  exact List.append_inj hrest (hinj hheader)

end AuditGateway.Framework
