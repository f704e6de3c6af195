import Mathlib.Tactic.Common

/-!
# Texts that arrive in fragments

Fragments of several texts arrive in one sequence, each with the key of its text.

* `gather`: the text of a key; `gather_eq_empty_iff`.
* `join_filter_eq_iff`: leaving out some fragments keeps the text exactly if those are empty.
* `map_eq_of_mapM`: what can be read of the elements of a list before and after a
  conversion that may fail.
-/

namespace AuditGateway.Framework

variable {α β γ κ : Type}

theorem join_eq_empty_iff {l : List String} : String.join l = "" ↔ ∀ s ∈ l, s = "" := by
  induction l with
  | nil => simp
  | cons s l ih => simp [String.join_cons, String.append_eq_empty_iff, ih]

theorem length_join_filter_le (p : α → Bool) (text : α → String) (l : List α) :
    (String.join ((l.filter p).map text)).length ≤ (String.join (l.map text)).length := by
  induction l with
  | nil => exact Nat.le_refl _
  | cons a l ih =>
    cases h : p a <;> simp only [List.filter_cons, h, ↓reduceIte, Bool.false_eq_true, List.map_cons,
      String.join_cons, String.length_append] <;> omega

theorem join_filter_eq_iff (p : α → Bool) (text : α → String) (l : List α) :
    String.join ((l.filter p).map text) = String.join (l.map text) ↔ ∀ a ∈ l, p a = false → text a = "" := by
  induction l with
  | nil => simp
  | cons a l ih =>
    cases h : p a with
    | true =>
      have hinj : ∀ s t : String, text a ++ s = text a ++ t ↔ s = t := by
        simp [← String.toList_inj]
      simp [h, String.join_cons, hinj, ih]
    | false =>
      have hlen := length_join_filter_le p text l
      constructor
      · intro heq
        simp only [List.filter_cons, h, Bool.false_eq_true, ↓reduceIte, List.map_cons, String.join_cons] at heq
        have hempty : text a = "" := by
          have := congrArg String.length heq
          rw [String.length_append] at this
          exact String.length_eq_zero_iff.1 (by omega)
        rw [hempty, String.empty_append] at heq
        simpa [hempty] using ih.1 heq
      · intro hall
        simp only [List.filter_cons, h, Bool.false_eq_true, ↓reduceIte, List.map_cons, String.join_cons]
        rw [hall a List.mem_cons_self h, String.empty_append]
        exact ih.2 fun b hb => hall b (List.mem_cons_of_mem _ hb)

theorem join_map_flatMap (f : α → List β) (text : β → String) (l : List α) :
    String.join ((l.flatMap f).map text) = String.join (l.map fun a => String.join ((f a).map text)) := by
  induction l with
  | nil => rfl
  | cons a l ih => simp [List.flatMap_cons, String.join_append, String.join_cons, ih]

section

variable [DecidableEq κ]

/-- The fragments with a key, put together in order. -/
def gather (k : κ) (fragments : List (κ × String)) : String :=
  String.join ((fragments.filter fun f => f.1 = k).map Prod.snd)

theorem gather_eq_empty_iff {k : κ} {l : List (κ × String)} : gather k l = "" ↔ ∀ f ∈ l, f.1 = k → f.2 = "" := by
  rw [gather, join_eq_empty_iff]
  simp only [List.mem_map, List.mem_filter, decide_eq_true_eq]
  exact ⟨fun h f hf hk => h _ ⟨f, ⟨hf, hk⟩, rfl⟩, fun h _ ⟨f, ⟨hf, hk⟩, hs⟩ => hs ▸ h f hf hk⟩

theorem gather_eq_join_iff {k : κ} {l : List (κ × String)} :
    gather k l = String.join (l.map Prod.snd) ↔ ∀ f ∈ l, f.1 ≠ k → f.2 = "" := by
  rw [gather, join_filter_eq_iff]
  simp only [decide_eq_false_iff_not, ne_eq]

end

theorem map_eq_of_mapM {f : α → Option β} {read : α → γ} {read' : β → γ}
    (hf : ∀ a b, f a = some b → read a = read' b) {l : List α} {l' : List β} (h : l.mapM f = some l') :
    l.map read = l'.map read' := by
  induction l generalizing l' with
  | nil =>
    obtain rfl : [] = l' := by simpa using h
    rfl
  | cons a l ih =>
    simp only [List.mapM_cons, Option.bind_eq_bind, Option.pure_def, Option.bind_eq_some_iff, Option.some.injEq] at h
    obtain ⟨b, hb, m, hm, rfl⟩ := h
    rw [List.map_cons, List.map_cons, hf a b hb, ih hm]

end AuditGateway.Framework
