import AuditGateway.Framework.Paths
import AuditGateway.Go.Strings

/-!
# Paths of files in Go

This is the part of the package `path/filepath` that the gateway uses, where the separator is a slash. The functions
are on texts; on the text of a path from the root they are what `AbsPath` has.

* `clean_of_isAbs`: what `Clean` makes of a path from the root.
* `joinPath_plain`: plain elements are joined to a path.
* `absPath_eq_some`: `Abs` gives the text of a path from the root.
* `rel_below`, `rel_of_not_holds`: `Rel` from a directory to what is below it, and to what is not in it.
-/

namespace AuditGateway.Go

open AuditGateway.Framework

/-- `filepath.IsAbs`. -/
def isAbs (path : GoString) : Bool := [47].isPrefixOf path

/-- `filepath.Clean`. -/
def clean (path : GoString) : GoString :=
  let elements := walk 46 (isAbs path) [] (path.splitOn 47)
  if isAbs path then 47 :: [47].intercalate elements
  else if elements = [] then [46]
  else [47].intercalate elements

/-- `filepath.Join`. -/
def joinPath (elem : List GoString) : GoString :=
  match elem.dropWhile (· = []) with
  | [] => []
  | given => clean ([47].intercalate given)

/-- Both lists without what they begin with in common. -/
def withoutCommon : List GoString → List GoString → List GoString × List GoString
  | b :: base, t :: targ => if b = t then withoutCommon base targ else (b :: base, t :: targ)
  | base, targ => (base, targ)

/-- `filepath.Rel`, or `none` if there is no way. -/
def rel (basepath targpath : GoString) : Option GoString :=
  let base := clean basepath
  let targ := clean targpath
  if targ = base then some [46]
  else
    let base := if base = [46] then [] else base
    if isAbs base ≠ isAbs targ then none
    else
      let (up, down) := withoutCommon ((base.splitOn 47).filter (· ≠ [])) ((targ.splitOn 47).filter (· ≠ []))
      if up.head? = some [46, 46] then none
      else some ([47].intercalate (up.map (fun _ => [46, 46]) ++ down))

/-- A path from the root, as `os.Getwd` gives one. -/
structure WorkingDir where
  path : GoString
  isAbs : isAbs path = true

/-- `filepath.Abs`; there may be no working directory. -/
def absPath (wd : Option WorkingDir) (path : GoString) : Option GoString :=
  if isAbs path then some (clean path) else wd.map fun dir => joinPath [dir.path, path]

/-! ## Paths from the root -/

abbrev FilePath := AbsPath (47 : UInt8) 46

variable {path : GoString}

/-- Where a text from the root leads to. -/
def FilePath.ofText (path : GoString) : FilePath :=
  AbsPath.ofElements ⟨[], by simp⟩ (path.splitOn 47) (notMem_of_mem_splitOn path)

theorem clean_of_isAbs (h : isAbs path = true) : clean path = (FilePath.ofText path).text := by
  rw [clean, if_pos h, h]
  rfl

@[simp] theorem isAbs_text (p : FilePath) : isAbs p.text = true := rfl

@[simp] theorem ofText_text (p : FilePath) : FilePath.ofText p.text = p := by
  apply AbsPath.ext
  exact AbsPath.walk_splitOn_text p true []

@[simp] theorem clean_text (p : FilePath) : clean p.text = p.text := by
  rw [clean_of_isAbs (isAbs_text p), ofText_text]

theorem joinPath_cons {first : GoString} (h : first ≠ []) (elem : List GoString) :
    joinPath (first :: elem) = clean ([47].intercalate (first :: elem)) := by
  rw [joinPath, List.dropWhile_cons_of_neg (by simpa using h)]

theorem joinPath_text (p : FilePath) (elem : List GoString) (hsep : ∀ e ∈ elem.flatMap (List.splitOn 47), 47 ∉ e) :
    joinPath (p.text :: elem) = (p.ofElements (elem.flatMap (List.splitOn 47)) hsep).text := by
  have habs : isAbs ([47].intercalate (p.text :: elem)) = true := by
    cases elem <;> rfl
  have hne : p.text ≠ [] := List.cons_ne_nil _ _
  rw [joinPath_cons hne, clean_of_isAbs habs]
  congr 1
  apply AbsPath.ext
  show walk 46 true [] _ = walk 46 true p.elements _
  rw [splitOn_intercalate_eq (List.cons_ne_nil _ _), List.flatMap_cons, walk_append,
    AbsPath.walk_splitOn_text, List.nil_append]

theorem joinPath_plain (p : FilePath) {elem : List GoString} (h : ∀ e ∈ elem, PlainElement 47 46 e) :
    joinPath (p.text :: elem) = (p.below elem h).text := by
  have hsplit : elem.flatMap (List.splitOn 47) = elem := by
    rw [List.flatMap_congr fun e he => List.splitOn_eq_singleton (h e he).segment.2]
    exact List.flatMap_singleton' elem
  have hsep : ∀ e ∈ elem.flatMap (List.splitOn 47), 47 ∉ e := by
    rw [hsplit]
    exact fun e he => (h e he).segment.2
  rw [joinPath_text p elem hsep]
  congr 1
  apply AbsPath.ext
  show walk 46 true p.elements _ = p.elements ++ elem
  rw [hsplit, walk_plain h]

theorem joinPath_below (p : FilePath) (h : ∀ e ∈ path.splitOn 47, PlainElement 47 46 e) :
    joinPath [p.text, path] = (p.below (path.splitOn 47) h).text := by
  have hsplit : [path].flatMap (List.splitOn 47) = path.splitOn 47 := List.append_nil _
  have hsep : ∀ e ∈ [path].flatMap (List.splitOn 47), 47 ∉ e := by
    rw [hsplit]
    exact fun e he => (h e he).segment.2
  rw [joinPath_text p [path] hsep]
  congr 1
  apply AbsPath.ext
  show walk 46 true p.elements _ = p.elements ++ path.splitOn 47
  rw [hsplit, walk_plain h]

theorem ofText_below (p : FilePath) {e : GoString} (h : PlainElement 47 46 e) :
    FilePath.ofText (p.text ++ 47 :: e) = p.below [e] (List.forall_mem_singleton.2 h) := by
  apply AbsPath.ext
  show walk 46 true [] _ = p.elements ++ [e]
  rw [List.splitOn_append_cons_self, walk_append, AbsPath.walk_splitOn_text, List.nil_append,
    List.splitOn_eq_singleton h.segment.2, walk_plain (List.forall_mem_singleton.2 h)]

theorem absPath_text (wd : Option WorkingDir) (p : FilePath) : absPath wd p.text = some p.text := by
  rw [absPath, if_pos (isAbs_text p), clean_text]

theorem isAbs_append (h : isAbs path = true) (rest : GoString) : isAbs (path ++ rest) = true := by
  rw [isAbs, List.isPrefixOf_iff_prefix] at h ⊢
  exact h.trans (List.prefix_append path rest)

theorem absPath_eq_some {wd : Option WorkingDir} {full : GoString} (h : absPath wd path = some full) :
    ∃ p : FilePath, full = p.text := by
  unfold absPath at h
  split at h
  · rename_i habs
    exact ⟨_, (Option.some.inj h).symm.trans (clean_of_isAbs habs)⟩
  · obtain ⟨dir, -, rfl⟩ := Option.map_eq_some_iff.1 h
    have hdir : dir.path ≠ [] := fun hnil => by
      have := dir.isAbs
      rw [hnil] at this
      exact absurd this (by decide)
    have habs : isAbs ([47].intercalate [dir.path, path]) = true := by
      rw [List.intercalate_cons_cons, List.append_assoc]
      exact isAbs_append dir.isAbs _
    exact ⟨_, (joinPath_cons hdir [path]).trans (clean_of_isAbs habs)⟩

/-! ## Relative paths -/

theorem goes_down (h : ∀ e ∈ path.splitOn 47, PlainElement 47 46 e) :
    isAbs path = false ∧ path ≠ [46, 46] ∧ ¬ [46, 46, 47] <+: path := by
  refine ⟨Bool.eq_false_iff.2 fun habs => ?_, ?_, ?_⟩
  · obtain ⟨rest, rfl⟩ := List.isPrefixOf_iff_prefix.1 habs
    exact (h [] (by simp [List.splitOn_cons_eq_if_modifyHead])).segment.1 rfl
  · rintro rfl
    exact (h [46, 46] (by decide)).notUp rfl
  · rintro ⟨rest, rfl⟩
    have hslash : (47 : UInt8) ∉ [46, 46] := by decide
    have hsplit : List.splitOn 47 ([46, 46, 47] ++ rest) = [46, 46] :: rest.splitOn 47 :=
      List.splitOn_append_cons_self_of_not_mem hslash rest
    exact (h [46, 46] (by rw [hsplit]; exact List.mem_cons_self)).notUp rfl

theorem clean_of_goes_down (h : ∀ e ∈ path.splitOn 47, PlainElement 47 46 e) : clean path = path := by
  have hwalk : walk 46 false [] (path.splitOn 47) = path.splitOn 47 := walk_plain h
  rw [clean, (goes_down h).1, hwalk, if_neg (by simp), if_neg (List.splitOn_ne_nil 47 path), List.intercalate_splitOn]

theorem withoutCommon_self_append (base targ : List GoString) : withoutCommon base (base ++ targ) = ([], targ) := by
  induction base with
  | nil => cases targ <;> rfl
  | cons b base ih => rw [List.cons_append, withoutCommon, if_pos rfl, ih]

theorem withoutCommon_up_ne {base targ : List GoString} (h : ¬ base <+: targ) : (withoutCommon base targ).1 ≠ [] := by
  induction base, targ using withoutCommon.induct with
  | case1 base b targ ih =>
    rw [withoutCommon, if_pos rfl]
    exact ih fun hpre => h (List.cons_prefix_cons.2 ⟨rfl, hpre⟩)
  | case2 b base t targ hne =>
    rw [withoutCommon, if_neg hne]
    exact List.cons_ne_nil b base
  | case3 base targ hnot =>
    cases base with
    | nil => exact absurd List.nil_prefix h
    | cons b base =>
      cases targ with
      | nil => exact List.cons_ne_nil b base
      | cons t targ => exact absurd rfl (hnot b base t targ rfl)

theorem withoutCommon_subset (base targ : List GoString) : (withoutCommon base targ).1 ⊆ base := by
  induction base, targ using withoutCommon.induct with
  | case1 base b targ ih =>
    rw [withoutCommon, if_pos rfl]
    exact fun e he => List.mem_cons_of_mem b (ih he)
  | case2 b base t targ hne =>
    rw [withoutCommon, if_neg hne]
    exact fun e he => he
  | case3 base targ hnot =>
    rw [withoutCommon]
    · exact fun e he => he
    · exact hnot

theorem rel_text {p q : FilePath} (hne : q ≠ p) : rel p.text q.text =
    some ([47].intercalate ((withoutCommon p.elements q.elements).1.map (fun _ => [46, 46]) ++
      (withoutCommon p.elements q.elements).2)) := by
  have htext : q.text ≠ p.text := fun h => hne (AbsPath.text_inj h)
  have hbase : p.text ≠ [46] := fun h => absurd (List.cons.inj h).1 (by decide)
  have hup : (withoutCommon p.elements q.elements).1.head? ≠ some [46, 46] := fun h =>
    (p.plain _ (withoutCommon_subset _ _ (List.mem_of_head? h))).notUp rfl
  simp only [rel, clean_text, isAbs_text, if_neg htext, if_neg hbase, AbsPath.filter_splitOn_text, ne_eq,
    not_true_eq_false, if_false, if_neg hup]

theorem rel_below (p : FilePath) {elem : List GoString} (h : ∀ e ∈ elem, PlainElement 47 46 e) (hne : elem ≠ []) :
    rel p.text (p.below elem h).text = some ([47].intercalate elem) := by
  have hbelow : p.below elem h ≠ p := fun heq => hne (List.append_right_eq_self.1 (congrArg AbsPath.elements heq))
  rw [rel_text hbelow, show (p.below elem h).elements = p.elements ++ elem from rfl, withoutCommon_self_append]
  rfl

theorem rel_of_not_holds {p q : FilePath} (h : ¬ p.Holds q) :
    ∃ way, rel p.text q.text = some way ∧ (way = [46, 46] ∨ [46, 46, 47] <+: way) := by
  have hne : q ≠ p := fun heq => h (heq ▸ List.prefix_rfl)
  refine ⟨_, rel_text hne, ?_⟩
  obtain ⟨e, up, hup⟩ := List.exists_cons_of_ne_nil (withoutCommon_up_ne h)
  rw [hup, List.map_cons, List.cons_append]
  cases hrest : up.map (fun _ => [46, 46]) ++ (withoutCommon p.elements q.elements).2 with
  | nil => exact .inl List.intercalate_singleton
  | cons second rest =>
    rw [List.intercalate_cons_cons, List.append_assoc]
    exact .inr ⟨_, rfl⟩

end AuditGateway.Go
