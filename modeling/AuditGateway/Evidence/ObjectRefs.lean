import AuditGateway.Go.Paths
import AuditGateway.Python.Paths

/-!
# Object refs

An evidence object is named by a ref, `file:///` and a path below the root of the store. The gateway and the worker
each turn refs into paths of files, and each checks the ref first: the gateway its segments
and where the path lies, the worker the text and where the path leads to.
-/

namespace AuditGateway.Evidence

open AuditGateway.Framework AuditGateway.Go AuditGateway.Python

/-! ## The gateway -/

/-- The errors of the store, by what their messages are about. -/
inductive StoreError
  | context
  | rootRequired
  | readerRequired
  /-- The system has no working directory. -/
  | noWorkingDir
  /-- `<name> is empty` -/
  | partEmpty (name : String)
  /-- `invalid <name> <value>` -/
  | invalidPart (name : String) (value : GoString)
  /-- `invalid object ref <ref>: must start with file:///` -/
  | notFileRef (ref : GoString)
  | refEmpty
  /-- `invalid object ref <ref>` -/
  | invalidRef (ref : GoString)
  /-- `Rel` finds no way. -/
  | noRelativePath
  /-- `path escapes evidence root` -/
  | escapesRoot
  /-- An error of a system call or of the reader. -/
  | system
deriving DecidableEq

structure FilesystemStore where
  root : GoString

def absoluteRoot (wd : Option WorkingDir) (root : GoString) : Except StoreError GoString :=
  if root = [] then .error .rootRequired
  else match absPath wd root with
    | none => .error .noWorkingDir
    | some full => .ok (clean full)

def validateObjectRef (objectRef : GoString) : Except StoreError GoString :=
  if objectRef = [] then .error .refEmpty
  else if [92] <:+: objectRef ∨ [47, 47] <:+: objectRef ∨ [46, 46] <:+: objectRef then .error (.invalidRef objectRef)
  else if [47].isPrefixOf objectRef ∨ isAbs objectRef then .error (.invalidRef objectRef)
  else if (objectRef.splitOn 47).any (fun part => part = [] || part = [46] || part = [46, 46]) then
    .error (.invalidRef objectRef)
  else
    let cleaned := clean objectRef
    if cleaned = [46] ∨ isAbs cleaned then .error (.invalidRef objectRef) else .ok cleaned

def ensureWithinRoot (wd : Option WorkingDir) (root path : GoString) : Except StoreError Unit :=
  match absPath wd path with
  | none => .error .noWorkingDir
  | some full => match rel root (clean full) with
    | none => .error .noRelativePath
    | some way =>
      if way = [46, 46] ∨ [46, 46, 47].isPrefixOf way ∨ isAbs way then .error .escapesRoot else .ok ()

def fileScheme : GoString := ascii "file:///"

/-- `Get`, up to the file that it opens. -/
def FilesystemStore.objectPath (wd : Option WorkingDir) (s : FilesystemStore) (objectRef : GoString) :
    Except StoreError GoString :=
  match absoluteRoot wd s.root with
  | .error e => .error e
  | .ok root =>
    if ¬ fileScheme <+: objectRef then .error (.notFileRef objectRef)
    else match validateObjectRef (objectRef.drop fileScheme.length) with
      | .error e => .error e
      | .ok refPath =>
        let path := joinPath [root, refPath]
        match ensureWithinRoot wd root path with
        | .error e => .error e
        | .ok () => .ok path

/-! ## The worker -/

/-- The `ValueError` of `_path_for_ref`, by its message. -/
inductive RefError
  /-- `invalid object ref <ref>: must start with file:///` -/
  | notFileRef (ref : Str)
  /-- `invalid object ref <ref>: empty path` -/
  | emptyPath (ref : Str)
  /-- `invalid object ref <ref>` -/
  | invalid (ref : Str)
  /-- `object ref escapes evidence root <ref>` -/
  | escapesRoot (ref : Str)
  /-- The system does not take a name. -/
  | badName
deriving DecidableEq

/-- The root was resolved when the store was made. -/
structure FilesystemEvidenceStore where
  root : ResolvedPath
  names : ∀ part ∈ root.elements, part.all fsEncodable = true

def refScheme : Str := Str.ofString "file:///"

/-- `_path_for_ref`. -/
def FilesystemEvidenceStore.pathForRef (cwd : ResolvedPath) (s : FilesystemEvidenceStore) (objectRef : Str) :
    Except RefError ResolvedPath :=
  if ¬ objectRef.startsWith refScheme then .error (.notFileRef objectRef)
  else
    let relative : Str := objectRef.drop refScheme.length
    if relative = [] then .error (.emptyPath objectRef)
    else if relative.contains [92] || relative.contains [47, 47] || relative.contains [46, 46] then
      .error (.invalid objectRef)
    else
      let refPath := PurePath.ofText relative
      if refPath.isAbsolute then .error (.invalid objectRef)
      else match ((PurePath.ofResolved s.root).join refPath).resolve cwd with
        | none => .error .badName
        | some candidate =>
          if candidate ≠ s.root ∧ s.root.elements ∉ candidate.parents then .error (.escapesRoot objectRef)
          else .ok candidate

/-! ## What the gateway takes -/

variable {wd : Option WorkingDir} {root path objectRef : GoString}

theorem absoluteRoot_eq_ok (h : absoluteRoot wd root = .ok path) : ∃ p : FilePath, path = p.text := by
  unfold absoluteRoot at h
  split at h
  · cases h
  · split at h
    · cases h
    · rename_i hfull
      obtain ⟨p, rfl⟩ := absPath_eq_some hfull
      exact ⟨p, by rw [← Except.ok.inj h, clean_text]⟩

theorem ensureWithinRoot_text (p q : FilePath) : ensureWithinRoot wd p.text q.text = .ok () ↔ p.Holds q := by
  rw [ensureWithinRoot, absPath_text]
  dsimp only
  rw [clean_text]
  by_cases h : p.Holds q
  · refine iff_of_true ?_ h
    obtain ⟨elem, helem⟩ := h
    have hplain : ∀ e ∈ elem, PlainElement 47 46 e := fun e he => q.plain e (helem ▸ List.mem_append_right _ he)
    have hq : q = p.below elem hplain := AbsPath.ext helem.symm
    by_cases hne : elem = []
    · have hself : q = p := AbsPath.ext (by rw [← helem, hne, List.append_nil])
      have hrel : rel p.text q.text = some [46] := by rw [hself, rel, if_pos rfl]
      rw [hrel]
      rfl
    · have hsplit : ∀ e ∈ ([47].intercalate elem).splitOn 47, PlainElement 47 46 e := by
        rw [List.splitOn_intercalate 47 (fun e he => (hplain e he).segment.2) hne]
        exact hplain
      obtain ⟨habs, hup, hup'⟩ := goes_down hsplit
      rw [hq, rel_below p hplain hne]
      exact if_neg (by simp [habs, hup, List.isPrefixOf_iff_prefix, hup'])
  · refine iff_of_false ?_ h
    obtain ⟨way, hway, hup⟩ := rel_of_not_holds h
    rw [hway]
    dsimp only
    rw [if_pos (hup.imp_right fun hup => .inl (List.isPrefixOf_iff_prefix.2 hup))]
    intro h
    cases h

/-- The paths below the root that the gateway takes: plain segments, of which none has `..` in it. -/
structure RefTaken (refPath : GoString) : Prop where
  plain : ∀ part ∈ refPath.splitOn 47, PlainElement 47 46 part
  noBackslash : 92 ∉ refPath
  noUp : ¬ [46, 46] <:+: refPath

theorem validateObjectRef_eq_ok : validateObjectRef objectRef = .ok path ↔
    path = objectRef ∧ RefTaken objectRef := by
  constructor
  · intro h
    unfold validateObjectRef at h
    split at h
    · cases h
    split at h
    · cases h
    split at h
    · cases h
    split at h
    · cases h
    rename_i hne htext hrooted hparts
    have hplain : ∀ part ∈ objectRef.splitOn 47, PlainElement 47 46 part := by
      intro part hpart
      simp only [List.any_eq_true, not_exists, not_and, Bool.or_eq_true, decide_eq_true_eq, not_or] at hparts
      obtain ⟨⟨hempty, hhere⟩, hup⟩ := hparts part hpart
      exact ⟨⟨hempty, notMem_of_mem_splitOn objectRef part hpart⟩, hhere, hup⟩
    dsimp only at h
    rw [clean_of_goes_down hplain] at h
    split at h
    · cases h
    · refine ⟨(Except.ok.inj h).symm, hplain, fun hmem => htext (.inl ?_), fun hup => htext (.inr (.inr hup))⟩
      exact (List.singleton_infix_iff 92 objectRef).2 hmem
  · rintro ⟨rfl, ⟨hplain, hbackslash, hup⟩⟩
    have habs := (goes_down hplain).1
    have hslashes : ¬ [47, 47] <:+: path := by
      have h := not_infix_sep_sep (fun part hpart => (hplain part hpart).segment) (List.splitOn_ne_nil 47 path)
      rwa [List.intercalate_splitOn] at h
    have hparts : (path.splitOn 47).any (fun part => part = [] || part = [46] || part = [46, 46]) = false := by
      simp only [List.any_eq_false, Bool.or_eq_true, decide_eq_true_eq, not_or]
      exact fun part hpart => ⟨⟨(hplain part hpart).segment.1, (hplain part hpart).notHere⟩, (hplain part hpart).notUp⟩
    have hhere : path ≠ [46] := by
      rintro rfl
      exact (hplain [46] (by decide)).notHere rfl
    have hne : path ≠ [] := by
      rintro rfl
      exact (hplain [] (by decide)).segment.1 rfl
    have htext : ¬ ([92] <:+: path ∨ [47, 47] <:+: path ∨ [46, 46] <:+: path) := by
      rw [List.singleton_infix_iff]
      exact not_or.2 ⟨hbackslash, not_or.2 ⟨hslashes, hup⟩⟩
    have hrooted : ¬ ([47].isPrefixOf path = true ∨ isAbs path = true) :=
      fun h => Bool.false_ne_true (habs.symm.trans (h.elim id id))
    rw [validateObjectRef, if_neg hne, if_neg htext, if_neg hrooted, if_neg (by simp [hparts])]
    dsimp only
    rw [clean_of_goes_down hplain, if_neg (by simp [hhere, habs])]

theorem objectPath_eq_ok {s : FilesystemStore} : s.objectPath wd objectRef = .ok path ↔
    ∃ (root : FilePath) (refPath : GoString) (h : RefTaken refPath), absoluteRoot wd s.root = .ok root.text ∧
      objectRef = fileScheme ++ refPath ∧ path = (root.below (refPath.splitOn 47) h.plain).text := by
  constructor
  · intro h
    unfold FilesystemStore.objectPath at h
    split at h
    · cases h
    rename_i rootText hroot
    obtain ⟨root, rfl⟩ := absoluteRoot_eq_ok hroot
    split at h
    · cases h
    rename_i hscheme
    split at h
    · cases h
    rename_i refPath hrefPath
    obtain ⟨rfl, htaken⟩ := validateObjectRef_eq_ok.1 hrefPath
    dsimp only at h
    split at h
    · cases h
    refine ⟨root, _, htaken, hroot, ?_, ?_⟩
    · exact List.prefix_append_drop (not_not.1 hscheme)
    · rw [← Except.ok.inj h, joinPath_below root htaken.plain]
  · rintro ⟨root, refPath, htaken, hroot, rfl, rfl⟩
    have hscheme : fileScheme <+: fileScheme ++ refPath := List.prefix_append _ _
    have hwithin : ensureWithinRoot wd root.text (root.below (refPath.splitOn 47) htaken.plain).text = .ok () :=
      (ensureWithinRoot_text root _).2 (AbsPath.holds_below root htaken.plain)
    have hvalid : validateObjectRef refPath = .ok refPath := validateObjectRef_eq_ok.2 ⟨rfl, htaken⟩
    simp only [FilesystemStore.objectPath, hroot, not_true_eq_false, if_false, hscheme, List.drop_left, hvalid,
      joinPath_below root htaken.plain, hwithin]

/-! ## What the worker takes -/

/-- The paths below the root that the worker takes. A segment may be `.`, and there may be a slash at the end. -/
structure RelativeTaken (relative : Str) : Prop where
  notEmpty : relative ≠ []
  noBackslash : 92 ∉ relative
  noSlashes : ¬ [47, 47] <:+: relative
  noUp : ¬ [46, 46] <:+: relative
  notRooted : ¬ [47] <+: relative
  names : ∀ part ∈ PurePath.readParts relative, part.all fsEncodable = true

theorem isAbsolute_ofText (relative : Str) : (PurePath.ofText relative).isAbsolute = true ↔ [47] <+: relative := by
  rw [PurePath.isAbsolute, PurePath.ofText]
  dsimp only
  by_cases h : [47] <+: relative
  · rw [if_neg (by simpa using h)]
    refine iff_of_true ?_ h
    split <;> decide
  · rw [if_pos (by simpa using h)]
    exact iff_of_false (by simp) h

variable {ref : Str}

theorem pathForRef_eq_ok {cwd candidate : ResolvedPath} {s : FilesystemEvidenceStore} :
    s.pathForRef cwd ref = .ok candidate ↔ ∃ relative, RelativeTaken relative ∧ ref = refScheme ++ relative ∧
      candidate.elements = s.root.elements ++ PurePath.readParts relative := by
  constructor
  · intro h
    unfold FilesystemEvidenceStore.pathForRef at h
    split at h
    · cases h
    rename_i hscheme
    dsimp only at h
    split at h
    · cases h
    split at h
    · cases h
    split at h
    · cases h
    rename_i hne htext habs
    split at h
    · cases h
    rename_i reached hreached
    split at h
    · cases h
    obtain rfl := Except.ok.inj h
    simp only [Bool.or_eq_true, Str.contains_iff, List.singleton_infix_iff, not_or] at htext
    obtain ⟨⟨hbackslash, hslashes⟩, hup⟩ := htext
    have hscheme' : refScheme <+: ref := List.isPrefixOf_iff_prefix.1 (not_not.1 hscheme)
    obtain ⟨hnames, helements⟩ := (PurePath.resolve_join (Bool.eq_false_iff.2 habs)
      fun hmem => hup (infix_of_mem_splitOn hmem)).1 hreached
    refine ⟨ref.drop refScheme.length, ⟨hne, hbackslash, hslashes, hup, ?_, ?_⟩, ?_, helements⟩
    · exact fun hrooted => habs ((isAbsolute_ofText _).2 hrooted)
    · exact fun part hpart => hnames part (List.mem_append_right _ hpart)
    · exact List.prefix_append_drop hscheme'
  · rintro ⟨relative, htaken, rfl, helements⟩
    have hscheme : (refScheme ++ relative).startsWith refScheme = true :=
      List.isPrefixOf_iff_prefix.2 (List.prefix_append _ _)
    have htext : (relative.contains [92] || relative.contains [47, 47] || relative.contains [46, 46]) = false := by
      rw [Bool.eq_false_iff]
      simp only [ne_eq, Bool.or_eq_true, Str.contains_iff, List.singleton_infix_iff, not_or]
      exact ⟨⟨htaken.noBackslash, htaken.noSlashes⟩, htaken.noUp⟩
    have habs : (PurePath.ofText relative).isAbsolute = false :=
      Bool.eq_false_iff.2 fun h => htaken.notRooted ((isAbsolute_ofText relative).1 h)
    have hresolve : ((PurePath.ofResolved s.root).join (PurePath.ofText relative)).resolve cwd = some candidate := by
      refine (PurePath.resolve_join habs fun hmem => htaken.noUp (infix_of_mem_splitOn hmem)).2 ⟨?_, helements⟩
      exact fun part hpart => (List.mem_append.1 hpart).elim (s.names part) (htaken.names part)
    have hheld : candidate = s.root ∨ s.root.elements ∈ candidate.parents :=
      mem_parents_iff.2 ⟨_, helements.symm⟩
    have hnot : ¬ (candidate ≠ s.root ∧ s.root.elements ∉ candidate.parents) := by tauto
    simp only [FilesystemEvidenceStore.pathForRef, hscheme, not_true_eq_false, if_false, List.drop_left,
      htaken.notEmpty, htext, habs, hresolve, if_neg hnot, Bool.false_eq_true]

/-! ## Both -/

theorem readParts_of_refTaken {relative : Str} (h : RefTaken relative.bytes) :
    PurePath.readParts relative = relative.splitOn 47 := by
  refine List.filter_eq_self.2 fun part hpart => decide_eq_true ?_
  have hmem : part.bytes ∈ relative.bytes.splitOn 47 := by
    rw [Str.splitOn_slash_bytes]
    exact List.mem_map_of_mem hpart
  have hplain := h.plain _ hmem
  refine ⟨?_, ?_⟩
  · rintro rfl
    exact hplain.segment.1 rfl
  · rintro rfl
    exact hplain.notHere (by decide)

theorem isAscii_refScheme : ∀ c ∈ refScheme, CodePoint.IsAscii c := by
  have hchars : ∀ c ∈ "file:///".toList, c.toNat < 0x80 := by simp
  intro c hc
  obtain ⟨char, hchar, rfl⟩ := List.mem_map.1 hc
  rw [CodePoint.IsAscii, CodePoint.val_ofChar]
  exact hchars char hchar

theorem bytes_refScheme : refScheme.bytes = fileScheme := by decide

variable {worker : FilesystemEvidenceStore}

theorem candidate_eq {cwd candidate : ResolvedPath} {gateway : FilesystemStore}
    (hroot : absoluteRoot wd gateway.root = .ok worker.root.encode.text)
    (hpath : gateway.objectPath wd ref.bytes = .ok path) (hcandidate : worker.pathForRef cwd ref = .ok candidate) :
    path = candidate.encode.text := by
  obtain ⟨root, refPath, htaken, hroot', href, rfl⟩ := objectPath_eq_ok.1 hpath
  obtain ⟨relative, -, rfl, helements⟩ := pathForRef_eq_ok.1 hcandidate
  obtain rfl : root = worker.root.encode := AbsPath.text_inj (Except.ok.inj (hroot'.symm.trans hroot))
  obtain rfl : refPath = relative.bytes := by
    rw [Str.bytes_append, bytes_refScheme] at href
    exact (List.append_cancel_left href).symm
  rw [readParts_of_refTaken htaken] at helements
  refine congrArg AbsPath.text (AbsPath.ext ?_)
  show worker.root.elements.map Str.bytes ++ relative.bytes.splitOn 47 = candidate.elements.map Str.bytes
  rw [Str.splitOn_slash_bytes, helements, List.map_append]

theorem candidate_subset {cwd candidate : ResolvedPath}
    (h : worker.pathForRef cwd ref = .ok candidate) : candidate.text ⊆ worker.root.text ++ ref := by
  obtain ⟨relative, -, rfl, helements⟩ := pathForRef_eq_ok.1 h
  have hslash : (47 : CodePoint) ∈ worker.root.text ++ (refScheme ++ relative) :=
    List.mem_append_left _ List.mem_cons_self
  intro c hc
  obtain rfl | hc := List.mem_cons.1 hc
  · exact hslash
  obtain rfl | ⟨part, hpart, hc⟩ := mem_intercalate hc
  · exact hslash
  rw [helements] at hpart
  obtain hpart | hpart := List.mem_append.1 hpart
  · exact List.mem_append_left _ (List.mem_cons_of_mem _ ((infix_intercalate hpart).subset hc))
  · have hrelative : c ∈ relative := (infix_of_mem_splitOn (List.mem_of_mem_filter hpart)).subset hc
    exact List.mem_append_right _ (List.mem_append_right _ hrelative)

theorem encode_candidate {cwd candidate : ResolvedPath} {gateway : FilesystemStore}
    (hroot : absoluteRoot wd gateway.root = .ok root) (hencoded : encodeUtf8 worker.root.text = some root)
    (href : encodeUtf8 ref = some objectRef) (hpath : gateway.objectPath wd objectRef = .ok path)
    (hcandidate : worker.pathForRef cwd ref = .ok candidate) : encodeUtf8 candidate.text = some path := by
  obtain ⟨hencodes, rfl⟩ := encodeUtf8_eq_some_iff.1 hencoded
  obtain ⟨hencodes', rfl⟩ := encodeUtf8_eq_some_iff.1 href
  rw [ResolvedPath.bytes_text] at hroot
  obtain rfl := candidate_eq hroot hpath hcandidate
  refine encodeUtf8_eq_some_iff.2 ⟨fun c hc => ?_, (ResolvedPath.bytes_text candidate).symm⟩
  exact (List.mem_append.1 (candidate_subset hcandidate hc)).elim (hencodes c) (hencodes' c)

/-- No ref names a file outside the root, and the gateway and the worker read the same file where both take a ref. -/
theorem refs_stay_in_root :
    (∀ (wd : Option WorkingDir) (gateway : FilesystemStore) (objectRef path : GoString),
      gateway.objectPath wd objectRef = .ok path →
        ∃ root file : FilePath, absoluteRoot wd gateway.root = .ok root.text ∧ path = file.text ∧ root.Holds file) ∧
    (∀ (cwd : ResolvedPath) (worker : FilesystemEvidenceStore) (objectRef : Str) (candidate : ResolvedPath),
      worker.pathForRef cwd objectRef = .ok candidate → worker.root.Holds candidate) ∧
    ∀ (wd : Option WorkingDir) (cwd : ResolvedPath) (gateway : FilesystemStore) (worker : FilesystemEvidenceStore)
      (root objectRef path : GoString) (ref : Str) (candidate : ResolvedPath),
      absoluteRoot wd gateway.root = .ok root → encodeUtf8 worker.root.text = some root →
      encodeUtf8 ref = some objectRef → gateway.objectPath wd objectRef = .ok path →
      worker.pathForRef cwd ref = .ok candidate → encodeUtf8 candidate.text = some path := by
  refine ⟨?_, ?_, ?_⟩
  · intro wd gateway objectRef path h
    obtain ⟨root, refPath, htaken, hroot, -, rfl⟩ := objectPath_eq_ok.1 h
    exact ⟨root, _, hroot, rfl, AbsPath.holds_below root htaken.plain⟩
  · intro cwd worker objectRef candidate h
    obtain ⟨relative, -, -, helements⟩ := pathForRef_eq_ok.1 h
    exact ⟨_, helements.symm⟩
  · intro wd cwd gateway worker root objectRef path ref candidate hroot hencoded href hpath hcandidate
    exact encode_candidate hroot hencoded href hpath hcandidate

/-- A worker with the root `/var`. -/
def workerAtVar : FilesystemEvidenceStore := ⟨⟨[Str.ofString "var"], by decide +kernel⟩, by decide +kernel⟩

/-- A ref that both take. -/
theorem refs_stay_in_root_both : ∃ candidate : ResolvedPath,
    workerAtVar.pathForRef workerAtVar.root (Str.ofString "file:///raw/a.bin") = .ok candidate ∧
      encodeUtf8 candidate.text = some (ascii "/var/raw/a.bin") := by
  have hcandidate : workerAtVar.pathForRef workerAtVar.root (Str.ofString "file:///raw/a.bin") =
      .ok ⟨[Str.ofString "var", Str.ofString "raw", Str.ofString "a.bin"], by decide +kernel⟩ := by decide +kernel
  refine ⟨_, hcandidate, ?_⟩
  exact refs_stay_in_root.2.2 none workerAtVar.root ⟨ascii "/var"⟩ workerAtVar (ascii "/var")
    (ascii "file:///raw/a.bin") _ _ _ (by decide +kernel) (by decide +kernel) (by decide +kernel) (by decide +kernel)
    hcandidate

end AuditGateway.Evidence
