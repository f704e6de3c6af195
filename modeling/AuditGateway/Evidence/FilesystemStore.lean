import AuditGateway.Evidence.ObjectRefs
import AuditGateway.Framework.Effects
import AuditGateway.Framework.Raising

/-!
# The evidence store on files

`Put` writes a body to a temporary file and renames it to `raw/<year>/<month>/<day>/<trace id>/<object type>.bin` below
the root; `Get` opens the file that a ref names. What the system does is given by `System`:
whether each call succeeds, the time, and the digits at the end of the temporary name. A file is created where one was
not, at the temporary path, or where it is renamed to; `created` has every path at which a file was
created, the last one first.
-/

namespace AuditGateway.Evidence

open AuditGateway.Framework AuditGateway.Go AuditGateway.Python
open AuditGateway.Framework.Effectful

/-! ## The system -/

structure FileSystem where
  files : FilePath → Option (List UInt8)
  created : List FilePath

namespace FileSystem

def set (fs : FileSystem) (path : FilePath) (content : Option (List UInt8)) : FileSystem :=
  { fs with files := Function.update fs.files path content }

def create (fs : FileSystem) (path : FilePath) (content : Option (List UInt8)) : FileSystem :=
  { fs.set path content with created := path :: fs.created }

@[simp] theorem set_set (fs : FileSystem) (path : FilePath) (content content' : Option (List UInt8)) :
    (fs.set path content).set path content' = fs.set path content' := by
  simp [set]

@[simp] theorem create_set (fs : FileSystem) (path : FilePath) (content content' : Option (List UInt8)) :
    (fs.create path content).set path content' = fs.create path content' := by
  simp [set, create]

@[simp] theorem set_files_self (fs : FileSystem) (path : FilePath) (content : Option (List UInt8)) :
    (fs.set path content).files path = content :=
  Function.update_self ..

@[simp] theorem create_files_self (fs : FileSystem) (path : FilePath) (content : Option (List UInt8)) :
    (fs.create path content).files path = content :=
  Function.update_self ..

end FileSystem

/-- A text of digits. -/
structure Digits where
  text : GoString
  notEmpty : text ≠ []
  digits : ∀ b ∈ text, 48 ≤ b ∧ b ≤ 57

/-- The day, as it is formatted. -/
structure Time where
  year : Digits
  month : Digits
  day : Digits

/-- What a call of the store meets. -/
structure System where
  /-- The error of the context. -/
  ctx : Option StoreError
  wd : Option WorkingDir
  now : Time
  mkdirAll : Bool
  createTemp : Bool
  /-- The end of the temporary name. -/
  random : Digits
  /-- Whether what follows the given number of bytes is written. -/
  write : Nat → Bool
  close : Bool
  rename : Bool
  remove : Bool
  /-- The digest of `crypto/sha256`. -/
  sha256 : List UInt8 → List UInt8

/-- The texts that come from a reader one after another, and whether an error follows. -/
structure Reader where
  chunks : List (List UInt8)
  fails : Bool

structure PutRequest where
  traceID : GoString
  objectType : GoString
  contentType : GoString
  reader : Option Reader

structure Object where
  objectRef : GoString
  storageBackend : GoString
  contentType : GoString
  sizeBytes : Nat
  sha256 : GoString
  createdAt : Time

/-- `hex.EncodeToString`. -/
def hexEncode (bytes : List UInt8) : GoString :=
  let digit (n : UInt8) : UInt8 := if n < 10 then 48 + n else 87 + n
  bytes.flatMap fun b => [digit (b / 16), digit (b % 16)]

def check (b : Bool) : Except StoreError Unit := if b then .ok () else .error .system

/-- `os.CreateTemp`; the file is new. -/
def System.createTempFile (sys : System) (dir pattern : GoString) : Effectful StoreError FileSystem GoString := do
  let path := dir ++ 47 :: (pattern ++ sys.random.text)
  let fs ← get
  ofExcept (check (sys.createTemp && 0 ∉ path && 47 ∉ pattern && (fs.files (FilePath.ofText path)).isNone))
  modify fun fs => fs.create (FilePath.ofText path) (some [])
  return path

/-- `io.Copy` to the file and the hash: what is read is written to the file, then to the hash. -/
def System.copy (sys : System) (path : FilePath) (written : Nat) (hashed : List UInt8) :
    List (List UInt8) → Effectful StoreError FileSystem (Nat × List UInt8)
  | [] => pure (written, hashed)
  | chunk :: chunks => do
    ofExcept (check (sys.write written))
    modify fun fs => fs.set path ((fs.files path).map (· ++ chunk))
    sys.copy path (written + chunk.length) (hashed ++ chunk) chunks

/-- `os.Rename`. -/
def System.renameFile (sys : System) (oldpath newpath : GoString) : Effectful StoreError FileSystem Unit := do
  ofExcept (check (sys.rename && 0 ∉ newpath))
  modify fun fs => (fs.set (FilePath.ofText oldpath) none).create (FilePath.ofText newpath)
    (fs.files (FilePath.ofText oldpath))

/-- `os.Remove`, the error of which is ignored. -/
def System.removeFile (sys : System) (path : GoString) : Effectful StoreError FileSystem Unit :=
  modify fun fs => if sys.remove then fs.set (FilePath.ofText path) none else fs

/-! ## The store -/

def validatePathPart (name : String) (value : GoString) : Except StoreError Unit :=
  if value = [] then .error (.partEmpty name)
  else if isAbs value ∨ value = [46] ∨ value = [46, 46] then .error (.invalidPart name value)
  else if [47] <:+: value ∨ [92] <:+: value ∨ [46, 46] <:+: value then .error (.invalidPart name value)
  else .ok ()

/-- Where `Put` writes. -/
structure Place where
  root : GoString
  dir : GoString
  name : GoString
  path : GoString
  reader : Reader

/-- `Put`, up to the temporary file. -/
def FilesystemStore.place (sys : System) (s : FilesystemStore) (req : PutRequest) : Except StoreError Place := do
  sys.ctx.elim (.ok ()) .error
  let root ← absoluteRoot sys.wd s.root
  validatePathPart "trace id" req.traceID
  validatePathPart "object type" req.objectType
  let reader ← req.reader.elim (.error .readerRequired) .ok
  let dir := joinPath [root, ascii "raw", sys.now.year.text, sys.now.month.text, sys.now.day.text, req.traceID]
  check (sys.mkdirAll && 0 ∉ dir)
  let name := req.objectType ++ ascii ".bin"
  let path := joinPath [dir, name]
  ensureWithinRoot sys.wd root path
  return ⟨root, dir, name, path, reader⟩

/-- What `Put` does with the temporary file: it is filled, closed and renamed. -/
def System.fill (sys : System) (tempPath path : GoString) (reader : Reader) :
    Effectful StoreError FileSystem (Nat × List UInt8) := do
  let copied ← sys.copy (FilePath.ofText tempPath) 0 [] reader.chunks
  ofExcept (check !reader.fails)
  ofExcept (check sys.close)
  sys.renameFile tempPath path
  return copied

/-- `Put`. The temporary file is removed if it is not renamed. -/
def FilesystemStore.put (sys : System) (s : FilesystemStore) (req : PutRequest) :
    Effectful StoreError FileSystem Object := do
  let place ← ofExcept (s.place sys req)
  let tempPath ← sys.createTempFile place.dir (46 :: place.name ++ ascii ".tmp-")
  let (written, hashed) ← tryCatch (sys.fill tempPath place.path place.reader) fun e => do
    sys.removeFile tempPath
    throw e
  let ref ← ofExcept ((rel place.root place.path).elim (.error .noRelativePath) .ok)
  return {
    objectRef := fileScheme ++ ref
    storageBackend := ascii "filesystem"
    contentType := req.contentType
    sizeBytes := written
    sha256 := hexEncode (sys.sha256 hashed)
    createdAt := sys.now }

/-- `Get`, and what can be read from the file. -/
def FilesystemStore.get (sys : System) (s : FilesystemStore) (objectRef : GoString) :
    Effectful StoreError FileSystem (List UInt8) := do
  ofExcept (sys.ctx.elim (.ok ()) .error)
  let path ← ofExcept (s.objectPath sys.wd objectRef)
  let fs ← MonadState.get
  ofExcept (if 0 ∈ path then .error .system else (fs.files (FilePath.ofText path)).elim (.error .system) .ok)

/-! ## Where an object goes -/

theorem Digits.plain (d : Digits) : PlainElement 47 46 d.text := by
  have hnot : ∀ b ∈ d.text, b ≠ 47 ∧ b ≠ 46 := by
    intro b hb
    obtain ⟨hlo, -⟩ := d.digits b hb
    exact ⟨fun h => absurd (h ▸ hlo) (by decide), fun h => absurd (h ▸ hlo) (by decide)⟩
  refine ⟨⟨d.notEmpty, fun hmem => (hnot 47 hmem).1 rfl⟩, fun h => ?_, fun h => ?_⟩
  · exact (hnot 46 (by simp [h])).2 rfl
  · exact (hnot 46 (by simp [h])).2 rfl

/-- The trace ids and object types that are taken. -/
structure PartTaken (value : GoString) : Prop where
  plain : PlainElement 47 46 value
  noBackslash : 92 ∉ value
  noUp : ¬ [46, 46] <:+: value

theorem validatePathPart_eq_ok {name : String} {value : GoString} (h : validatePathPart name value = .ok ()) :
    PartTaken value := by
  unfold validatePathPart at h
  split at h
  · cases h
  split at h
  · cases h
  split at h
  · cases h
  rename_i hne hname htext
  simp only [List.singleton_infix_iff, not_or] at hname htext
  exact ⟨⟨⟨hne, htext.1⟩, hname.2.1, hname.2.2⟩, htext.2.1, htext.2.2⟩

theorem PartTaken.plain_name {value : GoString} (h : PartTaken value) : PlainElement 47 46 (value ++ ascii ".bin") := by
  have hlast : (value ++ ascii ".bin").getLast? = some 110 := by
    rw [List.getLast?_append_of_ne_nil _ (by decide)]
    rfl
  refine ⟨⟨by simp [ascii], ?_⟩, fun heq => ?_, fun heq => ?_⟩
  · rw [List.mem_append, not_or]
    exact ⟨h.plain.segment.2, by decide⟩
  · rw [heq] at hlast
    exact absurd hlast (by decide)
  · rw [heq] at hlast
    exact absurd hlast (by decide)

/-- The directories below the root. -/
def dirElements (now : Time) (traceID : GoString) : List GoString :=
  [ascii "raw", now.year.text, now.month.text, now.day.text, traceID]

def objectElements (now : Time) (req : PutRequest) : List GoString :=
  dirElements now req.traceID ++ [req.objectType ++ ascii ".bin"]

theorem plain_dirElements (now : Time) {traceID : GoString} (h : PartTaken traceID) :
    ∀ element ∈ dirElements now traceID, PlainElement 47 46 element := by
  have hraw : PlainElement 47 46 (ascii "raw") := by decide
  simp only [dirElements, List.forall_mem_cons, List.not_mem_nil, false_implies, implies_true, and_true]
  exact ⟨hraw, now.year.plain, now.month.plain, now.day.plain, h.plain⟩

theorem plain_objectElements (now : Time) {req : PutRequest} (htrace : PartTaken req.traceID)
    (htype : PartTaken req.objectType) : ∀ element ∈ objectElements now req, PlainElement 47 46 element := by
  intro element helement
  obtain helement | helement := List.mem_append.1 helement
  · exact plain_dirElements now htrace element helement
  · rw [List.mem_singleton.1 helement]
    exact htype.plain_name

variable {sys : System} {s : FilesystemStore} {req : PutRequest} {p : Place}

/-- What `Put` has checked when it creates a file, and where it does. -/
structure Placed (sys : System) (s : FilesystemStore) (req : PutRequest) (p : Place) where
  root : FilePath
  root_eq : absoluteRoot sys.wd s.root = .ok root.text
  trace : PartTaken req.traceID
  objectType : PartTaken req.objectType
  reader : req.reader = some p.reader
  rootText : p.root = root.text
  name : p.name = req.objectType ++ ascii ".bin"
  dir : p.dir = (root.below _ (plain_dirElements sys.now trace)).text
  path : p.path = (root.below _ (plain_objectElements sys.now trace objectType)).text
  noNul : 0 ∉ p.dir

theorem place_eq_ok (h : s.place sys req = .ok p) : Nonempty (Placed sys s req p) := by
  unfold FilesystemStore.place at h
  obtain ⟨_, -, h⟩ := bind_eq_ok_iff.1 h
  obtain ⟨rootText, hroot, h⟩ := bind_eq_ok_iff.1 h
  obtain ⟨_, htrace, h⟩ := bind_eq_ok_iff.1 h
  obtain ⟨_, htype, h⟩ := bind_eq_ok_iff.1 h
  obtain ⟨reader, hreader, h⟩ := bind_eq_ok_iff.1 h
  obtain ⟨_, hmkdir, h⟩ := bind_eq_ok_iff.1 h
  obtain ⟨_, -, h⟩ := bind_eq_ok_iff.1 h
  obtain rfl := Except.ok.inj h
  obtain ⟨root, rfl⟩ := absoluteRoot_eq_ok hroot
  have htrace := validatePathPart_eq_ok htrace
  have htype := validatePathPart_eq_ok htype
  have hdir : joinPath [root.text, ascii "raw", sys.now.year.text, sys.now.month.text, sys.now.day.text, req.traceID] =
      (root.below _ (plain_dirElements sys.now htrace)).text := joinPath_plain root (plain_dirElements sys.now htrace)
  have hname : ∀ e ∈ [req.objectType ++ ascii ".bin"], PlainElement 47 46 e :=
    List.forall_mem_singleton.2 htype.plain_name
  refine ⟨⟨root, hroot, htrace, htype, ?_, rfl, rfl, hdir, ?_, ?_⟩⟩
  · cases hr : req.reader with
    | none => rw [hr] at hreader; cases hreader
    | some r => rw [hr] at hreader; exact congrArg some (Except.ok.inj hreader)
  · dsimp only
    rw [hdir, joinPath_plain _ hname, AbsPath.below_below]
    rfl
  · unfold check at hmkdir
    split at hmkdir
    · rename_i hok
      simpa using (Bool.and_eq_true_iff.1 hok).2
    · cases hmkdir

/-! ## What is written -/

/-- The name of the temporary file. -/
def tempName (sys : System) (req : PutRequest) : GoString :=
  46 :: (req.objectType ++ ascii ".bin") ++ ascii ".tmp-" ++ sys.random.text

theorem length_tempName (sys : System) (req : PutRequest) :
    (req.objectType ++ ascii ".bin").length + 6 ≤ (tempName sys req).length := by
  simp only [tempName, List.length_append, List.length_cons, show (ascii ".tmp-").length = 5 from rfl]
  omega

theorem plain_tempName (sys : System) (h : PartTaken req.objectType) : PlainElement 47 46 (tempName sys req) := by
  have hlength := length_tempName sys req
  refine ⟨⟨List.cons_ne_nil _ _, ?_⟩, fun heq => ?_, fun heq => ?_⟩
  · simp only [tempName, List.mem_append, List.mem_cons, not_or]
    exact ⟨⟨⟨by decide, h.plain.segment.2, by decide⟩, by decide⟩, sys.random.plain.segment.2⟩
  · rw [heq] at hlength
    simp at hlength
  · rw [heq] at hlength
    simp at hlength

namespace Placed

variable (h : Placed sys s req p)

def file : FilePath := h.root.below _ (plain_objectElements sys.now h.trace h.objectType)

def temp : FilePath :=
  (h.root.below _ (plain_dirElements sys.now h.trace)).below [tempName sys req]
    (List.forall_mem_singleton.2 (plain_tempName sys h.objectType))

theorem holds_file : h.root.Holds h.file := AbsPath.holds_below _ _

theorem holds_temp : h.root.Holds h.temp := (AbsPath.holds_below _ _).trans (AbsPath.holds_below _ _)

end Placed

/-- What `Put` returns for a body. -/
def storedObject (sys : System) (req : PutRequest) (body : List UInt8) : Object where
  objectRef := fileScheme ++ [47].intercalate (objectElements sys.now req)
  storageBackend := ascii "filesystem"
  contentType := req.contentType
  sizeBytes := body.length
  sha256 := hexEncode (sys.sha256 body)
  createdAt := sys.now

theorem outcome_check_bind {α : Type} (b : Bool) (f : Unit → Effectful StoreError FileSystem α) (fs : FileSystem) :
    outcome (ofExcept (check b) >>= f) fs = if b then outcome (f ()) fs else (.error .system, fs) := by
  rw [outcome_bind, outcome_ofExcept]
  cases b <;> rfl

theorem FileSystem.set_self {fs : FileSystem} {path : FilePath} {content : Option (List UInt8)}
    (h : fs.files path = content) : fs.set path content = fs := by
  rw [← h]
  exact congrArg (fun files => { fs with files := files }) (Function.update_eq_self path fs.files)

theorem outcome_copy (sys : System) (path : FilePath) (chunks : List (List UInt8)) (written : Nat)
    (hashed content : List UInt8) (fs : FileSystem) (hfs : fs.files path = some content) :
    (∃ content', outcome (sys.copy path written hashed chunks) fs = (.error .system, fs.set path (some content'))) ∨
      outcome (sys.copy path written hashed chunks) fs =
        (.ok (written + chunks.flatten.length, hashed ++ chunks.flatten),
          fs.set path (some (content ++ chunks.flatten))) := by
  induction chunks generalizing written hashed content fs with
  | nil =>
    refine .inr ?_
    rw [System.copy, outcome_pure, List.flatten_nil, List.append_nil, List.append_nil, FileSystem.set_self hfs]
    rfl
  | cons chunk chunks ih =>
    rw [System.copy, outcome_check_bind]
    split
    · rw [outcome_bind, outcome_modify]
      dsimp only
      rw [hfs, Option.map_some]
      obtain ⟨content', hrest⟩ | hrest := ih (written + chunk.length) (hashed ++ chunk) (content ++ chunk) _
        (FileSystem.set_files_self fs path _)
      · exact .inl ⟨content', by rw [hrest, FileSystem.set_set]⟩
      · refine .inr ?_
        rw [hrest, FileSystem.set_set, List.flatten_cons, List.length_append, Nat.add_assoc, List.append_assoc,
          List.append_assoc]
    · exact .inl ⟨content, by rw [FileSystem.set_self hfs]⟩

theorem Placed.ofText_temp (h : Placed sys s req p) :
    FilePath.ofText (p.dir ++ 47 :: (46 :: p.name ++ ascii ".tmp-" ++ sys.random.text)) = h.temp := by
  rw [h.dir, h.name]
  exact ofText_below _ (plain_tempName sys h.objectType)

theorem Placed.ofText_path (h : Placed sys s req p) : FilePath.ofText p.path = h.file := by
  rw [h.path, ofText_text]
  rfl

theorem Placed.rel_path (h : Placed sys s req p) :
    rel p.root p.path = some ([47].intercalate (objectElements sys.now req)) := by
  rw [h.rootText, h.path]
  exact rel_below h.root _ (by simp [objectElements])

theorem outcome_fill (sys : System) (tempPath path : GoString) (reader : Reader) (fs : FileSystem)
    (hfs : fs.files (FilePath.ofText tempPath) = some []) :
    (∃ content, outcome (sys.fill tempPath path reader) fs =
      (.error .system, fs.set (FilePath.ofText tempPath) content)) ∨
    0 ∉ path ∧ outcome (sys.fill tempPath path reader) fs =
      (.ok (reader.chunks.flatten.length, reader.chunks.flatten),
        (fs.set (FilePath.ofText tempPath) none).create (FilePath.ofText path) (some reader.chunks.flatten)) := by
  unfold System.fill
  rw [outcome_bind]
  obtain ⟨content, hcopy⟩ | hcopy := outcome_copy sys _ reader.chunks 0 [] [] fs hfs
  · exact .inl ⟨some content, by rw [hcopy]⟩
  · rw [hcopy]
    dsimp only
    rw [outcome_check_bind]
    split
    · rw [outcome_check_bind]
      split
      · rw [outcome_bind, System.renameFile, outcome_check_bind]
        by_cases hrename : (sys.rename && decide (0 ∉ path)) = true
        · refine .inr ⟨by simpa using (Bool.and_eq_true_iff.1 hrename).2, ?_⟩
          rw [if_pos hrename]
          simp
        · exact .inl ⟨_, by rw [if_neg hrename]⟩
      · exact .inl ⟨_, rfl⟩
    · exact .inl ⟨_, rfl⟩

theorem outcome_createTempFile (sys : System) (dir pattern : GoString) (fs : FileSystem) :
    outcome (sys.createTempFile dir pattern) fs = (.error .system, fs) ∨
      outcome (sys.createTempFile dir pattern) fs = (.ok (dir ++ 47 :: (pattern ++ sys.random.text)),
        fs.create (FilePath.ofText (dir ++ 47 :: (pattern ++ sys.random.text))) (some [])) := by
  rw [System.createTempFile, outcome_bind, outcome_get]
  dsimp only
  rw [outcome_check_bind]
  split
  · exact .inr rfl
  · exact .inl rfl

theorem outcome_put (sys : System) (s : FilesystemStore) (req : PutRequest) (fs : FileSystem) :
    (∃ e, outcome (s.put sys req) fs = (.error e, fs)) ∨
    ∃ (p : Place) (h : Placed sys s req p),
      (∃ e content, outcome (s.put sys req) fs = (.error e, fs.create h.temp content)) ∨
      (0 ∉ p.path ∧ outcome (s.put sys req) fs = (.ok (storedObject sys req p.reader.chunks.flatten),
        (fs.create h.temp none).create h.file (some p.reader.chunks.flatten))) := by
  unfold FilesystemStore.put
  rw [outcome_bind, outcome_ofExcept]
  cases hplace : s.place sys req with
  | error e => exact .inl ⟨e, rfl⟩
  | ok p =>
    obtain ⟨h⟩ := place_eq_ok hplace
    dsimp only
    rw [outcome_bind]
    obtain htemp | htemp := outcome_createTempFile sys p.dir (46 :: p.name ++ ascii ".tmp-") fs
    · exact .inl ⟨.system, by rw [htemp]⟩
    refine .inr ⟨p, h, ?_⟩
    rw [htemp]
    dsimp only
    rw [outcome_bind, outcome_tryCatch]
    have hempty : (fs.create (FilePath.ofText (p.dir ++ 47 :: (46 :: p.name ++ ascii ".tmp-" ++ sys.random.text)))
        (some [])).files (FilePath.ofText (p.dir ++ 47 :: (46 :: p.name ++ ascii ".tmp-" ++ sys.random.text))) =
          some [] := FileSystem.create_files_self ..
    obtain ⟨content, hfill⟩ | ⟨hnul, hfill⟩ := outcome_fill sys _ p.path p.reader _ hempty
    · refine .inl ⟨.system, if sys.remove then none else content, ?_⟩
      rw [hfill, h.ofText_temp, FileSystem.create_set]
      dsimp only
      rw [outcome_bind, System.removeFile, outcome_modify, h.ofText_temp]
      cases sys.remove <;> simp
    · refine .inr ⟨hnul, ?_⟩
      rw [hfill, h.ofText_temp, h.ofText_path, FileSystem.create_set]
      dsimp only
      rw [outcome_bind, outcome_ofExcept, h.rel_path]
      rfl

theorem stored_of_ok {fs fs' : FileSystem} {object : Object} (hok : outcome (s.put sys req) fs = (.ok object, fs')) :
    ∃ (p : Place) (h : Placed sys s req p), 0 ∉ p.path ∧ (Except.ok object, fs') =
      ((.ok (storedObject sys req p.reader.chunks.flatten) : Except StoreError Object),
        (fs.create h.temp none).create h.file (some p.reader.chunks.flatten)) := by
  obtain ⟨e, hput⟩ | ⟨p, h, ⟨e, content, hput⟩ | ⟨hnul, hput⟩⟩ := outcome_put sys s req fs
  · exact absurd ((Prod.mk.inj (hok.symm.trans hput)).1) (by simp)
  · exact absurd ((Prod.mk.inj (hok.symm.trans hput)).1) (by simp)
  · exact ⟨p, h, hnul, hok.symm.trans hput⟩

/-! ## Reading an object again -/

theorem Digits.notMem (d : Digits) {b : UInt8} (hb : ¬ (48 ≤ b ∧ b ≤ 57)) : b ∉ d.text := fun h => hb (d.digits b h)

theorem not_infix_name {objectType : GoString} (hup : ¬ [46, 46] <:+: objectType) (hlast : ¬ [46] <:+ objectType) :
    ¬ [46, 46] <:+: objectType ++ ascii ".bin" := by
  rintro ⟨before, after, heq⟩
  rw [List.append_assoc] at heq
  obtain ⟨between, rfl, hrest⟩ | ⟨between, rfl, hrest⟩ := List.append_eq_append_iff.1 heq
  · match between, hrest with
    | [], hrest => exact absurd hrest (by simp [ascii])
    | [b], hrest =>
      obtain ⟨rfl, -⟩ := List.cons.inj hrest
      exact hlast (List.suffix_append before [46])
    | b :: c :: between, hrest =>
      obtain ⟨rfl, htail⟩ := List.cons.inj hrest
      obtain ⟨rfl, -⟩ := List.cons.inj htail
      exact hup ⟨before, between, by simp⟩
  · exact absurd (show [46, 46] <:+: ascii ".bin" from ⟨between, after, by rw [hrest, List.append_assoc]⟩) (by decide)

theorem Placed.refTaken_iff (h : Placed sys s req p) :
    RefTaken ([47].intercalate (objectElements sys.now req)) ↔ ¬ [46] <:+ req.objectType := by
  have hplain := plain_objectElements sys.now h.trace h.objectType
  constructor
  · rintro htaken ⟨rest, hrest⟩
    have hname : req.objectType ++ ascii ".bin" ∈ objectElements sys.now req := by simp [objectElements]
    refine htaken.noUp (List.IsInfix.trans ?_ (infix_intercalate hname))
    exact ⟨rest, ascii "bin", by rw [← hrest]; simp [ascii]⟩
  · intro hlast
    have hne : objectElements sys.now req ≠ [] := by simp [objectElements]
    have hsafe : ∀ element ∈ objectElements sys.now req, 92 ∉ element ∧ ¬ [46, 46] <:+: element := by
      have hdigits : ∀ d : Digits, 92 ∉ d.text ∧ ¬ [46, 46] <:+: d.text := fun d =>
        ⟨d.notMem (by decide), fun hup => d.notMem (b := 46) (by decide) (hup.subset List.mem_cons_self)⟩
      simp only [objectElements, dirElements, List.cons_append, List.nil_append, List.forall_mem_cons, List.not_mem_nil,
        false_implies, implies_true, and_true]
      refine ⟨by decide, hdigits _, hdigits _, hdigits _, ⟨h.trace.noBackslash, h.trace.noUp⟩, ?_,
        not_infix_name h.objectType.noUp hlast⟩
      rw [List.mem_append, not_or]
      exact ⟨h.objectType.noBackslash, by decide⟩
    refine ⟨?_, fun hmem => ?_, fun hup => ?_⟩
    · rw [List.splitOn_intercalate 47 (fun element helement => (hplain element helement).segment.2) hne]
      exact hplain
    · obtain heq | ⟨element, helement, hmem⟩ := mem_intercalate hmem
      · exact absurd heq (by decide)
      · exact (hsafe element helement).1 hmem
    · obtain ⟨element, helement, hin⟩ := infix_segment (by decide) (by decide) hup
      exact (hsafe element helement).2 hin

/-- The file is where both stores look for the ref, and has the body. -/
structure RoundTrip (sys : System) (s : FilesystemStore) (objectRef : GoString) (body : List UInt8) (fs : FileSystem) :
    Prop where
  get : ∀ sys' : System, sys'.ctx = none → absoluteRoot sys'.wd s.root = absoluteRoot sys.wd s.root →
    ∃ file : FilePath, s.objectPath sys'.wd objectRef = .ok file.text ∧ fs.created.head? = some file ∧
      outcome (s.get sys' objectRef) fs = (.ok body, fs)
  worker : ∀ (cwd : ResolvedPath) (worker : FilesystemEvidenceStore) (root : GoString) (ref : Str),
    absoluteRoot sys.wd s.root = .ok root → encodeUtf8 worker.root.text = some root →
    encodeUtf8 ref = some objectRef →
    ∃ (candidate : ResolvedPath) (file : FilePath), worker.pathForRef cwd ref = .ok candidate ∧
      fs.created.head? = some file ∧ encodeUtf8 candidate.text = some file.text

theorem relativeTaken_of_refTaken {relative : Str} (h : RefTaken relative.bytes) (hencodes : Encodes relative)
    (hnul : 0 ∉ relative.bytes) : RelativeTaken relative := by
  have hwithin : ∀ text : Str, text <:+: relative → text.bytes <:+: relative.bytes := by
    rintro text ⟨before, after, rfl⟩
    exact ⟨Str.bytes before, Str.bytes after, by simp⟩
  obtain ⟨habs, -, -⟩ := goes_down h.plain
  have hslashes : ¬ [47, 47] <:+: relative.bytes := by
    have hsegments := not_infix_sep_sep (fun part hpart => (h.plain part hpart).segment)
      (List.splitOn_ne_nil 47 relative.bytes)
    rwa [List.intercalate_splitOn] at hsegments
  refine ⟨?_, fun hmem => h.noBackslash ((mem_bytes (by decide)).2 hmem), fun hin => hslashes (hwithin _ hin),
    fun hin => h.noUp (hwithin _ hin), ?_, ?_⟩
  · rintro rfl
    exact (h.plain [] (by decide)).segment.1 rfl
  · rintro ⟨rest, rfl⟩
    rw [Str.bytes_append, show Str.bytes [47] = [47] by decide] at habs
    exact absurd habs (by simp [isAbs])
  · intro part hpart
    rw [List.all_eq_true]
    intro c hc
    have hmem : c ∈ relative := (infix_of_mem_splitOn (List.mem_of_mem_filter hpart)).subset hc
    have hne : c ≠ 0 := fun hzero => hnul ((mem_bytes (c := 0) (by decide)).2 (hzero ▸ hmem))
    simp [fsEncodable, hne, hencodes c hmem]

theorem exists_pathForRef (cwd : ResolvedPath) (worker : FilesystemEvidenceStore) {relative : Str}
    (h : RefTaken relative.bytes) (hencodes : Encodes relative) (hnul : 0 ∉ relative.bytes) :
    ∃ candidate, worker.pathForRef cwd (refScheme ++ relative) = .ok candidate := by
  have hparts := readParts_of_refTaken h
  have hplain : ∀ part ∈ PurePath.readParts relative, PlainElement 47 46 part := by
    intro part hpart
    obtain ⟨hmem, hkept⟩ := List.mem_filter.1 hpart
    obtain ⟨hne, hhere⟩ := of_decide_eq_true hkept
    refine ⟨⟨hne, notMem_of_mem_splitOn relative part hmem⟩, hhere, ?_⟩
    rintro rfl
    refine (h.plain (Str.bytes [46, 46]) ?_).notUp (by decide)
    rw [Str.splitOn_slash_bytes]
    exact List.mem_map_of_mem hmem
  exact ⟨worker.root.below _ hplain,
    pathForRef_eq_ok.2 ⟨relative, relativeTaken_of_refTaken h hencodes hnul, rfl, rfl⟩⟩

theorem Placed.roundTrip_iff (h : Placed sys s req p) (hnul : 0 ∉ p.path) {body : List UInt8} {fs : FileSystem}
    (hcreated : fs.created.head? = some h.file) (hfile : fs.files h.file = some body) :
    RoundTrip sys s (fileScheme ++ [47].intercalate (objectElements sys.now req)) body fs ↔
      ¬ [46] <:+ req.objectType := by
  rw [← h.refTaken_iff]
  constructor
  · intro htrip
    obtain ⟨file, hpath, -, -⟩ := htrip.get { sys with ctx := none } rfl rfl
    obtain ⟨root, refPath, htaken, -, href, -⟩ := objectPath_eq_ok.1 hpath
    rwa [List.append_cancel_left href]
  · intro htaken
    have hsplit : List.splitOn 47 ([47].intercalate (objectElements sys.now req)) = objectElements sys.now req :=
      List.splitOn_intercalate 47 (fun element helement =>
        (plain_objectElements sys.now h.trace h.objectType element helement).segment.2) (by simp [objectElements])
    have hpath : ∀ sys' : System, absoluteRoot sys'.wd s.root = absoluteRoot sys.wd s.root →
        s.objectPath sys'.wd (fileScheme ++ [47].intercalate (objectElements sys.now req)) = .ok h.file.text := by
      intro sys' hroot
      refine objectPath_eq_ok.2 ⟨h.root, _, htaken, hroot.trans h.root_eq, rfl, congrArg AbsPath.text (AbsPath.ext ?_)⟩
      exact congrArg (h.root.elements ++ ·) hsplit.symm
    have hnul' : 0 ∉ h.file.text := h.path ▸ hnul
    refine ⟨fun sys' hctx hroot => ⟨h.file, hpath sys' hroot, hcreated, ?_⟩, ?_⟩
    · rw [FilesystemStore.get, outcome_bind, outcome_ofExcept, hctx]
      dsimp only [Option.elim]
      rw [outcome_bind, outcome_ofExcept, hpath sys' hroot]
      dsimp only
      rw [outcome_bind, outcome_get]
      dsimp only
      rw [outcome_ofExcept, if_neg hnul', ofText_text, hfile]
    · intro cwd worker root ref hroot hencoded href
      obtain ⟨hencodes, hbytes⟩ := encodeUtf8_eq_some_iff.1 href
      have hscheme : refScheme <+: ref := by
        rw [← isPrefix_bytes isAscii_refScheme, bytes_refScheme, ← hbytes]
        exact List.prefix_append _ _
      obtain ⟨relative, rfl⟩ := hscheme
      rw [Str.bytes_append, bytes_refScheme] at hbytes
      have hrelative := List.append_cancel_left hbytes
      have hzero : 0 ∉ Str.bytes relative := by
        rw [← hrelative]
        intro hmem
        obtain heq | ⟨element, helement, hmem⟩ := mem_intercalate hmem
        · exact absurd heq (by decide)
        · refine hnul' (List.mem_cons_of_mem _ ((infix_intercalate ?_).subset hmem))
          exact List.mem_append_right _ helement
      obtain ⟨candidate, hcandidate⟩ := exists_pathForRef cwd worker (hrelative ▸ htaken)
        (fun c hc => hencodes c (List.mem_append_right _ hc)) hzero
      exact ⟨candidate, h.file, hcandidate, hcreated, encode_candidate hroot hencoded href (hpath sys rfl) hcandidate⟩

theorem objectElements_inj {now : Time} {req' : PutRequest} (htrace : PartTaken req.traceID)
    (htype : PartTaken req.objectType) (htrace' : PartTaken req'.traceID) (htype' : PartTaken req'.objectType)
    (heq : fileScheme ++ [47].intercalate (objectElements now req') =
      fileScheme ++ [47].intercalate (objectElements now req)) :
    req'.traceID = req.traceID ∧ req'.objectType = req.objectType := by
  have helements : objectElements now req' = objectElements now req :=
    intercalate_inj (fun element helement => (plain_objectElements now htrace' htype' element helement).segment.2)
      (fun element helement => (plain_objectElements now htrace htype element helement).segment.2)
      (by simp [objectElements]) (by simp [objectElements]) (List.append_cancel_left heq)
  simp only [objectElements, dirElements, List.cons_append, List.nil_append, List.cons.injEq, true_and, and_true]
    at helements
  exact ⟨helements.1, List.append_cancel_right helements.2⟩

/-- Every run of `Put` creates files in the root only. What it returns has the size and the hash of the body, names the
trace and the type, and can be read again if and only if the type does not end in a dot. -/
theorem object_round_trip_iff (sys : System) (s : FilesystemStore) (req : PutRequest) (fs : FileSystem) :
    (∀ path ∈ (outcome (s.put sys req) fs).2.created, path ∈ fs.created ∨
      ∃ root : FilePath, absoluteRoot sys.wd s.root = .ok root.text ∧ root.Holds path) ∧
    ∀ object fs', outcome (s.put sys req) fs = (.ok object, fs') → ∃ reader, req.reader = some reader ∧
      object.sizeBytes = reader.chunks.flatten.length ∧
      object.sha256 = hexEncode (sys.sha256 reader.chunks.flatten) ∧
      (∀ (sys₂ : System) (s₂ : FilesystemStore) (req₂ : PutRequest) (fs₂ fs₂' : FileSystem) (object₂ : Object),
        outcome (s₂.put sys₂ req₂) fs₂ = (.ok object₂, fs₂') → sys₂.now = sys.now →
        (req₂.traceID, req₂.objectType) ≠ (req.traceID, req.objectType) → object₂.objectRef ≠ object.objectRef) ∧
      (RoundTrip sys s object.objectRef reader.chunks.flatten fs' ↔ ¬ [46] <:+ req.objectType) := by
  constructor
  · intro path hpath
    obtain ⟨e, hput⟩ | ⟨p, h, ⟨e, content, hput⟩ | ⟨-, hput⟩⟩ := outcome_put sys s req fs
    · rw [hput] at hpath
      exact .inl hpath
    · rw [hput] at hpath
      obtain rfl | hpath := List.mem_cons.1 hpath
      · exact .inr ⟨h.root, h.root_eq, h.holds_temp⟩
      · exact .inl hpath
    · rw [hput] at hpath
      obtain rfl | hpath := List.mem_cons.1 hpath
      · exact .inr ⟨h.root, h.root_eq, h.holds_file⟩
      · obtain rfl | hpath := List.mem_cons.1 hpath
        · exact .inr ⟨h.root, h.root_eq, h.holds_temp⟩
        · exact .inl hpath
  · intro object fs' hok
    obtain ⟨p, h, hnul, hput⟩ := stored_of_ok hok
    obtain ⟨hobject, hfs⟩ := Prod.mk.inj hput
    obtain rfl := Except.ok.inj hobject
    refine ⟨p.reader, h.reader, rfl, rfl, ?_, ?_⟩
    · intro sys₂ s₂ req₂ fs₂ fs₂' object₂ hok₂ hnow hne heq
      obtain ⟨p₂, h₂, -, hput₂⟩ := stored_of_ok hok₂
      obtain rfl := Except.ok.inj (Prod.mk.inj hput₂).1
      have heq' : fileScheme ++ [47].intercalate (objectElements sys₂.now req₂) =
          fileScheme ++ [47].intercalate (objectElements sys.now req) := heq
      rw [hnow] at heq'
      obtain ⟨htrace, htype⟩ := objectElements_inj h.trace h.objectType h₂.trace h₂.objectType heq'
      exact hne (Prod.ext htrace htype)
    · rw [hfs]
      exact h.roundTrip_iff hnul rfl (FileSystem.create_files_self ..)

/-- A system where every call succeeds. -/
def calmSystem : System where
  ctx := none
  wd := none
  now := ⟨⟨ascii "2026", by decide, by decide +kernel⟩, ⟨ascii "01", by decide, by decide +kernel⟩,
    ⟨ascii "02", by decide, by decide +kernel⟩⟩
  mkdirAll := true
  createTemp := true
  random := ⟨ascii "17", by decide, by decide +kernel⟩
  write _ := true
  close := true
  rename := true
  remove := true
  sha256 _ := []

/-- A request to store two bytes. -/
def requestOf (objectType : GoString) : PutRequest := ⟨ascii "t1", objectType, [], some ⟨[[1], [2]], false⟩⟩

def noFiles : FileSystem := ⟨fun _ => none, []⟩

/-- The response of a trace. -/
theorem object_round_trip_iff_response : ∃ object fs',
    outcome ((⟨ascii "/var"⟩ : FilesystemStore).put calmSystem (requestOf (ascii "response"))) noFiles =
    (.ok object, fs') ∧
      RoundTrip calmSystem ⟨ascii "/var"⟩ object.objectRef [1, 2] fs' := by
  have hok : (outcome ((⟨ascii "/var"⟩ : FilesystemStore).put calmSystem (requestOf (ascii "response")))
    noFiles).1.isOk =
      true := by decide +kernel
  cases hput : outcome ((⟨ascii "/var"⟩ : FilesystemStore).put calmSystem (requestOf (ascii "response"))) noFiles with
  | mk result fs' =>
    cases result with
    | error e =>
      rw [hput] at hok
      cases hok
    | ok object =>
      obtain ⟨reader, hreader, -, -, -, htrip⟩ := (object_round_trip_iff _ _ _ _).2 object fs' hput
      obtain rfl := Option.some.inj hreader
      exact ⟨object, fs', rfl, htrip.2 (by decide)⟩

/-- An object type with a dot at the end is stored, and neither store takes the ref. -/
theorem dotted_type_unreadable :
    ((outcome ((⟨ascii "/var"⟩ : FilesystemStore).put calmSystem (requestOf (ascii "x."))) noFiles).1.map
      (·.objectRef) =
      .ok (ascii "file:///raw/2026/01/02/t1/x..bin")) ∧
    (⟨ascii "/var"⟩ : FilesystemStore).objectPath none (ascii "file:///raw/2026/01/02/t1/x..bin") =
      .error (.invalidRef (ascii "raw/2026/01/02/t1/x..bin")) ∧
    workerAtVar.pathForRef workerAtVar.root (Str.ofString "file:///raw/2026/01/02/t1/x..bin") =
      .error (.invalid (Str.ofString "file:///raw/2026/01/02/t1/x..bin")) := by
  refine ⟨?_, ?_, ?_⟩ <;> decide +kernel

end AuditGateway.Evidence
