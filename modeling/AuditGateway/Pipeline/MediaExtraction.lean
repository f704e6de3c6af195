import AuditGateway.Framework.Effects
import AuditGateway.Pipeline.CoreStage
import AuditGateway.Python.Edit

/-!
# Media that are extracted from a request

`MediaExtractionContext` (`media_extraction.py`): media that come as base64 are decoded and
stored as objects of their own next to the request, and the request gets a copy in which
names of these objects stand for them. Files are written at once, and stay when the stage
fails later on; any operation on a file or on the database can fail.
-/

namespace AuditGateway.Pipeline

open AuditGateway.Framework AuditGateway.Python AuditGateway.Analysis

/-! ## Objects -/

/-- The objects that the gateway stores of a trace. -/
inductive GatewayObject
  | requestBody
  | requestHeaders
  | multipartPart (index : Nat)
  | responseBody
  | responseHeaders
  | websocketLog
deriving DecidableEq, Repr

/-- The name that an object is stored under. -/
def GatewayObject.storageName : GatewayObject → Str
  | requestBody => "request_body"
  | requestHeaders => "request_headers"
  | multipartPart index => Str.ofString "multipart_part_" ++ Str.sixDigits (index + 1)
  | responseBody => "response_body"
  | responseHeaders => "response_headers"
  | websocketLog => "websocket_log"

/-- The ref of a file in a directory. -/
def fileRef (dir name : Str) : Str :=
  dir ++ Str.ofString "/" ++ name

/-- The ref of an object: `Put` of the stores writes to a directory of the day and the trace. -/
def gatewayRef (dir : Str) (object : GatewayObject) : Str :=
  fileRef dir (object.storageName ++ Str.ofString ".bin")

inductive Variant
  | original
  | derivedMedia
  | sanitized
deriving DecidableEq, Repr

/-- A row of `raw_evidence_objects`. -/
structure RawEvidenceRow where
  traceId : Str
  objectType : Str
  objectRef : Str
  storageBackend : Str
  contentType : Json
  sizeBytes : Nat
  variant : Variant
  derivedFromObjectRef : Str
  createdAt : Int

structure MediaAsset where
  objectType : Str
  objectRef : Str
  mediaType : Json
  sizeBytes : Nat

/-! ## The stage's world -/

/-- The files, the tables as the transaction of the stage sees them, and the fields of the
`MediaExtractionContext` that change. -/
structure EnrichmentState where
  store : EvidenceStore
  tables : Tables
  rawEvidence : List RawEvidenceRow
  assets : List MediaAsset := []
  replacements : List (Str × Str) := []
  counter : Nat := 0
  /-- How many operations on files and on the database there have been. -/
  operations : Nat := 0

/-- An operation fails with an exception, and a write that fails leaves something at each of
the refs it touches. -/
structure Fault where
  error : PyError
  leaves : Str → Option (List UInt8) → Option (List UInt8)

/-- What is outside of the stage: `b64decode` with validation, and which operations fail. -/
structure Surroundings where
  decodeBase64 : Str → Option (List UInt8)
  fault : Nat → Option Fault
  storageBackend : Str := "filesystem"

abbrev Enrich := Effectful PyError EnrichmentState

section Extraction

variable (rt : Runtime) (env : Surroundings)

/-- An operation on a file or on the database, with what it does and what it does if it fails. -/
def operation (done : EnrichmentState → EnrichmentState) (failed : Fault → EnrichmentState → EnrichmentState) :
    Enrich Unit := do
  let s ← get
  modify fun s => { s with operations := s.operations + 1 }
  match env.fault s.operations with
  | none => modify done
  | some fault =>
    modify (failed fault)
    throw fault.error

/-- What a failed write leaves at a ref. -/
def Fault.leaveAt (fault : Fault) (ref : Str) (store : EvidenceStore) : EvidenceStore :=
  Function.update store ref (fault.leaves ref (store ref))

/-- `write_bytes`. -/
def writeBytes (ref : Str) (data : List UInt8) : Enrich Unit :=
  operation env (fun s => { s with store := Function.update s.store ref (some data) })
    fun fault s => { s with store := fault.leaveAt ref s.store }

/-- The file that `write_text` writes to before it renames it. -/
def temporaryRef (ref : Str) : Str :=
  ref ++ Str.ofString ".tmp"

/-- `write_text`. -/
def writeText (ref text : Str) : Enrich Unit :=
  match encode text with
  | .error e => do
    modify fun s => { s with store := Function.update s.store (temporaryRef ref) none }
    throw e
  | .ok data =>
    operation env
      (fun s => { s with
        store := Function.update (Function.update s.store (temporaryRef ref) none) ref (some data) })
      fun fault s => { s with store := fault.leaveAt ref (fault.leaveAt (temporaryRef ref) s.store) }

/-- `read_text`, which can fail as well. -/
def readEvidence (ref : Str) : Enrich Str := do
  operation env id fun _ => id
  MonadExcept.ofExcept (readText (← get).store ref)

/-! ## The methods of `MediaExtractionContext` -/

/-- The default of `max_bytes`. -/
def maxBytes : Nat := 20 * 1024 * 1024

def mediaObjectType (counter : Nat) : Str :=
  Str.ofString "media_asset_" ++ Str.sixDigits counter

/-- `_mime_from_data_url_header`. -/
def mimeFromDataUrlHeader (header : Str) : Str :=
  let mime := ((rt.lower header).removePre "data:").takeWhile (· != 59)
  if mime = [] then "application/octet-stream" else mime

/-- `_sanitized_object_ref`. -/
def sanitizedObjectRef (ref : Str) : Str :=
  match ref.rpartition 46 with
  | (_, false, _) => ref ++ Str.ofString ".sanitized"
  | (head, true, tail) => head ++ Str.ofString ".sanitized." ++ tail

variable (dir : Str)

/-- `_decode_and_store`: whether the medium has become an asset. -/
def decodeAndStore (encoded : Str) (mediaType : Json) (original : Str) : Enrich Bool :=
  match env.decodeBase64 encoded with
  | none => pure false
  | some binary =>
    if maxBytes < binary.length then pure false
    else do
      modify fun s => { s with counter := s.counter + 1 }
      let objectType := mediaObjectType (← get).counter
      let objectRef := fileRef dir (objectType ++ Str.ofString ".bin")
      writeBytes env objectRef binary
      modify fun s => { s with
        assets := s.assets ++ [⟨objectType, objectRef, mediaType, binary.length⟩]
        replacements := s.replacements ++ [(original, Str.ofString "audit-media:" ++ objectType)] }
      return true

/-- `extract_data_url`. -/
def extractDataUrl (url : Str) : Enrich Bool :=
  let (header, separator, encoded) := url.partition 44
  if ¬ separator ∨ encoded = [] then pure false
  else if ¬ (rt.lower header).contains ";base64" then pure false
  else decodeAndStore env dir encoded (.str (mimeFromDataUrlHeader rt header)) url

/-- `extract_raw_base64`. -/
def extractRawBase64 (encoded : Str) (mediaType : Json) : Enrich Bool :=
  decodeAndStore env dir encoded mediaType encoded

def mediaExtractor : Extractor Enrich where
  extractDataUrl := extractDataUrl rt env dir
  extractRawBase64 := extractRawBase64 env dir

/-- `write_sanitized_copy`. -/
def writeSanitizedCopy (ref : Str) : Enrich Str := do
  let replacements := (← get).replacements
  if replacements = [] then return ref
  let text ← readEvidence env ref
  let copy := replacements.foldl (fun text x => text.replace x.1 x.2) text
  writeText env (sanitizedObjectRef ref) copy
  return sanitizedObjectRef ref

end Extraction

/-! ## What an extractor keeps -/

section Keeps

variable {σ : Type} {P : σ → Prop} (rt : Runtime) (job : TraceCapturedJob)

/-- What both methods of an extractor keep. -/
structure ExtractorKeeps (P : σ → Prop) (x : Extractor (Effectful PyError σ)) : Prop where
  dataUrl (url : Str) : (x.extractDataUrl url).Keeps P
  rawBase64 (encoded : Str) (mediaType : Json) : (x.extractRawBase64 encoded mediaType).Keeps P

variable {extractionContext : Option (Extractor (Effectful PyError σ))}
  (hx : ∀ x ∈ extractionContext, ExtractorKeeps P x)

include hx

theorem base64Message_keeps (direction : Direction) (role sourcePath : Str) (modality : Modality)
    {extract : Extractor (Effectful PyError σ) → Effectful PyError σ Bool}
    (hextract : ∀ x, ExtractorKeeps P x → (extract x).Keeps P) :
    (base64Message rt job direction role sourcePath extractionContext extract modality).Keeps P := by
  unfold base64Message
  cases extractionContext with
  | none => exact (Effectful.Keeps.pure _).bind fun _ => .ofExcept _
  | some x => exact (hextract x (hx x rfl)).bind fun _ => .ofExcept _

theorem urlMediaMessage_keeps (direction : Direction) (role sourcePath : Str) (value : Json) (modality : Modality) :
    (urlMediaMessage rt job direction role sourcePath extractionContext value modality).Keeps P := by
  unfold urlMediaMessage
  cases value with
  | str url =>
    simp only
    split
    · exact .pure _
    · split
      · exact (base64Message_keeps rt job hx direction role sourcePath modality fun x h => h.dataUrl url).bind
          fun _ => .pure _
      · split <;> exact (Effectful.Keeps.ofExcept _).bind fun _ => .pure _
  | _ => exact .pure _

theorem mediaMessage_keeps (direction : Direction) (role sourcePath : Str) (value : Json) :
    (mediaMessage rt job direction role sourcePath extractionContext value).Keeps P := by
  unfold mediaMessage
  cases value with
  | dict d =>
    refine (Effectful.Keeps.ofExcept _).bind fun _ => ?_
    split
    · exact urlMediaMessage_keeps rt job hx _ _ _ _ _
    · rename_i data mediaType modality _
      refine (base64Message_keeps rt job hx direction role sourcePath modality fun x h => ?_).bind fun _ => .pure _
      cases data with
      | none => exact .pure _
      | some data => exact h.rawBase64 data mediaType
    · exact .pure _
  | _ => exact .pure _

theorem partMessage_keeps (direction : Direction) (role sourcePath : Str) (itemType : ItemType) (value : Json) :
    (partMessage rt job direction role sourcePath extractionContext itemType value).Keeps P := by
  unfold partMessage
  refine (mediaMessage_keeps rt job hx direction role sourcePath value).bind fun media => ?_
  split
  · exact .pure _
  · refine (Effectful.Keeps.ofExcept _).bind fun text => ?_
    split
    · exact .pure _
    · exact (Effectful.Keeps.ofExcept _).bind fun _ => .pure _

theorem siteMessages_keeps (site : Site) : (siteMessages rt job extractionContext site).Keeps P := by
  unfold siteMessages
  refine (Effectful.Keeps.ofExcept _).bind fun role => ?_
  split
  · exact (Effectful.Keeps.mapM fun part _ => partMessage_keeps rt job hx _ _ _ _ _).bind fun _ => .pure _
  · refine (Effectful.Keeps.ofExcept _).bind fun text => ?_
    split
    · exact .pure _
    · exact (Effectful.Keeps.ofExcept _).bind fun _ => .pure _

theorem sitesMessages_keeps (sites : List Site) : (sitesMessages rt job extractionContext sites).Keeps P :=
  (Effectful.Keeps.mapM fun site _ => siteMessages_keeps rt job hx site).bind fun _ => .pure _

theorem loopMessages_keeps (document : Dict) (key : String) (site : Dict → Nat → Option Site) :
    (loopMessages rt job extractionContext document key site).Keeps P :=
  (Effectful.Keeps.ofExcept _).bind fun _ => sitesMessages_keeps rt job hx _

theorem normalizePrompt_keeps (request : Dict) (keys : List String) :
    (normalizePrompt rt job extractionContext request keys).Keeps P := by
  induction keys with
  | nil => exact .pure _
  | cons key keys ih =>
    unfold normalizePrompt
    refine (siteMessages_keeps rt job hx _).bind fun messages => ?_
    split
    · exact .pure _
    · exact ih

theorem normalizeJsonTrace_keeps (requestBody responseBody : Str) :
    (normalizeJsonTrace rt job extractionContext requestBody responseBody).Keeps P := by
  have hloop (document : Dict) (key : String) (site : Dict → Nat → Option Site) :=
    loopMessages_keeps rt job hx document key site
  have hsites (sites : List Site) := sitesMessages_keeps rt job hx sites
  unfold normalizeJsonTrace
  refine (Effectful.Keeps.ofExcept _).bind fun request => (Effectful.Keeps.ofExcept _).bind fun responseJson =>
    (Effectful.Keeps.ofExcept _).bind fun events => ?_
  dsimp only
  split
  · exact (hloop _ _ _).bind fun _ => (hloop _ _ _).bind fun _ => .pure _
  · exact (hsites _).bind fun _ => (hsites _).bind fun _ => .pure _
  · exact (hsites _).bind fun _ => (hloop _ _ _).bind fun _ => (hsites _).bind fun _ => .pure _
  · exact (hloop _ _ _).bind fun _ => (hloop _ _ _).bind fun _ => .pure _
  · exact normalizePrompt_keeps rt job hx request promptKeys

end Keeps

/-! ## No object of the gateway is written to -/

theorem fileRef_eq (dir name : Str) : fileRef dir name = dir ++ 47 :: name := by
  rw [fileRef, List.append_assoc]
  rfl

theorem slash_not_mem_sixDigits (n : Nat) : (47 : CodePoint) ∉ Str.sixDigits n := by
  intro h
  exact absurd (Str.mem_sixDigits h).1 (by decide)

theorem slash_not_mem_storageName (object : GatewayObject) :
    (47 : CodePoint) ∉ object.storageName ++ Str.ofString ".bin" := by
  cases object with
  | multipartPart index =>
    simp only [GatewayObject.storageName, List.mem_append, slash_not_mem_sixDigits, or_false]
    decide
  | _ => decide

theorem gatewayRef_ne_fileRef {name : Str} (hslash : (47 : CodePoint) ∉ name)
    (hname : ∀ object, GatewayObject.storageName object ++ Str.ofString ".bin" ≠ name) (dir dir' : Str)
    (object : GatewayObject) : gatewayRef dir object ≠ fileRef dir' name := by
  intro h
  have hlast := congrArg (Str.afterLast · 47) h
  simp only [gatewayRef, fileRef_eq, Str.afterLast_append (slash_not_mem_storageName object),
    Str.afterLast_append hslash] at hlast
  exact hname object hlast

theorem storageName_ne_media (counter : Nat) (object : GatewayObject) :
    object.storageName ++ Str.ofString ".bin" ≠ mediaObjectType counter ++ Str.ofString ".bin" := by
  intro h
  -- The names differ in their first six characters.
  have htake := congrArg (List.take 6) h
  have hmedia : (mediaObjectType counter ++ Str.ofString ".bin").take 6 = Str.ofString "media_" := by
    rw [mediaObjectType, List.append_assoc, List.take_append_of_le_length (by decide)]
    decide
  rw [hmedia] at htake
  cases object with
  | multipartPart index =>
    rw [GatewayObject.storageName, List.append_assoc, List.take_append_of_le_length (by decide)] at htake
    revert htake
    decide
  | _ =>
    revert htake
    decide

def sanitizedNames : List Str :=
  ["request_body.sanitized.bin", "request_body.sanitized.bin.tmp"]

theorem storageName_ne_sanitized {name : Str} (hname : name ∈ sanitizedNames) (object : GatewayObject) :
    object.storageName ++ Str.ofString ".bin" ≠ name := by
  intro h
  cases object with
  | multipartPart index =>
    have htake := congrArg (List.take 6) h
    rw [GatewayObject.storageName, List.append_assoc, List.take_append_of_le_length (by decide)] at htake
    have hsanitized : ∀ name ∈ sanitizedNames, (Str.ofString "multipart_part_").take 6 ≠ name.take 6 := by
      decide
    exact hsanitized name hname htake
  | _ =>
    subst h
    revert hname
    decide

theorem sanitizedObjectRef_gatewayRef (dir : Str) : sanitizedObjectRef (gatewayRef dir .requestBody) =
    fileRef dir "request_body.sanitized.bin" := by
  have hsplit : gatewayRef dir .requestBody =
      (dir ++ 47 :: Str.ofString "request_body") ++ 46 :: Str.ofString "bin" := by
    rw [gatewayRef, fileRef_eq, List.append_assoc]
    rfl
  rw [sanitizedObjectRef, hsplit, Str.rpartition_append (by decide), fileRef_eq]
  simp only [List.append_assoc]
  rfl

variable {store : EvidenceStore}

/-- The objects of the gateway are as they were. -/
def Intact (store : EvidenceStore) (s : EnrichmentState) : Prop :=
  ∀ dir object, s.store (gatewayRef dir object) = store (gatewayRef dir object)

theorem Intact.update {s s' : EnrichmentState} (h : Intact store s) {dir name : Str} {data : Option (List UInt8)}
    (hs' : s'.store = Function.update s.store (fileRef dir name) data) (hslash : (47 : CodePoint) ∉ name)
    (hname : ∀ object, GatewayObject.storageName object ++ Str.ofString ".bin" ≠ name) : Intact store s' := by
  intro dir' object
  rw [hs', Function.update_of_ne (gatewayRef_ne_fileRef hslash hname dir' dir object), h]

theorem operation_keeps {P : EnrichmentState → Prop} {env : Surroundings}
    {done : EnrichmentState → EnrichmentState} {failed : Fault → EnrichmentState → EnrichmentState}
    (hcount : ∀ s, P s → P { s with operations := s.operations + 1 }) (hdone : ∀ s, P s → P (done s))
    (hfailed : ∀ fault s, P s → P (failed fault s)) : (operation env done failed).Keeps P := by
  refine Effectful.Keeps.get.bind fun s => (Effectful.Keeps.update hcount).bind fun _ => ?_
  split
  · exact .update hdone
  · exact (Effectful.Keeps.update (hfailed _)).bind fun _ => .throw _

theorem readEvidence_keeps {P : EnrichmentState → Prop} {env : Surroundings}
    (hcount : ∀ s, P s → P { s with operations := s.operations + 1 }) (ref : Str) :
    (readEvidence env ref).Keeps P :=
  (operation_keeps hcount (fun _ h => h) fun _ _ h => h).bind fun _ => Effectful.Keeps.get.bind fun _ => .ofExcept _

theorem extractor_keeps {P : EnrichmentState → Prop} {rt : Runtime} {env : Surroundings} {dir : Str}
    (h : ∀ encoded mediaType original, (decodeAndStore env dir encoded mediaType original).Keeps P) :
    ExtractorKeeps P (mediaExtractor rt env dir) where
  dataUrl url := by
    show (extractDataUrl rt env dir url).Keeps P
    unfold extractDataUrl
    dsimp only
    split
    · exact .pure _
    · split
      · exact .pure _
      · exact h _ _ _
  rawBase64 encoded mediaType := h encoded mediaType encoded

theorem decodeAndStore_keeps {P : EnrichmentState → Prop} {env : Surroundings} {dir : Str}
    (hcontext : ∀ s assets replacements counter, P s →
      P { s with assets := assets, replacements := replacements, counter := counter })
    (hwrite : ∀ counter data, (writeBytes env (fileRef dir (mediaObjectType counter ++ Str.ofString ".bin"))
      data).Keeps P)
    (encoded : Str) (mediaType : Json) (original : Str) :
    (decodeAndStore env dir encoded mediaType original).Keeps P := by
  unfold decodeAndStore
  split
  · exact .pure _
  · split
    · exact .pure _
    · refine Effectful.Keeps.bind (.update fun s h => hcontext s _ _ _ h) fun _ => Effectful.Keeps.get.bind fun s => ?_
      exact (hwrite s.counter _).bind fun _ =>
        Effectful.Keeps.bind (.update fun s h => hcontext s _ _ _ h) fun _ => .pure _

theorem writeSanitizedCopy_keeps {P : EnrichmentState → Prop} {env : Surroundings}
    (hcount : ∀ s, P s → P { s with operations := s.operations + 1 }) {ref : Str}
    (hwrite : ∀ text, (writeText env (sanitizedObjectRef ref) text).Keeps P) :
    (writeSanitizedCopy env ref).Keeps P := by
  refine Effectful.Keeps.get.bind fun s => ?_
  dsimp only
  split
  · exact .pure _
  · exact (readEvidence_keeps hcount _).bind fun text => (hwrite _).bind fun _ => .pure _

theorem extractor_intact (rt : Runtime) (env : Surroundings) (dir : Str) :
    ExtractorKeeps (Intact store) (mediaExtractor rt env dir) := by
  refine extractor_keeps (decodeAndStore_keeps (fun _ _ _ _ h => h) fun counter data => ?_)
  have hslash : (47 : CodePoint) ∉ mediaObjectType counter ++ Str.ofString ".bin" := by
    simp only [mediaObjectType, List.mem_append, slash_not_mem_sixDigits, or_false]
    decide
  exact operation_keeps (fun _ h => h) (fun _ h => h.update rfl hslash (storageName_ne_media counter))
    fun _ _ h => h.update rfl hslash (storageName_ne_media counter)

theorem writeSanitizedCopy_intact (env : Surroundings) (dir : Str) :
    (writeSanitizedCopy env (gatewayRef dir .requestBody)).Keeps (Intact store) := by
  have htmp : temporaryRef (fileRef dir "request_body.sanitized.bin") =
      fileRef dir "request_body.sanitized.bin.tmp" := by
    rw [temporaryRef, fileRef_eq, fileRef_eq, List.append_assoc]
    rfl
  have hwrite {s s' : EnrichmentState} {name : Str} {data : Option (List UInt8)} (hname : name ∈ sanitizedNames)
      (hs' : s'.store = Function.update s.store (fileRef dir name) data) (h : Intact store s) : Intact store s' := by
    have hslash : ∀ name ∈ sanitizedNames, (47 : CodePoint) ∉ name := by decide
    exact h.update hs' (hslash name hname) (storageName_ne_sanitized hname)
  have hcopy : Str.ofString "request_body.sanitized.bin" ∈ sanitizedNames := by decide
  have htemporary : Str.ofString "request_body.sanitized.bin.tmp" ∈ sanitizedNames := by decide
  refine writeSanitizedCopy_keeps (fun _ h => h) fun text => ?_
  rw [sanitizedObjectRef_gatewayRef, writeText, htmp]
  split
  · exact Effectful.Keeps.bind (.update fun s h => hwrite htemporary rfl h) fun _ => .throw _
  · refine operation_keeps (fun _ h => h) (fun s h => ?_) fun fault s h => ?_
    · exact hwrite (s := { s with store := _ }) hcopy rfl (hwrite htemporary rfl h)
    · exact hwrite (s := { s with store := _ }) hcopy rfl (hwrite htemporary rfl h)

/-! ## The tables are left alone -/

theorem extractor_tables (rt : Runtime) (env : Surroundings) (dir : Str) (T : Tables) :
    ExtractorKeeps (·.tables = T) (mediaExtractor rt env dir) :=
  extractor_keeps (decodeAndStore_keeps (fun _ _ _ _ h => h) fun _ _ =>
    operation_keeps (fun _ h => h) (fun _ h => h) fun _ _ h => h)

theorem writeSanitizedCopy_tables (env : Surroundings) (ref : Str) (T : Tables) :
    (writeSanitizedCopy env ref).Keeps (·.tables = T) := by
  refine writeSanitizedCopy_keeps (fun _ h => h) fun text => ?_
  unfold writeText
  split
  · exact Effectful.Keeps.bind (.update fun _ h => h) fun _ => .throw _
  · exact operation_keeps (fun _ h => h) (fun _ h => h) fun _ _ h => h

end AuditGateway.Pipeline
