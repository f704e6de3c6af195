import AuditGateway.Gateway.Publishing
import AuditGateway.Pipeline.EnrichmentStage

/-!
# Raw evidence in the admin interface

The page of a trace has links to its raw evidence. A link gives the trace and an object type, and
`FindRawEvidenceObject` answers with the newest row of these. Rows are written by two programs:
the gateway inserts those of the objects it has stored, and every run of enrichment those of the media it
has extracted and of a copy of the request, which has the type of the request itself.
-/

namespace AuditGateway.Admin

open AuditGateway.Framework AuditGateway.Framework.Effectful AuditGateway.Python AuditGateway.Gateway
  AuditGateway.Pipeline

/-! ## Rows and links -/

def objectTypeText : EvidenceType → Str
  | .requestBody => "request_body"
  | .requestHeaders => "request_headers"
  | .multipartPart => "multipart_part"
  | .responseBody => "response_body"
  | .responseHeaders => "response_headers"
  | .websocketLog => "websocket_log"

/-- The row that `InsertRawEvidence` inserts. It has no column for the variant, which is then `original`. -/
def rowOf (x : RawEvidenceObject) : RawEvidenceRow where
  traceId := x.traceID
  objectType := objectTypeText x.objectType
  objectRef := x.object.objectRef
  storageBackend := x.object.storageBackend
  contentType := .str x.object.contentType
  sizeBytes := x.object.sizeBytes.toNat
  variant := .original
  derivedFromObjectRef := []
  createdAt := x.object.createdAt.getD 0

/-- The objects whose rows have been inserted. -/
def inserted (log : List Event) : List RawEvidenceObject :=
  log.filterMap fun
    | .insertRawEvidence object none => some object
    | _ => none

/-- A request for raw evidence; there is no ref if it is blank. -/
structure EvidenceRequest where
  traceId : Str
  objectType : Str
  objectRef : Option Str := none

/-- The request that opening a `rawEvidenceLink` makes. -/
def rawEvidenceLink (traceID : String) (objectType : EvidenceType) : EvidenceRequest where
  traceId := traceID
  objectType := objectTypeText objectType

def EvidenceRequest.Matches (link : EvidenceRequest) (row : RawEvidenceRow) : Prop :=
  row.traceId = link.traceId ∧ row.objectType = link.objectType ∧ ∀ ref ∈ link.objectRef, row.objectRef = ref

/-- `FindRawEvidenceObject` returns the row: it matches, and none that matches is newer. Among several of the same
time the database may take any. -/
structure FindRawEvidenceObject (rows : List RawEvidenceRow) (link : EvidenceRequest)
    (row : RawEvidenceRow) : Prop where
  mem : row ∈ rows
  fits : link.Matches row
  newest : ∀ row' ∈ rows, link.Matches row' → row'.createdAt ≤ row.createdAt

/-- The types that `renderTraceDetail` has links for. -/
def linkedTypes (trace : Trace) : List EvidenceType :=
  [.requestBody, .responseBody].filter fun objectType =>
    (if objectType = .requestBody then trace.requestRawRef else trace.responseRawRef) ≠ ""

/-- The rows that can be there for a trace: those that `insertTrace` has inserted, and what any number of runs of
enrichment has made of them. -/
inductive Evidence : Trace → List RawEvidenceRow → Prop
  | captured (h : Handler) (env : Environment) (record : TraceRecord) (before added : List Event)
      (hlog : (outcome (insertTrace h env record) before).2 = before ++ added) :
      Evidence (record.trace env) ((inserted added).map rowOf)
  | enriched {trace : Trace} (rt : Runtime) (pg : Postgres) (env : Surroundings) (now : Int)
      (contexts : List ContextCatalogEntry) (llmJudge : Option Judge) (commits : Bool)
      (traces : Str → Option TraceCapturedJob) (start : EnrichmentState) (hfresh : start.assets = [])
      (hrows : Evidence trace start.rawEvidence) :
      Evidence trace
        (enrichmentRun rt pg env now contexts llmJudge commits traces trace.traceID start).state.rawEvidence

/-! ## What the gateway inserts -/

/-- A computation inserts rows of a trace, with types from a list and in its order. -/
def Inserts {α : Type} (traceID : String) (x : Serve α) (types : List EvidenceType) : Prop :=
  ∀ log, ∃ added, (outcome x log).2 = log ++ added ∧ ((inserted added).map (·.objectType)).Sublist types ∧
    ∀ object ∈ inserted added, object.traceID = traceID

theorem inserted_append (l m : List Event) : inserted (l ++ m) = inserted l ++ inserted m :=
  List.filterMap_append

section

variable {α β : Type} {traceID : String} {x : Serve α} {f : α → Serve β} {types more : List EvidenceType}

theorem Inserts.pure (a : α) : Inserts traceID (Pure.pure a : Serve α) [] :=
  fun log => ⟨[], by simp, by simp [inserted], by simp [inserted]⟩

theorem Inserts.weaken (h : Inserts traceID x types) (hsub : types.Sublist more) : Inserts traceID x more := by
  intro log
  obtain ⟨added, hlog, htypes, hid⟩ := h log
  exact ⟨added, hlog, htypes.trans hsub, hid⟩

theorem Inserts.bind (hx : Inserts traceID x types) (hf : ∀ a, Inserts traceID (f a) more) :
    Inserts traceID (x >>= f) (types ++ more) := by
  intro log
  obtain ⟨added, hlog, htypes, hid⟩ := hx log
  rw [outcome_bind]
  cases hr : outcome x log with
  | mk r log' =>
    rw [hr] at hlog
    obtain rfl : log' = log ++ added := hlog
    cases r with
    | error p => exact ⟨added, rfl, htypes.trans (List.sublist_append_left _ _), hid⟩
    | ok a =>
      obtain ⟨added', hlog', htypes', hid'⟩ := hf a (log ++ added)
      refine ⟨added ++ added', by rw [← List.append_assoc]; exact hlog', ?_, fun object hobject => ?_⟩
      · rw [inserted_append, List.map_append]
        exact htypes.append htypes'
      · rw [inserted_append] at hobject
        exact (List.mem_append.1 hobject).elim (hid object) (hid' object)

theorem inserts_call {ρ : Type} {answer : List Event → ρ} {event : ρ → Event} (h : ∀ a, inserted [event a] = []) :
    Inserts traceID (Gateway.call answer event) [] :=
  fun log => ⟨[event (answer log)], rfl, by simp [h], by simp [h]⟩

end

section

variable (h : Handler) (env : Environment)

theorem insertRawEvidence_inserts (object : RawEvidenceObject) :
    Inserts object.traceID (Gateway.insertRawEvidence env object) [object.objectType] := by
  intro log
  refine ⟨[.insertRawEvidence object (env.insertRawEvidence log object)], rfl, ?_⟩
  cases env.insertRawEvidence log object with
  | none => simp [inserted]
  | some err => simp [inserted]

theorem insertEvidenceObject_inserts (traceID : String) (objectType : EvidenceType) (object : Object) :
    Inserts traceID (insertEvidenceObject env traceID objectType object) [objectType] := by
  unfold insertEvidenceObject
  split
  · exact (Inserts.pure _).weaken (List.nil_sublist _)
  · exact insertRawEvidence_inserts env { traceID, objectType, object }

theorem insertReferenced_inserts (traceID : String) (objectType : EvidenceType) (object : Object) :
    Inserts traceID (insertReferenced env traceID objectType object) [objectType] := by
  unfold insertReferenced
  split
  · exact (Inserts.pure _).weaken (List.nil_sublist _)
  · exact insertEvidenceObject_inserts env traceID objectType object

theorem insertPart_inserts (traceID : String) (number : Nat) (part : MultipartPart) :
    Inserts traceID (insertPart h env traceID number part) [.multipartPart] := by
  have hput : Inserts traceID
      (putEvidence h env traceID (.multipartPart number) part.contentType (.bytes part.data)) [] := by
    unfold putEvidence
    dsimp only
    split
    · exact inserts_call fun _ => rfl
    · exact Inserts.pure _
  refine hput.bind fun stored => ?_
  split
  · exact (Inserts.pure _).weaken (List.nil_sublist _)
  · split
    · exact (Inserts.pure _).weaken (List.nil_sublist _)
    · rename_i object _
      exact insertRawEvidence_inserts env { traceID, objectType := .multipartPart, object, originalFilename := _ }

theorem insertParts_inserts (traceID : String) (number : Nat) (parts : List MultipartPart) :
    Inserts traceID (insertParts h env traceID number parts) (List.replicate parts.length .multipartPart) := by
  induction parts generalizing number with
  | nil => exact Inserts.pure _
  | cons part parts ih =>
    refine ((insertPart_inserts h env traceID number part).bind fun errs =>
      (ih (number + 1)).bind fun _ => Inserts.pure _).weaken ?_
    simp [List.replicate_succ]

/-- The types of the rows of a record. -/
def evidenceTypes (record : TraceRecord) : List EvidenceType :=
  [.requestBody, .requestHeaders] ++ List.replicate record.multipartParts.length .multipartPart ++
    [.responseBody, .responseHeaders, .websocketLog]

theorem insertEvidence_inserts (record : TraceRecord) :
    Inserts record.traceID (insertEvidence h env record) (evidenceTypes record) := by
  refine ((insertEvidenceObject_inserts env _ _ _).bind fun _ => (insertReferenced_inserts env _ _ _).bind fun _ =>
    (insertParts_inserts h env _ _ _).bind fun _ => (insertReferenced_inserts env _ _ _).bind fun _ =>
    (insertReferenced_inserts env _ _ _).bind fun _ => (insertReferenced_inserts env _ _ _).bind fun _ =>
    Inserts.pure _).weaken ?_
  simp [evidenceTypes]

theorem publish_inserts (traceID : String) (record : TraceRecord) : Inserts traceID (publish h env record) [] := by
  have halert : Inserts traceID (emitCoverageAlert h env record) [] := by
    unfold emitCoverageAlert
    split
    · exact (inserts_call fun _ => rfl).bind fun _ => Inserts.pure _
    · exact Inserts.pure _
  refine halert.bind fun errs => ?_
  split
  · refine (inserts_call fun _ => rfl).bind fun result => ?_
    split
    · exact Inserts.pure _
    · exact (inserts_call fun _ => rfl).bind fun _ => Inserts.pure _
  · exact Inserts.pure _

theorem insertTrace_inserts (record : TraceRecord) :
    Inserts record.traceID (insertTrace h env record) (evidenceTypes record) := by
  unfold insertTrace
  split
  · show Inserts record.traceID _ ([] ++ evidenceTypes record)
    refine (inserts_call fun _ => rfl).bind fun error => ?_
    split
    · exact (Inserts.pure _).weaken (List.nil_sublist _)
    · have hrest : ∀ errs : List Err, Inserts record.traceID
          (if errs ≠ [] then return errs else if record.skipPostPersistence then return [] else publish h env record)
          [] := by
        intro errs
        split
        · exact Inserts.pure _
        · split
          · exact Inserts.pure _
          · exact publish_inserts h env _ record
      refine ((insertEvidence_inserts h env record).bind hrest).weaken ?_
      rw [List.append_nil]
  · exact (Inserts.pure _).weaken (List.nil_sublist _)

end

/-! ## The rows of a trace -/

/-- What is known of the rows of a trace. -/
structure Shape (traceID : String) (rows : List RawEvidenceRow) : Prop where
  trace : ∀ row ∈ rows, row.traceId = traceID
  original : ∀ row ∈ rows, row.variant = .original → ∃ objectType, row.objectType = objectTypeText objectType
  only : ∀ row ∈ rows, ∀ row' ∈ rows, row.variant = .original → row'.variant = .original →
    row.objectType = row'.objectType → row.objectType ≠ objectTypeText .multipartPart → row = row'
  copy : ∀ row ∈ rows, row.variant = .sanitized → row.objectType = objectTypeText .requestBody
  media : ∀ row ∈ rows, row.variant = .derivedMedia → ∃ n, row.objectType = mediaObjectType n

theorem objectTypeText_injective : Function.Injective objectTypeText := by
  intro objectType objectType' h
  cases objectType <;> cases objectType' <;> first | rfl | exact absurd h (by decide)

theorem objectTypeText_ne_media (objectType : EvidenceType) (n : Nat) :
    objectTypeText objectType ≠ mediaObjectType n := by
  intro h
  have htake := congrArg (List.take 6) h
  rw [mediaObjectType, List.take_append_of_le_length (by decide)] at htake
  revert htake
  cases objectType <;> decide

theorem eq_of_sublist_evidenceTypes {record : TraceRecord} {objects : List RawEvidenceObject}
    (hsub : (objects.map (·.objectType)).Sublist (evidenceTypes record)) {object object' : RawEvidenceObject}
    (hmem : object ∈ objects) (hmem' : object' ∈ objects) (htype : object.objectType = object'.objectType)
    (hpart : object.objectType ≠ .multipartPart) : object = object' := by
  have hcount : (evidenceTypes record).count object.objectType ≤ 1 := by
    generalize object.objectType = objectType at hpart
    cases objectType <;> simp_all [evidenceTypes, List.count_replicate]
  have hlength : (objects.filter fun o => o.objectType = object.objectType).length ≤ 1 := by
    rw [← List.countP_eq_length_filter]
    refine le_trans (le_of_eq ?_) ((hsub.count_le object.objectType).trans hcount)
    rw [List.count, List.countP_map]
    rfl
  have hfirst : object ∈ objects.filter fun o => o.objectType = object.objectType := by simp [hmem]
  have hsecond : object' ∈ objects.filter fun o => o.objectType = object.objectType := by simp [hmem', htype]
  generalize objects.filter (fun o => o.objectType = object.objectType) = l at hlength hfirst hsecond
  match l, hlength with
  | [o], _ => exact (List.mem_singleton.1 hfirst).trans (List.mem_singleton.1 hsecond).symm

theorem shape_captured {record : TraceRecord} {objects : List RawEvidenceObject}
    (htypes : (objects.map (·.objectType)).Sublist (evidenceTypes record))
    (hid : ∀ object ∈ objects, object.traceID = record.traceID) : Shape record.traceID (objects.map rowOf) where
  trace row hrow := by
    obtain ⟨object, hobject, rfl⟩ := List.mem_map.1 hrow
    exact congrArg Str.ofString (hid object hobject)
  original row hrow _ := by
    obtain ⟨object, -, rfl⟩ := List.mem_map.1 hrow
    exact ⟨object.objectType, rfl⟩
  only row hrow row' hrow' _ _ heq hpart := by
    obtain ⟨object, hobject, rfl⟩ := List.mem_map.1 hrow
    obtain ⟨object', hobject', rfl⟩ := List.mem_map.1 hrow'
    rw [eq_of_sublist_evidenceTypes htypes hobject hobject' (objectTypeText_injective heq)
      fun h => hpart (congrArg objectTypeText h)]
  copy row hrow hvariant := by
    obtain ⟨object, -, rfl⟩ := List.mem_map.1 hrow
    cases hvariant
  media row hrow hvariant := by
    obtain ⟨object, -, rfl⟩ := List.mem_map.1 hrow
    cases hvariant

/-- A row that a run of enrichment may insert. -/
structure Derived (traceID : String) (row : RawEvidenceRow) : Prop where
  trace : row.traceId = traceID
  derived : row.variant ≠ .original
  copy : row.variant = .sanitized → row.objectType = objectTypeText .requestBody
  media : row.variant = .derivedMedia → ∃ n, row.objectType = mediaObjectType n

theorem Shape.append {traceID : String} {rows : List RawEvidenceRow} {row : RawEvidenceRow} (h : Shape traceID rows)
    (hrow : Derived traceID row) : Shape traceID (rows ++ [row]) := by
  have hor {P : RawEvidenceRow → Prop} (hrows : ∀ r ∈ rows, P r) (hnew : P row) : ∀ r ∈ rows ++ [row], P r := by
    intro r hr
    obtain hr | hr := List.mem_append.1 hr
    · exact hrows r hr
    · rw [List.mem_singleton.1 hr]
      exact hnew
  refine ⟨hor h.trace hrow.trace, hor h.original fun hv => absurd hv hrow.derived, ?_, hor h.copy hrow.copy,
    hor h.media hrow.media⟩
  refine hor (fun r hr => hor (h.only r hr) fun _ hv => absurd hv hrow.derived) fun r _ hv => absurd hv hrow.derived

/-! ## What enrichment inserts -/

/-- During a run: the rows have their shape, and the assets are media. -/
def Enriching (traceID : String) (s : EnrichmentState) : Prop :=
  Shape traceID s.rawEvidence ∧ ∀ asset ∈ s.assets, ∃ n, asset.objectType = mediaObjectType n

section

variable {rt : Runtime} {pg : Postgres} {env : Surroundings} {now : Int} {contexts : List ContextCatalogEntry}
  {llmJudge : Option Judge} {traces : Str → Option TraceCapturedJob} {traceID : String}

theorem Enriching.addAsset {s : EnrichmentState} (h : Enriching traceID s) (n : Nat) (ref : Str) (mediaType : Json)
    (size : Nat) (replacements : List (Str × Str)) :
    Enriching traceID { s with
      assets := s.assets ++ [⟨mediaObjectType n, ref, mediaType, size⟩]
      replacements := replacements } := by
  refine ⟨h.1, fun asset hasset => ?_⟩
  obtain hasset | hasset := List.mem_append.1 hasset
  · exact h.2 asset hasset
  · rw [List.mem_singleton.1 hasset]
    exact ⟨n, rfl⟩

theorem extractor_enriching (dir : Str) : ExtractorKeeps (Enriching traceID) (mediaExtractor rt env dir) := by
  have hwrite (ref : Str) (data : List UInt8) : (writeBytes env ref data).Keeps (Enriching traceID) :=
    operation_keeps (fun _ h => h) (fun _ h => h) fun _ _ h => h
  refine extractor_keeps fun encoded mediaType original => ?_
  unfold decodeAndStore
  split
  · exact .pure _
  · split
    · exact .pure _
    · refine Effectful.Keeps.bind (.update fun s h => h) fun _ => Effectful.Keeps.get.bind fun s => ?_
      exact (hwrite _ _).bind fun _ => Effectful.Keeps.bind (.update fun _ h => h.addAsset _ _ _ _ _) fun _ => .pure _

theorem insertRawEvidence_enriching {row : RawEvidenceRow} (hrow : Derived traceID row) :
    (Pipeline.insertRawEvidence env row).Keeps (Enriching traceID) :=
  statement_keeps (fun _ h => h) fun _ h => ⟨h.1.append hrow, h.2⟩

theorem saveExtraction_enriching (job : TraceCapturedJob) :
    (saveExtraction env now job traceID).Keeps (Enriching traceID) := by
  unfold saveExtraction
  split
  · exact .pure _
  · refine Effectful.Keeps.get_bind fun s hs => ?_
    refine Effectful.Keeps.bind (.forM fun asset hasset => ?_) fun _ => ?_
    · exact insertRawEvidence_enriching ⟨rfl, by simp, by simp, fun _ => hs.2 asset hasset⟩
    · split
      · refine (writeSanitizedCopy_keeps (fun _ h => h) fun text => ?_).bind fun ref =>
          insertRawEvidence_enriching ⟨rfl, by simp, fun _ => rfl, by simp⟩
        unfold writeText
        split
        · exact Effectful.Keeps.bind (.update fun _ h => h) fun _ => .throw _
        · exact operation_keeps (fun _ h => h) (fun _ h => h) fun _ _ h => h
      · exact .pure _

theorem enrichmentProcess_enriching :
    (enrichmentProcess rt pg env now contexts llmJudge traces traceID).Keeps (Enriching traceID) :=
  enrichmentProcess_keeps (fun _ h => h) (fun _ _ h => h) extractor_enriching fun job _ => saveExtraction_enriching job

end

theorem Evidence.shape {trace : Trace} {rows : List RawEvidenceRow} (h : Evidence trace rows) :
    Shape trace.traceID rows := by
  induction h with
  | captured h env record before added hlog =>
    obtain ⟨added', hlog', htypes, hid⟩ := insertTrace_inserts h env record before
    obtain rfl : added = added' := List.append_cancel_left (hlog.symm.trans hlog')
    exact shape_captured htypes hid
  | @enriched trace rt pg env now contexts llmJudge commits traces start hfresh hrows ih =>
    have hkept : Enriching trace.traceID
        ((enrichmentProcess rt pg env now contexts llmJudge traces trace.traceID).outcome start).2 :=
      enrichmentProcess_enriching start ⟨ih, by simp [hfresh]⟩
    rw [enrichmentRun]
    generalize (enrichmentProcess rt pg env now contexts llmJudge traces trace.traceID).outcome start = x at hkept
    obtain ⟨_ | result, s⟩ := x
    · exact ih
    · cases commits with
      | true => exact hkept.1
      | false => exact ih

/-! ## What the links give -/

/-- Links give originals, and each original is given by the link of a type that there are links for. -/
structure Fetched (traceID : String) (linked : List EvidenceType) (rows : List RawEvidenceRow) : Prop where
  original : ∀ objectType row, FindRawEvidenceObject rows (rawEvidenceLink traceID objectType) row →
    row.variant = .original
  each : ∀ row ∈ rows, row.variant = .original → ∃ objectType ∈ linked,
    FindRawEvidenceObject rows (rawEvidenceLink traceID objectType) row ∧
      ∀ row', FindRawEvidenceObject rows (rawEvidenceLink traceID objectType) row' → row' = row

/-- Every copy of the request is older than the request. -/
def CopiesOlder (rows : List RawEvidenceRow) : Prop :=
  ∀ copy ∈ rows, copy.variant = .sanitized → ∃ row ∈ rows, row.variant = .original ∧
    row.objectType = objectTypeText .requestBody ∧ copy.createdAt < row.createdAt

/-- Every original has a type that there are links for. -/
def AllLinked (linked : List EvidenceType) (rows : List RawEvidenceRow) : Prop :=
  ∀ row ∈ rows, row.variant = .original → ∃ objectType ∈ linked, row.objectType = objectTypeText objectType

/-- There are not two parts. -/
def OnePart (rows : List RawEvidenceRow) : Prop :=
  ∀ row ∈ rows, ∀ row' ∈ rows, row.variant = .original → row'.variant = .original →
    row.objectType = objectTypeText .multipartPart → row'.objectType = objectTypeText .multipartPart → row = row'

section

variable {traceID : String} {linked : List EvidenceType} {rows : List RawEvidenceRow} {row : RawEvidenceRow}
  {objectType : EvidenceType}

theorem Shape.matches_iff (h : Shape traceID rows) (hrow : row ∈ rows) :
    (rawEvidenceLink traceID objectType).Matches row ↔ row.objectType = objectTypeText objectType :=
  ⟨fun hm => hm.2.1, fun htype => ⟨h.trace row hrow, htype, nofun⟩⟩

theorem exists_newest {link : EvidenceRequest} (hrow : row ∈ rows) (hmatch : link.Matches row) :
    ∃ newest, FindRawEvidenceObject rows link newest ∧ row.createdAt ≤ newest.createdAt := by
  classical
  have hmem : row ∈ rows.filter fun r => link.Matches r := List.mem_filter.2 ⟨hrow, by simpa using hmatch⟩
  cases hmax : List.argmax (·.createdAt) (rows.filter fun r => link.Matches r) with
  | none => exact absurd (List.argmax_eq_none.1 hmax) (List.ne_nil_of_mem hmem)
  | some newest =>
    obtain ⟨hnewest, hfits⟩ := List.mem_filter.1 (List.argmax_mem hmax)
    refine ⟨newest, ⟨hnewest, by simpa using hfits, fun row' hrow' hm => ?_⟩, List.le_of_mem_argmax hmem hmax⟩
    exact List.le_of_mem_argmax (List.mem_filter.2 ⟨hrow', by simpa using hm⟩) hmax

theorem Shape.fetched_iff (h : Shape traceID rows) :
    Fetched traceID linked rows ↔ CopiesOlder rows ∧ AllLinked linked rows ∧ OnePart rows := by
  constructor
  · intro hf
    refine ⟨fun copy hcopy hvariant => ?_, fun row hrow hvariant => ?_,
      fun row hrow row' hrow' hv hv' htype htype' => ?_⟩
    · have htype := h.copy copy hcopy hvariant
      have hmatch := (h.matches_iff hcopy).2 htype
      obtain ⟨newest, hnewest, hle⟩ := exists_newest hcopy hmatch
      refine ⟨newest, hnewest.mem, hf.original _ _ hnewest, hnewest.fits.2.1, lt_of_le_of_ne hle fun heq => ?_⟩
      -- A copy of the same time could be returned as well.
      have hfound : FindRawEvidenceObject rows (rawEvidenceLink traceID .requestBody) copy :=
        ⟨hcopy, hmatch, fun row' hrow' hm => heq ▸ hnewest.newest row' hrow' hm⟩
      rw [hf.original _ _ hfound] at hvariant
      cases hvariant
    · obtain ⟨objectType, hlinked, hfound, -⟩ := hf.each row hrow hvariant
      exact ⟨objectType, hlinked, hfound.fits.2.1⟩
    · obtain ⟨objectType, -, hfound, honly⟩ := hf.each row hrow hv
      obtain ⟨objectType', -, hfound', -⟩ := hf.each row' hrow' hv'
      obtain rfl := objectTypeText_injective (hfound.fits.2.1.symm.trans htype)
      obtain rfl := objectTypeText_injective (hfound'.fits.2.1.symm.trans htype')
      exact (honly row' hfound').symm
  · rintro ⟨hcopies, hlinked, hpart⟩
    have hsame : ∀ row ∈ rows, ∀ row' ∈ rows, row.variant = .original → row'.variant = .original →
        row.objectType = row'.objectType → row = row' := by
      intro row hrow row' hrow' hv hv' htype
      by_cases hp : row.objectType = objectTypeText .multipartPart
      · exact hpart row hrow row' hrow' hv hv' hp (htype ▸ hp)
      · exact h.only row hrow row' hrow' hv hv' htype hp
    -- What matches a link and is not original is a copy, and older than an original that matches as well.
    have holder : ∀ objectType, ∀ row ∈ rows, row.objectType = objectTypeText objectType → row.variant ≠ .original →
        ∃ row' ∈ rows, row'.variant = .original ∧ row'.objectType = objectTypeText objectType ∧
          row.createdAt < row'.createdAt := by
      intro objectType row hrow htype hv
      cases hvariant : row.variant with
      | original => exact absurd hvariant hv
      | derivedMedia =>
        obtain ⟨n, hn⟩ := h.media row hrow hvariant
        exact absurd (htype.symm.trans hn) (objectTypeText_ne_media objectType n)
      | sanitized =>
        obtain rfl := objectTypeText_injective ((h.copy row hrow hvariant).symm.trans htype)
        exact hcopies row hrow hvariant
    refine ⟨fun objectType row hfound => ?_, fun row hrow hv => ?_⟩
    · by_contra hv
      obtain ⟨row', hrow', -, htype', hlt⟩ := holder objectType row hfound.mem hfound.fits.2.1 hv
      exact absurd (hfound.newest row' hrow' ((h.matches_iff hrow').2 htype')) (not_le.2 hlt)
    · obtain ⟨objectType, hobjectType, htype⟩ := hlinked row hrow hv
      have hother : ∀ row' ∈ rows, row'.objectType = objectTypeText objectType →
          row' = row ∨ row'.createdAt < row.createdAt := by
        intro row' hrow' htype'
        by_cases hv' : row'.variant = .original
        · exact .inl (hsame row' hrow' row hrow hv' hv (htype'.trans htype.symm))
        · obtain ⟨o, ho, hov, hotype, hlt⟩ := holder objectType row' hrow' htype' hv'
          rw [hsame o ho row hrow hov hv (hotype.trans htype.symm)] at hlt
          exact .inr hlt
      have hmatch := (h.matches_iff hrow).2 htype
      refine ⟨objectType, hobjectType, ⟨hrow, hmatch, fun row' hrow' hm => ?_⟩, fun row' hfound => ?_⟩
      · obtain rfl | hlt := hother row' hrow' hm.2.1
        · exact le_rfl
        · exact hlt.le
      · obtain heq | hlt := hother row' hfound.mem hfound.fits.2.1
        · exact heq
        · exact absurd (hfound.newest row hrow hmatch) (not_le.2 hlt)

end

/-- **Raw evidence object by object**: the links of the page of a trace give originals only, and all of them, if and
only if there are no originals but the two bodies that the page has links for, and every copy of the request is older
than the request. -/
theorem raw_evidence_fetched_iff {trace : Trace} {rows : List RawEvidenceRow} (h : Evidence trace rows) :
    Fetched trace.traceID (linkedTypes trace) rows ↔ CopiesOlder rows ∧ AllLinked (linkedTypes trace) rows := by
  rw [h.shape.fetched_iff]
  refine and_congr_right fun _ => and_iff_left_of_imp fun hlinked => ?_
  intro row hrow row' _ hv _ htype
  obtain ⟨objectType, hmem, htype'⟩ := hlinked row hrow hv
  obtain rfl := objectTypeText_injective (htype'.symm.trans htype)
  simp [linkedTypes] at hmem

/-! ## A request with a picture -/

def pictureRef : String := "file:///raw/trace_1/request_body.bin"

def pictureRecord : TraceRecord where
  traceID := "trace_1"
  req := chatRequest
  entry := chatEntry
  statusCode := 502
  upstreamCode := 0
  requestObject := { objectRef := pictureRef, storageBackend := "filesystem", createdAt := some 1 }
  requestHeadersObject := {}
  multipartParts := []
  requestContentType := "application/json"
  modelRequested := ""
  errorType := "capture_degraded"
  errorMessage := ""
  requestSize := 0
  skipPostPersistence := false

def pictureTrace : Trace := pictureRecord.trace (faultless (fun _ => none) emptyResponse 0)

/-- The row of the body. -/
def bodyRow : RawEvidenceRow :=
  rowOf { traceID := "trace_1", objectType := .requestBody, object := pictureRecord.requestObject }

theorem evidence_bodyRow : Evidence pictureTrace [bodyRow] :=
  .captured chatHandler (faultless (fun _ => none) emptyResponse 0) pictureRecord [] _ rfl

theorem raw_evidence_fetched_iff_bodyRow :
    Fetched pictureTrace.traceID (linkedTypes pictureTrace) [bodyRow] := by
  refine (raw_evidence_fetched_iff evidence_bodyRow).2 ⟨?_, ?_⟩
  · rintro copy hcopy hvariant
    rw [List.mem_singleton.1 hcopy] at hvariant
    cases hvariant
  · rintro row hrow -
    rw [List.mem_singleton.1 hrow]
    exact ⟨.requestBody, by decide, rfl⟩

def pictureUrl : String := "data:image/png;base64,AAAA"

def pictureBody : String :=
  "\x7b\"messages\":[\x7b\"content\":[\x7b\"type\":\"image_url\",\"image_url\":\x7b\"url\":\"" ++ pictureUrl ++
    "\"\x7d\x7d]\x7d]\x7d"

def pictureJob : TraceCapturedJob where
  traceId := "trace_1"
  routePattern := "/v1/chat/completions"
  protocolFamily := "openai_chat"
  captureMode := "raw_and_normalized"
  username := "ada"
  requestRawRef := pictureRef

def pictureRuntime : Runtime :=
  plainRuntime [(pictureBody, .dict [("messages", .list [.dict [("content",
    .list [.dict [("type", .str "image_url"), ("image_url", .dict [("url", .str pictureUrl)])]])]])])]

def pictureStart : EnrichmentState where
  store := fun ref => if ref = Str.ofString pictureRef then some (bytes pictureBody) else none
  tables := .empty
  rawEvidence := [bodyRow]

def pictureRows : List RawEvidenceRow :=
  (enrichmentRun pictureRuntime ⟨fun _ => true⟩ ⟨fun _ => some [0, 0, 0], fun _ => none, "filesystem"⟩ 2 [] none true
    (fun _ => some pictureJob) pictureTrace.traceID pictureStart).state.rawEvidence

theorem evidence_pictureRows : Evidence pictureTrace pictureRows :=
  .enriched pictureRuntime ⟨fun _ => true⟩ ⟨fun _ => some [0, 0, 0], fun _ => none, "filesystem"⟩ 2 [] none true
    (fun _ => some pictureJob) pictureStart rfl evidence_bodyRow

theorem pictureRows_columns : pictureRows.map (fun row => (row.objectType, row.variant, row.createdAt)) =
    [(objectTypeText .requestBody, .original, 1), (mediaObjectType 1, .derivedMedia, 2),
      (objectTypeText .requestBody, .sanitized, 2)] := by
  decide +kernel

/-- The request was stored at time 1 and its copy at time 2, so that the link to the request gives the copy. -/
theorem link_gives_copy : Evidence pictureTrace pictureRows ∧
    (∃ row ∈ pictureRows, row.variant = .original ∧ row.objectType = objectTypeText .requestBody) ∧
    (∃ copy, FindRawEvidenceObject pictureRows (rawEvidenceLink pictureTrace.traceID .requestBody) copy) ∧
    ∀ row, FindRawEvidenceObject pictureRows (rawEvidenceLink pictureTrace.traceID .requestBody) row →
      row.variant = .sanitized := by
  have hshape := evidence_pictureRows.shape
  have hcolumns := pictureRows_columns
  obtain ⟨body, picture, copy, hrows⟩ : ∃ body picture copy, pictureRows = [body, picture, copy] := by
    match hrows : pictureRows with
    | [body, picture, copy] => exact ⟨body, picture, copy, rfl⟩
    | [] | [_] | [_, _] | _ :: _ :: _ :: _ :: _ => simp [hrows] at hcolumns
  simp only [hrows, List.map_cons, List.map_nil, List.cons.injEq, Prod.mk.injEq, and_true] at hcolumns
  obtain ⟨⟨hbodyType, hbodyVariant, hbodyTime⟩, ⟨hmediaType, -, -⟩, hcopyType, hcopyVariant, hcopyTime⟩ := hcolumns
  have hcopy : copy ∈ pictureRows := by simp [hrows]
  have hfits := (hshape.matches_iff hcopy).2 hcopyType
  obtain ⟨newest, hnewest, hle⟩ := exists_newest hcopy hfits
  refine ⟨evidence_pictureRows, ⟨body, by simp [hrows], hbodyVariant, hbodyType⟩, ⟨newest, hnewest⟩,
    fun row hfound => ?_⟩
  have hlate := hfound.newest copy hcopy hfits
  have hmem := hfound.mem
  rw [hrows, List.mem_cons, List.mem_cons, List.mem_singleton] at hmem
  obtain rfl | rfl | rfl := hmem
  · omega
  · exact absurd (hfound.fits.2.1.symm.trans hmediaType) (objectTypeText_ne_media .requestBody 1)
  · exact hcopyVariant

end AuditGateway.Admin
