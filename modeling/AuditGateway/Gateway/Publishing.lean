import AuditGateway.Gateway.Proxy

/-!
# When a job is published

The job of a trace is published at the end of `insertTrace`, unless something before has
failed: the handlers set `skipPostPersistence` when evidence could not be stored, and
`insertTrace` returns early when a row could not be inserted.

The log of a request says what was done and in which order. Up to the row of the trace it
has only what was captured (`Ready`); then come the rows of the evidence (`Rows`), and then the
job (`Published`). `publish_gated` follows from this shape, for all answers of the
stores, the repository, the emitter and the publisher.
-/

namespace AuditGateway.Gateway

open AuditGateway.Framework AuditGateway.Framework.Effectful AuditGateway.Go

/-! ## What the log shows -/

/-- An object of the trace has been stored. -/
def Stored (traceID : String) (objectType : ObjectType) (log : List Event) : Prop :=
  ∃ request object, request.traceID = traceID ∧ request.objectType = objectType ∧
    Event.put request (.ok object) ∈ log

/-- All evidence that there is of the request is stored. -/
structure Captured (traceID : String) (log : List Event) : Prop where
  requestBody : Stored traceID .requestBody log
  responseHeaders : ∀ tunnel resp, .received tunnel resp ∈ log → Stored traceID .responseHeaders log
  responseBody : ∀ resp, .received false resp ∈ log → Stored traceID .responseBody log
  capture : ∀ err, .copied (some err) ∉ log
  frames : ∀ frames, .tunnelled frames ∈ log → frames ≠ [] → Stored traceID .websocketLog log

variable {e : Event}

namespace Event

/-- The events before the trace is recorded. -/
def IsCapture : Event → Prop
  | put request _ => ∀ number, request.objectType ≠ .multipartPart number
  | writeSpool .. | received .. | copied _ | tunnelled _ | respond _ => True
  | _ => False

/-- The events for the rows of the evidence: parts are stored only here. -/
def IsRow : Event → Prop
  | put request _ => ∃ number, request.objectType = .multipartPart number
  | insertRawEvidence .. => True
  | _ => False

def IsJob : Event → Prop
  | publishTraceCaptured .. | markTraceCoreQueued .. => True
  | _ => False

def Succeeded : Event → Prop
  | put _ result => ∃ object, result = .ok object
  | insertTrace _ error => error = none
  | insertRawEvidence _ error => error = none
  | _ => True

theorem IsCapture.not_job (h : e.IsCapture) : ¬ e.IsJob := by
  cases e <;> first | exact id | exact h.elim

theorem IsRow.not_job (h : e.IsRow) : ¬ e.IsJob := by
  cases e <;> first | exact id | exact h.elim

theorem IsCapture.not_row (h : e.IsCapture) : ¬ e.IsRow := by
  cases e with
  | put request result => exact fun ⟨number, hnumber⟩ => h number hnumber
  | _ => first | exact id | exact h.elim

end Event

theorem Stored.mono {traceID : String} {objectType : ObjectType} {log log' : List Event}
    (h : Stored traceID objectType log) (hsub : log ⊆ log') : Stored traceID objectType log' := by
  obtain ⟨request, object, hid, htype, hmem⟩ := h
  exact ⟨request, object, hid, htype, hsub hmem⟩

/-- The job has been published, after everything that it needs. -/
def Published (traceID : String) (log : List Event) : Prop :=
  ∃ before input result after, log = before ++ .publishTraceCaptured input result :: after ∧
    input.traceID = traceID ∧ Captured traceID before ∧ (∃ trace, .insertTrace trace none ∈ before) ∧
    (∀ e ∈ before, ¬ e.IsJob ∧ (¬ e.IsCapture → e.Succeeded)) ∧
    ∀ e ∈ after, (∃ status, e = .respond status) ∨
      ∃ enqueuedAt error, result = .ok enqueuedAt ∧ e = .markTraceCoreQueued traceID enqueuedAt error

/-- There is no job, or it was published after everything that it needs. -/
def Gated (traceID : String) (log : List Event) : Prop :=
  (∀ e ∈ log, ¬ e.IsJob) ∨ Published traceID log

theorem Gated.respond {traceID : String} {log : List Event} (h : Gated traceID log) (status : Int) :
    Gated traceID (log ++ [.respond status]) := by
  rcases h with h | ⟨before, input, result, after, rfl, hid, hcap, htrace, hbefore, hafter⟩
  · exact .inl (List.forall_mem_append.2 ⟨h, List.forall_mem_singleton.2 id⟩)
  · refine .inr ⟨before, input, result, after ++ [.respond status], by simp, hid, hcap, htrace, hbefore, ?_⟩
    exact List.forall_mem_append.2 ⟨hafter, List.forall_mem_singleton.2 (.inl ⟨status, rfl⟩)⟩

/-! ## Calls -/

theorem returns_call {ρ : Type} {answer : List Event → ρ} {event : ρ → Event} {P : List Event → Prop}
    {Q : ρ → List Event → Prop} (h : ∀ log, P log → Q (answer log) (log ++ [event (answer log)])) :
    Returns P (call answer event) Q :=
  fun log hlog => ⟨_, _, rfl, h log hlog⟩

theorem returns_note {event : Event} {P : List Event → Prop} {Q : Unit → List Event → Prop}
    (h : ∀ log, P log → Q () (log ++ [event])) : Returns P (note event) Q :=
  fun log hlog => ⟨_, _, rfl, h log hlog⟩

/-! ## The rows of the evidence -/

/-- The trace is recorded, and the calls for its evidence so far returned the errors `errs`. -/
def Rows (traceID : String) (skip : Bool) (errs : List Err) (log : List Event) : Prop :=
  ∃ captured trace rows, log = captured ++ .insertTrace trace none :: rows ∧
    (∀ e ∈ captured, e.IsCapture) ∧ (∀ e ∈ rows, e.IsRow) ∧ (errs = [] → ∀ e ∈ rows, e.Succeeded) ∧
    (skip = false → Captured traceID captured)

variable {traceID : String} {skip : Bool} {errs more : List Err} {log : List Event}

theorem Rows.add (h : Rows traceID skip errs log) (hrow : e.IsRow) (hs : more = [] → e.Succeeded) :
    Rows traceID skip (errs ++ more) (log ++ [e]) := by
  obtain ⟨captured, trace, rows, rfl, hcaptured, hrows, hok, hskip⟩ := h
  refine ⟨captured, trace, rows ++ [e], by simp, hcaptured, ?_, fun hnil => ?_, hskip⟩
  · exact List.forall_mem_append.2 ⟨hrows, List.forall_mem_singleton.2 hrow⟩
  · obtain ⟨herrs, hmore⟩ := List.append_eq_nil_iff.1 hnil
    exact List.forall_mem_append.2 ⟨hok herrs, List.forall_mem_singleton.2 (hs hmore)⟩

/-- The computation makes calls for rows, and returns the errors of those that fail. -/
def Accumulates (traceID : String) (skip : Bool) (x : Serve (List Err)) : Prop :=
  ∀ errs, Returns (Rows traceID skip errs) x fun more log => Rows traceID skip (errs ++ more) log

theorem Accumulates.nil : Accumulates traceID skip (pure []) := fun errs =>
  Returns.pure fun _ h => by rwa [List.append_nil]

theorem insertRawEvidence_accumulates (env : Environment) (object : RawEvidenceObject) :
    Accumulates traceID skip (insertRawEvidence env object) := by
  intro errs
  refine Returns.bind (Q := fun error => Rows traceID skip (errs ++ error.toList)) (returns_call fun log hrows => ?_)
    fun error => Returns.pure fun _ hrows => hrows
  refine hrows.add trivial fun hnone => ?_
  cases herror : env.insertRawEvidence log object with
  | none => rfl
  | some err =>
    rw [herror] at hnone
    cases hnone

theorem insertEvidenceObject_accumulates (env : Environment) (id : String) (objectType : EvidenceType)
    (object : Object) : Accumulates traceID skip (insertEvidenceObject env id objectType object) := by
  unfold insertEvidenceObject
  split
  · exact .nil
  · exact insertRawEvidence_accumulates env _

theorem insertReferenced_accumulates (env : Environment) (id : String) (objectType : EvidenceType)
    (object : Object) : Accumulates traceID skip (insertReferenced env id objectType object) := by
  unfold insertReferenced
  split
  · exact .nil
  · exact insertEvidenceObject_accumulates env _ _ _

variable {input : TraceCapturedInput}

section

variable (h : Handler) (env : Environment)

/-- The error of a call, if there is one. -/
def errorOf : Except Err Object → List Err
  | .error err => [err]
  | .ok _ => []

theorem putPart_returns (id : String) (number : Nat) (contentType : String) (content : Content) :
    Returns (Rows traceID skip errs) (putEvidence h env id (.multipartPart number) contentType content)
      fun stored => Rows traceID skip (errs ++ errorOf stored) := by
  unfold putEvidence
  split
  · refine returns_call fun log hrows => hrows.add ⟨number, rfl⟩ fun hnone => ?_
    cases hput : env.put log _ with
    | ok object => exact ⟨object, rfl⟩
    | error err =>
      rw [hput] at hnone
      cases hnone
  · exact Returns.pure fun log hrows => by simpa [errorOf] using hrows

theorem insertPart_accumulates (id : String) (number : Nat) (part : MultipartPart) :
    Accumulates traceID skip (insertPart h env id number part) := by
  intro errs
  refine (putPart_returns h env id number _ _).bind fun stored => ?_
  cases stored with
  | error err => exact Returns.pure fun _ hrows => hrows
  | ok object =>
    simp only [errorOf, List.append_nil]
    split
    · exact Accumulates.nil errs
    · exact insertRawEvidence_accumulates env _ errs

theorem insertParts_accumulates (id : String) (number : Nat) (parts : List MultipartPart) :
    Accumulates traceID skip (insertParts h env id number parts) := by
  induction parts generalizing number with
  | nil => exact .nil
  | cons part parts ih =>
    intro errs
    refine (insertPart_accumulates h env id number part errs).bind fun first =>
      (ih (number + 1) (errs ++ first)).bind fun rest => ?_
    exact Returns.pure fun log hrows => by rwa [← List.append_assoc]

theorem insertEvidence_accumulates (record : TraceRecord) :
    Accumulates traceID skip (insertEvidence h env record) := by
  intro errs
  refine (insertEvidenceObject_accumulates env _ _ _ _).bind fun _ => ?_
  refine (insertReferenced_accumulates env _ _ _ _).bind fun _ => ?_
  refine (insertParts_accumulates h env _ _ _ _).bind fun _ => ?_
  refine (insertReferenced_accumulates env _ _ _ _).bind fun _ => ?_
  refine (insertReferenced_accumulates env _ _ _ _).bind fun _ => ?_
  refine (insertReferenced_accumulates env _ _ _ _).bind fun _ => ?_
  exact Returns.pure fun log hrows => by simpa only [List.append_assoc] using hrows

/-! ## The job -/

/-- Everything that a job needs has been done. -/
def Cleared (traceID : String) (log : List Event) : Prop :=
  Captured traceID log ∧ (∃ trace, .insertTrace trace none ∈ log) ∧
    ∀ e ∈ log, ¬ e.IsJob ∧ (¬ e.IsCapture → e.Succeeded)

theorem Captured.append {captured more : List Event} (hc : Captured traceID captured)
    (hmore : ∀ e ∈ more, ¬ e.IsCapture) : Captured traceID (captured ++ more) := by
  have hsub : captured ⊆ captured ++ more := List.subset_append_left _ _
  have hmem : ∀ {e : Event}, e.IsCapture → e ∈ captured ++ more → e ∈ captured := fun he hin =>
    (List.mem_append.1 hin).resolve_right fun hm => hmore _ hm he
  exact {
    requestBody := hc.requestBody.mono hsub
    responseHeaders := fun tunnel resp hr => (hc.responseHeaders tunnel resp (hmem trivial hr)).mono hsub
    responseBody := fun resp hr => (hc.responseBody resp (hmem trivial hr)).mono hsub
    capture := fun err hin => hc.capture err (hmem trivial hin)
    frames := fun frames hin hne => (hc.frames frames (hmem trivial hin) hne).mono hsub }

theorem Event.IsRow.not_capture (hrow : e.IsRow) : ¬ e.IsCapture :=
  fun hcapture => hcapture.not_row hrow

theorem Rows.cleared (hrows : Rows traceID false [] log) : Cleared traceID log := by
  obtain ⟨captured, trace, rows, rfl, hcaptured, hrow, hok, hskip⟩ := hrows
  refine ⟨(hskip rfl).append ?_, ⟨trace, by simp⟩, ?_⟩
  · exact List.forall_mem_cons.2 ⟨id, fun e he => (hrow e he).not_capture⟩
  · refine List.forall_mem_append.2 ⟨fun e he => ?_, List.forall_mem_cons.2 ⟨⟨id, fun _ => rfl⟩, fun e he => ?_⟩⟩
    · exact ⟨(hcaptured e he).not_job, fun hnot => absurd (hcaptured e he) hnot⟩
    · exact ⟨(hrow e he).not_job, fun _ => hok rfl e he⟩

theorem Cleared.emit (hc : Cleared traceID log) (alert : CoverageAlert) (error : Option Err) :
    Cleared traceID (log ++ [.emitCoverageAlert alert error]) := by
  obtain ⟨hcap, ⟨trace, htrace⟩, hall⟩ := hc
  refine ⟨hcap.append (List.forall_mem_singleton.2 id), ⟨trace, List.mem_append_left _ htrace⟩, ?_⟩
  exact List.forall_mem_append.2 ⟨hall, List.forall_mem_singleton.2 ⟨id, fun _ => trivial⟩⟩

theorem emitCoverageAlert_returns (record : TraceRecord) :
    Returns (Cleared traceID) (emitCoverageAlert h env record) fun _ => Cleared traceID := by
  unfold emitCoverageAlert
  split
  · refine Returns.bind (Q := fun _ => Cleared traceID) (returns_call fun log hc => ?_) fun error => ?_
    · exact Cleared.emit hc _ _
    · exact Returns.pure fun _ hc => hc
  · exact Returns.pure fun _ hc => hc

theorem Cleared.published (hc : Cleared traceID log) (hid : input.traceID = traceID)
    (result : Except Err Int) : Published traceID (log ++ [.publishTraceCaptured input result]) :=
  ⟨log, input, result, [], rfl, hid, hc.1, hc.2.1, hc.2.2, List.forall_mem_nil _⟩

theorem Cleared.marked (hc : Cleared traceID log) (hid : input.traceID = traceID)
    (enqueuedAt : Int) (error : Option Err) :
    Published traceID (log ++ [.publishTraceCaptured input (.ok enqueuedAt)] ++
      [.markTraceCoreQueued traceID enqueuedAt error]) := by
  refine ⟨log, input, .ok enqueuedAt, [.markTraceCoreQueued traceID enqueuedAt error], by simp, hid, hc.1, hc.2.1,
    hc.2.2, ?_⟩
  exact List.forall_mem_singleton.2 (.inr ⟨enqueuedAt, error, rfl, rfl⟩)

/-- The last event is the publication, after everything that it needs. -/
def JustPublished (traceID : String) (record : TraceRecord) (result : Except Err Int) (log : List Event) : Prop :=
  ∃ before, log = before ++ [.publishTraceCaptured record.input result] ∧ Cleared traceID before

theorem publish_returns {record : TraceRecord} (hid : record.traceID = traceID) :
    Returns (Cleared traceID) (publish h env record) fun _ => Gated traceID := by
  refine (emitCoverageAlert_returns h env record).bind fun errs => ?_
  split
  · refine Returns.bind (Q := JustPublished traceID record) (returns_call fun log hc => ⟨log, rfl, hc⟩) fun result => ?_
    cases result with
    | error err =>
      refine Returns.pure fun log hlog => ?_
      obtain ⟨before, rfl, hc⟩ := hlog
      exact .inr (hc.published hid _)
    | ok enqueuedAt =>
      refine Returns.bind (Q := fun _ => Gated traceID) (returns_call fun log hlog => ?_) fun error => ?_
      · obtain ⟨before, rfl, hc⟩ := hlog
        rw [hid]
        exact .inr (hc.marked hid _ _)
      · exact Returns.pure fun _ hg => hg
  · exact Returns.pure fun log hc => .inl fun e he => (hc.2.2 e he).1

/-- Only evidence of the request so far, and all of it is stored unless the job is to be skipped. -/
def Ready (traceID : String) (skip : Bool) (log : List Event) : Prop :=
  (∀ e ∈ log, e.IsCapture) ∧ (skip = false → Captured traceID log)

theorem Rows.no_job (hrows : Rows traceID skip errs log) : ∀ e ∈ log, ¬ e.IsJob := by
  obtain ⟨captured, trace, rows, rfl, hcaptured, hrow, _, _⟩ := hrows
  exact List.forall_mem_append.2 ⟨fun e he => (hcaptured e he).not_job,
    List.forall_mem_cons.2 ⟨id, fun e he => (hrow e he).not_job⟩⟩

/-- The last event is the call for the row of the trace. -/
def JustInserted (traceID : String) (skip : Bool) (trace : Trace) (error : Option Err) (log : List Event) : Prop :=
  ∃ before, log = before ++ [.insertTrace trace error] ∧ Ready traceID skip before

theorem JustInserted.no_job {trace : Trace} {error : Option Err} (hlog : JustInserted traceID skip trace error log) :
    ∀ e ∈ log, ¬ e.IsJob := by
  obtain ⟨before, rfl, hready, _⟩ := hlog
  exact List.forall_mem_append.2 ⟨fun e he => (hready e he).not_job, List.forall_mem_singleton.2 id⟩

theorem JustInserted.rows {trace : Trace} (hlog : JustInserted traceID skip trace none log) :
    Rows traceID skip [] log := by
  obtain ⟨before, rfl, hready, hskip⟩ := hlog
  exact ⟨before, trace, [], rfl, hready, List.forall_mem_nil _, fun _ => List.forall_mem_nil _, hskip⟩

theorem insertTrace_returns {record : TraceRecord} (hid : record.traceID = traceID) :
    Returns (Ready traceID record.skipPostPersistence) (insertTrace h env record) fun _ => Gated traceID := by
  unfold insertTrace
  split
  · refine Returns.bind (Q := JustInserted traceID record.skipPostPersistence (record.trace env))
      (returns_call fun log hready => ⟨log, rfl, hready⟩) fun error => ?_
    cases error with
    | some err => exact Returns.pure fun log hlog => .inl hlog.no_job
    | none =>
      refine Returns.bind (Q := fun errs => Rows traceID record.skipPostPersistence ([] ++ errs))
        ((insertEvidence_accumulates h env record []).weaken (fun _ hlog => hlog.rows) fun _ _ hrows => hrows)
        fun errs => ?_
      rw [List.nil_append]
      split
      · exact Returns.pure fun log hrows => .inl hrows.no_job
      · rename_i hnil
        obtain rfl := not_not.1 hnil
        split
        · exact Returns.pure fun log hrows => .inl hrows.no_job
        · rename_i hskip
          rw [Bool.not_eq_true] at hskip
          rw [hskip]
          exact (publish_returns h env hid).weaken (fun _ hrows => hrows.cleared) fun _ _ hg => hg
  · exact Returns.pure fun log hready => .inl fun e he => (hready.1 e he).not_job

/-! ## The handlers -/

/-- The events that say nothing of a response. -/
def Event.IsPlain : Event → Prop
  | put request _ => ∀ number, request.objectType ≠ .multipartPart number
  | writeSpool .. | respond _ => True
  | _ => False

/-- So far: besides plain events only the `outcomes`, and for each object that was to be stored whether that
failed. -/
def Progress (traceID : String) (outcomes : List Event) (puts : List (ObjectType × Bool)) (log : List Event) :
    Prop :=
  (∀ e ∈ log, e.IsPlain ∨ e ∈ outcomes) ∧ ∀ put ∈ puts, put.2 = false → Stored traceID put.1 log

/-- The outcomes need no other objects than those that were stored. -/
structure Covers (outcomes : List Event) (puts : List (ObjectType × Bool)) : Prop where
  requestBody : (.requestBody, false) ∈ puts
  responseHeaders : ∀ tunnel resp, .received tunnel resp ∈ outcomes → (.responseHeaders, false) ∈ puts
  responseBody : ∀ resp, .received false resp ∈ outcomes → (.responseBody, false) ∈ puts
  capture : ∀ err, .copied (some err) ∉ outcomes
  frames : ∀ frames, .tunnelled frames ∈ outcomes → frames ≠ [] → (.websocketLog, false) ∈ puts

variable {outcomes : List Event} {puts : List (ObjectType × Bool)}

theorem Progress.plain (hp : Progress traceID outcomes puts log) (he : e.IsPlain) :
    Progress traceID outcomes puts (log ++ [e]) :=
  ⟨List.forall_mem_append.2 ⟨hp.1, List.forall_mem_singleton.2 (.inl he)⟩,
    fun put hput hok => (hp.2 put hput hok).mono (List.subset_append_left _ _)⟩

theorem Progress.outcome (hp : Progress traceID outcomes puts log) (e : Event) :
    Progress traceID (e :: outcomes) puts (log ++ [e]) :=
  ⟨List.forall_mem_append.2 ⟨fun e' he' => (hp.1 e' he').imp_right (List.mem_cons_of_mem _),
      List.forall_mem_singleton.2 (.inr List.mem_cons_self)⟩,
    fun put hput hok => (hp.2 put hput hok).mono (List.subset_append_left _ _)⟩

theorem Progress.ready (hp : Progress traceID outcomes puts log) (hout : ∀ e ∈ outcomes, e.IsCapture)
    (hskip : skip = false → Covers outcomes puts) : Ready traceID skip log := by
  have hplain : ∀ {e : Event}, e.IsPlain → e.IsCapture := fun {e} he => by
    cases e <;> first | exact he | exact trivial
  refine ⟨fun e he => (hp.1 e he).elim hplain (hout e), fun hs => ?_⟩
  have hc := hskip hs
  have hstored : ∀ {t : ObjectType}, (t, false) ∈ puts → Stored traceID t log := fun ht => hp.2 _ ht rfl
  -- an event about a response is one of the outcomes
  have houtcome : ∀ {e : Event}, ¬ e.IsPlain → e ∈ log → e ∈ outcomes := fun hnot he =>
    (hp.1 _ he).resolve_left hnot
  exact {
    requestBody := hstored hc.requestBody
    responseHeaders := fun tunnel resp hr => hstored (hc.responseHeaders tunnel resp (houtcome id hr))
    responseBody := fun resp hr => hstored (hc.responseBody resp (houtcome id hr))
    capture := fun err he => hc.capture err (houtcome id he)
    frames := fun frames he hne => hstored (hc.frames frames (houtcome id he) hne) }

theorem putEvidence_progress (hstore : h.evidenceStore) {objectType : ObjectType}
    (htype : ∀ number, objectType ≠ .multipartPart number) (contentType : String) (content : Content) :
    Returns (Progress traceID outcomes puts) (putEvidence h env traceID objectType contentType content)
      fun stored => Progress traceID outcomes ((objectType, failed stored) :: puts) := by
  rw [putEvidence, if_pos hstore]
  refine returns_call fun log hp => ?_
  have hplain := hp.plain (e := .put ⟨traceID, objectType, contentType, content⟩
    (env.put log ⟨traceID, objectType, contentType, content⟩)) htype
  refine ⟨hplain.1, fun put hput hok => ?_⟩
  rcases List.mem_cons.1 hput with rfl | hput
  · cases hres : env.put log ⟨traceID, objectType, contentType, content⟩ with
    | error err =>
      rw [hres] at hok
      cases hok
    | ok object => exact ⟨⟨traceID, objectType, contentType, content⟩, object, rfl, rfl, by simp⟩
  · exact hplain.2 put hput hok

theorem spoolFailed_progress (stored : Except Err Object) (envelope : SpoolEnvelope) :
    Returns (Progress traceID outcomes puts) (spoolFailed h env stored envelope)
      fun _ => Progress traceID outcomes puts := by
  unfold spoolFailed
  split
  · exact Returns.bind (Q := fun _ => Progress traceID outcomes puts) (returns_call fun log hp => hp.plain trivial)
      fun _ => Returns.pure fun _ hp => hp
  · exact Returns.pure fun _ hp => hp

theorem httpError_progress (status : Int) :
    Returns (Progress traceID outcomes puts) (httpError status) fun _ => Progress traceID outcomes puts :=
  returns_note fun _ hp => hp.plain trivial

theorem httpError_gated (status : Int) : Returns (Gated traceID) (httpError status) fun _ => Gated traceID :=
  returns_note fun _ hg => hg.respond status

theorem note_progress (e : Event) :
    Returns (Progress traceID outcomes puts) (note e) fun _ => Progress traceID (e :: outcomes) puts :=
  returns_note fun _ hp => hp.outcome e

theorem insertTrace_progress {record : TraceRecord} (hid : record.traceID = traceID)
    (hout : ∀ e ∈ outcomes, e.IsCapture) (hskip : record.skipPostPersistence = false → Covers outcomes puts) :
    Returns (Progress traceID outcomes puts) (insertTrace h env record) fun _ => Gated traceID :=
  (insertTrace_returns h env hid).weaken (fun _ hp => hp.ready hout hskip) fun _ _ hg => hg

variable {record : TraceRecord} {resp : UpstreamResponse}

theorem Progress.gated (hp : Progress traceID outcomes puts log) (hout : ∀ e ∈ outcomes, e.IsCapture) :
    Gated traceID log :=
  have hready : Ready traceID true log := hp.ready hout fun hfalse => absurd hfalse (by decide)
  .inl fun e he => (hready.1 e he).not_job

/-- What holds after a step that may panic: of its result, or without it. -/
def OrPanicked {α : Type} (Q : α → List Event → Prop) (P : List Event → Prop) : Except Panic α → List Event → Prop
  | .ok a, log => Q a log
  | .error _, log => P log

theorem writeHeader_ensures {P : List Event → Prop} (hP : ∀ log status, P log → P (log ++ [.respond status]))
    (code : Int) : Ensures P (writeHeader code) fun _ => P := by
  unfold writeHeader
  split
  · exact fun log hp => hP log code hp
  · exact fun log hp => hp

theorem storeStream_ensures (hstore : h.evidenceStore) (hid : record.traceID = traceID) (copy : Copy) :
    Ensures (Progress traceID outcomes puts) (storeStream h env record resp copy)
      (OrPanicked (fun stored => Progress traceID outcomes ((.responseBody, failed stored) :: puts))
        (Progress traceID outcomes puts)) := by
  subst hid
  rw [storeStream, if_pos hstore]
  cases copy.extractor.ext.assembleSSE with
  | error p => exact fun log hp => hp
  | ok assembled =>
    have hput : ∀ contentType content, Ensures (Progress record.traceID outcomes puts)
        (putEvidence h env record.traceID .responseBody contentType content)
        (OrPanicked (fun stored => Progress record.traceID outcomes ((.responseBody, failed stored) :: puts))
          (Progress record.traceID outcomes puts)) := fun contentType content =>
      .of_returns (putEvidence_progress h env hstore (by simp) contentType content) fun _ _ hp => hp
    cases assembled with
    | none => exact hput _ _
    | some doc => exact hput _ _

/-- The request has been captured: whether its job is to be skipped, and which objects were to be stored. -/
structure FromRequest (traceID : String) (puts : List (ObjectType × Bool)) (record : TraceRecord) : Prop where
  traceID : record.traceID = traceID
  requestBody : record.skipPostPersistence = false → (.requestBody, false) ∈ puts

variable (hstore : h.evidenceStore)

include hstore

theorem serveStreamingResponse_gated (hr : FromRequest traceID puts record) :
    Ensures (Progress traceID [.received false resp] puts) (serveStreamingResponse h env resp record)
      fun _ => Gated traceID := by
  obtain ⟨rfl, hbody⟩ := hr
  have hout : ∀ e ∈ [Event.received false resp], e.IsCapture := by simp [Event.IsCapture]
  refine Ensures.bind (putEvidence_progress h env hstore (by simp) _ _) fun headers => ?_
  refine Ensures.seq (writeHeader_ensures (fun log status hp => hp.plain trivial) _) (fun _ => ?_)
    fun _ _ hp => hp.gated hout
  refine Ensures.bind (note_progress _) fun _ => ?_
  generalize (copyStream env.unmarshal env.writers resp.body _).1 = copy
  have hout : ∀ e ∈ [Event.copied copy.captureErr, .received false resp], e.IsCapture := by simp [Event.IsCapture]
  refine Ensures.seq (storeStream_ensures h env hstore rfl copy) (fun stored => ?_) fun _ _ hp => hp.gated hout
  refine Ensures.bind (insertTrace_progress h env rfl hout fun hskip => ?_) fun _ => ?_
  · simp only [Bool.or_eq_false_iff, Option.isSome_eq_false_iff, Option.isNone_iff_eq_none] at hskip
    obtain ⟨⟨⟨hskip, hheaders⟩, hstored⟩, hcapture⟩ := hskip
    have := hbody hskip
    constructor <;> simp_all
  · exact fun log hg => hg

theorem serveBufferedResponse_gated (hr : FromRequest traceID puts record) :
    Ensures (Progress traceID [.received false resp] puts) (serveBufferedResponse h env resp record)
      fun _ => Gated traceID := by
  obtain ⟨rfl, hbody⟩ := hr
  have hout : ∀ e ∈ [Event.received false resp], e.IsCapture := by simp [Event.IsCapture]
  unfold serveBufferedResponse
  split
  · refine Ensures.bind (putEvidence_progress h env hstore (by simp) _ _) fun headers => ?_
    refine Ensures.bind (insertTrace_progress h env rfl hout fun hskip => absurd hskip (by simp)) fun _ => ?_
    exact .of_returns (httpError_gated 502) fun _ _ hg => hg
  · refine Ensures.bind (putEvidence_progress h env hstore (by simp) _ _) fun stored => ?_
    refine Ensures.bind (putEvidence_progress h env hstore (by simp) _ _) fun headers => ?_
    refine Ensures.bind (insertTrace_progress h env rfl hout fun hskip => ?_) fun _ => ?_
    · simp only [Bool.or_eq_false_iff] at hskip
      obtain ⟨⟨hskip, hstored⟩, hheaders⟩ := hskip
      have := hbody hskip
      constructor <;> simp_all
    · exact writeHeader_ensures (fun log status hg => hg.respond status) _

omit hstore in
theorem recordWebSocketTrace_gated {statusCode upstreamCode : Int} (hid : record.traceID = traceID)
    (hout : ∀ e ∈ outcomes, e.IsCapture) (hskip : record.skipPostPersistence = false → Covers outcomes puts) :
    Ensures (Progress traceID outcomes puts) (recordWebSocketTrace h env record statusCode upstreamCode)
      fun _ => Gated traceID :=
  Ensures.bind (insertTrace_progress h env hid hout hskip) fun _ _ hg => hg

/-- A tunnel has ended: its log is stored, or the job is to be skipped. -/
def FramesStored (env : Environment) (record : TraceRecord) (outcomes : List Event) (puts : List (ObjectType × Bool))
    (stored : TraceRecord) (log : List Event) : Prop :=
  ∃ puts', Progress record.traceID (.tunnelled env.frameLog :: outcomes) puts' log ∧ puts ⊆ puts' ∧
    stored.traceID = record.traceID ∧ (stored.skipPostPersistence = false →
      record.skipPostPersistence = false ∧ (env.frameLog ≠ [] → (.websocketLog, false) ∈ puts'))

theorem storeFrames_returns (hid : record.traceID = traceID) :
    Returns (Progress traceID outcomes puts) (storeFrames h env record) (FramesStored env record outcomes puts) := by
  subst hid
  refine (note_progress _).bind fun _ => ?_
  split
  · rename_i hempty
    exact Returns.pure fun log hp => ⟨puts, hp, fun _ => id, rfl, fun hskip => ⟨hskip, fun hne => absurd hempty hne⟩⟩
  · refine (putEvidence_progress h env hstore (by simp) _ _).bind fun stored => ?_
    cases stored with
    | ok object =>
      refine Returns.pure fun log hp => ⟨_, hp, List.subset_cons_self _ _, rfl, fun hskip => ⟨hskip, fun _ => ?_⟩⟩
      exact List.mem_cons_self
    | error err =>
      exact Returns.pure fun log hp => ⟨_, hp, List.subset_cons_self _ _, rfl, fun hskip => absurd hskip (by simp)⟩

theorem serveHandshake_gated (hr : FromRequest traceID puts record) :
    Ensures (Progress traceID [] puts) (serveHandshake h env resp record) fun _ => Gated traceID := by
  obtain ⟨rfl, hbody⟩ := hr
  have hout : ∀ e ∈ [Event.received true resp], e.IsCapture := by simp [Event.IsCapture]
  refine Ensures.bind (note_progress _) fun _ => ?_
  refine Ensures.bind (putEvidence_progress h env hstore (by simp) _ _) fun headers => ?_
  have hcovers : (record.skipPostPersistence || failed headers) = false →
      Covers [.received true resp] ((.responseHeaders, failed headers) :: puts) := by
    intro hskip
    obtain ⟨hskip, hheaders⟩ := Bool.or_eq_false_iff.1 hskip
    have := hbody hskip
    constructor <;> simp_all
  dsimp only
  split
  · exact Ensures.bind (httpError_progress 500) fun _ => recordWebSocketTrace_gated h env rfl hout hcovers
  split
  · exact recordWebSocketTrace_gated h env rfl hout hcovers
  split
  · exact recordWebSocketTrace_gated h env rfl hout hcovers
  split
  · refine Ensures.bind (storeFrames_returns h env hstore rfl) fun stored => ?_
    rintro log ⟨puts', hp, hsub, hid, hskip⟩
    refine recordWebSocketTrace_gated h env hid ?_ (fun hstored => ?_) log hp
    · simp [Event.IsCapture]
    · obtain ⟨hskip, hframes⟩ := hskip hstored
      have hc := hcovers hskip
      exact {
        requestBody := hsub hc.requestBody
        responseHeaders := fun tunnel resp' hin => hsub (hc.responseHeaders tunnel resp' (by simpa using hin))
        responseBody := fun resp' hin => by simp at hin
        capture := by simp
        frames := fun frames hin hne => hframes (by simp at hin; exact hin ▸ hne) }
  · exact recordWebSocketTrace_gated h env rfl hout hcovers

theorem serveWebSocketTunnel_gated (hr : FromRequest traceID puts record) :
    Ensures (Progress traceID [] puts) (serveWebSocketTunnel h env record) fun _ => Gated traceID := by
  have hcovers : record.skipPostPersistence = false → Covers [] puts := fun hskip => by
    have := hr.requestBody hskip
    constructor <;> simp_all
  have hfailed : Ensures (Progress traceID [] puts) (do httpError 502; recordWebSocketTrace h env record 502 0)
      fun _ => Gated traceID :=
    Ensures.bind (httpError_progress 502) fun _ => recordWebSocketTrace_gated h env hr.traceID (by simp) hcovers
  unfold serveWebSocketTunnel
  split
  · exact hfailed
  · cases env.handshake with
    | error err => exact hfailed
    | ok resp => exact serveHandshake_gated h env hstore hr

theorem serveUpstream_gated (hr : FromRequest traceID puts record) :
    Ensures (Progress traceID [] puts) (serveUpstream h env record) fun _ => Gated traceID := by
  unfold serveUpstream
  cases env.newUpstreamRequest with
  | some err => exact .of_returns (httpError_progress 502) fun _ _ hp => hp.gated (by simp)
  | none =>
    cases env.roundTrip with
    | error err =>
      refine Ensures.bind (insertTrace_progress h env hr.traceID (by simp) fun hskip => ?_) fun _ =>
        .of_returns (httpError_gated 502) fun _ _ hg => hg
      have := hr.requestBody hskip
      constructor <;> simp_all
    | ok resp =>
      refine Ensures.bind (note_progress _) fun _ => ?_
      split
      · exact serveStreamingResponse_gated h env hstore ⟨hr.traceID, hr.requestBody⟩
      · exact serveBufferedResponse_gated h env hstore hr

theorem serveCaptured_gated (req : Request) (entry : Entry) (captured : CapturedRequest) :
    Ensures (Progress traceID [] []) (serveCaptured h env traceID req entry captured) fun _ => Gated traceID := by
  refine Ensures.bind (putEvidence_progress h env hstore (by simp) _ _) fun stored => ?_
  refine Ensures.bind (spoolFailed_progress h env _ _) fun _ => ?_
  refine Ensures.bind (putEvidence_progress h env hstore (by simp) _ _) fun headers => ?_
  refine Ensures.bind (spoolFailed_progress h env _ _) fun _ => ?_
  dsimp only
  split
  · exact serveWebSocketTunnel_gated h env hstore ⟨rfl, fun hskip => by simp_all⟩
  · exact serveUpstream_gated h env hstore ⟨rfl, fun hskip => by simp_all⟩

theorem serveHTTP_gated (req : Request) :
    Ensures (Progress traceID [] []) (serveHTTP h env traceID req) fun _ => Gated traceID := by
  have hfail : ∀ status, Ensures (Progress traceID [] []) (httpError status) fun _ => Gated traceID := fun status =>
    .of_returns (httpError_progress status) fun _ _ hp => hp.gated (by simp)
  unfold serveHTTP
  split
  · exact hfail 404
  · split
    · exact hfail 413
    · exact hfail 400
    · split
      · exact hfail 500
      · exact serveCaptured_gated h env hstore req _ _

end

/-! ## The job of a request -/

namespace Event

def isPublish : Event → Bool
  | publishTraceCaptured .. => true
  | _ => false

theorem isPublish_eq_false (h : ¬ e.IsJob) : e.isPublish = false := by
  cases e <;> first | rfl | exact absurd trivial h

end Event

theorem Gated.countP_isPublish_le (h : Gated traceID log) : log.countP Event.isPublish ≤ 1 := by
  have hnone : ∀ events : List Event, (∀ e ∈ events, e.isPublish = false) → events.countP Event.isPublish = 0 :=
    fun events hevents => List.countP_eq_zero.2 fun e he => by simp [hevents e he]
  rcases h with h | ⟨before, input, result, after, rfl, -, -, -, hbefore, hafter⟩
  · rw [hnone log fun e he => Event.isPublish_eq_false (h e he)]
    exact Nat.zero_le 1
  · have hb := hnone before fun e he => Event.isPublish_eq_false (hbefore e he).1
    have ha := hnone after fun e he => by
      obtain ⟨status, rfl⟩ | ⟨enqueuedAt, error, -, rfl⟩ := hafter e he <;> rfl
    simp [List.countP_append, List.countP_cons, hb, ha, Event.isPublish]

theorem Gated.before_publish (h : Gated traceID log) {before after : List Event}
    {result : Except Err Int} (hlog : log = before ++ .publishTraceCaptured input result :: after) :
    input.traceID = traceID ∧ Captured traceID before ∧ (∃ trace, .insertTrace trace none ∈ before) ∧
      (∀ e ∈ log, ¬ e.IsCapture → e.Succeeded) ∧
      ∀ e ∈ after, (∃ status, e = .respond status) ∨ ∃ enqueuedAt error,
        result = .ok enqueuedAt ∧ e = .markTraceCoreQueued traceID enqueuedAt error := by
  have hmem : Event.publishTraceCaptured input result ∈ log := by simp [hlog]
  rcases h with h | ⟨before', input', result', after', hlog', hid, hcap, htrace, hbefore, hafter⟩
  · exact absurd trivial (h _ hmem)
  have hnot : Event.publishTraceCaptured input result ∉ before' := fun hin => (hbefore _ hin).1 trivial
  have hnot' : Event.publishTraceCaptured input result ∉ after' := fun hin => by
    obtain ⟨status, hr⟩ | ⟨enqueuedAt, error, -, hr⟩ := hafter _ hin <;> cases hr
  obtain ⟨rfl, hpublish, rfl⟩ := (List.append_cons_inj_of_notMem hnot hnot').1 (hlog'.symm.trans hlog)
  obtain ⟨rfl, rfl⟩ := Event.publishTraceCaptured.inj hpublish
  refine ⟨hid, hcap, htrace, fun e he hnc => ?_, hafter⟩
  rw [hlog] at he
  rcases List.mem_append.1 he with he | he
  · exact (hbefore e he).2 hnc
  rcases List.mem_cons.1 he with rfl | he
  · trivial
  · obtain ⟨status, rfl⟩ | ⟨enqueuedAt, error, -, rfl⟩ := hafter e he <;> trivial

theorem Gated.before_mark (h : Gated traceID log) {before after : List Event} {id : String} {enqueuedAt : Int}
    {error : Option Err} (hlog : log = before ++ .markTraceCoreQueued id enqueuedAt error :: after) :
    ∃ input, input.traceID = id ∧ .publishTraceCaptured input (.ok enqueuedAt) ∈ before := by
  have hmem : Event.markTraceCoreQueued id enqueuedAt error ∈ log := by simp [hlog]
  rcases h with h | ⟨before', input, result, after', hlog', hid, -, -, hbefore, hafter⟩
  · exact absurd trivial (h _ hmem)
  have hnot : Event.markTraceCoreQueued id enqueuedAt error ∉ before' := fun hin => (hbefore _ hin).1 trivial
  rcases List.append_eq_append_iff.1 (hlog'.symm.trans hlog) with ⟨between, rfl, hrest⟩ | ⟨between, rfl, hrest⟩
  · cases between with
    | nil => cases hrest
    | cons e between =>
      obtain ⟨rfl, rfl⟩ := List.cons.inj hrest
      obtain ⟨status, hr⟩ | ⟨enqueuedAt, error, rfl, hr⟩ := hafter _ (List.mem_append_right _ List.mem_cons_self)
      · cases hr
      · obtain ⟨rfl, rfl, rfl⟩ := Event.markTraceCoreQueued.inj hr
        exact ⟨input, hid, by simp⟩
  · cases between with
    | nil => cases hrest
    | cons e between =>
      obtain ⟨rfl, -⟩ := List.cons.inj hrest
      exact absurd (List.mem_append_right _ List.mem_cons_self) hnot

/-- The job of a request is published at most once, and only when the trace, its evidence and its parts are all
recorded and stored; and it is marked as queued only after it has been. -/
theorem publish_gated (h : Handler) (env : Environment) (traceID : String) (req : Request) (log : List Event)
    (hlog : log = (outcome (serveHTTP h env traceID req) []).2) (hstore : h.evidenceStore) :
    log.countP Event.isPublish ≤ 1 ∧
    (∀ before input result after, log = before ++ .publishTraceCaptured input result :: after →
      input.traceID = traceID ∧
      (∃ trace, .insertTrace trace none ∈ before) ∧
      (∀ trace error, .insertTrace trace error ∈ log → error = none) ∧
      (∀ object error, .insertRawEvidence object error ∈ log → error = none) ∧
      (∀ request result number, .put request result ∈ log → request.objectType = .multipartPart number →
        ∃ object, result = .ok object) ∧
      Captured traceID before ∧
      ∀ e ∈ after, (∃ status, e = .respond status) ∨ ∃ enqueuedAt error,
        result = .ok enqueuedAt ∧ e = .markTraceCoreQueued traceID enqueuedAt error) ∧
    ∀ before id enqueuedAt error after, log = before ++ .markTraceCoreQueued id enqueuedAt error :: after →
      ∃ input, input.traceID = id ∧ .publishTraceCaptured input (.ok enqueuedAt) ∈ before := by
  have hgated : Gated traceID log := hlog ▸ serveHTTP_gated h env hstore req [] ⟨by simp, by simp⟩
  refine ⟨hgated.countP_isPublish_le, fun before input result after hsplit => ?_, fun _ _ _ _ _ => hgated.before_mark⟩
  obtain ⟨hid, hcap, htrace, hok, hafter⟩ := hgated.before_publish hsplit
  refine ⟨hid, htrace, fun trace error hin => ?_, fun object error hin => ?_, fun request result number hin hpart => ?_,
    hcap, hafter⟩
  · exact hok _ hin id
  · exact hok _ hin id
  · exact hok _ hin fun hc => hc number hpart

def chatEntry : Entry where
  pathPattern := "/v1/chat/completions"
  protocolFamily := .openaiChat
  bodyKind := .json
  captureMode := .rawAndNormalized
  unsupportedAlertCode := ""

def chatHandler : Handler where
  registry := fun _ path => if path = chatEntry.pathPattern then some chatEntry else none
  evidenceStore := true
  traceRepo := true
  jobPublisher := true
  coverageEmitter := true
  spool := true
  auditSecret := List.replicate 32 0
  maxRequestBodyBytes := 0

def chatRequest : Request where
  method := "POST"
  path := "/v1/chat/completions"
  header := []
  contentType := "application/json"
  body := none
  parts := none
  hasAuth := true
  upgrade := false

/-- Every call succeeds, the upstream answers with `resp`, and the client takes chunks of `size` bytes. -/
def faultless (unmarshal : Bytes → Option Json) (resp : UpstreamResponse) (size : Nat) : Environment where
  unmarshal := unmarshal
  redactAuditMessage := id
  put := fun _ request => .ok { objectRef := request.traceID, createdAt := some 0 }
  writeSpool := fun _ _ => none
  insertTrace := fun _ _ => none
  insertRawEvidence := fun _ _ => none
  emitCoverageAlert := fun _ _ => none
  publishTraceCaptured := fun _ _ => .ok 1
  markTraceCoreQueued := fun _ _ _ => none
  newUpstreamRequest := none
  roundTrip := .ok resp
  writers := { client := fun _ => ⟨size, none⟩, capture := fun _ => ⟨size, none⟩ }
  newWebSocketUpstreamRequest := none
  dialUpstream := none
  handshake := .ok resp
  hijacker := true
  hijack := none
  writeHandshake := none
  frames := []
  redactWebSocketLog := id

def emptyResponse : UpstreamResponse where
  statusCode := 200
  header := []
  contentType := "application/json"
  body := { chunks := [] }

def publishedLog : List Event :=
  (outcome (serveHTTP chatHandler (faultless (fun _ => none) emptyResponse 0) "t" chatRequest) []).2

/-- A request whose job is published, after ten other calls. -/
theorem publish_gated_emptyResponse :
    ∃ input result after, publishedLog = publishedLog.take 10 ++ .publishTraceCaptured input result :: after ∧
      input.traceID = "t" ∧ Captured "t" (publishedLog.take 10) := by
  obtain ⟨-, hpublish, -⟩ := publish_gated chatHandler (faultless (fun _ => none) emptyResponse 0) "t" chatRequest
    publishedLog rfl rfl
  obtain ⟨hid, -, -, -, -, hcap, -⟩ := hpublish (publishedLog.take 10) _ _ [_, _] rfl
  exact ⟨_, _, [_, _], rfl, hid, hcap⟩

end AuditGateway.Gateway
