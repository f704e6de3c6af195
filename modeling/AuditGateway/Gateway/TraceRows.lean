import AuditGateway.Gateway.Proxy

/-!
# The trace row of a request

How serving a request ends, and what it has inserted by then. Of all calls only those count here
that insert a trace, or that store the body or the headers of the request (`notable`): all other
calls are `Quiet`, whatever they answer.
-/

namespace AuditGateway.Gateway

open AuditGateway.Framework AuditGateway.Framework.Effectful

/-! ## Notable events -/

/-- A trace is inserted, or the body or the headers of the request are stored. -/
def Event.isNotable : Event → Bool
  | insertTrace .. => true
  | put request _ => request.objectType = .requestBody || request.objectType = .requestHeaders
  | _ => false

def notable (log : List Event) : List Event := log.filter Event.isNotable

/-- From every log: the notable events that a computation adds, and how it ends. -/
def Ends {α : Type} (x : Serve α) (Q : Except Panic α → List Event → Prop) : Prop :=
  ∀ log, ∃ added, notable (outcome x log).2 = notable log ++ added ∧ Q (outcome x log).1 added

/-- It returns and adds nothing notable. -/
def Quiet {α : Type} (x : Serve α) : Prop :=
  Ends x fun r added => (∃ a, r = .ok a) ∧ added = []

section

variable {α β : Type} {x : Serve α} {f : α → Serve β} {Q Q' : Except Panic α → List Event → Prop}
  {R : Except Panic β → List Event → Prop}

theorem Ends.mono (h : Ends x Q) (hq : ∀ r added, Q r added → Q' r added) : Ends x Q' := by
  intro log
  obtain ⟨added, hlog, hr⟩ := h log
  exact ⟨added, hlog, hq _ _ hr⟩

theorem Ends.pure {a : α} (h : Q (.ok a) []) : Ends (Pure.pure a) Q :=
  fun log => ⟨[], by simp, h⟩

theorem Ends.throw {p : Panic} (h : Q (.error p) []) : Ends (MonadExcept.throw p) Q :=
  fun log => ⟨[], by simp, h⟩

theorem Ends.bind (hx : Ends x Q) (hok : ∀ a added, Q (.ok a) added → Ends (f a) fun r more => R r (added ++ more))
    (herror : ∀ p added, Q (.error p) added → R (.error p) added) : Ends (x >>= f) R := by
  intro log
  obtain ⟨added, hlog, hq⟩ := hx log
  rw [outcome_bind]
  cases hr : outcome x log with
  | mk r log' =>
    rw [hr] at hlog hq
    cases r with
    | error p => exact ⟨added, hlog, herror p added hq⟩
    | ok a =>
      obtain ⟨more, hmore, hr'⟩ := hok a added hq log'
      exact ⟨added ++ more, by rw [← List.append_assoc, ← hlog]; exact hmore, hr'⟩

theorem Quiet.bind (hx : Quiet x) (hf : ∀ a, Ends (f a) R) : Ends (x >>= f) R := by
  refine Ends.bind hx (fun a added hq => ?_) fun p added hq => ?_
  · rw [hq.2]
    exact (hf a).mono fun r more hr => hr
  · obtain ⟨⟨a, ha⟩, -⟩ := hq
    cases ha

theorem Quiet.pure (a : α) : Quiet (Pure.pure a : Serve α) := Ends.pure ⟨⟨a, rfl⟩, rfl⟩

end

theorem ends_call {ρ : Type} {answer : List Event → ρ} {event : ρ → Event} :
    Ends (call answer event) fun r added => ∃ a, r = .ok a ∧ added = notable [event a] :=
  fun log => ⟨_, List.filter_append _ _, answer log, rfl, rfl⟩

theorem quiet_call {ρ : Type} {answer : List Event → ρ} {event : ρ → Event}
    (h : ∀ r, (event r).isNotable = false) : Quiet (call answer event) :=
  ends_call.mono fun _ _ ⟨a, hr, hadded⟩ => ⟨⟨a, hr⟩, by simp [hadded, notable, h]⟩

theorem quiet_note {event : Event} (h : event.isNotable = false) : Quiet (note event) :=
  fun log => ⟨[], by simp [note, notable, h], ⟨⟨_, rfl⟩, rfl⟩⟩

/-! ## Quiet calls -/

section

variable (h : Handler) (env : Environment)

theorem putEvidence_quiet {traceID : String} {objectType : ObjectType} {contentType : String} {content : Content}
    (hbody : objectType ≠ .requestBody) (hheaders : objectType ≠ .requestHeaders) :
    Quiet (putEvidence h env traceID objectType contentType content) := by
  unfold putEvidence
  dsimp only
  split
  · exact quiet_call fun r => by simp [Event.isNotable, hbody, hheaders]
  · exact Quiet.pure _

theorem insertRawEvidence_quiet (object : RawEvidenceObject) : Quiet (insertRawEvidence env object) :=
  (quiet_call fun _ => rfl).bind fun _ => Quiet.pure _

theorem insertEvidenceObject_quiet (traceID : String) (objectType : EvidenceType) (object : Object) :
    Quiet (insertEvidenceObject env traceID objectType object) := by
  unfold insertEvidenceObject
  split
  · exact Quiet.pure _
  · exact insertRawEvidence_quiet env _

theorem insertReferenced_quiet (traceID : String) (objectType : EvidenceType) (object : Object) :
    Quiet (insertReferenced env traceID objectType object) := by
  unfold insertReferenced
  split
  · exact Quiet.pure _
  · exact insertEvidenceObject_quiet env _ _ _

theorem insertPart_quiet (traceID : String) (number : Nat) (part : MultipartPart) :
    Quiet (insertPart h env traceID number part) := by
  refine (putEvidence_quiet h env (by simp) (by simp)).bind fun stored => ?_
  split
  · exact Quiet.pure _
  · split
    · exact Quiet.pure _
    · exact insertRawEvidence_quiet env _

theorem insertParts_quiet (traceID : String) (number : Nat) (parts : List MultipartPart) :
    Quiet (insertParts h env traceID number parts) := by
  induction parts generalizing number with
  | nil => exact Quiet.pure _
  | cons part parts ih => exact (insertPart_quiet h env _ _ _).bind fun _ => (ih _).bind fun _ => Quiet.pure _

theorem insertEvidence_quiet (record : TraceRecord) : Quiet (insertEvidence h env record) :=
  (insertEvidenceObject_quiet env _ _ _).bind fun _ =>
  (insertReferenced_quiet env _ _ _).bind fun _ =>
  (insertParts_quiet h env _ _ _).bind fun _ =>
  (insertReferenced_quiet env _ _ _).bind fun _ =>
  (insertReferenced_quiet env _ _ _).bind fun _ =>
  (insertReferenced_quiet env _ _ _).bind fun _ => Quiet.pure _

theorem emitCoverageAlert_quiet (record : TraceRecord) : Quiet (emitCoverageAlert h env record) := by
  unfold emitCoverageAlert
  split
  · exact (quiet_call fun _ => rfl).bind fun _ => Quiet.pure _
  · exact Quiet.pure _

theorem publish_quiet (record : TraceRecord) : Quiet (publish h env record) := by
  refine (emitCoverageAlert_quiet h env record).bind fun errs => ?_
  split
  · refine (quiet_call fun _ => rfl).bind fun result => ?_
    split
    · exact Quiet.pure _
    · exact (quiet_call fun _ => rfl).bind fun _ => Quiet.pure _
  · exact Quiet.pure _

theorem outcome_spoolFailed (stored : Except Err Object) (envelope : SpoolEnvelope) (log : List Event) :
    ∃ log', outcome (spoolFailed h env stored envelope) log = (.ok (), log') ∧ notable log' = notable log ∧
      (failed stored = false → log' = log) := by
  unfold spoolFailed
  split
  · rename_i hfailed
    exact ⟨_, rfl, by simp [notable, Event.isNotable], fun hok => by simp [hfailed.1] at hok⟩
  · exact ⟨log, rfl, rfl, fun _ => rfl⟩

/-! ## How a request to the upstream ends -/

/-- The codes that `w.WriteHeader` accepts. -/
def ValidCode (code : Int) : Prop := 100 ≤ code ∧ code ≤ 999

instance (code : Int) : Decidable (ValidCode code) := inferInstanceAs (Decidable (_ ∧ _))

/-- The copy of a streamed response. -/
def streamCopy (family : ProtocolFamily) (resp : UpstreamResponse) : Copy × Option Err :=
  copyStream env.unmarshal env.writers resp.body
    { extractor := .new (extractorFor family), capturing := h.evidenceStore }

/-- The stream can be stored: there is no store, or what was streamed can be assembled. -/
def Assembles (family : ProtocolFamily) (resp : UpstreamResponse) : Prop :=
  h.evidenceStore → (streamCopy h env family resp).1.extractor.ext.assembleSSE.isOk

instance (family : ProtocolFamily) (resp : UpstreamResponse) : Decidable (Assembles h env family resp) :=
  inferInstanceAs (Decidable (_ → _))

/-- How serving a request through the upstream's HTTP API ends: whether it returns, and the error type of the trace
if one is inserted. `errorType` is the one the request comes with. -/
def ending (family : ProtocolFamily) (errorType : String) : Bool × Option String :=
  match env.newUpstreamRequest, env.roundTrip with
  | some _, _ => (true, none)
  | none, .error _ => (true, some (mergeTraceErrorType errorType "upstream_request_error"))
  | none, .ok resp =>
    if resp.isStreaming then
      if ValidCode resp.statusCode ∧ Assembles h env family resp then (true, some errorType) else (false, none)
    else if resp.body.fault.isSome then
      (true, some (mergeTraceErrorType errorType "upstream_response_read_error"))
    else (decide (ValidCode resp.statusCode), some errorType)

/-- One trace has been inserted. -/
def Recorded (T : Trace → Prop) (added : List Event) : Prop :=
  ∃ trace error, T trace ∧ added = [.insertTrace trace error]

/-- Serving returns or not, and inserts a trace with an error type or none. -/
def EndsAs (traceID : String) (ending : Bool × Option String) (r : Except Panic Unit) (added : List Event) : Prop :=
  r.isOk = ending.1 ∧
    match ending.2 with
    | none => added = []
    | some errorType => Recorded (fun trace => trace.traceID = traceID ∧ trace.errorType = errorType) added

/-- How serving goes on after the evidence of the request. -/
def EndsAfter (traceID : String) (req : Request) (entry : Entry) (errorType : String) (r : Except Panic Unit)
    (added : List Event) : Prop :=
  if entry.bodyKind = .websocket ∧ req.upgrade then r = .ok () ∧ Recorded (·.traceID = traceID) added
  else EndsAs traceID (ending h env entry.protocolFamily errorType) r added

/-- What the evidence store answers; without one there is nothing to store. -/
def storeAnswer (log : List Event) (request : PutRequest) : Except Err Object :=
  if h.evidenceStore then env.put log request else .ok {}

/-- The body or the headers of a request could not be stored. -/
def requestFailed (traceID : String) (req : Request) (captured : CapturedRequest) : Bool :=
  let body : PutRequest := ⟨traceID, .requestBody, captured.contentType, .bytes captured.bodyBytes⟩
  let stored := storeAnswer h env [] body
  failed stored ||
    failed (storeAnswer h env [.put body stored] ⟨traceID, .requestHeaders, "application/json", .headers req.header⟩)

/-- The error type that a request comes with. -/
def degradedType (failure : Bool) : String := if failure then "capture_degraded" else ""

/-! ## Recording -/

variable {h} (hrepo : h.traceRepo)

include hrepo

theorem insertTrace_ends (record : TraceRecord) :
    Ends (insertTrace h env record) fun r added => (∃ errs, r = .ok errs) ∧ Recorded (· = record.trace env) added := by
  unfold insertTrace
  rw [if_pos hrepo]
  refine ends_call.bind (fun error added hq => ?_) fun p added hq => by
    obtain ⟨a, ha, -⟩ := hq
    cases ha
  obtain ⟨a, ha, rfl⟩ := hq
  obtain rfl := Except.ok.inj ha
  have hrecorded : Recorded (· = record.trace env) (notable [.insertTrace (record.trace env) error] ++ []) :=
    ⟨_, error, rfl, rfl⟩
  split
  · exact Ends.pure ⟨⟨_, rfl⟩, hrecorded⟩
  · refine (insertEvidence_quiet h env record).bind fun errs => ?_
    split
    · exact Ends.pure ⟨⟨_, rfl⟩, hrecorded⟩
    · split
      · exact Ends.pure ⟨⟨_, rfl⟩, hrecorded⟩
      · exact (publish_quiet h env record).mono fun r added ⟨hr, hadded⟩ => ⟨hr, hadded ▸ hrecorded⟩

theorem insertTrace_bind {record : TraceRecord} {f : List Err → Serve Unit} {Q : Except Panic Unit → Prop}
    {T : Trace → Prop} (ht : T (record.trace env)) (hf : ∀ errs, Ends (f errs) fun r added => Q r ∧ added = []) :
    Ends (insertTrace h env record >>= f) fun r added => Q r ∧ Recorded T added := by
  refine (insertTrace_ends env hrepo record).bind (fun errs added hq => ?_) fun p added hq => by
    obtain ⟨⟨a, ha⟩, -⟩ := hq
    cases ha
  obtain ⟨-, trace, error, rfl, rfl⟩ := hq
  exact (hf errs).mono fun r more ⟨hr, hmore⟩ => ⟨hr, _, error, ht, by simp [hmore]⟩

theorem recordWebSocketTrace_ends {record : TraceRecord} {statusCode upstreamCode : Int} :
    Ends (recordWebSocketTrace h env record statusCode upstreamCode) fun r added =>
      r = .ok () ∧ Recorded (·.traceID = record.traceID) added :=
  insertTrace_bind env hrepo rfl fun _ => Ends.pure ⟨rfl, rfl⟩

theorem serveHandshake_ends (resp : UpstreamResponse) (record : TraceRecord) :
    Ends (serveHandshake h env resp record) fun r added =>
      r = .ok () ∧ Recorded (·.traceID = record.traceID) added := by
  refine (quiet_note rfl).bind fun _ => ?_
  refine (putEvidence_quiet h env (by simp) (by simp)).bind fun headers => ?_
  dsimp only
  split
  · exact (quiet_note rfl).bind fun _ => recordWebSocketTrace_ends env hrepo
  split
  · exact recordWebSocketTrace_ends env hrepo
  split
  · exact recordWebSocketTrace_ends env hrepo
  split
  · rw [storeFrames]
    simp only [bind_assoc]
    refine (quiet_note rfl).bind fun _ => ?_
    split
    · exact recordWebSocketTrace_ends env hrepo
    · rw [bind_assoc]
      refine (putEvidence_quiet h env (by simp) (by simp)).bind fun stored => ?_
      cases stored <;> exact recordWebSocketTrace_ends env hrepo
  · exact recordWebSocketTrace_ends env hrepo

theorem serveWebSocketTunnel_ends (record : TraceRecord) :
    Ends (serveWebSocketTunnel h env record) fun r added =>
      r = .ok () ∧ Recorded (·.traceID = record.traceID) added := by
  unfold serveWebSocketTunnel
  split
  · exact (quiet_note rfl).bind fun _ => recordWebSocketTrace_ends env hrepo
  · split
    · exact (quiet_note rfl).bind fun _ => recordWebSocketTrace_ends env hrepo
    · exact serveHandshake_ends env hrepo _ record

omit hrepo in
theorem writeHeader_ends (code : Int) :
    Ends (writeHeader code) fun r added => r.isOk = decide (ValidCode code) ∧ added = [] := by
  unfold writeHeader
  split
  · rename_i hcode
    refine (quiet_note rfl).mono fun r added ⟨⟨a, ha⟩, hadded⟩ => ⟨?_, hadded⟩
    rw [ha, decide_eq_true (p := ValidCode code) hcode]
    rfl
  · rename_i hcode
    refine Ends.throw ⟨?_, rfl⟩
    rw [decide_eq_false (p := ValidCode code) hcode]
    rfl

omit hrepo in
theorem storeStream_ends (record : TraceRecord) (resp : UpstreamResponse) (copy : Copy) :
    Ends (storeStream h env record resp copy) fun r added =>
      r.isOk = decide (h.evidenceStore → copy.extractor.ext.assembleSSE.isOk) ∧ added = [] := by
  have hput : ∀ {contentType content}, Ends (putEvidence h env record.traceID .responseBody contentType content)
      fun r added => r.isOk = true ∧ added = [] :=
    (putEvidence_quiet h env (by simp) (by simp)).mono fun r added ⟨⟨a, ha⟩, hadded⟩ => ⟨by rw [ha]; rfl, hadded⟩
  unfold storeStream
  split
  · rename_i hstore
    simp only [hstore, forall_const]
    cases copy.extractor.ext.assembleSSE with
    | error p => exact Ends.throw ⟨rfl, rfl⟩
    | ok assembled =>
      cases assembled with
      | none => exact hput
      | some doc => exact hput
  · rename_i hstore
    exact Ends.pure ⟨by simp [hstore]; rfl, rfl⟩

theorem serveStreamingResponse_ends (resp : UpstreamResponse) (record : TraceRecord) :
    Ends (serveStreamingResponse h env resp record)
      (EndsAs record.traceID (if ValidCode resp.statusCode ∧ Assembles h env record.entry.protocolFamily resp then
        (true, some record.errorType) else (false, none))) := by
  refine (putEvidence_quiet h env (by simp) (by simp)).bind fun headers => ?_
  refine (writeHeader_ends resp.statusCode).bind (fun _ added hq => ?_) fun p added hq => ?_
  · obtain ⟨hcode, rfl⟩ := hq
    have hcode : ValidCode resp.statusCode := of_decide_eq_true hcode.symm
    refine (quiet_note rfl).bind fun _ => ?_
    refine (storeStream_ends env record resp _).bind (fun stored added hq => ?_) fun p added hq => ?_
    · obtain ⟨hassembles, rfl⟩ := hq
      have hassembles : Assembles h env record.entry.protocolFamily resp := of_decide_eq_true hassembles.symm
      rw [if_pos ⟨hcode, hassembles⟩]
      exact insertTrace_bind env hrepo ⟨rfl, rfl⟩ fun _ => Ends.pure ⟨rfl, rfl⟩
    · obtain ⟨hassembles, rfl⟩ := hq
      have hnot : ¬ Assembles h env record.entry.protocolFamily resp := of_decide_eq_false hassembles.symm
      rw [if_neg fun hand => hnot hand.2]
      exact ⟨rfl, rfl⟩
  · obtain ⟨hcode, rfl⟩ := hq
    rw [if_neg fun hand => of_decide_eq_false hcode.symm hand.1]
    exact ⟨rfl, rfl⟩

theorem serveBufferedResponse_ends (resp : UpstreamResponse) (record : TraceRecord) :
    Ends (serveBufferedResponse h env resp record)
      (EndsAs record.traceID (if resp.body.fault.isSome then
        (true, some (mergeTraceErrorType record.errorType "upstream_response_read_error"))
        else (decide (ValidCode resp.statusCode), some record.errorType))) := by
  unfold serveBufferedResponse
  split
  · rename_i err hfault
    rw [hfault]
    refine (putEvidence_quiet h env (by simp) (by simp)).bind fun headers => ?_
    exact insertTrace_bind env hrepo ⟨rfl, rfl⟩ fun _ =>
      (quiet_note rfl).mono fun r added ⟨⟨a, ha⟩, hadded⟩ => ⟨by rw [ha]; rfl, hadded⟩
  · rename_i hfault
    rw [hfault]
    refine (putEvidence_quiet h env (by simp) (by simp)).bind fun stored => ?_
    refine (putEvidence_quiet h env (by simp) (by simp)).bind fun headers => ?_
    exact insertTrace_bind env hrepo ⟨rfl, rfl⟩ fun _ => writeHeader_ends resp.statusCode

theorem serveUpstream_ends (record : TraceRecord) :
    Ends (serveUpstream h env record)
      (EndsAs record.traceID (ending h env record.entry.protocolFamily record.errorType)) := by
  have hanswer : ∀ status, Ends (httpError status) fun r added => r.isOk = true ∧ added = [] := fun status =>
    (quiet_note rfl).mono fun r added ⟨⟨a, ha⟩, hadded⟩ => ⟨by rw [ha]; rfl, hadded⟩
  unfold serveUpstream ending
  cases env.newUpstreamRequest with
  | some err => exact hanswer 502
  | none =>
    cases env.roundTrip with
    | error err => exact insertTrace_bind env hrepo ⟨rfl, rfl⟩ fun _ => hanswer 502
    | ok resp =>
      refine (quiet_note rfl).bind fun _ => ?_
      dsimp only
      split
      · exact serveStreamingResponse_ends env hrepo resp _
      · exact serveBufferedResponse_ends env hrepo resp record

/-! ## A request that has been read -/

omit hrepo in
theorem outcome_putEvidence (traceID : String) (objectType : ObjectType) (contentType : String) (content : Content)
    (log : List Event) : outcome (putEvidence h env traceID objectType contentType content) log =
      (.ok (storeAnswer h env log { traceID, objectType, contentType, content }),
        if h.evidenceStore then log ++ [.put { traceID, objectType, contentType, content }
          (storeAnswer h env log { traceID, objectType, contentType, content })] else log) := by
  unfold putEvidence storeAnswer
  dsimp only
  split <;> rfl

theorem serveCaptured_ends (traceID : String) (req : Request) (entry : Entry) (captured : CapturedRequest) :
    ∃ before after, notable (outcome (serveCaptured h env traceID req entry captured) []).2 = before ++ after ∧
      (∀ e ∈ before, ∃ request result, e = .put request result) ∧
      EndsAfter h env traceID req entry (degradedType (requestFailed h env traceID req captured))
        (outcome (serveCaptured h env traceID req entry captured) []).1 after := by
  rw [serveCaptured, outcome_bind, outcome_putEvidence]
  generalize hstored : storeAnswer h env [] _ = stored
  dsimp only
  rw [outcome_bind]
  generalize hlog₁ : (if h.evidenceStore = true then _ else _ : List Event) = log₁
  obtain ⟨log₂, hlog₂, hnotable₂, hsame⟩ := outcome_spoolFailed h env stored
    { traceID, method := req.method, path := req.path, reason := "request_body_evidence_failed"
      requestSize := captured.sizeBytes } log₁
  rw [hlog₂]
  dsimp only
  rw [outcome_bind, putHeaderEvidence, outcome_putEvidence]
  generalize hheaders : storeAnswer h env log₂ _ = headers
  dsimp only
  rw [outcome_bind]
  generalize hlog₃ : (if h.evidenceStore = true then _ else _ : List Event) = log₃
  obtain ⟨log₄, hlog₄, hnotable₄, -⟩ := outcome_spoolFailed h env headers
    { traceID, method := req.method, path := req.path, reason := "request_header_evidence_failed"
      requestSize := captured.sizeBytes } log₃
  rw [hlog₄]
  have hputs : ∀ e ∈ notable log₄, ∃ request result, e = .put request result := by
    rw [hnotable₄, ← hlog₃]
    have hfirst : ∀ e ∈ notable log₂, ∃ request result, e = .put request result := by
      rw [hnotable₂, ← hlog₁]
      intro e he
      split at he
      · exact ⟨_, _, List.mem_singleton.1 (List.mem_of_mem_filter he)⟩
      · cases he
    intro e he
    split at he
    · rw [notable, List.filter_append] at he
      obtain he | he := List.mem_append.1 he
      · exact hfirst e he
      · exact ⟨_, _, List.mem_singleton.1 (List.mem_of_mem_filter he)⟩
    · exact hfirst e he
  -- The store sees the log only up to the second object, which matters if the first could be stored.
  have hfailed : requestFailed h env traceID req captured = (failed stored || failed headers) := by
    rw [requestFailed, hstored]
    cases hok : failed stored with
    | true => rfl
    | false =>
      rw [← hheaders, hsame hok, ← hlog₁]
      unfold storeAnswer
      split <;> rfl
  have htype : (if (degradedMessage stored headers).isSome then "capture_degraded" else "") =
      degradedType (requestFailed h env traceID req captured) := by
    rw [hfailed]
    cases stored <;> cases headers <;> rfl
  dsimp only
  rw [htype]
  split
  · rename_i htunnel
    obtain ⟨after, hafter, hr⟩ := serveWebSocketTunnel_ends env hrepo _ log₄
    exact ⟨_, after, hafter, hputs, by rwa [EndsAfter, if_pos htunnel]⟩
  · rename_i htunnel
    obtain ⟨after, hafter, hr⟩ := serveUpstream_ends env hrepo _ log₄
    exact ⟨_, after, hafter, hputs, by rwa [EndsAfter, if_neg htunnel]⟩

end

/-- A request that matches a route, whose body has been captured and whose secret is valid. -/
structure Accepted (h : Handler) (req : Request) (entry : Entry) (captured : CapturedRequest) : Prop where
  route : h.registry req.method req.path = some entry
  body : captureRequestBody req h.maxRequestBodyBytes = .ok captured
  secret : ¬ (req.hasAuth ∧ h.auditSecret.length < 32)

theorem Accepted.serveHTTP_eq {h : Handler} {req : Request} {entry : Entry} {captured : CapturedRequest}
    (ha : Accepted h req entry captured) (env : Environment) (traceID : String) :
    serveHTTP h env traceID req = serveCaptured h env traceID req entry captured := by
  simp only [serveHTTP, ha.route, ha.body, ha.secret, if_false]

end AuditGateway.Gateway
