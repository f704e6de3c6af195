import AuditGateway.Framework.Effects
import AuditGateway.Gateway.Stream

/-!
# The proxy

`Handler.ServeHTTP` of `proxy.go` with all its ways to serve a request: buffered and streamed
responses, WebSocket tunnels, and the errors in between. The handler is a computation
that records every call it makes and how it went (`Event`), and that may panic.

What the calls answer is up to the `Environment`. The stores, the trace repository, the
coverage emitter and the publisher may answer differently each time, so their answers
depend on all that has happened before. Times, the caller's identity and address and
the reports to `AuditError` are left out.
-/

namespace AuditGateway.Gateway

open AuditGateway.Framework AuditGateway.Go

/-! ## Requests and responses -/

/-- A header, with its canonical names. -/
abbrev Header := List (String × List String)

structure MultipartPart where
  filename : String
  contentType : String
  data : Bytes

/-- A request. Its body is what reading it gives, up to one byte more than the limit. For a multipart request,
`parts` is what `captureMultipartParts` returns of it; `upgrade` is `isWebSocketUpgrade`, `hasAuth` whether
`authkeys.Extract` finds a key. -/
structure Request where
  method : String
  path : String
  header : Header
  contentType : String
  body : Option (Except Err Bytes)
  parts : Option (Except Err (List MultipartPart))
  hasAuth : Bool
  upgrade : Bool

structure UpstreamResponse where
  statusCode : Int
  header : Header
  contentType : String
  body : Body

/-- `isStreamingResponse`. -/
def UpstreamResponse.isStreaming (resp : UpstreamResponse) : Bool :=
  (afterFirst "text/event-stream".toList (resp.contentType.toList.map Char.toLower)).isSome

inductive CaptureMode
  | rawAndNormalized
  | rawAndMinimal
  | rawOnly
deriving DecidableEq, Repr

inductive BodyKind
  | json
  | multipart
  | multipartOrJson
  | jsonOrMultipart
  | websocket
  | none
deriving DecidableEq, Repr

/-- A route. -/
structure Entry where
  pathPattern : String
  protocolFamily : ProtocolFamily
  bodyKind : BodyKind
  captureMode : CaptureMode
  unsupportedAlertCode : String

structure CapturedRequest where
  bodyBytes : Bytes := []
  contentType : String := ""
  sizeBytes : Nat := 0

inductive CaptureError
  | tooLarge
  | unreadable (err : Err)

def defaultMaxRequestBodyBytes : Int := 32 * 2 ^ 20

def captureRequestBody (req : Request) (maxBytes : Int) : Except CaptureError CapturedRequest :=
  let maxBytes := if maxBytes ≤ 0 then defaultMaxRequestBodyBytes else maxBytes
  match req.body with
  | none => .ok {}
  | some (.error err) => .error (.unreadable err)
  | some (.ok body) =>
    if maxBytes < body.length then .error .tooLarge
    else .ok { bodyBytes := body, contentType := req.contentType, sizeBytes := body.length }

/-! ## Evidence, trace rows and jobs -/

/-- The objects of a trace, as the store names them. -/
inductive ObjectType
  | requestBody
  | requestHeaders
  | multipartPart (number : Nat)
  | responseBody
  | responseHeaders
  | websocketLog
deriving DecidableEq, Repr

/-- What is stored: bytes, the JSON of a header, or an assembled document. -/
inductive Content
  | bytes (data : Bytes)
  | headers (header : Header)
  | document (doc : Json)

structure PutRequest where
  traceID : String
  objectType : ObjectType
  contentType : String
  content : Content

/-- An object of the store; `createdAt` is `none` for the zero time. -/
structure Object where
  objectRef : String := ""
  storageBackend : String := ""
  contentType : String := ""
  sizeBytes : Int := 0
  sha256 : String := ""
  createdAt : Option Int := none

/-- The types of `raw_evidence_objects`: all parts have the same. -/
inductive EvidenceType
  | requestBody
  | requestHeaders
  | multipartPart
  | responseBody
  | responseHeaders
  | websocketLog
deriving DecidableEq, Repr

structure RawEvidenceObject where
  traceID : String
  objectType : EvidenceType
  object : Object
  originalFilename : String := ""

inductive RouteSupportLevel
  | deepNormalized
  | rawMinimal
  | unsupported
deriving DecidableEq, Repr

def routeSupportLevel : CaptureMode → RouteSupportLevel
  | .rawAndNormalized => .deepNormalized
  | .rawAndMinimal => .rawMinimal
  | .rawOnly => .unsupported

structure Trace where
  traceID : String
  method : String
  path : String
  entry : Entry
  routeSupportLevel : RouteSupportLevel
  statusCode : Int
  upstreamStatusCode : Int
  stream : Bool
  requestBodySize : Nat
  responseBodySize : Nat
  requestBodySHA256 : String
  responseBodySHA256 : String
  requestRawRef : String
  requestHeadersRef : String
  responseRawRef : String
  responseHeadersRef : String
  modelRequested : String
  modelUpstream : String
  usage : MinimalUsage
  errorType : String
  errorMessageRedacted : String

structure TraceCapturedInput where
  traceID : String
  entry : Entry
  statusCode : Int
  upstreamStatusCode : Int
  stream : Bool
  requestBodySize : Nat
  responseBodySize : Nat
  requestRawRef : String
  requestHeadersRef : String
  responseRawRef : String
  responseHeadersRef : String
  requestContentType : String
  responseContentType : String
  modelRequested : String
  usage : MinimalUsage

/-- The alert of `alerts.KnownRawFirst`. -/
structure CoverageAlert where
  method : String
  routePattern : String
  rawPath : String
  protocolFamily : ProtocolFamily
  sampleTraceID : String

structure SpoolEnvelope where
  traceID : String
  method : String
  path : String
  reason : String
  requestSize : Nat

/-! ## What happens while a request is served -/

/-- A call and its answer, or what came of the connections. -/
inductive Event
  | put (request : PutRequest) (result : Except Err Object)
  | writeSpool (envelope : SpoolEnvelope) (error : Option Err)
  /-- The upstream's response, through the client or at the start of a tunnel. -/
  | received (tunnel : Bool) (response : UpstreamResponse)
  /-- The stream has been copied. -/
  | copied (captureErr : Option Err)
  /-- A tunnel has ended, with what it has logged. -/
  | tunnelled (log : Bytes)
  | insertTrace (trace : Trace) (error : Option Err)
  | insertRawEvidence (object : RawEvidenceObject) (error : Option Err)
  | emitCoverageAlert (alert : CoverageAlert) (error : Option Err)
  | publishTraceCaptured (input : TraceCapturedInput) (result : Except Err Int)
  | markTraceCoreQueued (traceID : String) (enqueuedAt : Int) (error : Option Err)
  | respond (status : Int)

/-! ## The log of a tunnel -/

/-- The limit of `newBoundedWebSocketLog`. -/
def logLimit (limit : Int) : Nat := if limit ≤ 0 then 2 ^ 20 else limit.toNat

/-- The line for a direction and its data. -/
def logLine (x : Bytes × Bytes) : Bytes := x.1 ++ [32] ++ x.2 ++ [10]

/-- `boundedWebSocketLog.write`. -/
def writeLog (limit : Nat) (buf : Bytes) (x : Bytes × Bytes) : Bytes :=
  if limit ≤ buf.length then buf
  else
    let line := logLine x
    let remaining := limit - buf.length
    buf ++ if remaining < line.length then line.take remaining else line

/-- In whatever order the two directions write, the log is what they wrote, up to its limit. -/
theorem websocket_log_bounded (limit : Int) (writes : List (Bytes × Bytes)) :
    writes.foldl (writeLog (logLimit limit)) [] = (writes.flatMap logLine).take (logLimit limit) := by
  induction writes using List.reverseRecOn with
  | nil => simp
  | append_singleton writes x ih =>
    have htake (n : Nat) (l : Bytes) : (if n < l.length then l.take n else l) = l.take n :=
      ite_eq_left_iff.2 fun h => (List.take_of_length_le (Nat.not_lt.1 h)).symm
    rw [List.foldl_concat, ih, List.flatMap_append, List.take_append, writeLog]
    dsimp only
    rw [htake, List.length_take, List.flatMap_singleton]
    split
    · rw [Nat.sub_eq_zero_of_le (by omega), List.take_zero, List.append_nil]
    · rw [Nat.min_eq_right (by omega)]

/-! ## The handler -/

/-- The answers of everything that the handler calls. -/
structure Environment where
  unmarshal : Bytes → Option Json
  redactAuditMessage : String → String
  put : List Event → PutRequest → Except Err Object
  writeSpool : List Event → SpoolEnvelope → Option Err
  insertTrace : List Event → Trace → Option Err
  insertRawEvidence : List Event → RawEvidenceObject → Option Err
  emitCoverageAlert : List Event → CoverageAlert → Option Err
  publishTraceCaptured : List Event → TraceCapturedInput → Except Err Int
  markTraceCoreQueued : List Event → String → Int → Option Err
  /-- The error of `newUpstreamRequest`. -/
  newUpstreamRequest : Option Err
  /-- What `client().Do` returns. -/
  roundTrip : Except Err UpstreamResponse
  writers : Writers
  newWebSocketUpstreamRequest : Option Err
  dialUpstream : Option Err
  handshake : Except Err UpstreamResponse
  /-- Whether the client's connection can be taken over, and the error of doing so. -/
  hijacker : Bool
  hijack : Option Err
  /-- The error of passing the handshake on to the client. -/
  writeHandshake : Option Err
  /-- What the two directions of a tunnel write to its log, in the order of the writes. -/
  frames : List (Bytes × Bytes)
  redactWebSocketLog : Bytes → Bytes

/-- `Bytes` of the log of a tunnel when both directions are done. -/
def Environment.frameLog (env : Environment) : Bytes :=
  (env.redactWebSocketLog (env.frames.foldl (writeLog (logLimit (2 ^ 20))) [])).take (logLimit (2 ^ 20))

/-- The configuration; a component that may be `nil` is given by whether it is there. -/
structure Handler where
  registry : String → String → Option Entry
  evidenceStore : Bool
  traceRepo : Bool
  jobPublisher : Bool
  coverageEmitter : Bool
  spool : Bool
  auditSecret : Bytes
  maxRequestBodyBytes : Int

abbrev Serve := Effectful Panic (List Event)

/-- A call: the answer depends on what has happened so far. -/
def call {ρ : Type} (answer : List Event → ρ) (event : ρ → Event) : Serve ρ := do
  let log ← get
  modify fun log => log ++ [event (answer log)]
  return answer log

def note (event : Event) : Serve Unit := modify fun log => log ++ [event]

/-- `http.Error`. -/
def httpError (status : Int) : Serve Unit := note (.respond status)

/-- `w.WriteHeader`, which accepts codes of three digits. -/
def writeHeader (code : Int) : Serve Unit :=
  if 100 ≤ code ∧ code ≤ 999 then note (.respond code) else throw (.invalidWriteHeaderCode code)

/-! ## Recording a trace -/

structure TraceRecord where
  traceID : String
  req : Request
  entry : Entry
  statusCode : Int
  upstreamCode : Int
  requestObject : Object
  responseObject : Object := {}
  requestHeadersObject : Object
  responseHeadersObject : Object := {}
  websocketLogObject : Object := {}
  multipartParts : List MultipartPart
  requestContentType : String
  responseContentType : String := ""
  modelRequested : String
  modelUpstream : String := ""
  errorType : String
  errorMessage : String
  usage : MinimalUsage := {}
  requestSize : Nat
  responseSize : Nat := 0
  stream : Bool := false
  skipPostPersistence : Bool

def TraceRecord.trace (env : Environment) (record : TraceRecord) : Trace where
  traceID := record.traceID
  method := record.req.method
  path := record.req.path
  entry := record.entry
  routeSupportLevel := routeSupportLevel record.entry.captureMode
  statusCode := record.statusCode
  upstreamStatusCode := record.upstreamCode
  stream := record.stream
  requestBodySize := record.requestSize
  responseBodySize := record.responseSize
  requestBodySHA256 := record.requestObject.sha256
  responseBodySHA256 := record.responseObject.sha256
  requestRawRef := record.requestObject.objectRef
  requestHeadersRef := record.requestHeadersObject.objectRef
  responseRawRef := record.responseObject.objectRef
  responseHeadersRef := record.responseHeadersObject.objectRef
  modelRequested := record.modelRequested
  modelUpstream := record.modelUpstream
  usage := record.usage
  errorType := record.errorType
  errorMessageRedacted := env.redactAuditMessage record.errorMessage

def TraceRecord.input (record : TraceRecord) : TraceCapturedInput where
  traceID := record.traceID
  entry := record.entry
  statusCode := record.statusCode
  upstreamStatusCode := record.upstreamCode
  stream := record.stream
  requestBodySize := record.requestSize
  responseBodySize := record.responseSize
  requestRawRef := record.requestObject.objectRef
  requestHeadersRef := record.requestHeadersObject.objectRef
  responseRawRef := record.responseObject.objectRef
  responseHeadersRef := record.responseHeadersObject.objectRef
  requestContentType := record.requestContentType
  responseContentType := record.responseContentType
  modelRequested := record.modelRequested
  usage := record.usage

def TraceRecord.alert (record : TraceRecord) : CoverageAlert where
  method := record.req.method
  routePattern := record.entry.pathPattern
  rawPath := record.req.path
  protocolFamily := record.entry.protocolFamily
  sampleTraceID := record.traceID

def ignoredCoveragePaths : List String := ["/favicon.ico", "/robots.txt"]

section

variable (h : Handler) (env : Environment)

def putEvidence (traceID : String) (objectType : ObjectType) (contentType : String) (content : Content) :
    Serve (Except Err Object) :=
  let request : PutRequest := { traceID, objectType, contentType, content }
  if h.evidenceStore then call (env.put · request) (.put request) else return .ok {}

def putHeaderEvidence (traceID : String) (objectType : ObjectType) (header : Header) : Serve (Except Err Object) :=
  putEvidence h env traceID objectType "application/json" (.headers header)

def insertRawEvidence (object : RawEvidenceObject) : Serve (List Err) := do
  let error ← call (env.insertRawEvidence · object) (.insertRawEvidence object)
  return error.toList

def insertEvidenceObject (traceID : String) (objectType : EvidenceType) (object : Object) : Serve (List Err) :=
  if object.createdAt = none then return []
  else insertRawEvidence env { traceID, objectType, object }

/-- An object that is inserted if it has a ref. -/
def insertReferenced (traceID : String) (objectType : EvidenceType) (object : Object) : Serve (List Err) :=
  if object.objectRef = "" then return [] else insertEvidenceObject env traceID objectType object

def insertPart (traceID : String) (number : Nat) (part : MultipartPart) : Serve (List Err) := do
  match ← putEvidence h env traceID (.multipartPart number) part.contentType (.bytes part.data) with
  | .error err => return [err]
  | .ok object =>
    if object.createdAt = none ∨ object.objectRef = "" then return []
    else
      insertRawEvidence env
        { traceID, objectType := .multipartPart, object, originalFilename := part.filename }

def insertParts (traceID : String) : (number : Nat) → List MultipartPart → Serve (List Err)
  | _, [] => return []
  | number, part :: parts => do
    let errs ← insertPart h env traceID number part
    return errs ++ (← insertParts traceID (number + 1) parts)

def emitCoverageAlert (record : TraceRecord) : Serve (List Err) := do
  if h.coverageEmitter ∧ record.req.path ∉ ignoredCoveragePaths ∧
      record.entry.unsupportedAlertCode = "known_route_raw_first" then
    let error ← call (env.emitCoverageAlert · record.alert) (.emitCoverageAlert record.alert)
    return error.toList
  else return []

/-- The rows of `raw_evidence_objects`. -/
def insertEvidence (record : TraceRecord) : Serve (List Err) := do
  let body ← insertEvidenceObject env record.traceID .requestBody record.requestObject
  let headers ← insertReferenced env record.traceID .requestHeaders record.requestHeadersObject
  let parts ← insertParts h env record.traceID 1 record.multipartParts
  let responseBody ← insertReferenced env record.traceID .responseBody record.responseObject
  let responseHeaders ← insertReferenced env record.traceID .responseHeaders record.responseHeadersObject
  let websocketLog ← insertReferenced env record.traceID .websocketLog record.websocketLogObject
  return body ++ headers ++ parts ++ responseBody ++ responseHeaders ++ websocketLog

/-- The alert and the job, once the rows are there. -/
def publish (record : TraceRecord) : Serve (List Err) := do
  let errs ← emitCoverageAlert h env record
  if h.jobPublisher then
    match ← call (env.publishTraceCaptured · record.input) (.publishTraceCaptured record.input) with
    | .error err => return errs ++ [err]
    | .ok enqueuedAt =>
      let error ← call (env.markTraceCoreQueued · record.traceID enqueuedAt)
        (.markTraceCoreQueued record.traceID enqueuedAt)
      return errs ++ error.toList
  else return errs

def insertTrace (record : TraceRecord) : Serve (List Err) := do
  if h.traceRepo then
    match ← call (env.insertTrace · (record.trace env)) (.insertTrace (record.trace env)) with
    | some err => return [err]
    | none =>
      let errs ← insertEvidence h env record
      if errs ≠ [] then return errs
      else if record.skipPostPersistence then return []
      else publish h env record
  else return []

/-! ## Serving a request -/

/-- The object of a call that has stored one, else the zero value. -/
def objectOf : Except Err Object → Object
  | .ok object => object
  | .error _ => {}

def failed : Except Err Object → Bool
  | .ok _ => false
  | .error _ => true

def mergeTraceErrorType (primary secondary : String) : String :=
  if primary = "" then secondary else primary

def mergeTraceErrorMessage (primary secondary : String) : String :=
  if primary = "" then secondary else if secondary = "" then primary else primary ++ "; " ++ secondary

/-- An object of the request that could not be stored is spooled. -/
def spoolFailed (stored : Except Err Object) (envelope : SpoolEnvelope) : Serve Unit :=
  if failed stored ∧ h.spool then do
    let _ ← call (env.writeSpool · envelope) (.writeSpool envelope)
  else return

/-- The rest of `serveStreamingResponse`, with the stream copied. -/
def storeStream (record : TraceRecord) (resp : UpstreamResponse) (copy : Copy) : Serve (Except Err Object) := do
  if h.evidenceStore then
    let assembled ← MonadExcept.ofExcept copy.extractor.ext.assembleSSE
    match assembled with
    | some doc => putEvidence h env record.traceID .responseBody "application/json" (.document doc)
    | none => putEvidence h env record.traceID .responseBody resp.contentType (.bytes copy.captured)
  else return .ok {}

def serveStreamingResponse (resp : UpstreamResponse) (record : TraceRecord) : Serve Unit := do
  let headers ← putHeaderEvidence h env record.traceID .responseHeaders resp.header
  writeHeader resp.statusCode
  let copy := (copyStream env.unmarshal env.writers resp.body
    { extractor := .new (extractorFor record.entry.protocolFamily), capturing := h.evidenceStore }).1
  note (.copied copy.captureErr)
  let stored ← storeStream h env record resp copy
  let _ ← insertTrace h env
    { record with
      skipPostPersistence := record.skipPostPersistence || failed headers || failed stored || copy.captureErr.isSome
      responseHeadersObject := objectOf headers
      responseContentType := resp.contentType
      responseObject := objectOf stored
      responseSize := copy.written
      usage := copy.extractor.ext.sseResult.1
      modelUpstream := copy.extractor.ext.sseResult.2 }

def serveBufferedResponse (resp : UpstreamResponse) (record : TraceRecord) : Serve Unit := do
  match resp.body.fault with
  | some err =>
    let headers ← putHeaderEvidence h env record.traceID .responseHeaders resp.header
    let _ ← insertTrace h env
      { record with
        statusCode := 502
        upstreamCode := resp.statusCode
        responseHeadersObject := objectOf headers
        responseContentType := resp.contentType
        skipPostPersistence := true
        errorType := mergeTraceErrorType record.errorType "upstream_response_read_error"
        errorMessage := mergeTraceErrorMessage record.errorMessage err }
    httpError 502
  | none =>
    let stored ← putEvidence h env record.traceID .responseBody resp.contentType (.bytes resp.body.all)
    let headers ← putHeaderEvidence h env record.traceID .responseHeaders resp.header
    let result := (extractorFor record.entry.protocolFamily).extractResponse (env.unmarshal resp.body.all)
    let _ ← insertTrace h env
      { record with
        statusCode := resp.statusCode
        upstreamCode := resp.statusCode
        responseObject := objectOf stored
        responseHeadersObject := objectOf headers
        responseContentType := resp.contentType
        modelUpstream := result.2
        usage := result.1
        responseSize := resp.body.all.length
        skipPostPersistence := record.skipPostPersistence || failed stored || failed headers }
    writeHeader resp.statusCode

def recordWebSocketTrace (record : TraceRecord) (statusCode upstreamCode : Int) : Serve Unit := do
  let _ ← insertTrace h env { record with statusCode, upstreamCode }

/-- The log of a tunnel that has ended. -/
def storeFrames (record : TraceRecord) : Serve TraceRecord := do
  note (.tunnelled env.frameLog)
  if env.frameLog = [] then return record
  else
    match ← putEvidence h env record.traceID .websocketLog "text/plain" (.bytes env.frameLog) with
    | .ok object => return { record with websocketLogObject := object }
    | .error _ => return { record with skipPostPersistence := true }

/-- A tunnel whose handshake has been answered. -/
def serveHandshake (resp : UpstreamResponse) (record : TraceRecord) : Serve Unit := do
  note (.received true resp)
  let headers ← putHeaderEvidence h env record.traceID .responseHeaders resp.header
  let record := { record with
    statusCode := resp.statusCode
    upstreamCode := resp.statusCode
    skipPostPersistence := record.skipPostPersistence || failed headers
    responseHeadersObject := objectOf headers
    responseContentType := resp.contentType }
  if ¬ env.hijacker then
    httpError 500
    recordWebSocketTrace h env record 500 resp.statusCode
  else if env.hijack.isSome then recordWebSocketTrace h env record 500 resp.statusCode
  else if env.writeHandshake.isSome then recordWebSocketTrace h env record 502 resp.statusCode
  else if resp.statusCode = 101 then
    let record ← storeFrames h env record
    recordWebSocketTrace h env record record.statusCode record.upstreamCode
  else recordWebSocketTrace h env record record.statusCode record.upstreamCode

def serveWebSocketTunnel (record : TraceRecord) : Serve Unit := do
  if env.newWebSocketUpstreamRequest.isSome ∨ env.dialUpstream.isSome then
    httpError 502
    recordWebSocketTrace h env record 502 0
  else
    match env.handshake with
    | .error _ =>
      httpError 502
      recordWebSocketTrace h env record 502 0
    | .ok resp => serveHandshake h env resp record

/-- A request for the upstream's HTTP API. -/
def serveUpstream (record : TraceRecord) : Serve Unit := do
  match env.newUpstreamRequest with
  | some _ => httpError 502
  | none =>
    match env.roundTrip with
    | .error err =>
      let _ ← insertTrace h env
        { record with
          statusCode := 502
          upstreamCode := 0
          errorType := mergeTraceErrorType record.errorType "upstream_request_error"
          errorMessage := mergeTraceErrorMessage record.errorMessage err }
      httpError 502
    | .ok resp =>
      note (.received false resp)
      if resp.isStreaming then
        serveStreamingResponse h env resp
          { record with statusCode := resp.statusCode, upstreamCode := resp.statusCode, stream := true }
      else serveBufferedResponse h env resp record

/-- `capture_degraded`, with the first error. -/
def degradedMessage : Except Err Object → Except Err Object → Option Err
  | .error err, _ => some err
  | .ok _, .error err => some err
  | .ok _, .ok _ => none

/-- A request that matches a route and has been read. -/
def serveCaptured (traceID : String) (req : Request) (entry : Entry) (captured : CapturedRequest) : Serve Unit := do
  let stored ← putEvidence h env traceID .requestBody captured.contentType (.bytes captured.bodyBytes)
  spoolFailed h env stored
    { traceID, method := req.method, path := req.path, reason := "request_body_evidence_failed"
      requestSize := captured.sizeBytes }
  let headers ← putHeaderEvidence h env traceID .requestHeaders req.header
  spoolFailed h env headers
    { traceID, method := req.method, path := req.path, reason := "request_header_evidence_failed"
      requestSize := captured.sizeBytes }
  let body := env.unmarshal captured.bodyBytes
  let model := (extractorFor entry.protocolFamily).extractRequest req.path body
  let record : TraceRecord :=
    { traceID, req, entry
      statusCode := 101
      upstreamCode := 101
      requestObject := objectOf stored
      requestHeadersObject := objectOf headers
      multipartParts := match req.parts with
        | some (.ok parts) => parts
        | _ => []
      requestContentType := captured.contentType
      modelRequested := if model = "" then extractRequestModel req.path body else model
      requestSize := captured.sizeBytes
      skipPostPersistence := failed stored
      errorType := if (degradedMessage stored headers).isSome then "capture_degraded" else ""
      errorMessage := (degradedMessage stored headers).getD "" }
  if entry.bodyKind = .websocket ∧ req.upgrade then serveWebSocketTunnel h env { record with stream := true }
  else serveUpstream h env record

/-- `ServeHTTP`. -/
def serveHTTP (traceID : String) (req : Request) : Serve Unit := do
  match h.registry req.method req.path with
  | none => httpError 404
  | some entry =>
    match captureRequestBody req h.maxRequestBodyBytes with
    | .error .tooLarge => httpError 413
    | .error (.unreadable _) => httpError 400
    | .ok captured =>
      if req.hasAuth ∧ h.auditSecret.length < 32 then httpError 500
      else serveCaptured h env traceID req entry captured

end

end AuditGateway.Gateway
