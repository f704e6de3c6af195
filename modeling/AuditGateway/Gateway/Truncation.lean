import AuditGateway.Gateway.Completeness

/-!
# Truncated responses

A buffered response that cannot be read to its end gets the error type
`upstream_response_read_error`. For an event stream the error of the copy is only reported: the
trace keeps the error type that the request came with.

* `truncation_recorded_iff`: the traces of a response say that it was truncated if and only if it
  is not an event stream whose copy stopped early with the request's evidence stored.
-/

namespace AuditGateway.Gateway

open AuditGateway.Framework AuditGateway.Framework.Effectful

/-- What the loop has read of a stream: up to the chunk at which the client stops. -/
def readBytes (writers : Writers) : (writes : Nat) → List Bytes → Bytes
  | _, [] => []
  | writes, chunk :: rest =>
    if chunk = [] then readBytes writers writes rest
    else if (writers.client writes).err = none ∧ (writers.client writes).n = chunk.length then
      chunk ++ readBytes writers (writes + 1) rest
    else chunk

/-- The body of a response is read to its end, and that is the end of the upstream's body. -/
def CompletelyRead (env : Environment) (resp : UpstreamResponse) : Prop :=
  resp.body.fault = none ∧ (resp.isStreaming → readBytes env.writers 0 resp.body.reads = resp.body.all)

/-- A read of the body fails. In a stream the loop gets there if the client takes all chunks before. -/
def ReadFails (env : Environment) (resp : UpstreamResponse) : Prop :=
  resp.body.fault.isSome ∧
    (resp.isStreaming → (taken env.writers 0 resp.body.chunks).1 = resp.body.chunks.flatten)

/-- The traces of a log tell whether a response was truncated. -/
def TellsTruncation (env : Environment) (resp : UpstreamResponse) (log : List Event) : Prop :=
  ∀ trace error, .insertTrace trace error ∈ log →
    (ReadFails env resp → trace.errorType ≠ "") ∧ (trace.errorType = "" → CompletelyRead env resp)

/-! ## What the notable events say -/

theorem mem_notable {e : Event} {log : List Event} : e ∈ notable log ↔ e ∈ log ∧ e.isNotable :=
  List.mem_filter

theorem tellsTruncation_iff {env : Environment} {resp : UpstreamResponse} {log : List Event} :
    TellsTruncation env resp log ↔
      ∀ trace error, .insertTrace trace error ∈ notable log → trace.errorType = "" → CompletelyRead env resp := by
  refine forall₂_congr fun trace error => ?_
  have hmem : Event.insertTrace trace error ∈ notable log ↔ .insertTrace trace error ∈ log :=
    mem_notable.trans (and_iff_left rfl)
  rw [hmem]
  refine imp_congr_right fun _ => ⟨And.right, fun hempty => ⟨fun hfails htype => ?_, hempty⟩⟩
  have hnone := (hempty htype).1
  simp [ReadFails, hnone] at hfails

theorem tells_of_recorded {env : Environment} {resp : UpstreamResponse} {traceID errorType : String}
    {before after : List Event} (hputs : ∀ e ∈ before, ∃ request result, e = .put request result)
    (hafter : Recorded (fun trace => trace.traceID = traceID ∧ trace.errorType = errorType) after) :
    (∀ trace error, .insertTrace trace error ∈ before ++ after → trace.errorType = "" → CompletelyRead env resp) ↔
      (errorType = "" → CompletelyRead env resp) := by
  obtain ⟨trace, error, ⟨-, rfl⟩, rfl⟩ := hafter
  constructor
  · exact fun h => h trace error (by simp)
  · intro h trace' error' hmem
    rcases List.mem_append.1 hmem with hmem | hmem
    · obtain ⟨request, result, hput⟩ := hputs _ hmem
      cases hput
    · obtain ⟨rfl, -⟩ := Event.insertTrace.inj (List.mem_singleton.1 hmem)
      exact h

/-- The traces of a received response tell whether it was truncated, unless it is an event stream that was not read
completely, of which a trace is inserted, and the store has taken the body and the headers of the request. -/
theorem truncation_recorded_iff (h : Handler) (env : Environment) (traceID : String) (req : Request) (entry : Entry)
    (captured : CapturedRequest) (resp : UpstreamResponse) (ha : Accepted h req entry captured) (hrepo : h.traceRepo)
    (hhttp : ¬ (entry.bodyKind = .websocket ∧ req.upgrade)) (hnew : env.newUpstreamRequest = none)
    (hresp : env.roundTrip = .ok resp) :
    TellsTruncation env resp (outcome (serveHTTP h env traceID req) []).2 ↔
      (resp.isStreaming → ValidCode resp.statusCode →
        (h.evidenceStore → entry.protocolFamily.IsChat → Numbered (toolIndices (streamedPayloads env resp))) →
        CompletelyRead env resp ∨ requestFailed h env traceID req captured) := by
  rw [ha.serveHTTP_eq, tellsTruncation_iff, ← assembles_iff]
  obtain ⟨before, after, hlog, hputs, hafter⟩ := serveCaptured_ends env hrepo traceID req entry captured
  rw [hlog]
  rw [EndsAfter, if_neg hhttp, EndsAs, ending, hnew, hresp] at hafter
  obtain ⟨-, hafter⟩ := hafter
  have hmerge : ∀ {a b : String}, b ≠ "" → mergeTraceErrorType a b ≠ "" := fun {a b} hb => by
    unfold mergeTraceErrorType
    split <;> assumption
  dsimp only at hafter
  by_cases hstream : resp.isStreaming
  · rw [if_pos hstream] at hafter
    by_cases hserved : ValidCode resp.statusCode ∧ Assembles h env entry.protocolFamily resp
    · -- the error type is the one the request came with
      rw [if_pos hserved] at hafter
      rw [tells_of_recorded hputs hafter]
      simp only [hstream, hserved.1, hserved.2, forall_const]
      cases requestFailed h env traceID req captured <;> simp [degradedType]
    · rw [if_neg hserved] at hafter
      obtain rfl : after = [] := hafter
      refine iff_of_true (fun trace error hmem => ?_) fun _ hcode hassembles => absurd ⟨hcode, hassembles⟩ hserved
      obtain ⟨request, result, hput⟩ := hputs _ (by simpa using hmem)
      cases hput
  · rw [if_neg hstream] at hafter
    refine iff_of_true ?_ fun hstream' => absurd hstream' hstream
    by_cases hfault : resp.body.fault.isSome
    · rw [if_pos hfault] at hafter
      exact (tells_of_recorded hputs hafter).2 fun htype => absurd htype (hmerge (by decide))
    · rw [if_neg hfault] at hafter
      refine (tells_of_recorded hputs hafter).2 fun _ => ⟨by simpa using hfault, fun hstream' => ?_⟩
      exact absurd hstream' hstream

def brokenStream : UpstreamResponse where
  statusCode := 200
  header := []
  contentType := "text/event-stream"
  body := { chunks := [[100]], fault := some "unexpected EOF" }

theorem truncation_recorded_iff_emptyResponse :
    Accepted chatHandler chatRequest chatEntry {} ∧
    TellsTruncation (faultless (fun _ => none) emptyResponse 0) emptyResponse
      (outcome (serveHTTP chatHandler (faultless (fun _ => none) emptyResponse 0) "t" chatRequest) []).2 := by
  have ha : Accepted chatHandler chatRequest chatEntry {} := ⟨rfl, rfl, by decide⟩
  refine ⟨ha, (truncation_recorded_iff _ _ "t" _ _ _ _ ha rfl (by decide) rfl rfl).2 fun hstream => ?_⟩
  exact absurd hstream (by decide)

/-- The read error of a stream leaves no mark on its trace. -/
theorem broken_stream_untold :
    ReadFails (faultless (fun _ => none) brokenStream 1) brokenStream ∧
    ∃ trace error, trace.errorType = "" ∧ .insertTrace trace error ∈
      (outcome (serveHTTP chatHandler (faultless (fun _ => none) brokenStream 1) "t" chatRequest) []).2 := by
  refine ⟨⟨rfl, fun _ => rfl⟩, _, none, ?_, List.mem_of_getElem? (i := 7) rfl⟩
  rfl

end AuditGateway.Gateway
