import AuditGateway.Gateway.Stream

/-!
# What the client, the evidence and the extractor see of a stream

`copyStreamToClientAndCapture` offers each chunk first to the client and then to the capture
writer. A chunk that the client takes only in part ends the copy before it is captured.

* `copyStream_faithful_iff`: what is captured covers what the client took if and only if the
  client takes nothing of the chunk at which it stops.
* `writes_eq_write`: `sseUsageExtractor` passes on the same bytes and the same payloads however
  the stream is split into calls of `Write`.
-/

namespace AuditGateway.Gateway

open AuditGateway.Go

/-! ## What the client takes -/

/-- The chunks that the client takes as a whole, and what it takes of the one at which it stops. -/
def taken (writers : Writers) : (writes : Nat) → List Bytes → Bytes × Bytes
  | _, [] => ([], [])
  | writes, chunk :: rest =>
    if chunk = [] then taken writers writes rest
    else
      let result := writers.client writes
      if result.err = none ∧ result.n = chunk.length then
        (chunk ++ (taken writers (writes + 1) rest).1, (taken writers (writes + 1) rest).2)
      else ([], chunk.take result.n)

/-- The bytes that the client has accepted. -/
def accepted (writers : Writers) (writes : Nat) (chunks : List Bytes) : Bytes :=
  (taken writers writes chunks).1 ++ (taken writers writes chunks).2

/-- No `Write` of the client takes more than it was given. -/
def Writers.Lawful (writers : Writers) : (writes : Nat) → List Bytes → Prop
  | _, [] => True
  | writes, chunk :: rest =>
    if chunk = [] then writers.Lawful writes rest
    else (writers.client writes).n ≤ chunk.length ∧ writers.Lawful (writes + 1) rest

/-- The capture writer takes each chunk that the client takes as a whole. -/
def Writers.CapturesAll (writers : Writers) : (writes : Nat) → List Bytes → Prop
  | _, [] => True
  | writes, chunk :: rest =>
    if chunk = [] then writers.CapturesAll writes rest
    else (writers.client writes).err = none ∧ (writers.client writes).n = chunk.length →
      (writers.capture writes).err = none ∧ (writers.capture writes).n = chunk.length ∧
        writers.CapturesAll (writes + 1) rest

/-- The reads of a body, the last one included. -/
def Body.reads (body : Body) : List Bytes := body.chunks ++ [body.last]

theorem Body.flatten_reads (body : Body) : body.reads.flatten = body.all := by
  simp [reads, all]

section

variable {writers : Writers} {writes : Nat}

theorem taken_isPrefix (chunks : List Bytes) : (taken writers writes chunks).1 <+: chunks.flatten := by
  induction chunks generalizing writes with
  | nil => exact List.nil_prefix
  | cons chunk rest ih =>
    rw [taken, List.flatten_cons]
    split
    · rename_i hempty
      simpa [hempty] using ih
    · dsimp only
      split
      · exact (List.prefix_append_right_inj chunk).2 ih
      · exact List.nil_prefix

end

/-! ## The copy loop -/

section

variable {unmarshal : Bytes → Option Json} {writers : Writers} {s : Copy} {seen chunk : Bytes}

@[simp] theorem Copy.capture_written : (s.capture writers chunk).written = s.written := by
  unfold capture
  split
  · dsimp only
    split
    · rfl
    · split <;> rfl
  · rfl

/-- Without an error, all chunks so far are captured. -/
def Copy.Captures (s : Copy) (seen : Bytes) : Prop :=
  s.captureErr = none → s.capturing ∧ s.captured = seen

theorem Copy.Captures.capture (h : s.Captures seen) : (s.capture writers chunk).Captures (seen ++ chunk) := by
  unfold Copy.capture
  split
  · dsimp only
    split
    · exact fun hnone => absurd hnone (by simp)
    · split
      · rename_i hn
        intro hnone
        obtain ⟨hcapturing, hcaptured⟩ := h hnone
        exact ⟨hcapturing, by simp [hcaptured, hn]⟩
      · exact fun hnone => absurd hnone (by simp)
  · rename_i hnot
    exact fun hnone => absurd (h hnone).1 hnot

theorem Copy.capture_captureErr_iff (hs : s.captureErr = none → s.capturing = true) :
    ((s.capture writers chunk).captureErr = none ↔ s.captureErr = none ∧
      (writers.capture s.captures).err = none ∧ (writers.capture s.captures).n = chunk.length) ∧
    ((s.capture writers chunk).captureErr = none →
      (s.capture writers chunk).capturing = true ∧ (s.capture writers chunk).captures = s.captures + 1) := by
  unfold Copy.capture
  split
  · dsimp only
    split
    · rename_i err herr
      simp [herr]
    · rename_i herr
      split <;> simp_all
  · rename_i hnot
    exact ⟨iff_of_false (fun h => hnot (hs h)) fun h => hnot (hs h.1), fun h => absurd (hs h) hnot⟩

/-- The same has been captured. -/
def Copy.SameCapture (s' s : Copy) : Prop :=
  s'.captureErr = s.captureErr ∧ s'.capturing = s.capturing ∧ s'.captures = s.captures ∧ s'.captured = s.captured

theorem Copy.SameCapture.captures {s' : Copy} (h : s'.SameCapture s) (hs : s.Captures seen) : s'.Captures seen := by
  obtain ⟨herr, hcapturing, -, hcaptured⟩ := h
  rwa [Copy.Captures, herr, hcapturing, hcaptured]

theorem Copy.chunk_cases (unmarshal : Bytes → Option Json) (writers : Writers) (s : Copy) (hne : chunk ≠ []) :
    ((writers.client s.writes).err = none ∧ (writers.client s.writes).n = chunk.length ∧
      ∃ s' : Copy, s.chunk unmarshal writers chunk = (s'.capture writers chunk, none) ∧ s'.writes = s.writes + 1 ∧
        s'.written = s.written + chunk.length ∧ s'.SameCapture s) ∨
    (¬ ((writers.client s.writes).err = none ∧ (writers.client s.writes).n = chunk.length) ∧
      ∃ (s' : Copy) (err : Err), s.chunk unmarshal writers chunk = (s', some err) ∧
        s'.written = s.written + (writers.client s.writes).n ∧ s'.SameCapture s) := by
  unfold Copy.chunk
  rw [if_neg hne]
  dsimp only
  cases herr : (writers.client s.writes).err with
  | some err => exact .inr ⟨by simp, _, _, rfl, rfl, rfl, rfl, rfl, rfl⟩
  | none =>
    by_cases hn : (writers.client s.writes).n = chunk.length
    · exact .inl ⟨rfl, hn, _, if_pos hn, rfl, congrArg (s.written + ·) hn, rfl, rfl, rfl, rfl⟩
    · exact .inr ⟨by simp [hn], _, _, if_neg hn, rfl, rfl, rfl, rfl, rfl⟩

theorem Copy.chunks_captureErr_iff (hs : s.captureErr = none → s.capturing = true ∧ s.captures = s.writes)
    (chunks : List Bytes) : (s.chunks unmarshal writers chunks).1.captureErr = none ↔
      s.captureErr = none ∧ writers.CapturesAll s.writes chunks := by
  induction chunks generalizing s with
  | nil => exact (and_iff_left trivial).symm
  | cons chunk rest ih =>
    by_cases hempty : chunk = []
    · simp only [Copy.chunks, Copy.chunk, Writers.CapturesAll, hempty, ↓reduceIte]
      exact ih hs
    rw [Copy.chunks, Writers.CapturesAll, if_neg hempty]
    obtain ⟨herr, hn, s', hchunk, hwrites, -, hkeep⟩ | ⟨hstop, s', err, hchunk, -, hkeep⟩ :=
      Copy.chunk_cases unmarshal writers s hempty
    · obtain ⟨hcaptureErr, hcapturing, hcaptures, -⟩ := hkeep
      rw [← hcaptureErr, ← hcapturing, ← hcaptures] at hs
      obtain ⟨hiff, hgoes⟩ := Copy.capture_captureErr_iff fun hnone => (hs hnone).1
      have hnext : (s'.capture writers chunk).captureErr = none → (s'.capture writers chunk).capturing = true ∧
          (s'.capture writers chunk).captures = (s'.capture writers chunk).writes := fun hnone => by
        rw [Copy.capture_writes, hwrites, (hgoes hnone).2, (hs (hiff.1 hnone).1).2]
        exact ⟨(hgoes hnone).1, rfl⟩
      simp only [hchunk, herr, hn, and_self, true_imp_iff]
      rw [ih hnext, hiff, Copy.capture_writes, hwrites, and_assoc, ← hcaptureErr]
      refine and_congr_right fun hnone => ?_
      rw [(hs hnone).2, and_assoc]
    · simp only [hchunk, hkeep.1]
      exact (and_iff_left fun h => absurd h hstop).symm

theorem Copy.chunks_spec (hs : s.Captures seen) (chunks : List Bytes) (hlawful : writers.Lawful s.writes chunks) :
    (s.chunks unmarshal writers chunks).1.written = s.written + (accepted writers s.writes chunks).length ∧
    (s.chunks unmarshal writers chunks).1.Captures (seen ++ (taken writers s.writes chunks).1) ∧
    ((s.chunks unmarshal writers chunks).2 = none → taken writers s.writes chunks = (chunks.flatten, [])) := by
  induction chunks generalizing s seen with
  | nil => exact ⟨rfl, by simpa [taken, Copy.chunks] using hs, fun _ => rfl⟩
  | cons chunk rest ih =>
    by_cases hempty : chunk = []
    · simp only [Copy.chunks, Copy.chunk, taken, accepted, Writers.Lawful, hempty, ↓reduceIte] at hlawful ⊢
      exact ih hs hlawful
    simp only [Writers.Lawful, hempty, ↓reduceIte] at hlawful
    rcases Copy.chunk_cases unmarshal writers s hempty with
      ⟨herr, hn, s', hchunk, hwrites, hwritten, hkeep⟩ | ⟨hstop, s', err, hchunk, hwritten, hkeep⟩
    · have hcap : (s'.capture writers chunk).Captures (seen ++ chunk) := (hkeep.captures hs).capture
      obtain ⟨ihwritten, ihcaptured, ihend⟩ := ih hcap (by simpa [hwrites] using hlawful.2)
      simp only [Copy.chunks, hchunk, taken, accepted, hempty, herr, hn, and_self, ↓reduceIte,
        Copy.capture_writes, Copy.capture_written, hwrites, hwritten] at ihwritten ihcaptured ihend ⊢
      refine ⟨by rw [ihwritten]; simp; omega, by simpa using ihcaptured, fun hnone => ?_⟩
      rw [ihend hnone, List.flatten_cons]
    · simp only [Copy.chunks, hchunk, taken, accepted, hempty, hstop, ↓reduceIte, List.nil_append, List.append_nil]
      refine ⟨?_, hkeep.captures hs, fun hnone => absurd hnone (by simp)⟩
      rw [hwritten, List.length_take, Nat.min_eq_left hlawful.1]

theorem copyStream_err (body : Body) (h : (copyStream unmarshal writers body s).2 = none) :
    (s.chunks unmarshal writers body.reads).2 = none := by
  revert h
  unfold copyStream Body.reads
  generalize body.chunks = chunks
  induction chunks generalizing s with
  | nil =>
    simp only [Copy.chunks, List.nil_append]
    cases s.chunk unmarshal writers body.last with
    | mk s' err => cases err <;> simp
  | cons chunk rest ih =>
    rw [List.cons_append, Copy.chunks, Copy.chunks]
    cases s.chunk unmarshal writers chunk with
    | mk s' err =>
      cases err with
      | some err => exact id
      | none => exact ih

theorem copyStream_spec (unmarshal : Bytes → Option Json) (body : Body) (ext : UsageExtractor)
    (hlawful : writers.Lawful 0 body.reads) {copy : Copy × Option Err}
    (hcopy : copy = copyStream unmarshal writers body { extractor := .new ext, capturing := true }) :
    copy.1.written = (accepted writers 0 body.reads).length ∧
    (copy.1.captureErr = none → copy.1.captured = (taken writers 0 body.reads).1) ∧
    (copy.1.captureErr = none ↔ writers.CapturesAll 0 body.reads) ∧
    (copy.2 = none → taken writers 0 body.reads = (body.all, [])) := by
  subst hcopy
  have hstart : ({ extractor := .new ext, capturing := true } : Copy).Captures [] := fun _ => ⟨rfl, rfl⟩
  obtain ⟨hwritten, hcaptures, hend⟩ := Copy.chunks_spec hstart body.reads hlawful
  rw [copyStream_eq_chunks]
  refine ⟨hwritten.trans (Nat.zero_add _), fun hnone => (hcaptures hnone).2, ?_, fun hnone => ?_⟩
  · exact (Copy.chunks_captureErr_iff (fun _ => ⟨rfl, rfl⟩) body.reads).trans (and_iff_right rfl)
  · rw [hend (copyStream_err body hnone), body.flatten_reads]

end

/-- What `copyStreamToClientAndCapture` says of a body with a capture writer: `written` counts what the client has
accepted, and without a capture error the evidence covers it. -/
structure Faithful (writers : Writers) (body : Body) (copy : Copy × Option Err) : Prop where
  written : copy.1.written = (accepted writers 0 body.reads).length
  covers : copy.1.captureErr = none →
    copy.1.captured <+: body.all ∧ accepted writers 0 body.reads <+: copy.1.captured
  complete : copy.1.captureErr = none → copy.2 = none →
    copy.1.captured = body.all ∧ accepted writers 0 body.reads = body.all

/-- Evidence covers what the client has seen, if and only if the capture writer fails or the client takes nothing of
the chunk at which it stops. -/
theorem copyStream_faithful_iff (unmarshal : Bytes → Option Json) (writers : Writers) (ext : UsageExtractor)
    (body : Body) (hlawful : writers.Lawful 0 body.reads) :
    Faithful writers body (copyStream unmarshal writers body { extractor := .new ext, capturing := true }) ↔
      (writers.CapturesAll 0 body.reads → (taken writers 0 body.reads).2 = []) := by
  obtain ⟨hwritten, hcaptured, herr, hend⟩ := copyStream_spec unmarshal body ext hlawful rfl
  generalize copyStream unmarshal writers body { extractor := .new ext, capturing := true } = copy at *
  rw [← herr]
  have hwhole : (taken writers 0 body.reads).1 <+: body.all := body.flatten_reads ▸ taken_isPrefix body.reads
  constructor
  · intro h hnone
    obtain ⟨rest, hrest⟩ := (h.covers hnone).2
    rw [hcaptured hnone, accepted, List.append_assoc] at hrest
    exact (List.append_eq_nil_iff.1 (List.append_cancel_left (hrest.trans (List.append_nil _).symm))).1
  · intro h
    have haccepted : copy.1.captureErr = none → accepted writers 0 body.reads = copy.1.captured := fun hnone => by
      rw [hcaptured hnone, accepted, h hnone, List.append_nil]
    refine ⟨hwritten, fun hnone => ⟨hcaptured hnone ▸ hwhole, ?_⟩, fun hnone hok => ?_⟩
    · exact haccepted hnone ▸ List.prefix_refl _
    · rw [haccepted hnone, hcaptured hnone, hend hok]
      exact ⟨rfl, rfl⟩

/-- The client and the capture writer take `client` and `capture` bytes of each chunk. -/
def steady (client capture : Nat) : Writers where
  client := fun _ => ⟨client, none⟩
  capture := fun _ => ⟨capture, none⟩

theorem copyStream_faithful_iff_wholeChunks :
    (steady 2 2).Lawful 0 (Body.reads { chunks := [[1, 2], [3, 4]] }) ∧
    Faithful (steady 2 2) { chunks := [[1, 2], [3, 4]] }
      (copyStream (fun _ => none) (steady 2 2) { chunks := [[1, 2], [3, 4]] }
        { extractor := .new .generic, capturing := true }) :=
  have hlawful : (steady 2 2).Lawful 0 (Body.reads { chunks := [[1, 2], [3, 4]] }) := by
    simp [Writers.Lawful, Body.reads, steady]
  ⟨hlawful, (copyStream_faithful_iff _ _ _ _ hlawful).2 fun _ => by decide⟩

/-- The client takes one byte of a chunk of two: it is not in the evidence, and there is no capture error. -/
theorem short_write_not_captured :
    (steady 1 2).Lawful 0 (Body.reads { chunks := [[1, 2]] }) ∧
    (copyStream (fun _ => none) (steady 1 2) { chunks := [[1, 2]] }
      { extractor := .new .generic, capturing := true }).1.captureErr = none ∧
    ¬ Faithful (steady 1 2) { chunks := [[1, 2]] }
      (copyStream (fun _ => none) (steady 1 2) { chunks := [[1, 2]] }
        { extractor := .new .generic, capturing := true }) := by
  refine ⟨by simp [Writers.Lawful, Body.reads, steady], rfl, fun h => ?_⟩
  have hcovers := (h.covers rfl).2
  exact absurd hcovers (by decide)

/-! ## Calls of `Write` -/

/-- `sseUsageExtractor`, with what it has passed on: the bytes that the wrapped writer took, and the payloads for
`processSSE`. -/
structure Writing where
  ext : UsageExtractor
  buf : Bytes := []
  forwarded : Bytes := []
  payloads : List Bytes := []

namespace Writing

variable (unmarshal : Bytes → Option Json)

/-- A line that was taken off the buffer. -/
def line (s : Writing) (line : Bytes) : Writing :=
  match payloadOf line with
  | none => s
  | some payload => { s with ext := s.ext.processPayload unmarshal payload, payloads := s.payloads ++ [payload] }

/-- The loop of `Write`. -/
def drain (s : Writing) : Writing :=
  if 10 ∈ s.buf then
    drain ({ s with buf := s.buf.drop (s.buf.idxOf 10 + 1) }.line unmarshal (s.buf.take (s.buf.idxOf 10)))
  else s
termination_by s.buf.length
decreasing_by
  rename_i h
  have hpos := List.length_pos_of_mem h
  simp only [line]
  split <;> simp <;> omega

/-- `Write`, of which the wrapped writer returns `result`. -/
def write (s : Writing) (result : WriteResult) (p : Bytes) : Writing × WriteResult :=
  let s := { s with forwarded := s.forwarded ++ p.take result.n }
  match result.err with
  | some _ => (s, result)
  | none => ({ s with buf := s.buf ++ p }.drain unmarshal, result)

variable {unmarshal}

theorem splitLines_of_mem {buf : Bytes} (h : 10 ∈ buf) :
    splitLines buf = (buf.take (buf.idxOf 10) :: (splitLines (buf.drop (buf.idxOf 10 + 1))).1,
      (splitLines (buf.drop (buf.idxOf 10 + 1))).2) := by
  induction buf with
  | nil => exact absurd h List.not_mem_nil
  | cons b rest ih =>
    by_cases hb : b = 10
    · simp [splitLines, hb]
    · have hrest : 10 ∈ rest := (List.mem_cons.1 h).resolve_left (Ne.symm hb)
      simp [splitLines, hb, ih hrest, List.idxOf_cons_ne rest hb]

theorem drain_eq (s : Writing) :
    s.drain unmarshal = { s with
      ext := (payloadsOf s.buf).foldl (UsageExtractor.processPayload unmarshal) s.ext
      buf := (splitLines s.buf).2
      payloads := s.payloads ++ payloadsOf s.buf } := by
  fun_induction drain unmarshal s with
  | case1 s h ih =>
    rw [ih, line]
    cases hp : payloadOf (s.buf.take (s.buf.idxOf 10)) with
    | none => simp [payloadsOf, splitLines_of_mem h, hp]
    | some payload => simp [payloadsOf, splitLines_of_mem h, hp]
  | case2 s h => simp [payloadsOf, splitLines_of_notMem h]

/-- A call that the wrapped writer takes as a whole. -/
def accept (unmarshal : Bytes → Option Json) (s : Writing) (p : Bytes) : Writing :=
  (s.write unmarshal ⟨p.length, none⟩ p).1

theorem accept_eq (s : Writing) (p : Bytes) :
    s.accept unmarshal p =
      { ext := (payloadsOf (s.buf ++ p)).foldl (UsageExtractor.processPayload unmarshal) s.ext
        buf := (splitLines (s.buf ++ p)).2
        forwarded := s.forwarded ++ p
        payloads := s.payloads ++ payloadsOf (s.buf ++ p) } := by
  simp [accept, write, drain_eq]

theorem accept_accept (s : Writing) (a b : Bytes) :
    (s.accept unmarshal a).accept unmarshal b = s.accept unmarshal (a ++ b) := by
  have hlines := splitLines_append (s.buf ++ a) b
  rw [List.append_assoc] at hlines
  have hpayloads : payloadsOf (s.buf ++ (a ++ b)) =
      payloadsOf (s.buf ++ a) ++ payloadsOf ((splitLines (s.buf ++ a)).2 ++ b) := by
    rw [payloadsOf, hlines, List.filterMap_append]
    rfl
  simp only [accept_eq, hpayloads, hlines, List.foldl_append, List.append_assoc]

theorem foldl_accept (s : Writing) (p : Bytes) (chunks : List Bytes) :
    chunks.foldl (accept unmarshal) (s.accept unmarshal p) = s.accept unmarshal (p ++ chunks.flatten) := by
  induction chunks generalizing p with
  | nil => simp
  | cons chunk rest ih => rw [List.foldl_cons, accept_accept, ih, List.append_assoc, List.flatten_cons]

end Writing

/-- However a stream is split into calls of `Write`, `sseUsageExtractor` passes on the same payloads and the same
bytes as for a single call, so that it comes to the same usage, model and document. -/
theorem writes_eq_write (unmarshal : Bytes → Option Json) (ext : UsageExtractor) (chunks : List Bytes) :
    let split := chunks.foldl (Writing.accept unmarshal) { ext }
    let whole := Writing.accept unmarshal { ext } chunks.flatten
    split.payloads = whole.payloads ∧ split.ext.sseResult = whole.ext.sseResult ∧
      split.ext.assembleSSE = whole.ext.assembleSSE ∧ split.forwarded = whole.forwarded ∧
      whole.forwarded = chunks.flatten ∧ split = whole := by
  intro split whole
  have hnew : ({ ext } : Writing) = Writing.accept unmarshal { ext } [] := by
    rw [Writing.accept_eq]
    rfl
  have hsame : split = whole := calc
    split = chunks.foldl (Writing.accept unmarshal) (Writing.accept unmarshal { ext } []) := by rw [← hnew]
    _ = whole := Writing.foldl_accept _ _ _
  have hforwarded : whole.forwarded = chunks.flatten := by simp [whole, Writing.accept_eq]
  exact ⟨hsame ▸ rfl, hsame ▸ rfl, hsame ▸ rfl, hsame ▸ rfl, hforwarded, hsame⟩

end AuditGateway.Gateway
