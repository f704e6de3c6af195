import AuditGateway.Gateway.Usage

/-!
# Copying an event stream

`stream.go`: the chunks of a streamed response are written to the client, read for usage on
the way (`sseUsageExtractor`) and captured (`copyStreamToClientAndCapture`). The upstream
reader, the client and the capture writer may fail or stop short at any chunk.
-/

namespace AuditGateway.Gateway

open AuditGateway.Go

abbrev Bytes := List UInt8

/-! ## Lines and payloads -/

/-- The complete lines of a buffer, and what is left of it. -/
def splitLines : Bytes → List Bytes × Bytes
  | [] => ([], [])
  | b :: rest =>
    if b = 10 then ([] :: (splitLines rest).1, (splitLines rest).2)
    else
      match (splitLines rest).1 with
      | [] => ([], b :: (splitLines rest).2)
      | line :: lines => ((b :: line) :: lines, (splitLines rest).2)

/-- `data: `. -/
def dataMarker : Bytes := [100, 97, 116, 97, 58, 32]

/-- `[DONE]`. -/
def doneMarker : Bytes := [91, 68, 79, 78, 69, 93]

/-- The payload of a line, if it has one. -/
def payloadOf (line : Bytes) : Option Bytes :=
  let line := line.rdropWhile (· == 13)
  if dataMarker.isPrefixOf line then
    let payload := (line.drop dataMarker.length).dropWhile (· == 32)
    if payload = doneMarker then none else some payload
  else none

/-- The payloads in the complete lines of a buffer. -/
def payloadsOf (buf : Bytes) : List Bytes := (splitLines buf).1.filterMap payloadOf

/-- `sseUsageExtractor`; the writer it wraps is the client's. -/
structure SSEUsageExtractor where
  ext : UsageExtractor
  buf : Bytes := []

/-- `Write`, for a chunk that the wrapped writer has taken. -/
def SSEUsageExtractor.feed (unmarshal : Bytes → Option Json) (e : SSEUsageExtractor) (chunk : Bytes) :
    SSEUsageExtractor where
  ext := (payloadsOf (e.buf ++ chunk)).foldl (UsageExtractor.processPayload unmarshal) e.ext
  buf := (splitLines (e.buf ++ chunk)).2

theorem splitLines_of_notMem {buf : Bytes} (h : 10 ∉ buf) : splitLines buf = ([], buf) := by
  induction buf with
  | nil => rfl
  | cons b rest ih =>
    obtain ⟨hb, hrest⟩ := not_or.1 (mt List.mem_cons.2 h)
    simp [splitLines, Ne.symm hb, ih hrest]

theorem splitLines_line {line : Bytes} (h : 10 ∉ line) (rest : Bytes) :
    splitLines (line ++ 10 :: rest) = (line :: (splitLines rest).1, (splitLines rest).2) := by
  induction line with
  | nil => rfl
  | cons b line ih =>
    obtain ⟨hb, hline⟩ := not_or.1 (mt List.mem_cons.2 h)
    simp [splitLines, Ne.symm hb, ih hline]

theorem splitLines_append (a b : Bytes) :
    splitLines (a ++ b) = ((splitLines a).1 ++ (splitLines ((splitLines a).2 ++ b)).1,
      (splitLines ((splitLines a).2 ++ b)).2) := by
  induction a with
  | nil => rfl
  | cons x a ih =>
    by_cases hx : x = 10
    · simp only [List.cons_append, splitLines, hx, ↓reduceIte, ih]
    · cases hlines : (splitLines a).1 with
      | nil => simp only [List.cons_append, splitLines, hx, ↓reduceIte, ih, hlines, List.nil_append]
      | cons line lines => simp only [List.cons_append, splitLines, hx, ↓reduceIte, ih, hlines]

theorem feed_feed (unmarshal : Bytes → Option Json) (e : SSEUsageExtractor) (a b : Bytes) :
    (e.feed unmarshal a).feed unmarshal b = e.feed unmarshal (a ++ b) := by
  simp only [SSEUsageExtractor.feed, payloadsOf]
  rw [← List.append_assoc, splitLines_append (e.buf ++ a) b, List.filterMap_append, List.foldl_append]

/-- A stream that has not begun. -/
def SSEUsageExtractor.new (ext : UsageExtractor) : SSEUsageExtractor where
  ext := ext

theorem feed_nil (unmarshal : Bytes → Option Json) (ext : UsageExtractor) :
    (SSEUsageExtractor.new ext).feed unmarshal [] = .new ext := rfl

/-! ## The copy loop -/

/-- An error, by its text. -/
abbrev Err := String

/-- What a `Write` returns. -/
structure WriteResult where
  n : Nat
  err : Option Err

/-- What reading a body gives: chunks, and with or after the last of them the end or an error. -/
structure Body where
  chunks : List Bytes
  last : Bytes := []
  fault : Option Err := none

/-- What `io.ReadAll` returns of it if there is no error. -/
def Body.all (body : Body) : Bytes := body.chunks.flatten ++ body.last

/-- How the client's connection and the capture writer answer each `Write`. -/
structure Writers where
  client : Nat → WriteResult
  capture : Nat → WriteResult

/-- The state of the loop; `capturing` is false once the capture writer has failed, or if there is none. -/
structure Copy where
  extractor : SSEUsageExtractor
  capturing : Bool
  written : Nat := 0
  captured : Bytes := []
  captureErr : Option Err := none
  writes : Nat := 0
  captures : Nat := 0

def errShortWrite : Err := "short write"

section

variable (unmarshal : Bytes → Option Json) (writers : Writers)

/-- A chunk is offered to the capture writer. -/
def Copy.capture (s : Copy) (chunk : Bytes) : Copy :=
  if s.capturing then
    let result := writers.capture s.captures
    let s := { s with captures := s.captures + 1, captured := s.captured ++ chunk.take result.n }
    match result.err with
    | some err => { s with captureErr := some err, capturing := false }
    | none =>
      if result.n = chunk.length then s
      else { s with captureErr := some errShortWrite, capturing := false }
  else s

/-- A chunk that was read; an error ends the loop. -/
def Copy.chunk (s : Copy) (chunk : Bytes) : Copy × Option Err :=
  if chunk = [] then (s, none)
  else
    let result := writers.client s.writes
    let s := { s with writes := s.writes + 1, written := s.written + result.n }
    match result.err with
    | some err => (s, some err)
    | none =>
      let s := { s with extractor := s.extractor.feed unmarshal chunk }
      if result.n = chunk.length then (s.capture writers chunk, none) else (s, some errShortWrite)

/-- The chunks of a body before the last. -/
def Copy.chunks (s : Copy) : List Bytes → Copy × Option Err
  | [] => (s, none)
  | chunk :: rest =>
    match s.chunk unmarshal writers chunk with
    | (s, some err) => (s, some err)
    | (s, none) => s.chunks rest

/-- `copyStreamToClientAndCapture`: the final state, and the error of the reader or the client. -/
def copyStream (body : Body) (s : Copy) : Copy × Option Err :=
  match s.chunks unmarshal writers body.chunks with
  | (s, some err) => (s, some err)
  | (s, none) =>
    match s.chunk unmarshal writers body.last with
    | (s, some err) => (s, some err)
    | (s, none) => (s, body.fault)

end

/-! ## What is read of a stream -/

/-- The part of a stream that the client's connection takes, up to the first chunk that it does not take as a
whole. -/
def delivered (writers : Writers) : (writes : Nat) → List Bytes → Bytes
  | _, [] => []
  | writes, chunk :: rest =>
    if chunk = [] then delivered writers writes rest
    else
      match (writers.client writes).err with
      | some _ => []
      | none =>
        if (writers.client writes).n = chunk.length then chunk ++ delivered writers (writes + 1) rest else chunk

section

variable {unmarshal : Bytes → Option Json} {writers : Writers} {ext : UsageExtractor} {s : Copy} {seen : Bytes}

@[simp] theorem Copy.capture_extractor (chunk : Bytes) : (s.capture writers chunk).extractor = s.extractor := by
  unfold capture
  split
  · dsimp only
    split
    · rfl
    · split <;> rfl
  · rfl

@[simp] theorem Copy.capture_writes (chunk : Bytes) : (s.capture writers chunk).writes = s.writes := by
  unfold capture
  split
  · dsimp only
    split
    · rfl
    · split <;> rfl
  · rfl

theorem copyStream_eq_chunks (body : Body) : (copyStream unmarshal writers body s).1 =
    (s.chunks unmarshal writers (body.chunks ++ [body.last])).1 := by
  unfold copyStream
  generalize body.chunks = chunks
  induction chunks generalizing s with
  | nil =>
    simp only [Copy.chunks, List.nil_append]
    cases s.chunk unmarshal writers body.last with
    | mk s' err => cases err <;> rfl
  | cons chunk rest ih =>
    rw [List.cons_append, Copy.chunks, Copy.chunks]
    cases h : s.chunk unmarshal writers chunk with
    | mk s' err =>
      cases err with
      | some err => rfl
      | none => exact ih

theorem Copy.chunks_extractor (h : s.extractor = (SSEUsageExtractor.new ext).feed unmarshal seen)
    (chunks : List Bytes) : (s.chunks unmarshal writers chunks).1.extractor =
      (SSEUsageExtractor.new ext).feed unmarshal (seen ++ delivered writers s.writes chunks) := by
  induction chunks generalizing s seen with
  | nil => simpa [Copy.chunks, delivered] using h
  | cons chunk rest ih =>
    by_cases hempty : chunk = []
    · simp only [Copy.chunks, Copy.chunk, delivered, hempty, ↓reduceIte]
      exact ih h
    · cases herr : (writers.client s.writes).err with
      | some err => simpa [Copy.chunks, Copy.chunk, delivered, hempty, herr] using h
      | none =>
        by_cases hn : (writers.client s.writes).n = chunk.length
        · simp only [Copy.chunks, Copy.chunk, delivered, hempty, herr, hn, ↓reduceIte]
          rw [@ih _ (seen ++ chunk) (by simp [h, feed_feed])]
          simp [List.append_assoc]
        · simp [Copy.chunks, Copy.chunk, delivered, hempty, herr, hn, h, feed_feed]

theorem copyStream_extractor (body : Body) (capturing : Bool) :
    (copyStream unmarshal writers body { extractor := .new ext, capturing }).1.extractor =
      (SSEUsageExtractor.new ext).feed unmarshal (delivered writers 0 (body.chunks ++ [body.last])) := by
  rw [copyStream_eq_chunks]
  have hstart := (feed_nil unmarshal ext).symm
  rw [Copy.chunks_extractor hstart]
  rfl

end

end AuditGateway.Gateway
