import AuditGateway.Framework.Lists
import AuditGateway.Gateway.Stream
import AuditGateway.Pipeline.Sse
import AuditGateway.Python.Utf8

/-!
# Two readers of an event stream

The gateway reads an event stream line by line as it passes (`sseUsageExtractor`), and the
worker reads it again from the evidence (`_load_sse_json_events`). Here both are given a stream
of events with one data line each, which is a JSON object or `[DONE]`.

The gateway needs a space after `data:` and a newline at the end of the line. The worker drops
empty objects, and it cuts lines at all that `splitlines` takes for a line end, which U+0085,
U+2028 and U+2029 in a JSON string are.
-/

namespace AuditGateway.Streams

open AuditGateway.Framework AuditGateway.Python AuditGateway.Gateway AuditGateway.Pipeline

/-! ## Streams of events -/

inductive LineEnd
  | lf
  | crlf
deriving DecidableEq, Repr

def LineEnd.text : LineEnd → Str
  | lf => [10]
  | crlf => [13, 10]

/-- What a line end has before its line feed. -/
def LineEnd.cr : LineEnd → Bytes
  | lf => []
  | crlf => [13]

/-- A line that has been ended. -/
structure Line where
  text : Str
  ending : LineEnd := .lf

def Line.whole (line : Line) : Str := line.text ++ line.ending.text

/-- Lines that a blank line follows; there may be none, where several blank lines follow each other. -/
structure Block where
  lines : List Line
  blank : LineEnd := .lf

def Block.whole (block : Block) : Str := block.lines.flatMap Line.whole ++ block.blank.text

/-- A body: what is followed by blank lines, then ended lines, and what is left of the last line. -/
structure EventStream where
  blocks : List Block
  last : List Line := []
  rest : Str := []

namespace EventStream

variable (stream : EventStream)

def text : Str := stream.blocks.flatMap Block.whole ++ stream.last.flatMap Line.whole ++ stream.rest

def ended : List Str :=
  stream.blocks.flatMap (fun block => block.lines.map Line.text ++ [[]]) ++ stream.last.map Line.text

def events : List (List Str) :=
  stream.blocks.map (fun block => block.lines.map Line.text) ++
    [stream.last.map Line.text ++ if stream.rest = [] then [] else [stream.rest]]

def lines : List (Str × Bool) :=
  ((stream.blocks.flatMap Block.lines ++ stream.last).map fun line => (line.text, true)) ++
    if stream.rest = [] then [] else [(stream.rest, false)]

end EventStream

/-! ## Objects -/

def isJsonSpace (c : CodePoint) : Bool := c.val == 9 || c.val == 10 || c.val == 13 || c.val == 32

/-- The object that a text is, with white space around it. -/
def objectIn (rt : Runtime) (s : Str) : Option Dict :=
  if (stripBy isJsonSpace s).head? = some 0x7B then
    match rt.loads (stripBy isJsonSpace s) with
    | .value (.dict d) => some d
    | _ => none
  else none

/-- The object that a payload is. -/
def objectOf (rt : Runtime) (payload : Bytes) : Option Dict := (decodeUtf8 payload).bind (objectIn rt)

/-- The object that a line carries. -/
def objectAt (rt : Runtime) (line : Str) : Option Dict :=
  if line.startsWith "data:" then objectIn rt (line.drop 5) else none

/-- The other fields of an event, and comments. -/
def IsField (line : Str) : Prop :=
  ∃ name ∈ ["event:", "id:", "retry:", ":"], Str.ofString name <+: line

/-- A data line with `[DONE]` or a JSON object, and blanks around it. -/
def IsData (rt : Runtime) (line : Str) : Prop :=
  ∃ pad core pad', line = Str.ofString "data:" ++ (pad ++ core ++ pad') ∧ (∀ c ∈ pad ++ pad', c = 32 ∨ c = 9) ∧
    (core = doneMark ∨ (∃ inner, core = 0x7B :: (inner ++ [0x7D])) ∧ ∃ d, rt.loads core = .value (.dict d))

/-- The lines of an event, of which one is data. -/
def IsEvent (rt : Runtime) (lines : List Str) : Prop :=
  ∃ before data after, lines = before ++ data :: after ∧ (∀ line ∈ before ++ after, IsField line) ∧ IsData rt data

/-- A text that can be a line: it has an encoding, and no line end. -/
structure IsLine (line : Str) : Prop where
  encodes : Encodes line
  lf : (10 : CodePoint) ∉ line
  cr : (13 : CodePoint) ∉ line

instance (line : Str) : Decidable (IsLine line) :=
  decidable_of_iff (Encodes line ∧ (10 : CodePoint) ∉ line ∧ (13 : CodePoint) ∉ line)
    ⟨fun ⟨encodes, lf, cr⟩ => ⟨encodes, lf, cr⟩, fun ⟨encodes, lf, cr⟩ => ⟨encodes, lf, cr⟩⟩

theorem IsLine.nil : IsLine [] := ⟨fun _ hc => absurd hc List.not_mem_nil, List.not_mem_nil, List.not_mem_nil⟩

/-- A stream of events. -/
structure EventStream.WellFormed (rt : Runtime) (stream : EventStream) : Prop where
  lines : ∀ event ∈ stream.events, ∀ line ∈ event, IsLine line
  events : ∀ event ∈ stream.events, event = [] ∨ IsEvent rt event

/-! ## What each side reads of it -/

/-- The object that the gateway takes from a line. -/
def gatewayObject (rt : Runtime) (line : Str) : Option Dict :=
  if line.startsWith "data: " then objectAt rt line else none

/-- The lines that `splitlines` makes of one, with the line that is being read. -/
def piecesFrom (line : Str) : Str → List Str
  | [] => [line]
  | c :: s => if Str.isLineBreak c then line :: piecesFrom [] s else piecesFrom (line ++ [c]) s

/-- What the worker reads of an event, given what it reads of the data lines that it takes for one. -/
def readPieces {α : Type} (f : List Str → List α) (event : List Str) : List α :=
  (dataGroups [] (event.flatMap (piecesFrom []))).flatMap f

/-- No line of the event is cut. -/
def Unbroken (event : List Str) : Prop := ∀ line ∈ event, ∀ c ∈ line, Str.isLineBreak c = false

instance (event : List Str) : Decidable (Unbroken event) :=
  @List.decidableBAll _ (fun line => ∀ c ∈ line, Str.isLineBreak c = false)
    (fun line => List.decidableBAll _ line) event

/-- The objects that the worker takes from an event: its object, unless that is empty; or whatever objects there are in
the pieces of lines that are cut. -/
def workerObjects (rt : Runtime) (event : List Str) : List Dict :=
  if Unbroken event then (event.filterMap (objectAt rt)).filter (· ≠ []) else readPieces (eventDicts rt) event

/-- The line has a space after `data:`, and has been ended. -/
def SpacedAndEnded (x : Str × Bool) : Bool := x.1.startsWith "data: " && x.2

/-- When both read the same. Where no line is cut: the objects that are not empty are those of the lines that have the
space and the newline. Where lines are cut, the objects of these lines are those that the worker takes from the events,
and `json.loads` does not raise on the pieces. -/
structure EventStream.Agrees (rt : Runtime) (stream : EventStream) : Prop where
  lines : (∀ event ∈ stream.events, Unbroken event) →
    ∀ x ∈ stream.lines, ∀ d, objectAt rt x.1 = some d → (d ≠ [] ↔ SpacedAndEnded x = true)
  loads : ∀ event ∈ stream.events, ¬ Unbroken event → ∀ s ∈ readPieces (eventAttempts rt) event, Loads rt s
  cut : (¬ ∀ event ∈ stream.events, Unbroken event) →
    (stream.lines.filter SpacedAndEnded).filterMap (fun x => objectAt rt x.1) = stream.events.flatMap (workerObjects rt)

/-! ## The lines of the gateway -/

section

variable {rt : Runtime} {line : Str}

theorem dropWhile_dropWhile {α : Type} {p q : α → Bool} (h : ∀ a, q a = true → p a = true) (l : List α) :
    (l.dropWhile q).dropWhile p = l.dropWhile p := by
  induction l with
  | nil => rfl
  | cons a l ih =>
    by_cases hq : q a
    · rw [List.dropWhile_cons_of_pos hq, List.dropWhile_cons_of_pos (h a hq), ih]
    · rw [List.dropWhile_cons_of_neg hq]

theorem objectIn_dropWhile (s : Str) : objectIn rt (s.dropWhile (· == 32)) = objectIn rt s := by
  have h : stripBy isJsonSpace (s.dropWhile (· == 32)) = stripBy isJsonSpace s := by
    rw [stripBy, stripBy, dropWhile_dropWhile]
    intro c hc
    rw [beq_iff_eq.1 hc]
    rfl
  rw [objectIn, objectIn, h]

theorem objectIn_space (s : Str) : objectIn rt (32 :: s) = objectIn rt s := by
  rw [← objectIn_dropWhile (32 :: s), ← objectIn_dropWhile s]
  rfl

theorem objectIn_doneMark : objectIn rt doneMark = none := by
  have hhead : (stripBy isJsonSpace doneMark).head? ≠ some 0x7B := by decide
  rw [objectIn, if_neg hhead]

theorem bytes_dataMarker : Str.bytes "data: " = dataMarker := by decide

theorem dataMarker_ascii : ∀ c ∈ Str.ofString "data: ", c.IsAscii := by
  have h : (Str.ofString "data: ").all (fun c => decide c.IsAscii) = true := by decide
  exact fun c hc => of_decide_eq_true (List.all_eq_true.1 h c hc)

theorem bytes_doneMark : Str.bytes doneMark = doneMarker := by decide

theorem objectOf_bytes {s : Str} (h : Encodes s) : objectOf rt s.bytes = objectIn rt s := by
  rw [objectOf, decodeUtf8_bytes h, Option.bind_some]

theorem payloadOf_bytes (h : IsLine line) (ending : LineEnd) :
    (payloadOf (Str.bytes line ++ ending.cr)).bind (objectOf rt) = gatewayObject rt line := by
  have htrim : (Str.bytes line ++ ending.cr).rdropWhile (· == 13) = Str.bytes line := by
    have hline : (Str.bytes line).rdropWhile (· == 13) = Str.bytes line := by
      rw [List.rdropWhile_eq_self_iff]
      intro hne hlast
      have hmem : (13 : UInt8) ∈ Str.bytes line := beq_iff_eq.1 hlast ▸ List.getLast_mem hne
      exact h.cr ((mem_bytes (c := 13) (by decide)).1 hmem)
    cases ending with
    | lf => simpa [LineEnd.cr] using hline
    | crlf => simpa [LineEnd.cr, List.rdropWhile_concat] using hline
  have hmarker : dataMarker.isPrefixOf (Str.bytes line) = true ↔ Str.startsWith line "data: " = true := by
    rw [List.isPrefixOf_iff_prefix, ← bytes_dataMarker, isPrefix_bytes dataMarker_ascii, Str.startsWith,
      List.isPrefixOf_iff_prefix]
  rw [payloadOf, htrim, gatewayObject]
  by_cases hdata : Str.startsWith line "data: " = true
  · obtain ⟨rest, rfl⟩ : Str.ofString "data: " <+: line := List.isPrefixOf_iff_prefix.1 hdata
    have hrest : Encodes (rest.dropWhile (· == 32)) := fun c hc =>
      h.encodes c (List.mem_append_right _ ((List.dropWhile_sublist _).subset hc))
    have hpayload : ((Str.bytes (Str.ofString "data: " ++ rest)).drop dataMarker.length).dropWhile (· == 32) =
        Str.bytes (rest.dropWhile (· == 32)) := by
      rw [Str.bytes_append, bytes_dataMarker, List.drop_left]
      exact dropWhile_bytes (c := 32) (by decide)
    have hobject : objectAt rt (Str.ofString "data: " ++ rest) = objectIn rt rest := by
      rw [objectAt, if_pos (by simp [Str.startsWith, Str.ofString])]
      exact objectIn_space rest
    rw [if_pos (hmarker.2 hdata), if_pos hdata, hobject, hpayload]
    dsimp only
    split
    · rename_i hdone
      rw [← bytes_doneMark] at hdone
      have hback : rest.dropWhile (· == 32) = doneMark :=
        Option.some.inj ((decodeUtf8_bytes hrest).symm.trans (hdone ▸ decodeUtf8_bytes (by decide)))
      rw [← objectIn_dropWhile, hback, objectIn_doneMark]
      rfl
    · rw [Option.bind_some, objectOf_bytes hrest, objectIn_dropWhile]
  · rw [if_neg (mt hmarker.1 hdata), if_neg hdata]
    rfl

theorem bytes_whole (line : Line) : Str.bytes line.whole = Str.bytes line.text ++ line.ending.cr ++ [10] := by
  obtain ⟨text, ending⟩ := line
  cases ending <;> simp [Line.whole, LineEnd.text, LineEnd.cr] <;> decide

theorem IsLine.not_mem_bytes (h : IsLine line) : (10 : UInt8) ∉ Str.bytes line :=
  fun hmem => h.lf ((mem_bytes (c := 10) (by decide)).1 hmem)

theorem IsLine.not_mem_ended (h : IsLine line) (ending : LineEnd) : (10 : UInt8) ∉ Str.bytes line ++ ending.cr := by
  cases ending <;> simpa [LineEnd.cr] using h.not_mem_bytes

/-- The objects among the payloads of a buffer. -/
def passedObjects (rt : Runtime) (buf : Bytes) : List Dict := (payloadsOf buf).filterMap (objectOf rt)

theorem passedObjects_eq (buf : Bytes) : passedObjects rt buf =
    (splitLines buf).1.filterMap fun line => (payloadOf line).bind (objectOf rt) :=
  List.filterMap_filterMap

theorem passedObjects_lines {lines : List Line} (h : ∀ line ∈ lines, IsLine line.text) (rest : Bytes) :
    passedObjects rt (Str.bytes (lines.flatMap Line.whole) ++ rest) =
      (lines.map Line.text).filterMap (gatewayObject rt) ++ passedObjects rt rest := by
  induction lines with
  | nil => rfl
  | cons line lines ih =>
    have hline := h line List.mem_cons_self
    have ih := ih fun line' hline' => h line' (List.mem_cons_of_mem line hline')
    rw [passedObjects_eq] at ih
    rw [passedObjects_eq, List.flatMap_cons, Str.bytes_append, bytes_whole, List.append_assoc, List.append_assoc,
      List.singleton_append, splitLines_line (hline.not_mem_ended _), List.filterMap_cons, payloadOf_bytes hline, ih,
      List.map_cons, List.filterMap_cons]
    cases gatewayObject rt line.text <;> rfl

theorem Block.whole_eq (block : Block) :
    block.whole = (block.lines ++ [Line.mk [] block.blank]).flatMap Line.whole := by
  simp [Block.whole, Line.whole]

theorem Block.isLine {block : Block} (h : ∀ line ∈ block.lines, IsLine line.text) :
    ∀ line ∈ block.lines ++ [Line.mk [] block.blank], IsLine line.text := by
  intro line hline
  obtain hline | hline := List.mem_append.1 hline
  · exact h line hline
  · exact List.mem_singleton.1 hline ▸ IsLine.nil

theorem passedObjects_blocks {blocks : List Block} (h : ∀ block ∈ blocks, ∀ line ∈ block.lines, IsLine line.text)
    (rest : Bytes) :
    passedObjects rt (Str.bytes (blocks.flatMap Block.whole) ++ rest) =
      (blocks.flatMap fun block => block.lines.map Line.text ++ [[]]).filterMap (gatewayObject rt) ++
        passedObjects rt rest := by
  induction blocks with
  | nil => rfl
  | cons block blocks ih =>
    have hlines := Block.isLine (h block List.mem_cons_self)
    rw [List.flatMap_cons, Str.bytes_append, List.append_assoc, block.whole_eq, passedObjects_lines hlines,
      ih fun block' hblock' => h block' (List.mem_cons_of_mem block hblock')]
    simp only [List.map_append, List.map_cons, List.map_nil, List.flatMap_cons, List.filterMap_append,
      List.append_assoc]

end

namespace EventStream.WellFormed

variable {rt : Runtime} {stream : EventStream} (h : stream.WellFormed rt)

include h

theorem block_line : ∀ block ∈ stream.blocks, ∀ line ∈ block.lines, IsLine line.text :=
  fun _ hblock _ hline => h.lines _ (List.mem_append_left _ (List.mem_map_of_mem hblock)) _ (List.mem_map_of_mem hline)

theorem last_line : ∀ line ∈ stream.last, IsLine line.text :=
  fun _ hline => h.lines _ (List.mem_append_right _ (List.mem_singleton.2 rfl)) _
    (List.mem_append_left _ (List.mem_map_of_mem hline))

theorem rest_line : IsLine stream.rest := by
  by_cases hrest : stream.rest = []
  · exact hrest ▸ IsLine.nil
  · refine h.lines _ (List.mem_append_right _ (List.mem_singleton.2 rfl)) _ (List.mem_append_right _ ?_)
    rw [if_neg hrest]
    exact List.mem_singleton.2 rfl

theorem gateway_objects : passedObjects rt stream.text.bytes = stream.ended.filterMap (gatewayObject rt) := by
  have hrest : passedObjects rt stream.rest.bytes = [] := by
    rw [passedObjects_eq, splitLines_of_notMem h.rest_line.not_mem_bytes]
    rfl
  rw [EventStream.text, Str.bytes_append, Str.bytes_append, List.append_assoc, passedObjects_blocks h.block_line,
    passedObjects_lines h.last_line, hrest, List.append_nil, EventStream.ended, List.filterMap_append]

end EventStream.WellFormed

/-! ## The lines of the worker -/

section

variable {line : Str}

theorem splitlinesFrom_cons {c : CodePoint} (hc : c ≠ 13) (s : Str) : Str.splitlinesFrom line (c :: s) =
    if Str.isLineBreak c then line :: Str.splitlinesFrom [] s else Str.splitlinesFrom (line ++ [c]) s := by
  rw [Str.splitlinesFrom]
  exact fun _ h => absurd h hc

theorem splitlinesFrom_ending (ending : LineEnd) (s : Str) :
    Str.splitlinesFrom line (ending.text ++ s) = line :: Str.splitlinesFrom [] s := by
  cases ending with
  | lf => exact splitlinesFrom_cons (by decide) s
  | crlf => rfl

theorem splitlinesFrom_whole {text : Str} (hcr : (13 : CodePoint) ∉ text) (ending : LineEnd) (s : Str) :
    Str.splitlinesFrom line (text ++ (ending.text ++ s)) = piecesFrom line text ++ Str.splitlinesFrom [] s := by
  induction text generalizing line with
  | nil => exact splitlinesFrom_ending ending s
  | cons c text ih =>
    obtain ⟨hc, htext⟩ := not_or.1 (mt List.mem_cons.2 hcr)
    rw [List.cons_append, splitlinesFrom_cons (Ne.symm hc), piecesFrom]
    split
    · rw [ih htext]
      rfl
    · exact ih htext

theorem splitlinesFrom_rest {text : Str} (hcr : (13 : CodePoint) ∉ text) :
    piecesFrom line text = Str.splitlinesFrom line text ∨
      piecesFrom line text = Str.splitlinesFrom line text ++ [[]] := by
  induction text generalizing line with
  | nil =>
    rw [piecesFrom, Str.splitlinesFrom]
    split
    · rename_i hline
      exact .inr (by rw [hline]; rfl)
    · exact .inl rfl
  | cons c text ih =>
    obtain ⟨hc, htext⟩ := not_or.1 (mt List.mem_cons.2 hcr)
    rw [splitlinesFrom_cons (Ne.symm hc), piecesFrom]
    split
    · exact (ih htext).imp (congrArg (line :: ·)) (congrArg (line :: ·))
    · exact ih htext

theorem splitlines_lines {lines : List Line} (h : ∀ line ∈ lines, IsLine line.text) (s : Str) :
    Str.splitlines (lines.flatMap Line.whole ++ s) =
      (lines.map Line.text).flatMap (piecesFrom []) ++ Str.splitlines s := by
  unfold Str.splitlines
  induction lines with
  | nil => rfl
  | cons line lines ih =>
    rw [List.flatMap_cons, List.append_assoc, Line.whole, List.append_assoc,
      splitlinesFrom_whole (h line List.mem_cons_self).cr,
      ih fun line' hline' => h line' (List.mem_cons_of_mem line hline'),
      List.map_cons, List.flatMap_cons, List.append_assoc]

theorem dataGroups_blank (dataLines : List Str) (lines lines' : List Str) :
    dataGroups dataLines (lines ++ [] :: lines') = dataGroups dataLines lines ++ dataGroups [] lines' := by
  induction lines generalizing dataLines with
  | nil => rfl
  | cons line lines ih =>
    rw [List.cons_append, dataGroups, dataGroups]
    split
    · rw [ih, List.cons_append]
    · split
      · exact ih _
      · exact ih _

end

section

variable {α : Type} {f : List Str → List α}

theorem EventStream.WellFormed.read_eq {rt : Runtime} {stream : EventStream} (h : stream.WellFormed rt)
    (hf : f [] = []) :
    (dataGroups [] stream.text.splitlines).flatMap f = stream.events.flatMap (readPieces f) := by
  have hblocks := h.block_line
  have hlast : (dataGroups [] (Str.splitlines (stream.last.flatMap Line.whole ++ stream.rest))).flatMap f =
      readPieces f (stream.last.map Line.text ++ if stream.rest = [] then [] else [stream.rest]) := by
    rw [splitlines_lines h.last_line, readPieces, List.flatMap_append]
    by_cases hrest : stream.rest = []
    · rw [if_pos hrest, hrest]
      rfl
    · rw [if_neg hrest, List.flatMap_singleton, Str.splitlines]
      obtain heq | heq := @splitlinesFrom_rest [] stream.rest h.rest_line.cr
      · rw [heq]
      · rw [heq, ← List.append_assoc, dataGroups_blank, List.flatMap_append]
        simp [dataGroups, hf]
  rw [EventStream.text, EventStream.events, List.append_assoc, List.flatMap_append, List.flatMap_singleton, ← hlast]
  generalize stream.last.flatMap Line.whole ++ stream.rest = s
  generalize stream.blocks = blocks at hblocks
  clear hlast h
  induction blocks with
  | nil => rfl
  | cons block blocks ih =>
    have hlines := Block.isLine (hblocks block List.mem_cons_self)
    have hpieces : ((block.lines ++ [Line.mk [] block.blank]).map Line.text).flatMap (piecesFrom []) =
        (block.lines.map Line.text).flatMap (piecesFrom []) ++ [[]] := by
      rw [List.map_append, List.flatMap_append]
      rfl
    rw [List.flatMap_cons, List.append_assoc, block.whole_eq, splitlines_lines hlines, hpieces, List.append_assoc,
      List.singleton_append, dataGroups_blank, List.flatMap_append,
      ih fun block' hblock' => hblocks block' (List.mem_cons_of_mem block hblock'), List.map_cons, List.flatMap_cons,
      List.append_assoc]
    rfl

end

/-! ## Events whose lines are not cut -/

section

variable {α : Type} {p : α → Bool} {a z : α} {pad pad' l : List α}

theorem dropWhile_pad (hpad : ∀ c ∈ pad, p c = true) (ha : p a = false) : (pad ++ a :: l).dropWhile p = a :: l := by
  rw [List.dropWhile_append_of_pos hpad, List.dropWhile_cons_of_neg (by simp [ha])]

theorem rdropWhile_append (hz : p z = false) (l s : List α) :
    ((l ++ [z]) ++ s).rdropWhile p = (l ++ [z]) ++ s.rdropWhile p := by
  induction s using List.reverseRecOn with
  | nil => rw [List.append_nil, List.rdropWhile_concat_neg _ _ _ (by simp [hz]), List.rdropWhile_nil, List.append_nil]
  | append_singleton s y ih =>
    rw [← List.append_assoc]
    by_cases hy : p y
    · rw [List.rdropWhile_concat_pos _ _ _ hy, ih, List.rdropWhile_concat_pos _ _ _ hy]
    · rw [List.rdropWhile_concat_neg _ _ _ hy, List.rdropWhile_concat_neg _ _ _ hy, List.append_assoc]

theorem rdropWhile_pad (hpad : ∀ c ∈ pad, p c = true) (hz : p z = false) :
    ((l ++ [z]) ++ pad).rdropWhile p = l ++ [z] := by
  rw [rdropWhile_append hz, List.rdropWhile_eq_nil_iff.2 hpad, List.append_nil]

theorem stripBy_pad (hpad : ∀ c ∈ pad, p c = true) (hpad' : ∀ c ∈ pad', p c = true) (ha : p a = false)
    (hz : p z = false) : stripBy p (pad ++ (a :: (l ++ [z])) ++ pad') = a :: (l ++ [z]) := by
  rw [stripBy, List.append_assoc, List.cons_append, dropWhile_pad hpad ha]
  exact rdropWhile_pad (l := a :: l) hpad' hz

end

section

variable {rt : Runtime} {line : Str} {event : List Str}

theorem piecesFrom_unbroken {s : Str} (h : ∀ c ∈ s, Str.isLineBreak c = false) (line : Str) :
    piecesFrom line s = [line ++ s] := by
  induction s generalizing line with
  | nil => rw [piecesFrom, List.append_nil]
  | cons c s ih =>
    rw [piecesFrom, if_neg (by simp [h c List.mem_cons_self]), ih fun d hd => h d (List.mem_cons_of_mem c hd),
      List.append_assoc]
    rfl

theorem Unbroken.pieces (h : Unbroken event) : event.flatMap (piecesFrom []) = event := by
  induction event with
  | nil => rfl
  | cons line event ih =>
    rw [List.flatMap_cons, piecesFrom_unbroken (h line List.mem_cons_self),
      ih fun line' hline' => h line' (List.mem_cons_of_mem line hline')]
    rfl

theorem IsField.head (h : IsField line) : ∃ c s, line = c :: s ∧ isSpace c.val = false ∧ c ≠ 0x64 := by
  obtain ⟨name, hname, rest, rfl⟩ := h
  simp only [List.mem_cons, List.not_mem_nil, or_false] at hname
  obtain rfl | rfl | rfl | rfl := hname
  · exact ⟨0x65, Str.ofString "vent:" ++ rest, rfl, rfl, by decide⟩
  · exact ⟨0x69, Str.ofString "d:" ++ rest, rfl, rfl, by decide⟩
  · exact ⟨0x72, Str.ofString "etry:" ++ rest, rfl, rfl, by decide⟩
  · exact ⟨0x3A, rest, rfl, rfl, by decide⟩

theorem strip_cons {c : CodePoint} (hc : isSpace c.val = false) (s : Str) : ∃ s', Str.strip (c :: s) = c :: s' := by
  rw [Str.strip, stripBy, List.dropWhile_cons_of_neg (by simp [hc])]
  exact ⟨_, rdropWhile_append (z := c) hc [] s⟩

theorem startsWith_data {c : CodePoint} (hc : c ≠ 0x64) (s : Str) : Str.startsWith (c :: s) "data:" = false := by
  have hdata : Str.ofString "data:" = 0x64 :: Str.ofString "ata:" := rfl
  rw [Str.startsWith, hdata, List.isPrefixOf_cons_cons]
  simp [Ne.symm hc]

theorem dataGroups_fields {fields : List Str} (h : ∀ line ∈ fields, IsField line) (dataLines lines : List Str) :
    dataGroups dataLines (fields ++ lines) = dataGroups dataLines lines := by
  induction fields with
  | nil => rfl
  | cons line fields ih =>
    obtain ⟨c, s, rfl, hspace, hc⟩ := (h line List.mem_cons_self).head
    obtain ⟨s', hstrip⟩ := strip_cons hspace s
    rw [List.cons_append, dataGroups, hstrip, if_neg (List.cons_ne_nil _ _), if_neg (by simp [startsWith_data hc]),
      ih fun line' hline' => h line' (List.mem_cons_of_mem _ hline')]

theorem objectAt_field (h : IsField line) : objectAt rt line = none := by
  obtain ⟨c, s, rfl, -, hc⟩ := h.head
  rw [objectAt, if_neg (by simp [startsWith_data hc])]

theorem strip_data (x : Str) : Str.strip (Str.ofString "data:" ++ x) =
    Str.ofString "data:" ++ x.rdropWhile fun c => isSpace c.val := by
  have hdata : Str.ofString "data:" = Str.ofString "data" ++ [0x3A] := rfl
  rw [Str.strip, stripBy, hdata]
  exact rdropWhile_append (z := 0x3A) rfl (Str.ofString "data") x

theorem isSpace_of_isJsonSpace {c : CodePoint} (h : isSpace c.val = false) : isJsonSpace c = false := by
  simp only [isSpace, isJsonSpace, Bool.or_eq_false_iff, Bool.and_eq_false_iff, decide_eq_false_iff_not,
    beq_eq_false_iff_ne] at h ⊢
  omega

theorem IsData.read (h : IsData rt line) : ∃ core, line.strip ≠ [] ∧ Str.startsWith line.strip "data:" = true ∧
    (Str.removePre line.strip "data:").strip = core ∧
    (core = doneMark ∧ objectAt rt line = none ∨
      core ≠ doneMark ∧ ∃ d, rt.loads core = .value (.dict d) ∧ objectAt rt line = some d) := by
  obtain ⟨pad, core, pad', rfl, hpad, hcore⟩ := h
  obtain ⟨a, inner, z, hshape, ha, hz⟩ : ∃ a inner z, core = a :: (inner ++ [z]) ∧
      isSpace a.val = false ∧ isSpace z.val = false := by
    obtain rfl | ⟨⟨inner, rfl⟩, -⟩ := hcore
    · exact ⟨0x5B, Str.ofString "DONE", 0x5D, rfl, rfl, rfl⟩
    · exact ⟨0x7B, inner, 0x7D, rfl, rfl, rfl⟩
  have hspace : ∀ c ∈ pad ++ pad', isSpace c.val = true := by
    intro c hc
    obtain rfl | rfl := hpad c hc <;> rfl
  have hjson : ∀ c ∈ pad ++ pad', isJsonSpace c = true := by
    intro c hc
    obtain rfl | rfl := hpad c hc <;> rfl
  obtain ⟨hpadL, hpadR⟩ := List.forall_mem_append.1 hspace
  obtain ⟨hjsonL, hjsonR⟩ := List.forall_mem_append.1 hjson
  have hstart : ∀ s : Str, Str.startsWith (Str.ofString "data:" ++ s) "data:" = true := fun s =>
    List.isPrefixOf_iff_prefix.2 (List.prefix_append _ s)
  have hright : (pad ++ core ++ pad').rdropWhile (fun c => isSpace c.val) = pad ++ core := by
    rw [hshape, show pad ++ a :: (inner ++ [z]) = (pad ++ a :: inner) ++ [z] by simp]
    exact rdropWhile_pad hpadR hz
  have hstrip : Str.strip (pad ++ core) = core := by
    rw [hshape, Str.strip, ← List.append_nil (pad ++ _)]
    exact stripBy_pad hpadL (fun c hc => absurd hc List.not_mem_nil) ha hz
  have hobject : stripBy isJsonSpace (pad ++ core ++ pad') = core := by
    rw [hshape]
    exact stripBy_pad hjsonL hjsonR (isSpace_of_isJsonSpace ha) (isSpace_of_isJsonSpace hz)
  have hremove : Str.removePre (Str.ofString "data:" ++ (pad ++ core)) "data:" = pad ++ core := by
    rw [Str.removePre, if_pos (hstart _), List.drop_left]
  have hat : objectAt rt (Str.ofString "data:" ++ (pad ++ core ++ pad')) = objectIn rt (pad ++ core ++ pad') := by
    rw [objectAt, if_pos (hstart _)]
    rfl
  refine ⟨core, ?_, ?_, ?_, ?_⟩
  · rw [strip_data]
    exact fun hnil => absurd (List.append_eq_nil_iff.1 hnil).1 (by decide)
  · rw [strip_data, hright]
    exact hstart _
  · rw [strip_data, hright, hremove, hstrip]
  · rw [hat, objectIn, hobject]
    obtain rfl | ⟨⟨inner', rfl⟩, d, hd⟩ := hcore
    · exact .inl ⟨rfl, if_neg (by decide)⟩
    · refine .inr ⟨fun hdone => ?_, d, hd, ?_⟩
      · exact absurd (congrArg List.head? hdone) (by rw [List.head?_cons]; decide)
      · rw [List.head?_cons, if_pos rfl, hd]

theorem filterMap_fields {fields : List Str} (h : ∀ line ∈ fields, IsField line) :
    fields.filterMap (objectAt rt) = [] :=
  List.filterMap_eq_nil_iff.2 fun line hline => objectAt_field (h line hline)

theorem IsEvent.read (h : IsEvent rt event) (hunbroken : Unbroken event) :
    readPieces (eventDicts rt) event = (event.filterMap (objectAt rt)).filter (· ≠ []) ∧
      ∀ s ∈ readPieces (eventAttempts rt) event, Loads rt s := by
  obtain ⟨before, data, after, rfl, hfields, hdata⟩ := h
  obtain ⟨hbefore, hafter⟩ := List.forall_mem_append.1 hfields
  obtain ⟨core, hne, hstart, hremove, hcore⟩ := hdata.read
  have hgroups : dataGroups [] (before ++ data :: after) = [[core]] := by
    rw [dataGroups_fields hbefore, dataGroups, if_neg hne, if_pos hstart, hremove, ← List.append_nil after,
      dataGroups_fields hafter]
    rfl
  have hobjects : (before ++ data :: after).filterMap (objectAt rt) = (objectAt rt data).toList := by
    rw [List.filterMap_append, List.filterMap_cons, filterMap_fields hbefore, filterMap_fields hafter]
    cases objectAt rt data <;> rfl
  have hjoin : Str.join "\n" [core] = core := by simp [Str.join]
  rw [readPieces, readPieces, hunbroken.pieces, hgroups, hobjects, List.flatMap_singleton, List.flatMap_singleton]
  obtain ⟨rfl, hobject⟩ | ⟨hdone, d, hd, hobject⟩ := hcore
  · rw [hobject, eventDicts, eventAttempts, if_pos (.inr rfl), if_pos (.inr rfl)]
    exact ⟨rfl, fun s hs => absurd hs List.not_mem_nil⟩
  · have hdict : dictOf rt core = d := by rw [dictOf, hd]
    have hloads : Loads rt core := by simp [Loads, hd]
    have hneither : ¬ ([core] = [] ∨ [core] = [doneMark]) := by simp [hdone]
    rw [hobject, eventDicts, eventAttempts, if_neg hneither, if_neg hneither, hjoin, hdict]
    by_cases hempty : d = []
    · simp [hempty, lineEvents, lineAttempts, hdone, hdict, hloads]
    · simp [hempty, hloads]

end

theorem EventStream.WellFormed.worker_events {rt : Runtime} {stream : EventStream} (h : stream.WellFormed rt) :
    Yields (loadSseJsonEvents rt stream.text)
      (∀ event ∈ stream.events, ¬ Unbroken event → ∀ s ∈ readPieces (eventAttempts rt) event, Loads rt s)
      (stream.events.flatMap (workerObjects rt)) := by
  have hplain : ∀ event ∈ stream.events, Unbroken event →
      readPieces (eventDicts rt) event = (event.filterMap (objectAt rt)).filter (· ≠ []) ∧
        ∀ s ∈ readPieces (eventAttempts rt) event, Loads rt s := by
    intro event hevent hunbroken
    obtain rfl | hevent := h.events event hevent
    · exact ⟨rfl, fun s hs => absurd hs (by simp [readPieces, dataGroups, eventAttempts])⟩
    · exact hevent.read hunbroken
  have hevents : sseEvents rt stream.text = stream.events.flatMap (workerObjects rt) := by
    rw [sseEvents, h.read_eq rfl]
    refine List.flatMap_congr fun event hevent => ?_
    rw [workerObjects]
    split
    · rename_i hunbroken
      exact (hplain event hevent hunbroken).1
    · rfl
  refine (loadSseJsonEvents_yields rt stream.text).congr ?_ fun _ => hevents
  rw [sseAttempts, h.read_eq rfl]
  simp only [List.mem_flatMap, forall_exists_index, and_imp]
  constructor
  · exact fun hloads event hevent _ s hs => hloads s event hevent hs
  · intro hloads s event hevent hs
    by_cases hunbroken : Unbroken event
    · exact (hplain event hevent hunbroken).2 s hs
    · exact hloads event hevent hunbroken s hs

namespace EventStream

variable {rt : Runtime} (stream : EventStream)

theorem ended_objects : stream.ended.filterMap (gatewayObject rt) =
    (stream.lines.filter SpacedAndEnded).filterMap fun x => objectAt rt x.1 := by
  have hended (l : List Line) : ((l.map fun line => (line.text, true)).filter SpacedAndEnded).filterMap
      (fun x => objectAt rt x.1) = (l.map Line.text).filterMap (gatewayObject rt) := by
    simp [List.filterMap_filter, List.filterMap_map, Function.comp_def, gatewayObject, SpacedAndEnded]
  have hblocks : (stream.blocks.flatMap fun block => block.lines.map Line.text ++ [[]]).filterMap (gatewayObject rt) =
      ((stream.blocks.flatMap Block.lines).map Line.text).filterMap (gatewayObject rt) := by
    induction stream.blocks with
    | nil => rfl
    | cons block blocks ih =>
      have hblank : gatewayObject rt [] = none := rfl
      simp [List.filterMap_append, ih, hblank]
  have hrest : (if stream.rest = [] then [] else [(stream.rest, false)]).filter SpacedAndEnded = [] := by
    split <;> simp [SpacedAndEnded]
  rw [ended, lines, List.filter_append, hrest, List.append_nil, hended, List.map_append, List.filterMap_append,
    List.filterMap_append, hblocks]

theorem unbroken_objects (h : ∀ event ∈ stream.events, Unbroken event) : stream.events.flatMap (workerObjects rt) =
    (stream.lines.filterMap fun x => objectAt rt x.1).filter (· ≠ []) := by
  have hlines : stream.lines.map Prod.fst = stream.events.flatten := by
    rw [lines, events]
    by_cases hrest : stream.rest = [] <;> simp [hrest, List.flatMap_def, Function.comp_def]
  have hobjects : (stream.lines.filterMap fun x => objectAt rt x.1) =
      stream.events.flatten.filterMap (objectAt rt) := by
    rw [← hlines, List.filterMap_map]
    rfl
  rw [hobjects]
  generalize stream.events = events at h
  induction events with
  | nil => rfl
  | cons event events ih =>
    obtain ⟨hevent, hevents⟩ := List.forall_mem_cons.1 h
    rw [List.flatMap_cons, ih hevents, workerObjects, if_pos hevent, List.flatten_cons, List.filterMap_append,
      List.filter_append]

end EventStream

/-- The text of a chunk. -/
def chunkText : Str := "\x7b\"id\":\"chatcmpl-1\"\x7d"

def chunk : Dict := [("id", .str "chatcmpl-1")]

/-- An interpreter that knows this chunk. -/
def chunkRuntime : Runtime := plainRuntime [(chunkText, .dict chunk)]

theorem isEvent_data {rt : Runtime} {line : Str} (h : IsData rt line) : IsEvent rt [line] :=
  ⟨[], line, [], rfl, fun _ hfield => absurd hfield List.not_mem_nil, h⟩

theorem isData_chunk (pad : Str) (hpad : ∀ c ∈ pad, c = 32 ∨ c = 9) :
    IsData chunkRuntime (Str.ofString "data:" ++ (pad ++ chunkText ++ [])) :=
  ⟨pad, chunkText, [], rfl, by simpa using hpad,
    .inr ⟨⟨Str.ofString "\"id\":\"chatcmpl-1\"", rfl⟩, chunk, by simp [chunkRuntime, plainRuntime]⟩⟩

/-- A stream as it is usually sent. -/
def usualStream : EventStream where
  blocks := [⟨[⟨"data: \x7b\"id\":\"chatcmpl-1\"\x7d", .lf⟩], .lf⟩, ⟨[⟨"data: [DONE]", .crlf⟩], .crlf⟩]

theorem usualStream_wellFormed : usualStream.WellFormed chunkRuntime where
  lines := by decide
  events := by
    have hevents : usualStream.events =
        [[Str.ofString "data: \x7b\"id\":\"chatcmpl-1\"\x7d"], [Str.ofString "data: [DONE]"], []] := rfl
    rw [hevents]
    simp only [List.forall_mem_cons, List.not_mem_nil, false_imp_iff, implies_true, and_true, true_or]
    refine ⟨.inr (isEvent_data (isData_chunk [32] (by simp))), .inr (isEvent_data ?_)⟩
    exact ⟨[32], doneMark, [], rfl, by simp, .inl rfl⟩

def unspacedStream : EventStream where
  blocks := [⟨[⟨"data:\x7b\"id\":\"chatcmpl-1\"\x7d", .lf⟩], .lf⟩]

end AuditGateway.Streams
