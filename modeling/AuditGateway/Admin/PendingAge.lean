import AuditGateway.Framework.Cursor
import AuditGateway.Go.Strings
import AuditGateway.Python.Strip

/-!
# The age of the oldest pending entry

Both the admin interface and the worker report for how long the entry that waits longest has been pending. They read
the pending entries in pages, each after the last entry of the page before, and take the largest idle time: the
gateway in seconds, entry by entry; the worker in milliseconds within a page and in seconds across pages.
-/

namespace AuditGateway.Admin

open AuditGateway.Framework AuditGateway.Go AuditGateway.Python

/-! ## Pending entries -/

/-- The id of an entry of a stream: milliseconds, and a number within them. -/
abbrev StreamId := Nat ×ₗ Nat

def StreamId.text (id : StreamId) : String := toString (ofLex id).1 ++ "-" ++ toString (ofLex id).2

/-- A pending entry, with the milliseconds since it was delivered. -/
structure PendingEntry where
  id : StreamId
  idle : Nat
deriving DecidableEq

/-- The largest idle time in whole seconds, and 0 if there is none. -/
def oldestSeconds (entries : List PendingEntry) : Nat := (entries.map PendingEntry.idle).foldl max 0 / 1000

/-! ## The gateway -/

/-- The part of `redis.XPendingExt` that is used; the idle time is a `time.Duration`, in nanoseconds. -/
structure XPendingExt where
  id : GoString
  idle : Int

/-- The state of the loop: where the next page starts, the largest idle time, and the entries that were read. -/
structure IdleScan where
  start : GoString
  oldest : Int
  read : List XPendingExt

section

variable {ε : Type}

/-- The loop over the items of a page. -/
def idleSeconds (oldest : Int) (items : List XPendingExt) : Int :=
  items.foldl (fun oldest item =>
    let idleSeconds := item.idle.tdiv 1000000000
    if idleSeconds > oldest then idleSeconds else oldest) oldest

/-- A turn of the loop of `maxPendingIdleSeconds`. -/
def idleTurn (fetchPage : GoString → Int → Except ε (List XPendingExt)) (pageSize : Int) (s : IdleScan) :
    (Except ε Int × List XPendingExt) ⊕ IdleScan :=
  match fetchPage s.start pageSize with
  | .error e => .inl (.error e, s.read)
  | .ok items =>
    let read := s.read ++ items
    match items.getLast? with
    | none => .inl (.ok s.oldest, read)
    | some last =>
      let oldest := idleSeconds s.oldest items
      if items.length < pageSize then .inl (.ok oldest, read)
      else if trimSpace last.id = [] then .inl (.ok oldest, read)
      else .inr ⟨40 :: last.id, oldest, read⟩

/-- The result has the entries that were read. -/
def maxPendingIdleSeconds (fetchPage : GoString → Int → Except ε (List XPendingExt)) (pageSize : Int) (turns : Nat) :
    Option (Except ε Int × List XPendingExt) :=
  loop (idleTurn fetchPage (if pageSize ≤ 0 then 100 else pageSize)) turns ⟨ascii "-", 0, []⟩

end

/-! ## The worker -/

/-- The keys of an entry in a reply that are used. -/
structure PendingReply where
  messageId : Option String
  id : Option String
  timeSinceDelivered : Option Int

/-- The loop of `_oldest_pending_age_seconds`. -/
def deliveredMs (oldestMs : Int) (entries : List PendingReply) : Int :=
  entries.foldl (fun oldestMs entry =>
    let deliveredMs := entry.timeSinceDelivered.getD 0
    if deliveredMs > oldestMs then deliveredMs else oldestMs) oldestMs

def oldestPendingAgeSeconds (entries : List PendingReply) : Int := deliveredMs 0 entries / 1000

def pendingEntryId (entry : PendingReply) : String := (entry.messageId.or entry.id).getD ""

/-- `redis_client.xpending_range`: the stream, the group, the bounds and the number of entries. -/
abbrev XPendingRange := String → String → String → String → Int → List PendingReply

structure AgeScan where
  start : String
  oldestSeconds : Int
  read : List PendingReply

/-- A turn of the loop of `_sample_oldest_pending_age_seconds`. -/
def ageTurn (xpendingRange : XPendingRange) (streamName groupName : String) (pageSize : Int) (s : AgeScan) :
    (Int × List PendingReply) ⊕ AgeScan :=
  let pendingEntries := xpendingRange streamName groupName s.start "+" pageSize
  let read := s.read ++ pendingEntries
  let oldestSeconds := max s.oldestSeconds (oldestPendingAgeSeconds pendingEntries)
  if pendingEntries.length < pageSize then .inl (oldestSeconds, read)
  else
    match pendingEntries.getLast? with
    | none => .inl (oldestSeconds, read)
    | some last =>
      let lastId := strip (pendingEntryId last)
      if lastId = "" then .inl (oldestSeconds, read) else .inr ⟨"(" ++ lastId, oldestSeconds, read⟩

/-- Without a client the age is 0. -/
def sampleOldestPendingAgeSeconds (redisClient : Option XPendingRange) (streamName groupName : String) (pageSize : Int)
    (turns : Nat) : Option (Int × List PendingReply) :=
  match redisClient with
  | none => some (0, [])
  | some xpendingRange =>
    loop (ageTurn xpendingRange streamName groupName (if pageSize ≤ 0 then 100 else pageSize)) turns ⟨"-", 0, []⟩

/-! ## Range reads -/

/-- The start of a page: of the first, or after an entry. -/
def startText : Option PendingEntry → String
  | none => "-"
  | some last => "(" ++ last.id.text

def PendingEntry.toGo (entry : PendingEntry) : XPendingExt := ⟨ascii entry.id.text, entry.idle * 1000000⟩

def PendingEntry.toPython (entry : PendingEntry) : PendingReply := ⟨some entry.id.text, none, some entry.idle⟩

/-- The first entries after an exclusive start. -/
def rangeRead (entries : List PendingEntry) (last : Option PendingEntry) (count : Int) : List PendingEntry :=
  (entriesAfter PendingEntry.id entries last).take count.toNat

/-- The gateway reads ranges of these entries. -/
def GoReads {ε : Type} (entries : List PendingEntry) (fetchPage : GoString → Int → Except ε (List XPendingExt)) :
    Prop :=
  ∀ last, (∀ entry ∈ last, entry ∈ entries) → ∀ count > 0,
    fetchPage (ascii (startText last)) count = .ok ((rangeRead entries last count).map PendingEntry.toGo)

/-- The worker reads ranges of these entries. -/
def PythonReads (entries : List PendingEntry) (xpendingRange : XPendingRange) (streamName groupName : String) : Prop :=
  ∀ last, (∀ entry ∈ last, entry ∈ entries) → ∀ count > 0,
    xpendingRange streamName groupName (startText last) "+" count =
      (rangeRead entries last count).map PendingEntry.toPython

/-! ## Texts of ids -/

theorem text_toList (id : StreamId) : ∀ c ∈ id.text.toList, c.isDigit = true ∨ c = '-' := by
  intro c hc
  simp only [StreamId.text, Nat.toString_eq_repr, String.toList_append, Nat.toList_repr, List.mem_append] at hc
  obtain (hc | hc) | hc := hc
  · exact .inl (Nat.isDigit_of_mem_toDigits (b := 10) (by decide) (by decide) hc)
  · exact .inr (List.mem_singleton.1 hc)
  · exact .inl (Nat.isDigit_of_mem_toDigits (b := 10) (by decide) (by decide) hc)

theorem text_ne_nil (id : StreamId) : id.text.toList ≠ [] := by simp [StreamId.text]

theorem visible_text (id : StreamId) {c : Char} (hc : c ∈ id.text.toList) : 0x21 ≤ c.toNat ∧ c.toNat < 0x80 := by
  obtain h | rfl := text_toList id c hc
  · have hzero : '0'.toNat = 48 := rfl
    have hnine : '9'.toNat = 57 := rfl
    simp only [Char.isDigit, Bool.and_eq_true, decide_eq_true_eq, ge_iff_le, UInt32.le_iff_toNat_le,
      Char.toNat_val] at h
    omega
  · decide

theorem trimSpace_text (id : StreamId) : trimSpace (ascii id.text) ≠ [] := by
  have hgraph : Graph (ascii id.text) := by
    refine List.forall_mem_map.2 fun c hc => ?_
    obtain ⟨hlow, hhigh⟩ := visible_text id hc
    rw [UInt8.le_iff_toNat_le, UInt8.lt_iff_toNat_lt, UInt8.toNat_ofNat_of_lt' (Nat.lt_trans hhigh (by decide))]
    exact ⟨hlow, hhigh⟩
  rw [trimSpace_of_graph hgraph]
  exact fun h => text_ne_nil id (List.map_eq_nil_iff.1 h)

theorem strip_text (id : StreamId) : strip id.text = id.text := by
  have hspace : ∀ c ∈ id.text.toList, ¬ isSpace c.toNat = true := by
    intro c hc
    obtain ⟨hlow, hhigh⟩ := visible_text id hc
    simp only [isSpace, Bool.or_eq_true, Bool.and_eq_true, decide_eq_true_eq, beq_iff_eq]
    omega
  have hfront : id.text.toList.dropWhile (fun c => isSpace c.toNat) = id.text.toList :=
    List.dropWhile_eq_self_iff.2 fun hpos => hspace _ (List.getElem_mem hpos)
  have hback : id.text.toList.rdropWhile (fun c => isSpace c.toNat) = id.text.toList :=
    List.rdropWhile_eq_self_iff.2 fun hne => hspace _ (List.getLast_mem hne)
  rw [strip, stripBy, hfront, hback, String.ofList_toList]

theorem ascii_startText (last : PendingEntry) : ascii (startText (some last)) = 40 :: ascii last.id.text := by
  simp [startText, ascii]

/-! ## Idle times -/

section

variable {entries : List PendingEntry} {ε : Type} {fetchPage : GoString → Int → Except ε (List XPendingExt)}
  {xpendingRange : XPendingRange} {streamName groupName : String} {k n : Nat}

theorem foldl_max (m n : Nat) (l : List Nat) : l.foldl max (max m n) = max m (l.foldl max n) := by
  induction l generalizing n with
  | nil => rfl
  | cons a l ih => rw [List.foldl_cons, List.foldl_cons, ← ih, max_assoc]

theorem foldl_idleSeconds (m : Nat) (entries : List PendingEntry) :
    idleSeconds (m / 1000 : Nat) (entries.map PendingEntry.toGo) =
      ((entries.map PendingEntry.idle).foldl max m / 1000 : Nat) := by
  induction entries generalizing m with
  | nil => rfl
  | cons entry entries ih =>
    have hseconds : (PendingEntry.toGo entry).idle.tdiv 1000000000 = (entry.idle / 1000 : Nat) := by
      have hidle : (PendingEntry.toGo entry).idle = entry.idle * 1000000 := rfl
      rw [hidle, Int.tdiv_eq_ediv_of_nonneg (by omega)]
      omega
    have hmax : (if entry.toGo.idle.tdiv 1000000000 > (m / 1000 : Nat)
        then entry.toGo.idle.tdiv 1000000000 else (m / 1000 : Nat)) = (max m entry.idle / 1000 : Nat) := by
      rw [hseconds]
      split <;> omega
    rw [List.map_cons, List.map_cons, List.foldl_cons, ← ih, ← hmax]
    rfl

theorem foldl_deliveredMs (m : Nat) (entries : List PendingEntry) :
    deliveredMs m (entries.map PendingEntry.toPython) = ((entries.map PendingEntry.idle).foldl max m : Nat) := by
  induction entries generalizing m with
  | nil => rfl
  | cons entry entries ih =>
    have hmax : (if (entry.idle : Int) > m then (entry.idle : Int) else m) = (max m entry.idle : Nat) := by
      split <;> omega
    rw [List.map_cons, List.map_cons, List.foldl_cons, ← ih, ← hmax]
    rfl

theorem max_oldestPendingAgeSeconds (m : Nat) (entries : List PendingEntry) :
    max ((m / 1000 : Nat) : Int) (oldestPendingAgeSeconds (entries.map PendingEntry.toPython)) =
      ((entries.map PendingEntry.idle).foldl max m / 1000 : Nat) := by
  have hpage : deliveredMs 0 (entries.map PendingEntry.toPython) =
      ((entries.map PendingEntry.idle).foldl max 0 : Nat) := foldl_deliveredMs 0 entries
  have hmax := foldl_max m 0 (entries.map PendingEntry.idle)
  rw [Nat.max_zero] at hmax
  rw [oldestPendingAgeSeconds, hpage, hmax]
  omega

/-! ## Pages -/

theorem rangeRead_take (h : entries.Pairwise fun a b => a.id < b.id) (k n : Nat) :
    rangeRead entries (entries.take k).getLast? n = (entries.drop k).take n := by
  rw [rangeRead, after_take h, Int.toNat_natCast]

theorem mem_of_mem_getLast?_take : ∀ entry ∈ (entries.take k).getLast?, entry ∈ entries :=
  fun _ h => List.mem_of_mem_take (List.mem_of_getLast? h)

theorem getLast?_page (hn : 0 < n) (hfull : k + n ≤ entries.length) :
    ((entries.drop k).take n).getLast? = (entries.take (k + n)).getLast? := by
  have hlength : ((entries.drop k).take n).length = n := by
    rw [List.length_take, List.length_drop]
    omega
  have hne : (entries.drop k).take n ≠ [] := List.ne_nil_of_length_pos (Nat.lt_of_lt_of_eq hn hlength.symm)
  rw [List.take_add, List.getLast?_append_of_ne_nil _ hne]

theorem length_page (hk : k ≤ entries.length) :
    ((entries.drop k).take n).length < n ↔ entries.length < k + n := by
  rw [List.length_take, List.length_drop]
  omega

/-- The gateway after `k` entries. -/
def idleScan (entries : List PendingEntry) (k : Nat) : IdleScan where
  start := ascii (startText (entries.take k).getLast?)
  oldest := oldestSeconds (entries.take k)
  read := (entries.take k).map PendingEntry.toGo

/-- The worker after `k` entries. -/
def ageScan (entries : List PendingEntry) (k : Nat) : AgeScan where
  start := startText (entries.take k).getLast?
  oldestSeconds := Admin.oldestSeconds (entries.take k)
  read := (entries.take k).map PendingEntry.toPython

theorem map_take_append {α : Type} (f : PendingEntry → α) (entries : List PendingEntry) (k n : Nat) :
    (entries.take k).map f ++ ((entries.drop k).take n).map f = (entries.take (k + n)).map f := by
  rw [List.take_add, List.map_append]

theorem oldestSeconds_take_add (entries : List PendingEntry) (k n : Nat) :
    oldestSeconds (entries.take (k + n)) = (((entries.drop k).take n).map PendingEntry.idle).foldl max
      (((entries.take k).map PendingEntry.idle).foldl max 0) / 1000 := by
  rw [oldestSeconds, List.take_add, List.map_append, List.foldl_append]

theorem idleTurn_idleScan (hids : entries.Pairwise fun a b => a.id < b.id) (hreads : GoReads entries fetchPage)
    (hn : 0 < n)
    (hk : k ≤ entries.length) :
    idleTurn fetchPage n (idleScan entries k) =
      if entries.length < k + n then .inl (.ok (oldestSeconds entries), entries.map PendingEntry.toGo)
      else .inr (idleScan entries (k + n)) := by
  have hfetch := hreads (entries.take k).getLast? mem_of_mem_getLast?_take n (by omega)
  rw [rangeRead_take hids] at hfetch
  have hread : (idleScan entries k).read ++ _ = _ := map_take_append PendingEntry.toGo entries k n
  have holdest : idleSeconds (idleScan entries k).oldest (((entries.drop k).take n).map PendingEntry.toGo) =
      oldestSeconds (entries.take (k + n)) := by
    rw [oldestSeconds_take_add]
    exact foldl_idleSeconds _ _
  have hstart : (idleScan entries k).start = ascii (startText (entries.take k).getLast?) := rfl
  unfold idleTurn
  simp only [hstart, hfetch, hread, List.getLast?_map, List.length_map, Int.ofNat_lt, length_page hk]
  cases hlast : ((entries.drop k).take n).getLast? with
  | none =>
    have hnil := List.getLast?_eq_none_iff.1 hlast
    have hend : entries.length < k + n := (length_page hk).1 (by rw [hnil]; exact hn)
    rw [hnil, List.take_of_length_le (Nat.le_of_lt hend)] at holdest
    rw [if_pos hend, List.take_of_length_le (Nat.le_of_lt hend), ← holdest]
    rfl
  | some last =>
    rw [Option.map_some]
    dsimp only
    rw [holdest]
    by_cases hend : entries.length < k + n
    · rw [if_pos hend, if_pos hend, List.take_of_length_le (Nat.le_of_lt hend)]
    · rw [getLast?_page hn (Nat.not_lt.1 hend)] at hlast
      have hid : trimSpace last.toGo.id ≠ [] := trimSpace_text last.id
      rw [if_neg hend, if_neg hend, if_neg hid, idleScan, hlast, ascii_startText]
      rfl

theorem ageTurn_ageScan (hids : entries.Pairwise fun a b => a.id < b.id)
    (hreads : PythonReads entries xpendingRange streamName groupName) (hn : 0 < n)
    (hk : k ≤ entries.length) :
    ageTurn xpendingRange streamName groupName n (ageScan entries k) =
      if entries.length < k + n then .inl (oldestSeconds entries, entries.map PendingEntry.toPython)
      else .inr (ageScan entries (k + n)) := by
  have hfetch := hreads (entries.take k).getLast? mem_of_mem_getLast?_take n (by omega)
  rw [rangeRead_take hids] at hfetch
  have hread : (ageScan entries k).read ++ _ = _ := map_take_append PendingEntry.toPython entries k n
  have holdest : max (ageScan entries k).oldestSeconds
      (oldestPendingAgeSeconds (((entries.drop k).take n).map PendingEntry.toPython)) =
      oldestSeconds (entries.take (k + n)) := by
    rw [oldestSeconds_take_add]
    exact max_oldestPendingAgeSeconds _ _
  have hstart : (ageScan entries k).start = startText (entries.take k).getLast? := rfl
  unfold ageTurn
  simp only [hstart, hfetch, hread, holdest, List.getLast?_map, List.length_map, Int.ofNat_lt, length_page hk]
  by_cases hend : entries.length < k + n
  · rw [if_pos hend, if_pos hend, List.take_of_length_le (Nat.le_of_lt hend)]
  · rw [if_neg hend, if_neg hend]
    cases hlast : ((entries.drop k).take n).getLast? with
    | none =>
      have hnil := List.getLast?_eq_none_iff.1 hlast
      exact absurd ((length_page hk).1 (by rw [hnil]; exact hn)) hend
    | some last =>
      have hid : strip (pendingEntryId last.toPython) = last.id.text := strip_text last.id
      have hne : last.id.text ≠ "" := fun h => text_ne_nil last.id (by rw [h]; rfl)
      rw [getLast?_page hn (Nat.not_lt.1 hend)] at hlast
      rw [Option.map_some]
      dsimp only
      rw [hid, if_neg hne, ageScan, hlast]
      rfl

/-! ## Runs -/

theorem pageSize_eq (pageSize : Int) : ∃ n : Nat, 0 < n ∧ (if pageSize ≤ 0 then 100 else pageSize) = n := by
  split
  · exact ⟨100, by decide, rfl⟩
  · exact ⟨pageSize.toNat, by omega, by omega⟩

theorem maxPendingIdleSeconds_eq (hids : entries.Pairwise fun a b => a.id < b.id) (hreads : GoReads entries fetchPage)
    (pageSize : Int)
    {turns : Nat} (hturns : entries.length < turns) :
    maxPendingIdleSeconds fetchPage pageSize turns =
      some (.ok (oldestSeconds entries), entries.map PendingEntry.toGo) := by
  obtain ⟨n, hn, hsize⟩ := pageSize_eq pageSize
  have hzero : (⟨ascii "-", 0, []⟩ : IdleScan) = idleScan entries 0 := by simp [idleScan, startText, oldestSeconds]
  rw [maxPendingIdleSeconds, hsize, hzero]
  exact loop_pages (idleScan entries) hn (fun k => idleTurn_idleScan hids hreads hn) (Nat.zero_le _) hturns

theorem sampleOldestPendingAgeSeconds_eq (hids : entries.Pairwise fun a b => a.id < b.id)
    (hreads : PythonReads entries xpendingRange streamName groupName) (pageSize : Int) {turns : Nat}
    (hturns : entries.length < turns) :
    sampleOldestPendingAgeSeconds (some xpendingRange) streamName groupName pageSize turns =
      some ((oldestSeconds entries : Int), entries.map PendingEntry.toPython) := by
  obtain ⟨n, hn, hsize⟩ := pageSize_eq pageSize
  have hzero : (⟨"-", 0, []⟩ : AgeScan) = ageScan entries 0 := by simp [ageScan, startText, Admin.oldestSeconds]
  rw [sampleOldestPendingAgeSeconds, hsize, hzero]
  exact loop_pages (ageScan entries) hn (fun k => ageTurn_ageScan hids hreads hn) (Nat.zero_le _) hturns

end

/-- Both programs end, read every entry once and in order, and report the largest idle time in whole seconds. -/
theorem pending_age_exact {ε : Type} (entries : List PendingEntry) (hids : entries.Pairwise fun a b => a.id < b.id)
    (fetchPage : GoString → Int → Except ε (List XPendingExt)) (hgo : GoReads entries fetchPage)
    (xpendingRange : XPendingRange) (streamName groupName : String)
    (hpython : PythonReads entries xpendingRange streamName groupName) (pageSize : Int) (turns : Nat)
    (hturns : entries.length < turns) :
    maxPendingIdleSeconds fetchPage pageSize turns =
        some (.ok (oldestSeconds entries), entries.map PendingEntry.toGo) ∧
      sampleOldestPendingAgeSeconds (some xpendingRange) streamName groupName pageSize turns =
        some ((oldestSeconds entries : Int), entries.map PendingEntry.toPython) :=
  ⟨maxPendingIdleSeconds_eq hids hgo pageSize hturns, sampleOldestPendingAgeSeconds_eq hids hpython pageSize hturns⟩

/-- Range reads of a list, with the start in any form of text. -/
def readsOf {τ : Type} [DecidableEq τ] (text : String → τ) (entries : List PendingEntry) (start : τ) (count : Int) :
    List PendingEntry :=
  match (none :: entries.map some).find? fun last => text (startText last) = start with
  | none => []
  | some last => rangeRead entries last count

def waitingEntries : List PendingEntry := [⟨toLex (1, 0), 1500⟩, ⟨toLex (1, 1), 2999⟩]

theorem find?_waiting : ∀ last ∈ none :: waitingEntries.map some,
    ((none :: waitingEntries.map some).find? fun other => ascii (startText other) = ascii (startText last)) =
        some last ∧
      ((none :: waitingEntries.map some).find? fun other => startText other = startText last) = some last := by
  decide +kernel

theorem mem_waiting {last : Option PendingEntry} (h : ∀ entry ∈ last, entry ∈ waitingEntries) :
    last ∈ none :: waitingEntries.map some := by
  cases last with
  | none => exact List.mem_cons_self
  | some entry => exact List.mem_cons_of_mem _ (List.mem_map_of_mem (h entry rfl))

/-- Two entries in pages of one: three reads. -/
theorem pending_age_exact_waiting :
    maxPendingIdleSeconds (fun start count => (.ok ((readsOf ascii waitingEntries start count).map PendingEntry.toGo) :
        Except Unit (List XPendingExt))) 1 3 = some (.ok 2, waitingEntries.map PendingEntry.toGo) ∧
      sampleOldestPendingAgeSeconds (some fun _ _ start _ count =>
        (readsOf id waitingEntries start count).map PendingEntry.toPython) "analysis.core" "workers" 1 3 =
        some (2, waitingEntries.map PendingEntry.toPython) :=
  pending_age_exact waitingEntries (by decide +kernel) _
    (fun last hlast count _ => by rw [readsOf, (find?_waiting last (mem_waiting hlast)).1]) _ _ _
    (fun last hlast count _ => by simp only [readsOf, id, (find?_waiting last (mem_waiting hlast)).2]) 1 3 (by decide)

end AuditGateway.Admin
