import AuditGateway.Gateway.AuthKeys

/-!
# Headers of one hop

Headers that `Connection` lists, and some others, are for one hop only: `stripHopByHopHeaders` removes them
from the headers that go to the other side. The names are in values of the map from which headers are removed,
in letters of either case. `copyHeaders` adds what is left of a clone to the headers of a response, in the order
in which the map is gone through.
-/

namespace AuditGateway.Gateway

open AuditGateway.Framework AuditGateway.Go

section

variable (U : Unicode)

/-- `Header.Del`. -/
def headerDel (header : HttpHeader) (name : GoString) : HttpHeader :=
  header.removeIf fun key => key = canonicalHeaderKey name

def delHeader (header : HttpHeader) (name : GoString) : HttpHeader :=
  (headerDel header name).removeIf fun key => equalFold U key name

/-- The values under a key. -/
def valuesOf (header : HttpHeader) (key : GoString) : List GoString := (header.find key).getD []

/-- `Header.Values`. -/
def headerValues (header : HttpHeader) (name : GoString) : List GoString := valuesOf header (canonicalHeaderKey name)

/-- The names in the values of `Connection`. -/
def connectionNames (header : HttpHeader) : List GoString :=
  ((headerValues header (ascii "Connection")).flatMap fun value => (value.splitOn 44).map trimSpace).filter (· ≠ [])

def hopByHopNames : List GoString :=
  ["Connection", "Proxy-Connection", "Keep-Alive", "TE", "Trailer", "Transfer-Encoding", "Upgrade"].map ascii

def stripHopByHopHeaders (header : HttpHeader) : HttpHeader :=
  hopByHopNames.foldl (delHeader U) ((connectionNames header).foldl (delHeader U) header)

/-- `Header.Add`. -/
def headerAdd (header : HttpHeader) (key value : GoString) : HttpHeader :=
  header.upsert (canonicalHeaderKey key) [value] (· ++ [value])

/-- The maps of headers, each with its address. -/
structure HeaderMaps where
  map : Nat → HttpHeader
  next : Nat

def HeaderMaps.set (maps : HeaderMaps) (address : Nat) (header : HttpHeader) : HeaderMaps :=
  { maps with map := Function.update maps.map address header }

/-- A new map. -/
def HeaderMaps.new (maps : HeaderMaps) (header : HttpHeader) : HeaderMaps :=
  ⟨Function.update maps.map maps.next header, maps.next + 1⟩

/-- All values of some keys are added, in the order in which they are given. -/
def addHeaders (dst : Nat) (rows : List (GoString × List GoString)) (maps : HeaderMaps) : HeaderMaps :=
  rows.foldl (fun maps row =>
    row.2.foldl (fun maps value => maps.set dst (headerAdd (maps.map dst) row.1 value)) maps) maps

/-- `copyHeaders`; `order` is the order in which the rows of a map are gone through. -/
def copyHeaders (order : List (GoString × List GoString) → List (GoString × List GoString)) (dst src : Nat)
    (maps : HeaderMaps) : HeaderMaps :=
  let headers := maps.next
  let maps := maps.new (maps.map src)
  let maps := maps.set headers (stripHopByHopHeaders U (maps.map headers))
  addHeaders dst (order (maps.map headers).rows) maps

/-! ## Stripping -/

/-- A header is for one hop only. -/
def HopByHop (header : HttpHeader) (key : GoString) : Prop :=
  ∃ name ∈ connectionNames header ++ hopByHopNames, equalFold U key name = true

instance (header : HttpHeader) (key : GoString) : Decidable (HopByHop U header key) :=
  inferInstanceAs (Decidable (∃ name ∈ _, _))

end

section

variable {U : Unicode} {header : HttpHeader} {name key : GoString}

theorem delHeader_eq (hU : ∀ s, U.equalFold s s = true) (header : HttpHeader) (name : GoString) :
    delHeader U header name = header.removeIf fun key => equalFold U key name := by
  rw [delHeader, headerDel, Keyed.removeIf_removeIf]
  congr 1
  funext key
  by_cases hkey : key = canonicalHeaderKey name
  · rw [hkey, equalFold_canonicalHeaderKey hU, Bool.or_true]
  · rw [decide_eq_false hkey, Bool.false_or]

theorem foldl_delHeader (hU : ∀ s, U.equalFold s s = true) (names : List GoString) (header : HttpHeader) :
    names.foldl (delHeader U) header = header.removeIf fun key => names.any fun name => equalFold U key name := by
  induction names generalizing header with
  | nil => exact (Keyed.removeIf_eq_self fun _ h => absurd h Bool.false_ne_true).symm
  | cons name names ih =>
    rw [List.foldl_cons, ih, delHeader_eq hU, Keyed.removeIf_removeIf]
    rfl

theorem stripHopByHopHeaders_eq (hU : ∀ s, U.equalFold s s = true) (header : HttpHeader) :
    stripHopByHopHeaders U header = header.removeIf fun key => decide (HopByHop U header key) := by
  rw [stripHopByHopHeaders, foldl_delHeader hU, foldl_delHeader hU, Keyed.removeIf_removeIf]
  congr 1
  funext key
  rw [← List.any_append, Bool.eq_iff_iff, List.any_eq_true, decide_eq_true_eq]
  rfl

theorem find_stripped (hU : ∀ s, U.equalFold s s = true) (header : HttpHeader) (key : GoString) :
    (stripHopByHopHeaders U header).find key = if HopByHop U header key then none else header.find key := by
  rw [stripHopByHopHeaders_eq hU, Keyed.find_removeIf]
  simp only [decide_eq_true_eq]

theorem find_stripped_of_hopByHopNames (hU : ∀ s, U.equalFold s s = true) (header : HttpHeader)
    (hkey : ∃ name ∈ hopByHopNames, equalFold U key name = true) : (stripHopByHopHeaders U header).find key = none := by
  obtain ⟨name, hname, hfold⟩ := hkey
  rw [find_stripped hU]
  exact if_pos ⟨name, List.mem_append_right _ hname, hfold⟩

theorem connectionNames_stripped (hU : ∀ s, U.equalFold s s = true) (header : HttpHeader) :
    connectionNames (stripHopByHopHeaders U header) = [] := by
  have hvalues : headerValues (stripHopByHopHeaders U header) (ascii "Connection") = [] := by
    rw [headerValues, valuesOf, find_stripped_of_hopByHopNames hU]
    · rfl
    · exact ⟨ascii "Connection", by decide, equalFold_canonicalHeaderKey hU _⟩
  rw [connectionNames, hvalues]
  rfl

theorem stripHopByHopHeaders_idem (hU : ∀ s, U.equalFold s s = true) (header : HttpHeader) :
    stripHopByHopHeaders U (stripHopByHopHeaders U header) = stripHopByHopHeaders U header := by
  rw [stripHopByHopHeaders_eq hU (stripHopByHopHeaders U header)]
  refine Keyed.removeIf_eq_self fun key hkey => find_stripped_of_hopByHopNames hU header ?_
  obtain ⟨name, hname, hfold⟩ := of_decide_eq_true hkey
  rw [connectionNames_stripped hU, List.nil_append] at hname
  exact ⟨name, hname, hfold⟩

/-! ## Copying -/

variable {maps : HeaderMaps} {dst src address : Nat}

@[simp] theorem HeaderMaps.map_set_self (maps : HeaderMaps) (address : Nat) (header : HttpHeader) :
    (maps.set address header).map address = header :=
  Function.update_self ..

theorem HeaderMaps.map_set_of_ne (maps : HeaderMaps) (header : HttpHeader) (h : address ≠ dst) :
    (maps.set dst header).map address = maps.map address :=
  Function.update_of_ne h ..

@[simp] theorem HeaderMaps.map_new_self (maps : HeaderMaps) (header : HttpHeader) :
    (maps.new header).map maps.next = header :=
  Function.update_self ..

theorem HeaderMaps.map_new_of_lt (maps : HeaderMaps) (header : HttpHeader) (h : address < maps.next) :
    (maps.new header).map address = maps.map address :=
  Function.update_of_ne h.ne ..

theorem valuesOf_headerAdd (header : HttpHeader) (name value key : GoString) :
    valuesOf (headerAdd header name value) key =
      valuesOf header key ++ if canonicalHeaderKey name = key then [value] else [] := by
  rw [valuesOf, valuesOf, headerAdd, Keyed.find_upsert]
  by_cases h : key = canonicalHeaderKey name
  · rw [if_pos h, if_pos h.symm, h]
    cases header.find (canonicalHeaderKey name) <;> rfl
  · rw [if_neg h, if_neg (Ne.symm h), List.append_nil]

theorem addValues (dst : Nat) (name : GoString) (values : List GoString) (maps : HeaderMaps) :
    let maps' := values.foldl (fun maps value => maps.set dst (headerAdd (maps.map dst) name value)) maps
    (∀ key, valuesOf (maps'.map dst) key =
      valuesOf (maps.map dst) key ++ if canonicalHeaderKey name = key then values else []) ∧
      ∀ address ≠ dst, maps'.map address = maps.map address := by
  induction values generalizing maps with
  | nil => exact ⟨fun key => by rw [ite_self, List.append_nil]; rfl, fun _ _ => rfl⟩
  | cons value values ih =>
    obtain ⟨hvalues, hothers⟩ := ih (maps.set dst (headerAdd (maps.map dst) name value))
    refine ⟨fun key => ?_, fun address haddress => ?_⟩
    · rw [List.foldl_cons, hvalues, HeaderMaps.map_set_self, valuesOf_headerAdd, List.append_assoc]
      split <;> rfl
    · rw [List.foldl_cons, hothers address haddress, HeaderMaps.map_set_of_ne _ _ haddress]

theorem addHeaders_values (dst : Nat) (rows : List (GoString × List GoString)) (maps : HeaderMaps) :
    (∀ key, valuesOf ((addHeaders dst rows maps).map dst) key = valuesOf (maps.map dst) key ++
      (rows.filter fun row => canonicalHeaderKey row.1 = key).flatMap Prod.snd) ∧
      ∀ address ≠ dst, (addHeaders dst rows maps).map address = maps.map address := by
  induction rows generalizing maps with
  | nil => exact ⟨fun key => (List.append_nil _).symm, fun _ _ => rfl⟩
  | cons row rows ih =>
    obtain ⟨hrow, hrow'⟩ := addValues dst row.1 row.2 maps
    obtain ⟨hvalues, hothers⟩ := ih
      (row.2.foldl (fun maps value => maps.set dst (headerAdd (maps.map dst) row.1 value)) maps)
    refine ⟨fun key => ?_, fun address haddress => (hothers address haddress).trans (hrow' address haddress)⟩
    refine (hvalues key).trans ?_
    rw [hrow, List.append_assoc, List.filter_cons]
    split
    · rename_i h
      rw [if_pos (decide_eq_true h), List.flatMap_cons]
    · rename_i h
      rw [if_neg (by simpa using h), List.nil_append]

theorem flatMap_row {rows : List (GoString × List GoString)} (hperm : rows.Perm header.rows)
    (hcanonical : ∀ row ∈ header.rows, canonicalHeaderKey row.1 = row.1) (key : GoString) :
    (rows.filter fun row => canonicalHeaderKey row.1 = key).flatMap Prod.snd = valuesOf header key := by
  have hfilter : (rows.filter fun row => canonicalHeaderKey row.1 = key) = rows.filter fun row => row.1 = key :=
    List.filter_congr fun row hrow => by rw [hcanonical row (hperm.subset hrow)]
  rw [hfilter, valuesOf]
  cases hfind : header.find key with
  | none =>
    rw [List.filter_eq_nil_iff.2 fun row hrow => ?_]
    · rfl
    · intro hkey
      exact Keyed.find_eq_none.1 hfind (of_decide_eq_true hkey ▸ List.mem_map_of_mem (hperm.subset hrow))
  | some values =>
    have hsingle := hperm.filter fun row => decide (row.1 = key)
    rw [Keyed.filter_key_of_find hfind] at hsingle
    rw [List.perm_singleton.1 hsingle]
    exact List.append_nil values

end

/-- Headers for one hop are removed and others stay as they are; stripping again changes nothing; and what is copied
to another map is what is left, while all others stay as they are. -/
theorem hop_by_hop_headers (U : Unicode) (hU : ∀ s, U.equalFold s s = true) (header : HttpHeader)
    (hcanonical : ∀ row ∈ header.rows, canonicalHeaderKey row.1 = row.1) :
    (∀ key, HopByHop U header key → (stripHopByHopHeaders U header).find key = none) ∧
      (∀ key, ¬ HopByHop U header key → (stripHopByHopHeaders U header).find key = header.find key) ∧
      stripHopByHopHeaders U (stripHopByHopHeaders U header) = stripHopByHopHeaders U header ∧
      ∀ (order : List (GoString × List GoString) → List (GoString × List GoString)) (maps : HeaderMaps)
        (dst src : Nat), (∀ rows, (order rows).Perm rows) → maps.map src = header → dst < maps.next →
        (∀ key, valuesOf ((copyHeaders U order dst src maps).map dst) key =
          valuesOf (maps.map dst) key ++ valuesOf (stripHopByHopHeaders U header) key) ∧
          ∀ address < maps.next, address ≠ dst →
            (copyHeaders U order dst src maps).map address = maps.map address := by
  refine ⟨fun key hkey => ?_, fun key hkey => ?_, stripHopByHopHeaders_idem hU header,
    fun order maps dst src horder hsrc hdst => ?_⟩
  · rw [find_stripped hU, if_pos hkey]
  · rw [find_stripped hU, if_neg hkey]
  · have hstripped : ∀ row ∈ (stripHopByHopHeaders U header).rows, canonicalHeaderKey row.1 = row.1 := by
      rw [stripHopByHopHeaders_eq hU]
      exact fun row hrow => hcanonical row (List.mem_of_mem_filter hrow)
    simp only [copyHeaders, HeaderMaps.map_new_self, HeaderMaps.map_set_self, hsrc]
    obtain ⟨hvalues, hothers⟩ := addHeaders_values dst (order (stripHopByHopHeaders U header).rows)
      ((maps.new header).set maps.next (stripHopByHopHeaders U header))
    refine ⟨fun key => ?_, fun address hlt hne => ?_⟩
    · rw [hvalues, flatMap_row (horder _) hstripped, HeaderMaps.map_set_of_ne _ _ hdst.ne,
        HeaderMaps.map_new_of_lt _ _ hdst]
    · rw [hothers address hne, HeaderMaps.map_set_of_ne _ _ hlt.ne, HeaderMaps.map_new_of_lt _ _ hlt]

def listedHeader : HttpHeader where
  rows := [(ascii "Connection", [ascii "x-trace, close"]), (ascii "X-Trace", [ascii "1"]),
    (ascii "Accept", [ascii "a", ascii "b"])]
  nodup := by decide

/-- The headers of a response at address 1, which have not been copied to address 0. -/
def listedMaps : HeaderMaps := ⟨fun address => if address = 1 then listedHeader else .empty, 2⟩

/-- The listed header is removed and the other one stays, and is copied. -/
theorem hop_by_hop_headers_listed :
    (stripHopByHopHeaders byteUnicode listedHeader).find (ascii "X-Trace") = none ∧
      (stripHopByHopHeaders byteUnicode listedHeader).find (ascii "Accept") = some [ascii "a", ascii "b"] ∧
      valuesOf ((copyHeaders byteUnicode List.reverse 0 1 listedMaps).map 0) (ascii "Accept") = [ascii "a", ascii "b"] ∧
      (copyHeaders byteUnicode List.reverse 0 1 listedMaps).map 1 = listedHeader := by
  obtain ⟨hremoved, hkept, -, hcopied⟩ :=
    hop_by_hop_headers byteUnicode (fun s => beq_self_eq_true _) listedHeader (by decide)
  obtain ⟨hvalues, hothers⟩ := hcopied List.reverse listedMaps 0 1 List.reverse_perm rfl (by decide)
  refine ⟨hremoved _ (by decide), hkept _ (by decide), ?_, hothers 1 (by decide) (by decide)⟩
  rw [hvalues, valuesOf, valuesOf, hkept _ (by decide)]
  rfl

end AuditGateway.Gateway
