import AuditGateway.Framework.Keyed
import AuditGateway.Framework.Pages
import AuditGateway.Go.Json

/-!
# Pages of the trace list and of the anomaly list

`ListTraces` and `ListAnomalies` count the rows that match, make the page numbers from the count, and select
the rows of one page. The first orders them by the time of creation and the id, the second only by the time,
and all anomalies that one run of the worker finds have the same time.
-/

namespace AuditGateway.Admin

open AuditGateway.Framework

/-! ## Page numbers -/

/-- The product of two values of type `int`, which wraps around. -/
def goMul (a b : Int) : Int := (a * b).bmod (2 ^ 64)

structure Pagination where
  page : Int
  pageSize : Int
  totalItems : Int
  totalPages : Int
  hasPrev : Bool
  hasNext : Bool

def normalizeListPage (page : Int) : Int := if page < 1 then 1 else page

def normalizeListLimit (limit : Int) : Int := if limit ≤ 0 ∨ 100 < limit then 100 else limit

def clampPagination (page limit totalItems : Int) : Pagination :=
  let totalPages := if 0 < totalItems then (Go.add (Go.add totalItems limit) (-1)).tdiv limit else 0
  let page := if 0 < totalItems then (if totalPages < page then totalPages else page) else 1
  ⟨page, limit, totalItems, totalPages, 0 < totalPages ∧ 1 < page, 0 < totalPages ∧ page < totalPages⟩

/-! ## The tables -/

/-- The order of texts in the database. Texts that are not the same are never tied. -/
structure Collation where
  le : String → String → Bool
  le_total : ∀ s t, le s t || le t s
  le_trans : ∀ s t u, le s t → le t u → le s u
  le_antisymm : ∀ s t, le s t → le t s → s = t

/-- A row of `traces`, without its id. -/
structure TraceRow where
  method : String := ""
  path : String := ""
  routePattern : String := ""
  protocolFamily : String := ""
  statusCode : Int := 0
  username : String := ""
  tokenFingerprint : String := ""
  fingerprintDisplay : String := ""
  modelRequested : String := ""
  usagePromptTokens : Int := 0
  usageCompletionTokens : Int := 0
  usageCachedTokens : Int := 0
  usageTotalTokens : Int := 0
  createdAt : Int

/-- A row of `usage_anomalies`, without its id. -/
structure AnomalyRow where
  anomalyType : String := ""
  severity : String := ""
  status : String := "open"
  username : String := ""
  fingerprintDisplay : String := ""
  observedValue : String := "0"
  thresholdValue : String := "0"
  reason : String := ""
  sampleTraceIDs : List String := []
  createdAt : Int

/-- `reviews` are the traces with a row of severity `review` in `analysis_results`; `ilike` is the operator
with its pattern on the right, and a backslash to escape. -/
structure AdminTables where
  traces : Keyed String TraceRow
  reviews : List String
  anomalies : Keyed String AnomalyRow
  collation : Collation
  ilike : String → String → Bool

structure TraceFilter where
  traceID : String := ""
  username : String := ""
  tokenFingerprint : String := ""
  routePattern : String := ""
  model : String := ""
  statusCode : Int := 0
  needsReview : Bool := false
  page : Int := 1
  limit : Int := 50

structure AnomalyFilter where
  anomalyType : String := ""
  page : Int := 1
  limit : Int := 50

def escapeILIKE (s : String) : String :=
  String.ofList (s.toList.flatMap fun c => if c = '\\' ∨ c = '%' ∨ c = '_' then ['\\', c] else [c])

/-- `traceFilterWhereArgs`. -/
def TraceFilter.Matches (db : AdminTables) (filter : TraceFilter) (row : String × TraceRow) : Prop :=
  (filter.traceID = "" ∨ row.1 = filter.traceID) ∧
    (filter.username = "" ∨ db.ilike row.2.username (escapeILIKE filter.username ++ "%") = true) ∧
    (filter.tokenFingerprint = "" ∨ row.2.tokenFingerprint = filter.tokenFingerprint) ∧
    (filter.routePattern = "" ∨ row.2.routePattern = filter.routePattern) ∧
    (filter.model = "" ∨ row.2.modelRequested = filter.model) ∧
    (filter.statusCode = 0 ∨ row.2.statusCode = filter.statusCode) ∧ (filter.needsReview → row.1 ∈ db.reviews)

instance (db : AdminTables) (filter : TraceFilter) : DecidablePred (filter.Matches db) :=
  fun _ => inferInstanceAs (Decidable (_ ∧ _))

/-- `anomalyFilterWhereArgs`. -/
def AnomalyFilter.Matches (filter : AnomalyFilter) (row : String × AnomalyRow) : Prop :=
  filter.anomalyType = "" ∨ row.2.anomalyType = filter.anomalyType

instance (filter : AnomalyFilter) : DecidablePred filter.Matches := fun _ => inferInstanceAs (Decidable (_ ∨ _))

def AdminTables.matchingTraces (db : AdminTables) (filter : TraceFilter) : List (String × TraceRow) :=
  db.traces.rows.filter fun row => filter.Matches db row

def AdminTables.matchingAnomalies (db : AdminTables) (filter : AnomalyFilter) : List (String × AnomalyRow) :=
  db.anomalies.rows.filter fun row => filter.Matches row

/-- `ORDER BY t.created_at DESC, t.trace_id DESC`. -/
def traceOrder (c : Collation) (x y : String × TraceRow) : Prop :=
  y.2.createdAt < x.2.createdAt ∨ (x.2.createdAt = y.2.createdAt ∧ c.le y.1 x.1 = true)

instance (c : Collation) (x y : String × TraceRow) : Decidable (traceOrder c x y) :=
  inferInstanceAs (Decidable (_ ∨ _))

/-- `ORDER BY created_at DESC`. -/
def anomalyOrder (x y : String × AnomalyRow) : Prop := y.2.createdAt ≤ x.2.createdAt

instance (x y : String × AnomalyRow) : Decidable (anomalyOrder x y) := inferInstanceAs (Decidable (_ ≤ _))

/-! ## The lists -/

/-- `SELECT count(*)`, a `bigint`. -/
def countRows {α : Type} (rows : List α) : Option Int :=
  if (rows.length : Int) < 2 ^ 63 then some rows.length else none

/-- `LIMIT` and `OFFSET` of the rows in the sequence of the query; `OFFSET must not be negative`. -/
def limitOffset {α : Type} (limit offset : Int) (seq : List α) : Option (List α) :=
  if offset < 0 then none else some ((seq.drop offset.toNat).take limit.toNat)

structure ListResult (α : Type) where
  rows : List α
  pagination : Pagination

def listTraceRows (seq : List (String × TraceRow)) (filter : TraceFilter) : Option (List (String × TraceRow)) :=
  let page := normalizeListPage filter.page
  let limit := normalizeListLimit filter.limit
  limitOffset limit (goMul (Go.add page (-1)) limit) seq

/-- `ListTraces`; `seq` is the sequence in which the database has put the rows that match. -/
def listTraces (db : AdminTables) (seq : List (String × TraceRow)) (filter : TraceFilter) :
    Option (ListResult (String × TraceRow)) := do
  let page := normalizeListPage filter.page
  let limit := normalizeListLimit filter.limit
  let totalItems ← countRows (db.matchingTraces filter)
  let pagination := clampPagination page limit totalItems
  let traces ← listTraceRows seq { filter with page := pagination.page, limit := limit }
  return ⟨traces, pagination⟩

/-- `ListAnomalies`. -/
def listAnomalies (db : AdminTables) (seq : List (String × AnomalyRow)) (filter : AnomalyFilter) :
    Option (ListResult (String × AnomalyRow)) := do
  let page := normalizeListPage filter.page
  let limit := normalizeListLimit filter.limit
  let totalItems ← countRows (db.matchingAnomalies filter)
  let pagination := clampPagination page limit totalItems
  let items ← limitOffset limit (goMul (Go.add pagination.page (-1)) limit) seq
  return ⟨items, pagination⟩

/-! ## What a list should be -/

/-- The page exists, or is the first one of none; and the buttons lead to pages that exist. -/
structure PageRight (limit total : Int) (p : Pagination) : Prop where
  first : 1 ≤ p.page
  last : p.page ≤ max 1 p.totalPages
  offset : 0 < total → (p.page - 1) * limit < total
  hasPrev : p.hasPrev = true ↔ 1 ≤ p.page - 1 ∧ p.page - 1 ≤ p.totalPages
  hasNext : p.hasNext = true ↔ 1 ≤ p.page + 1 ∧ p.page + 1 ≤ p.totalPages

/-- Every page is right, and the pages have every row once, whatever the sequences of the queries. -/
structure Listed {α : Type} (le : α → α → Prop) (matching : List α) (limit : Int)
    (list : List α → Int → Option (ListResult α)) : Prop where
  clamped : ∀ seq page, InOrder le matching seq →
    ∃ r, list seq page = some r ∧ PageRight limit matching.length r.pagination
  everyRowOnce : ∀ seq : Int → List α, (∀ page, InOrder le matching (seq page)) → ∀ r, list (seq 1) 1 = some r →
    ((List.range r.pagination.totalPages.toNat).flatMap fun k : Nat =>
      ((list (seq (k + 1)) (k + 1)).map ListResult.rows).getD []).Perm matching

/-! ## The page numbers are right -/

theorem normalizeListLimit_range (limit : Int) : 1 ≤ normalizeListLimit limit ∧ normalizeListLimit limit ≤ 100 := by
  unfold normalizeListLimit
  split <;> omega

theorem normalizeListPage_pos (page : Int) : 1 ≤ normalizeListPage page := by
  unfold normalizeListPage
  split <;> omega

variable {page limit total : Int}

theorem normalizeListPage_of_pos (h : 1 ≤ page) : normalizeListPage page = page := if_neg (Int.not_lt.2 h)

/-- As many pages as are needed. -/
def pagesFor (limit total : Int) : Int := (total + limit - 1) / limit

theorem pagesFor_spec (hlimit : 1 ≤ limit) :
    (pagesFor limit total - 1) * limit < total ∧ total ≤ pagesFor limit total * limit := by
  have hle := Int.ediv_mul_le (total + limit - 1) (b := limit) (by omega)
  have hlt := Int.lt_ediv_add_one_mul_self (total + limit - 1) (b := limit) (by omega)
  rw [Int.add_mul] at hlt
  rw [Int.sub_mul]
  unfold pagesFor
  omega

theorem pagesFor_pos (hlimit : 1 ≤ limit) (htotal : 0 < total) : 1 ≤ pagesFor limit total := by
  have hle : total ≤ pagesFor limit total * limit := (pagesFor_spec hlimit).2
  by_contra hnot
  have hneg : pagesFor limit total * limit ≤ 0 :=
    Int.mul_nonpos_of_nonpos_of_nonneg (by omega) (by omega)
  omega

theorem clampPagination_of_fits (hlimit : 1 ≤ limit) (htotal : 0 < total) (hfits : total + limit - 1 < 2 ^ 63) :
    clampPagination page limit total =
      ⟨min page (pagesFor limit total), limit, total, pagesFor limit total,
        0 < pagesFor limit total ∧ 1 < min page (pagesFor limit total),
        0 < pagesFor limit total ∧ min page (pagesFor limit total) < pagesFor limit total⟩ := by
  have hadd : (Go.add (Go.add total limit) (-1)).tdiv limit = pagesFor limit total := by
    rw [Go.add, Go.add, Int.bmod_add_bmod, Int.bmod_eq_of_le (by omega) (by omega),
      Int.tdiv_eq_ediv_of_nonneg (by omega), pagesFor, Int.sub_eq_add_neg]
  have hmin : (if pagesFor limit total < page then pagesFor limit total else page) =
      min page (pagesFor limit total) := by
    split <;> omega
  simp only [clampPagination, if_pos htotal, hadd, hmin]

theorem clampPagination_of_not_fits (hpage : 1 ≤ page) (hlimit : 1 ≤ limit) (hlimit' : limit ≤ 100)
    (htotal : total < 2 ^ 63) (hfits : ¬ total + limit - 1 < 2 ^ 63) : (clampPagination page limit total).page < 1 := by
  have hadd : (Go.add (Go.add total limit) (-1)).tdiv limit ≤ 0 := by
    have hwrap : Go.add (Go.add total limit) (-1) = -(2 ^ 64 - (total + limit - 1)) := by
      rw [Go.add, Go.add, Int.bmod_add_bmod, Int.bmod_def]
      omega
    have hnonneg := Int.tdiv_nonneg (a := 2 ^ 64 - (total + limit - 1)) (b := limit) (by omega) (by omega)
    rw [hwrap, Int.neg_tdiv]
    omega
  simp only [clampPagination, if_pos (show 0 < total by omega)]
  split <;> omega

theorem clampPagination_right_iff (hpage : 1 ≤ page) (hlimit : 1 ≤ limit) (hlimit' : limit ≤ 100)
    (htotal : total < 2 ^ 63) :
    PageRight limit total (clampPagination page limit total) ↔ total + limit - 1 < 2 ^ 63 := by
  constructor
  · intro h
    by_contra hfits
    have hnot := clampPagination_of_not_fits hpage hlimit hlimit' htotal hfits
    exact absurd h.first (Int.not_le.2 hnot)
  · intro hfits
    by_cases hpos : 0 < total
    · have hpages := pagesFor_pos hlimit hpos
      have hoffset : (min page (pagesFor limit total) - 1) * limit < total :=
        Int.lt_of_le_of_lt (Int.mul_le_mul_of_nonneg_right (by omega) (by omega)) (pagesFor_spec hlimit).1
      rw [clampPagination_of_fits hlimit hpos hfits]
      refine ⟨?_, ?_, fun _ => hoffset, ?_, ?_⟩
      · show 1 ≤ min page (pagesFor limit total)
        omega
      · show min page (pagesFor limit total) ≤ max 1 (pagesFor limit total)
        omega
      · rw [decide_eq_true_iff]
        dsimp only
        omega
      · rw [decide_eq_true_iff]
        dsimp only
        omega
    · simp only [clampPagination, if_neg hpos]
      exact ⟨Int.le_refl 1, Int.le_max_left 1 0, fun h => absurd h hpos, by simp, by simp⟩

theorem clampPagination_totalPages (hlimit : 1 ≤ limit) (htotal : 0 ≤ total) (hfits : total + limit - 1 < 2 ^ 63) :
    (clampPagination page limit total).totalPages = pagesFor limit total := by
  by_cases hpos : 0 < total
  · rw [clampPagination_of_fits hlimit hpos hfits]
  · obtain rfl : total = 0 := by omega
    simp only [clampPagination, Int.lt_irrefl, if_false, pagesFor, Int.zero_add]
    exact (Int.ediv_eq_zero_of_lt (by omega) (by omega)).symm

theorem clampPagination_page (hlimit : 1 ≤ limit) (htotal : 0 ≤ total) (hfits : total + limit - 1 < 2 ^ 63)
    (hpage : 1 ≤ page) (hlast : page ≤ pagesFor limit total) : (clampPagination page limit total).page = page := by
  by_cases hpos : 0 < total
  · rw [clampPagination_of_fits hlimit hpos hfits]
    exact Int.min_eq_left hlast
  · obtain rfl : total = 0 := by omega
    have hnone : pagesFor limit 0 = 0 := by
      rw [pagesFor, Int.zero_add]
      exact Int.ediv_eq_zero_of_lt (by omega) (by omega)
    omega

theorem limitOffset_page {α : Type} (seq : List α) (hlimit : 1 ≤ limit) (hpage : 1 ≤ page)
    (hoffset : (page - 1) * limit < 2 ^ 63) :
    limitOffset limit (goMul (Go.add page (-1)) limit) seq =
      some (Framework.page limit.toNat (page - 1).toNat seq) := by
  have hnonneg : 0 ≤ (page - 1) * limit := Int.mul_nonneg (by omega) (by omega)
  have hle : (page - 1) * 1 ≤ (page - 1) * limit := Int.mul_le_mul_of_nonneg_left hlimit (by omega)
  have hpred : Go.add page (-1) = page - 1 := by
    rw [Go.add, Int.bmod_eq_of_le (by omega) (by omega), Int.sub_eq_add_neg]
  have hmul : goMul (Go.add page (-1)) limit = (page - 1) * limit := by
    rw [hpred, goMul, Int.bmod_eq_of_le (by omega) (by omega)]
  rw [limitOffset, hmul, if_neg (by omega), Framework.page, Int.toNat_mul (by omega) (by omega)]

/-! ## Both lists -/

section Listing

variable {α : Type} {le : α → α → Prop} {matching sorted : List α} {list : List α → Int → Option (ListResult α)}

/-- What both lists do: they number the pages, and show that of the number. -/
structure Listing (matching : List α) (limit : Int) (list : List α → Int → Option (ListResult α)) : Prop where
  numbered : ∀ seq page r, list seq page = some r → (matching.length : Int) < 2 ^ 63 ∧
    r.pagination = clampPagination (normalizeListPage page) limit matching.length
  shown : (matching.length : Int) + limit - 1 < 2 ^ 63 → ∀ seq page, list seq page =
    some ⟨Framework.page limit.toNat ((clampPagination (normalizeListPage page) limit matching.length).page - 1).toNat
      seq, clampPagination (normalizeListPage page) limit matching.length⟩

theorem Listing.listed_iff (h : Listing matching limit list) (hlimit : 1 ≤ limit) (hlimit' : limit ≤ 100)
    (htrans : ∀ a b c, le a b → le b c → le a c) (hrefl : ∀ a, le a a) (hnodup : matching.Nodup)
    (hsorted : InOrder le matching sorted) :
    Listed le matching limit list ↔
      (matching.length : Int) + limit - 1 < 2 ^ 63 ∧ ∀ k, StrictAt le sorted (k * limit.toNat) := by
  have hright (page : Int) (hbigint : (matching.length : Int) < 2 ^ 63) :=
    clampPagination_right_iff (normalizeListPage_pos page) hlimit hlimit' hbigint
  have hfit : Listed le matching limit list → (matching.length : Int) + limit - 1 < 2 ^ 63 := by
    intro hlisted
    obtain ⟨r, hr, hpage⟩ := hlisted.clamped sorted 1 hsorted
    obtain ⟨hbigint, hpagination⟩ := h.numbered sorted 1 r hr
    rw [hpagination] at hpage
    exact (hright 1 hbigint).1 hpage
  suffices hiff : (matching.length : Int) + limit - 1 < 2 ^ 63 →
      (Listed le matching limit list ↔ ∀ k, StrictAt le sorted (k * limit.toNat)) by
    exact ⟨fun hlisted => ⟨hfit hlisted, (hiff (hfit hlisted)).1 hlisted⟩, fun hall => (hiff hall.1).2 hall.2⟩
  intro hfits
  have hcount : (0 : Int) ≤ matching.length := Int.natCast_nonneg _
  have henough : matching.length ≤ (pagesFor limit matching.length).toNat * limit.toNat := by
    have hspec : (matching.length : Int) ≤ pagesFor limit matching.length * limit := (pagesFor_spec hlimit).2
    have hnonneg : 0 ≤ pagesFor limit matching.length := Int.ediv_nonneg (by omega) (by omega)
    rw [← Int.toNat_mul hnonneg (by omega)]
    omega
  rw [← pages_perm_iff htrans hrefl hnodup hsorted (by omega) henough]
  -- The page that is shown for a number is that page.
  have hshown (seq : List α) (k : Nat) (hk : k < (pagesFor limit matching.length).toNat) :
      ((list seq (k + 1)).map ListResult.rows).getD [] = Framework.page limit.toNat k seq := by
    have hpos : (1 : Int) ≤ k + 1 := by omega
    rw [h.shown hfits, normalizeListPage_of_pos hpos, clampPagination_page hlimit hcount hfits hpos (by omega)]
    simp
  have hpages (seq : Int → List α) (r : ListResult α) (hr : list (seq 1) 1 = some r) :
      ((List.range r.pagination.totalPages.toNat).flatMap fun k : Nat =>
        ((list (seq (k + 1)) (k + 1)).map ListResult.rows).getD []) =
      (List.range (pagesFor limit matching.length).toNat).flatMap fun k : Nat =>
        Framework.page limit.toNat k (seq (k + 1)) := by
    rw [(h.numbered _ _ _ hr).2, clampPagination_totalPages hlimit hcount hfits]
    exact List.flatMap_congr fun k hk => hshown (seq (k + 1)) k (List.mem_range.1 hk)
  constructor
  · intro hlisted seq hseq
    let seq' (page : Int) : List α := seq (page - 1).toNat
    have hperm := hlisted.everyRowOnce seq' (fun page => hseq _) _ (h.shown hfits _ _)
    rw [hpages seq' _ (h.shown hfits _ _)] at hperm
    simpa [seq'] using hperm
  · intro hall
    refine ⟨fun seq page _ => ⟨_, h.shown hfits seq page, (hright page (by omega)).2 hfits⟩, fun seq hseq r hr => ?_⟩
    rw [hpages seq r hr]
    exact hall (fun k : Nat => seq (k + 1)) fun k => hseq _

end Listing

theorem countRows_eq_some {α : Type} {rows : List α} {n : Int} :
    countRows rows = some n ↔ (rows.length : Int) < 2 ^ 63 ∧ n = rows.length := by
  unfold countRows
  split
  · rename_i h
    rw [Option.some.injEq, and_iff_right h, eq_comm]
  · rename_i h
    exact iff_of_false (fun h => nomatch h) fun h' => h h'.1

theorem clampPagination_offset {n : Nat} (hlimit : 1 ≤ limit) (hlimit' : limit ≤ 100) (hpage : 1 ≤ page)
    (hfits : (n : Int) + limit - 1 < 2 ^ 63) :
    1 ≤ (clampPagination page limit n).page ∧ ((clampPagination page limit n).page - 1) * limit < 2 ^ 63 := by
  have hright : PageRight limit n (clampPagination page limit n) :=
    (clampPagination_right_iff hpage hlimit hlimit' (by omega)).2 hfits
  refine ⟨hright.first, ?_⟩
  by_cases hpos : (0 : Int) < n
  · have := hright.offset hpos
    omega
  · have hone : (clampPagination page limit n).page = 1 := by simp only [clampPagination, if_neg hpos]
    rw [hone]
    omega

variable (db : AdminTables)

theorem listing_traces (filter : TraceFilter) :
    Listing (db.matchingTraces filter) (normalizeListLimit filter.limit) fun seq page =>
      listTraces db seq { filter with page := page } := by
  have hrows (page : Int) : db.matchingTraces { filter with page := page } = db.matchingTraces filter := rfl
  obtain ⟨hlimit, hlimit'⟩ := normalizeListLimit_range filter.limit
  refine ⟨fun seq page r hr => ?_, fun hfits seq page => ?_⟩
  · simp only [listTraces, hrows] at hr
    obtain ⟨n, hn, hr⟩ := Option.bind_eq_some_iff.1 hr
    obtain ⟨traces, -, hr⟩ := Option.bind_eq_some_iff.1 hr
    obtain ⟨hbigint, rfl⟩ := countRows_eq_some.1 hn
    obtain rfl := Option.some.inj hr
    exact ⟨hbigint, rfl⟩
  · obtain ⟨hfirst, hoffset⟩ := clampPagination_offset hlimit hlimit' (normalizeListPage_pos page) hfits
    have hagain : normalizeListLimit (normalizeListLimit filter.limit) = normalizeListLimit filter.limit :=
      if_neg (by omega)
    have hcount : countRows (db.matchingTraces filter) = some ((db.matchingTraces filter).length : Int) :=
      countRows_eq_some.2 ⟨by omega, rfl⟩
    simp only [listTraces, hrows, hcount, listTraceRows, hagain]
    simp only [Option.bind_eq_bind, Option.bind_some, normalizeListPage_of_pos hfirst,
      limitOffset_page seq hlimit hfirst hoffset]
    rfl

theorem listing_anomalies (filter : AnomalyFilter) :
    Listing (db.matchingAnomalies filter) (normalizeListLimit filter.limit) fun seq page =>
      listAnomalies db seq { filter with page := page } := by
  have hrows (page : Int) : db.matchingAnomalies { filter with page := page } = db.matchingAnomalies filter := rfl
  obtain ⟨hlimit, hlimit'⟩ := normalizeListLimit_range filter.limit
  refine ⟨fun seq page r hr => ?_, fun hfits seq page => ?_⟩
  · simp only [listAnomalies, hrows] at hr
    obtain ⟨n, hn, hr⟩ := Option.bind_eq_some_iff.1 hr
    obtain ⟨items, -, hr⟩ := Option.bind_eq_some_iff.1 hr
    obtain ⟨hbigint, rfl⟩ := countRows_eq_some.1 hn
    obtain rfl := Option.some.inj hr
    exact ⟨hbigint, rfl⟩
  · obtain ⟨hfirst, hoffset⟩ := clampPagination_offset hlimit hlimit' (normalizeListPage_pos page) hfits
    have hcount : countRows (db.matchingAnomalies filter) = some ((db.matchingAnomalies filter).length : Int) :=
      countRows_eq_some.2 ⟨by omega, rfl⟩
    simp only [listAnomalies, hrows, hcount]
    simp only [Option.bind_eq_bind, Option.bind_some, limitOffset_page seq hlimit hfirst hoffset]
    rfl

/-! ## Orders and ties -/

theorem traceOrder_trans {c : Collation} (x y z : String × TraceRow) (hxy : traceOrder c x y) (hyz : traceOrder c y z) :
    traceOrder c x z := by
  obtain hxy | ⟨hxy, hid⟩ := hxy
  · obtain hyz | ⟨hyz, -⟩ := hyz
    · exact .inl (Int.lt_trans hyz hxy)
    · exact .inl (hyz ▸ hxy)
  · obtain hyz | ⟨hyz, hid'⟩ := hyz
    · exact .inl (hxy ▸ hyz)
    · exact .inr ⟨hxy.trans hyz, c.le_trans _ _ _ hid' hid⟩

theorem traceOrder_total {c : Collation} (x y : String × TraceRow) : traceOrder c x y ∨ traceOrder c y x := by
  obtain hlt | heq | hlt := Int.lt_trichotomy x.2.createdAt y.2.createdAt
  · exact .inr (.inl hlt)
  · obtain hle | hle := Bool.or_eq_true_iff.1 (c.le_total x.1 y.1)
    · exact .inr (.inr ⟨heq.symm, hle⟩)
    · exact .inl (.inr ⟨heq, hle⟩)
  · exact .inl (.inl hlt)

theorem traceOrder_antisymm {c : Collation} {x y : String × TraceRow} (hxy : traceOrder c x y)
    (hyx : traceOrder c y x) : x.1 = y.1 := by
  obtain hxy | ⟨heq, hid⟩ := hxy
  · obtain hyx | ⟨heq, -⟩ := hyx <;> omega
  · obtain hyx | ⟨-, hid'⟩ := hyx
    · omega
    · exact c.le_antisymm _ _ hid' hid

theorem inOrder_mergeSort {α : Type} {le : α → α → Prop} [DecidableRel le]
    (htrans : ∀ a b c, le a b → le b c → le a c) (htotal : ∀ a b, le a b ∨ le b a) (rows : List α) :
    InOrder le rows (rows.mergeSort fun a b => le a b) := by
  refine ⟨List.mergeSort_perm _ _, (List.pairwise_mergeSort (fun a b c hab hbc => ?_) (fun a b => ?_) rows).imp
    of_decide_eq_true⟩
  · exact decide_eq_true (htrans _ _ _ (of_decide_eq_true hab) (of_decide_eq_true hbc))
  · simpa using htotal a b

/-- The anomalies that match, the newest first. -/
def newestFirst (db : AdminTables) (filter : AnomalyFilter) : List (String × AnomalyRow) :=
  (db.matchingAnomalies filter).mergeSort fun x y => anomalyOrder x y

/-- No two anomalies of the same time are on two pages. -/
def TiesOnOnePage (db : AdminTables) (filter : AnomalyFilter) : Prop :=
  ∀ k x y, 0 < k * (normalizeListLimit filter.limit).toNat →
    (newestFirst db filter)[k * (normalizeListLimit filter.limit).toNat - 1]? = some x →
    (newestFirst db filter)[k * (normalizeListLimit filter.limit).toNat]? = some y → x.2.createdAt ≠ y.2.createdAt

variable {db}

theorem nodup_matching {V : Type} (t : Keyed String V) (p : String × V → Bool) : (t.rows.filter p).Nodup :=
  (List.Nodup.of_map _ t.nodup).filter p

theorem traces_listed_iff (filter : TraceFilter) :
    Listed (traceOrder db.collation) (db.matchingTraces filter) (normalizeListLimit filter.limit)
        (fun seq page => listTraces db seq { filter with page := page }) ↔
      ((db.matchingTraces filter).length : Int) + normalizeListLimit filter.limit - 1 < 2 ^ 63 := by
  obtain ⟨hlimit, hlimit'⟩ := normalizeListLimit_range filter.limit
  have hsorted : InOrder (traceOrder db.collation) (db.matchingTraces filter) _ :=
    inOrder_mergeSort traceOrder_trans traceOrder_total _
  have hrefl (x : String × TraceRow) : traceOrder db.collation x x := or_self_iff.1 (traceOrder_total x x)
  rw [(listing_traces db filter).listed_iff hlimit hlimit' traceOrder_trans hrefl (nodup_matching _ _) hsorted]
  have hids : ((db.matchingTraces filter).map Prod.fst).Nodup := db.traces.nodup.sublist (List.filter_sublist.map _)
  exact and_iff_left fun k => hsorted.strictAt hids (fun x y hxy hyx => traceOrder_antisymm hxy hyx) _

theorem anomalies_listed_iff (filter : AnomalyFilter) :
    Listed anomalyOrder (db.matchingAnomalies filter) (normalizeListLimit filter.limit)
        (fun seq page => listAnomalies db seq { filter with page := page }) ↔
      ((db.matchingAnomalies filter).length : Int) + normalizeListLimit filter.limit - 1 < 2 ^ 63 ∧
        TiesOnOnePage db filter := by
  obtain ⟨hlimit, hlimit'⟩ := normalizeListLimit_range filter.limit
  have htrans (x y z : String × AnomalyRow) (hxy : anomalyOrder x y) (hyz : anomalyOrder y z) : anomalyOrder x z :=
    Int.le_trans hyz hxy
  have hsorted : InOrder anomalyOrder (db.matchingAnomalies filter) (newestFirst db filter) :=
    inOrder_mergeSort htrans (fun x y => Int.le_total y.2.createdAt x.2.createdAt) _
  rw [(listing_anomalies db filter).listed_iff hlimit hlimit' htrans (fun x => Int.le_refl _) (nodup_matching _ _)
    hsorted]
  refine and_congr_right fun _ => ⟨fun h k x y hpos hx hy heq => h k hpos x y hx hy (Int.le_of_eq heq),
    fun h k hpos x y hx hy hyx => h k x y hpos hx hy ?_⟩
  exact Int.le_antisymm hyx (hsorted.next hpos hx hy)

/-- Both lists are right if and only if their counts do not overflow and no two anomalies of the same time are on
two pages. -/
theorem list_pages_partition_iff (db : AdminTables) (traceFilter : TraceFilter) (anomalyFilter : AnomalyFilter) :
    (Listed (traceOrder db.collation) (db.matchingTraces traceFilter) (normalizeListLimit traceFilter.limit)
        (fun seq page => listTraces db seq { traceFilter with page := page }) ∧
      Listed anomalyOrder (db.matchingAnomalies anomalyFilter) (normalizeListLimit anomalyFilter.limit)
        (fun seq page => listAnomalies db seq { anomalyFilter with page := page })) ↔
      ((db.matchingTraces traceFilter).length : Int) + normalizeListLimit traceFilter.limit - 1 < 2 ^ 63 ∧
        ((db.matchingAnomalies anomalyFilter).length : Int) + normalizeListLimit anomalyFilter.limit - 1 < 2 ^ 63 ∧
        TiesOnOnePage db anomalyFilter := by
  rw [traces_listed_iff, anomalies_listed_iff]

def twoAnomalies : Keyed String AnomalyRow :=
  ⟨[("first", { createdAt := 7 }), ("second", { createdAt := 7 })], by decide⟩

/-- The same anomaly on both pages: between the queries the database has changed the sequence of the two. -/
theorem tied_anomaly_shown_twice : ∃ seq seq' : List (String × AnomalyRow),
    InOrder anomalyOrder twoAnomalies.rows seq ∧ InOrder anomalyOrder twoAnomalies.rows seq' ∧
      ∀ db : AdminTables, db.anomalies = twoAnomalies →
        (listAnomalies db seq { page := 1, limit := 1 }).map (fun r => r.rows.map Prod.fst) = some ["first"] ∧
          (listAnomalies db seq' { page := 2, limit := 1 }).map (fun r => r.rows.map Prod.fst) = some ["first"] := by
  refine ⟨twoAnomalies.rows, twoAnomalies.rows.reverse, ⟨.refl _, by decide⟩, ⟨List.reverse_perm _, by decide⟩,
    fun db hdb => ?_⟩
  have hmatching (page : Int) : db.matchingAnomalies { page := page, limit := 1 } = twoAnomalies.rows := by
    rw [AdminTables.matchingAnomalies, hdb]
    rfl
  simp only [listAnomalies, hmatching]
  exact ⟨by decide, by decide⟩

end AuditGateway.Admin
