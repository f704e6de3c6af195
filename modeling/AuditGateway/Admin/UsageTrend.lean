import AuditGateway.Go.Json
import AuditGateway.Go.Strings
import AuditGateway.Rollup.Usage

/-!
# The usage trend of an employee

`listUsage` shows the usage of an employee over the last day, week or month. `usageTrendWindow` makes the
window of the query, `fillUsageTrendPoints` a grid of buckets that starts where the window does, and
`EmployeeUsageTrend` adds the selected buckets up while it reads them. The window of a day ends now, within
an hour, and so it reaches into 25 hours; the grid has 24.
-/

namespace AuditGateway.Admin

open AuditGateway.Framework AuditGateway.Rollup

/-! ## The window -/

/-- A `time.Time`: nanoseconds since the epoch. -/
abbrev GoTime := Int

def usageBucketStep : Bucket → GoTime
  | .hour => 3600000000000
  | .day => 24 * 3600000000000

/-- `Truncate` in UTC. It counts from the year 1, which is a whole number of days before the epoch. -/
def normalizeUsageBucketStart (ts : GoTime) (bucketSize : Bucket) : GoTime :=
  ts - ts % usageBucketStep bucketSize

structure EmployeeUsageFilter where
  username : String
  range : String
  model : String
  start : GoTime
  stop : GoTime
  bucketSize : Bucket
  expectedBuckets : Nat

/-- The day after that of `now`, which has 24 hours in UTC. -/
def nextDay (now : GoTime) : GoTime := normalizeUsageBucketStart now .day + usageBucketStep .day

/-- `usageTrendWindow`, with the filter that `listUsage` makes of it. -/
def usageTrendWindow (value username model : String) (now : GoTime) :
    EmployeeUsageFilter :=
  if Go.Text.trimSpace value = "1d" then
    ⟨username, "1d", model, now - 24 * usageBucketStep .hour, now, .hour, 24⟩
  else if Go.Text.trimSpace value = "7d" then
    ⟨username, "7d", model, nextDay now - 7 * usageBucketStep .day, nextDay now, .day, 7⟩
  else ⟨username, "30d", model, nextDay now - 30 * usageBucketStep .day, nextDay now, .day, 30⟩

/-! ## The queries -/

/-- The counters of a trend. -/
inductive TrendCounter
  | requestCount
  | successCount
  | errorCount
  | promptTokens
  | completionTokens
  | cachedTokens
  | totalTokens
deriving DecidableEq, Repr

namespace TrendCounter

def all : List TrendCounter :=
  [requestCount, successCount, errorCount, promptTokens, completionTokens, cachedTokens, totalTokens]

def column : TrendCounter → Counter
  | requestCount => .requestCount
  | successCount => .successCount
  | errorCount => .errorCount
  | promptTokens => .promptTokens
  | completionTokens => .completionTokens
  | cachedTokens => .cachedTokens
  | totalTokens => .totalTokens

theorem mem_all (c : TrendCounter) : c ∈ all := by cases c <;> decide

end TrendCounter

abbrev TrendCounters := TrendCounter → Int

/-- A row of `usage_aggregates`. -/
structure UsageRow where
  key : AggregateKey
  counters : Counters

/-- A parameter of a query has microseconds. -/
def parameter (t : GoTime) : Instant := t / 1000

/-- The condition of the queries; the one for the models leaves out the last part. -/
def Selected (filter : EmployeeUsageFilter) (selectedModel : String) (row : UsageRow) : Prop :=
  row.key.bucketSize = filter.bucketSize.value ∧ row.key.username = filter.username ∧
    parameter filter.start ≤ row.key.bucketStart ∧ row.key.bucketStart < parameter filter.stop ∧
    (selectedModel = "" ∨ row.key.model = selectedModel)

instance (filter : EmployeeUsageFilter) (selectedModel : String) : DecidablePred (Selected filter selectedModel) :=
  fun _ => inferInstanceAs (Decidable (_ ∧ _))

def selectedRows (filter : EmployeeUsageFilter) (selectedModel : String) (table : List UsageRow) : List UsageRow :=
  table.filter fun row => Selected filter selectedModel row

/-- The sums of a group. -/
def sumsOf (rows : List UsageRow) (p : UsageRow → Prop) [DecidablePred p] : TrendCounters := fun c =>
  ((rows.filter fun row => p row).map fun row => row.counters c.column).sum

/-- `Scan` of sums, which are numeric, into variables of type `int64`. -/
def scanSums (sums : TrendCounters) : Option TrendCounters :=
  if ∀ c ∈ TrendCounter.all, Go.InRange (sums c) then some sums else none

structure UsageTrendBucket where
  bucketStart : Instant
  counters : TrendCounters

/-- `GROUP BY bucket_start ORDER BY bucket_start`. -/
def bucketStarts (rows : List UsageRow) : List Instant :=
  (rows.map fun row => row.key.bucketStart).dedup.mergeSort fun s s' => s ≤ s'

def queryPoints (rows : List UsageRow) : Option (List UsageTrendBucket) :=
  (bucketStarts rows).mapM fun s =>
    (scanSums (sumsOf rows fun row => row.key.bucketStart = s)).map fun sums => ⟨s, sums⟩

structure UsageModelSummary where
  model : String
  counters : TrendCounters

/-- `GROUP BY model ORDER BY total_tokens DESC`. -/
def queryModels (rows : List UsageRow) : Option (List UsageModelSummary) :=
  (((rows.map fun row => row.key.model).dedup.map fun m => (m, sumsOf rows fun row => row.key.model = m)).mergeSort
    fun x y => y.2 .totalTokens ≤ x.2 .totalTokens).mapM fun x => (scanSums x.2).map fun sums => ⟨x.1, sums⟩

/-! ## The points -/

structure UsageTrendPoint where
  bucketStart : GoTime
  bucketSize : Bucket
  counters : TrendCounters

/-- The test for an active bucket. -/
def Active (counters : TrendCounters) : Prop := 0 < counters .totalTokens ∨ 0 < counters .requestCount

instance (counters : TrendCounters) : Decidable (Active counters) := inferInstanceAs (Decidable (_ ∨ _))

def canonical (bucketSize : Bucket) (point : UsageTrendBucket) : UsageTrendPoint where
  bucketStart := normalizeUsageBucketStart (1000 * point.bucketStart) bucketSize
  bucketSize := bucketSize
  counters := point.counters

def activeCount (raw : List UsageTrendBucket) : Nat := raw.countP fun point => Active point.counters

/-- The map `byBucket`: a later point of the same bucket replaces an earlier one. -/
def byBucket (bucketSize : Bucket) (raw : List UsageTrendBucket) : Keyed GoTime UsageTrendPoint :=
  raw.foldl (fun t point => t.upsert (canonical bucketSize point).bucketStart (canonical bucketSize point)
    fun _ => canonical bucketSize point) .empty

/-- The starts of the buckets that are shown. -/
def grid (start : GoTime) (expectedBuckets : Nat) (bucketSize : Bucket) : List GoTime :=
  (List.range expectedBuckets).map fun i : Nat =>
    normalizeUsageBucketStart start bucketSize + i * usageBucketStep bucketSize

def fillUsageTrendPoints (start : GoTime) (expectedBuckets : Nat) (bucketSize : Bucket) (raw : List UsageTrendBucket) :
    List UsageTrendPoint × Nat :=
  ((grid start expectedBuckets bucketSize).map fun g =>
    ((byBucket bucketSize raw).find g).getD ⟨g, bucketSize, fun _ => 0⟩, activeCount raw)

structure EmployeeUsageTrend where
  username : String
  range : String
  bucketSize : Bucket
  expectedBucketCount : Nat
  selectedModel : String
  models : List String
  points : List UsageTrendPoint
  activeBucketCount : Nat
  summary : TrendCounters
  modelSummary : List UsageModelSummary

/-- `EmployeeUsageTrend`; `collate` is the order of texts in the database. -/
def employeeUsageTrend (collate : String → String → Bool) (table : List UsageRow)
    (filter : EmployeeUsageFilter) : Option EmployeeUsageTrend :=
  let selectedModel := Go.Text.trimSpace filter.model
  let trend : EmployeeUsageTrend := ⟨filter.username, filter.range, filter.bucketSize, filter.expectedBuckets,
    selectedModel, [], [], 0, fun _ => 0, []⟩
  if Go.Text.trimSpace filter.username = "" then some trend
  else do
    let models :=
      (((selectedRows filter "" table).map fun row => row.key.model).filter (· ≠ "")).dedup.mergeSort collate
    let rows := selectedRows filter selectedModel table
    let raw ← queryPoints rows
    let summary : TrendCounters := fun c => (raw.map fun point => point.counters c).foldl Go.add 0
    let filled := if 0 < filter.expectedBuckets
      then fillUsageTrendPoints filter.start filter.expectedBuckets filter.bucketSize raw
      else (raw.map (canonical filter.bucketSize), activeCount raw)
    let modelSummary ← queryModels rows
    return { trend with models, points := filled.1, activeBucketCount := filled.2, summary, modelSummary }

/-! ## What the trend should be -/

/-- The buckets of the table start at full hours and days. -/
def Aligned (table : List UsageRow) : Prop :=
  ∀ row ∈ table, ∀ bucket : Bucket, row.key.bucketSize = bucket.value → row.key.bucketStart % bucket.length = 0

/-- The points are consecutive buckets, they show what was selected, and the sums and the count are theirs. -/
structure AddsUp (filter : EmployeeUsageFilter) (rows : List UsageRow) (trend : EmployeeUsageTrend) : Prop where
  consecutive : ∀ i p q, trend.points[i]? = some p → trend.points[i + 1]? = some q →
    q.bucketStart = p.bucketStart + usageBucketStep filter.bucketSize
  buckets : ∀ p ∈ trend.points, p.bucketSize = filter.bucketSize ∧
    p.bucketStart % usageBucketStep filter.bucketSize = 0
  covered : ∀ row ∈ rows, trend.points.filter (fun p => p.bucketStart = 1000 * row.key.bucketStart) =
    [⟨1000 * row.key.bucketStart, filter.bucketSize, sumsOf rows fun r => r.key.bucketStart = row.key.bucketStart⟩]
  summary : ∀ c, (trend.points.map fun p => p.counters c).sum = trend.summary c
  active : trend.activeBucketCount = trend.points.countP fun p => Active p.counters

/-- The sums of the buckets and models, and of all rows, are in the range of `int64`. -/
def SumsFit (rows : List UsageRow) : Prop :=
  (∀ row ∈ rows, ∀ c ∈ TrendCounter.all,
      Go.InRange (sumsOf rows (fun r => r.key.bucketStart = row.key.bucketStart) c)) ∧
    (∀ row ∈ rows, ∀ c ∈ TrendCounter.all, Go.InRange (sumsOf rows (fun r => r.key.model = row.key.model) c)) ∧
    ∀ c ∈ TrendCounter.all, Go.InRange (sumsOf rows (fun _ => True) c)

/-! ## The queries return the sums -/

variable {rows table : List UsageRow} {filter : EmployeeUsageFilter}

theorem mapM_map_option {α β γ : Type} {f : α → Option β} {g : α → β → γ} {l : List α} {l' : List γ}
    (h : l.mapM (fun a => (f a).map (g a)) = some l') : ∀ a ∈ l, ∃ b, f a = some b := by
  induction l generalizing l' with
  | nil => exact fun a ha => nomatch ha
  | cons a l ih =>
    rw [List.mapM_cons] at h
    obtain ⟨c, hc, h⟩ := Option.bind_eq_some_iff.1 h
    obtain ⟨cs, hcs, -⟩ := Option.bind_eq_some_iff.1 h
    obtain ⟨b, hb, -⟩ := Option.map_eq_some_iff.1 hc
    exact List.forall_mem_cons.2 ⟨⟨b, hb⟩, ih hcs⟩

theorem mapM_of_forall {α β : Type} {f : α → Option β} {g : α → β} {l : List α} (h : ∀ a ∈ l, f a = some (g a)) :
    l.mapM f = some (l.map g) := by
  induction l with
  | nil => rfl
  | cons a l ih =>
    obtain ⟨ha, hl⟩ := List.forall_mem_cons.1 h
    rw [List.mapM_cons, ha, ih hl]
    rfl

theorem scanSums_eq_some {sums sums' : TrendCounters} :
    scanSums sums = some sums' ↔ (∀ c ∈ TrendCounter.all, Go.InRange (sums c)) ∧ sums' = sums := by
  unfold scanSums
  split
  · rename_i h
    rw [Option.some.injEq, and_iff_right h, eq_comm]
  · rename_i h
    exact iff_of_false (fun h => nomatch h) fun h' => h h'.1

theorem mem_bucketStarts {s : Instant} : s ∈ bucketStarts rows ↔ ∃ row ∈ rows, row.key.bucketStart = s := by
  rw [bucketStarts, (List.mergeSort_perm _ _).mem_iff, List.mem_dedup, List.mem_map]

theorem nodup_bucketStarts (rows : List UsageRow) : (bucketStarts rows).Nodup :=
  (List.mergeSort_perm _ _).nodup_iff.2 (List.nodup_dedup _)

/-- The buckets of the rows with their sums. -/
def rawPoints (rows : List UsageRow) : List UsageTrendBucket :=
  (bucketStarts rows).map fun s => ⟨s, sumsOf rows fun row => row.key.bucketStart = s⟩

theorem queryPoints_eq_some {raw : List UsageTrendBucket} : queryPoints rows = some raw ↔
    (∀ row ∈ rows, ∀ c ∈ TrendCounter.all,
      Go.InRange (sumsOf rows (fun r => r.key.bucketStart = row.key.bucketStart) c)) ∧ raw = rawPoints rows := by
  constructor
  · intro h
    have hfits : ∀ s ∈ bucketStarts rows, ∀ c ∈ TrendCounter.all,
        Go.InRange (sumsOf rows (fun r => r.key.bucketStart = s) c) := fun s hs =>
      (scanSums_eq_some.1 (mapM_map_option h s hs).choose_spec).1
    refine ⟨fun row hrow => hfits _ (mem_bucketStarts.2 ⟨row, hrow, rfl⟩), ?_⟩
    rw [queryPoints, mapM_of_forall fun s hs => by rw [scanSums_eq_some.2 ⟨hfits s hs, rfl⟩, Option.map_some]] at h
    exact (Option.some.inj h).symm
  · rintro ⟨hfits, rfl⟩
    refine mapM_of_forall fun s hs => ?_
    obtain ⟨row, hrow, rfl⟩ := mem_bucketStarts.1 hs
    rw [scanSums_eq_some.2 ⟨hfits row hrow, rfl⟩, Option.map_some]

theorem queryModels_isSome : (∃ summary, queryModels rows = some summary) ↔
    ∀ row ∈ rows, ∀ c ∈ TrendCounter.all, Go.InRange (sumsOf rows (fun r => r.key.model = row.key.model) c) := by
  have hmem : ∀ x : String × TrendCounters, x ∈ (((rows.map fun row => row.key.model).dedup.map fun m =>
      (m, sumsOf rows fun row => row.key.model = m)).mergeSort fun x y => y.2 .totalTokens ≤ x.2 .totalTokens) ↔
      ∃ row ∈ rows, (row.key.model, sumsOf rows fun r => r.key.model = row.key.model) = x := fun x => by
    rw [(List.mergeSort_perm _ _).mem_iff, List.mem_map]
    simp only [List.mem_dedup, List.mem_map, exists_exists_and_eq_and]
  constructor
  · rintro ⟨summary, h⟩ row hrow
    exact (scanSums_eq_some.1 (mapM_map_option h _ ((hmem _).2 ⟨row, hrow, rfl⟩)).choose_spec).1
  · intro hfits
    refine ⟨_, mapM_of_forall (g := fun x => ⟨x.1, x.2⟩) fun x hx => ?_⟩
    obtain ⟨row, hrow, rfl⟩ := (hmem x).1 hx
    rw [scanSums_eq_some.2 ⟨hfits row hrow, rfl⟩, Option.map_some]

theorem sum_rawPoints (rows : List UsageRow) (c : TrendCounter) :
    ((rawPoints rows).map fun point => point.counters c).sum = sumsOf rows (fun _ => True) c := by
  let start (row : UsageRow) : Instant := row.key.bucketStart
  let count (row : UsageRow) : Int := row.counters c.column
  have htotal : ∀ s, total start count (rows : Multiset UsageRow) s =
      sumsOf rows (fun row => row.key.bucketStart = s) c := fun s => by
    simp only [total, Multiset.filter_coe, Multiset.map_coe, Multiset.sum_coe, sumsOf, start, count]
  have hsum : ∑ s ∈ (bucketStarts rows).toFinset with True, total start count (rows : Multiset UsageRow) s =
      (((rows : Multiset UsageRow).filter fun _ => True).map count).sum :=
    sum_total fun row hrow => List.mem_toFinset.2 (mem_bucketStarts.2 ⟨row, hrow, rfl⟩)
  simp only [htotal, Finset.filter_true, List.sum_toFinset _ (nodup_bucketStarts rows), Multiset.filter_coe,
    Multiset.map_coe, Multiset.sum_coe] at hsum
  rw [rawPoints, List.map_map]
  exact hsum

/-! ## The grid -/

/-- The buckets of the rows start at multiples of the step. -/
def OnStep (bucketSize : Bucket) (rows : List UsageRow) : Prop :=
  ∀ row ∈ rows, 1000 * row.key.bucketStart % usageBucketStep bucketSize = 0

theorem usageBucketStep_pos (bucketSize : Bucket) : 0 < usageBucketStep bucketSize := by cases bucketSize <;> decide

theorem normalize_of_onStep {ts : GoTime} {bucketSize : Bucket} (h : ts % usageBucketStep bucketSize = 0) :
    normalizeUsageBucketStart ts bucketSize = ts := by
  rw [normalizeUsageBucketStart, h, Int.sub_zero]

theorem step_of_length {s : Instant} (bucketSize : Bucket) (h : s % bucketSize.length = 0) :
    1000 * s % usageBucketStep bucketSize = 0 := by
  have hhour : ∀ n : Int, n % 3600000000 = 0 → 1000 * n % 3600000000000 = 0 := fun n hn => by omega
  have hday : ∀ n : Int, n % (24 * 3600000000) = 0 → 1000 * n % (24 * 3600000000000) = 0 := fun n hn => by omega
  cases bucketSize with
  | hour => exact hhour s h
  | day => exact hday s h

theorem onStep_selected {selectedModel : String} (h : Aligned table) :
    OnStep filter.bucketSize (selectedRows filter selectedModel table) := by
  intro row hrow
  obtain ⟨hmem, hselected⟩ := List.mem_filter.1 hrow
  exact step_of_length filter.bucketSize (h row hmem filter.bucketSize (of_decide_eq_true hselected).1)

variable {bucketSize : Bucket} {start : GoTime} {n : Nat}

theorem grid_nodup : (grid start n bucketSize).Nodup := by
  refine List.Nodup.map_on (fun i _ j _ hij => ?_) List.nodup_range
  have hmul : (i : Int) * usageBucketStep bucketSize = j * usageBucketStep bucketSize := Int.add_left_cancel hij
  exact Int.ofNat_inj.1 (Int.eq_of_mul_eq_mul_right (usageBucketStep_pos bucketSize).ne' hmul)

theorem canonical_start (h : OnStep bucketSize rows) {point : UsageTrendBucket} (hp : point ∈ rawPoints rows) :
    canonical bucketSize point = ⟨1000 * point.bucketStart, bucketSize, point.counters⟩ := by
  obtain ⟨s, hs, rfl⟩ := List.mem_map.1 hp
  obtain ⟨row, hrow, rfl⟩ := mem_bucketStarts.1 hs
  rw [canonical, normalize_of_onStep (h row hrow)]

theorem rows_byBucket (h : OnStep bucketSize rows) : (byBucket bucketSize (rawPoints rows)).rows =
    (rawPoints rows).map fun point =>
      (1000 * point.bucketStart, ⟨1000 * point.bucketStart, bucketSize, point.counters⟩) := by
  have hkeys : ((rawPoints rows).map fun point => (canonical bucketSize point).bucketStart).Nodup := by
    rw [List.map_congr_left fun point hp => congrArg UsageTrendPoint.bucketStart (canonical_start h hp), rawPoints,
      List.map_map]
    exact (nodup_bucketStarts rows).map fun s s' heq => Int.eq_of_mul_eq_mul_left (by decide) heq
  rw [byBucket, Keyed.rows_foldl_upsert _ _ _ _ hkeys fun _ _ => Keyed.find_empty]
  exact List.map_congr_left fun point hp => by rw [canonical_start h hp]

theorem find_byBucket (h : OnStep bucketSize rows) {row : UsageRow} (hrow : row ∈ rows) :
    (byBucket bucketSize (rawPoints rows)).find (1000 * row.key.bucketStart) =
      some ⟨1000 * row.key.bucketStart, bucketSize, sumsOf rows fun r => r.key.bucketStart = row.key.bucketStart⟩ := by
  refine Keyed.find_of_mem ?_
  rw [rows_byBucket h]
  refine List.mem_map.2 ⟨⟨row.key.bucketStart, _⟩, List.mem_map.2 ⟨_, ?_, rfl⟩, rfl⟩
  exact mem_bucketStarts.2 ⟨row, hrow, rfl⟩

/-- The points of the grid. -/
def pointsOf (start : GoTime) (n : Nat) (bucketSize : Bucket) (rows : List UsageRow) : List UsageTrendPoint :=
  (fillUsageTrendPoints start n bucketSize (rawPoints rows)).1

theorem point_start (h : OnStep bucketSize rows) (g : GoTime) :
    (((byBucket bucketSize (rawPoints rows)).find g).getD ⟨g, bucketSize, fun _ => 0⟩).bucketStart = g ∧
      (((byBucket bucketSize (rawPoints rows)).find g).getD ⟨g, bucketSize, fun _ => 0⟩).bucketSize = bucketSize := by
  cases hfind : (byBucket bucketSize (rawPoints rows)).find g with
  | none => exact ⟨rfl, rfl⟩
  | some p =>
    have hmem := Keyed.mem_of_find hfind
    rw [rows_byBucket h] at hmem
    obtain ⟨point, -, heq⟩ := List.mem_map.1 hmem
    obtain ⟨rfl, rfl⟩ := Prod.mk.inj heq
    exact ⟨rfl, rfl⟩

theorem fill_points (start : GoTime) (n : Nat) (h : OnStep bucketSize rows) :
    (pointsOf start n bucketSize rows).map (fun p => (p.bucketStart, p.bucketSize)) =
      (grid start n bucketSize).map fun g => (g, bucketSize) := by
  rw [pointsOf, fillUsageTrendPoints, List.map_map]
  exact List.map_congr_left fun g _ => Prod.ext (point_start h g).1 (point_start h g).2

theorem sum_points {μ : Type} [AddCommMonoid μ] (f : TrendCounters → μ) (hf : f (fun _ => 0) = 0)
    (h : OnStep bucketSize rows) (hgrid : ∀ row ∈ rows, 1000 * row.key.bucketStart ∈ grid start n bucketSize) :
    ((pointsOf start n bucketSize rows).map fun p => f p.counters).sum =
      ((rawPoints rows).map fun point => f point.counters).sum := by
  have hall : ∀ row ∈ (byBucket bucketSize (rawPoints rows)).rows, row.1 ∈ grid start n bucketSize := by
    rw [rows_byBucket h]
    refine List.forall_mem_map.2 (List.forall_mem_map.2 fun s hs => ?_)
    obtain ⟨row, hrow, rfl⟩ := mem_bucketStarts.1 hs
    exact hgrid row hrow
  have hsum := Keyed.sum_find (byBucket bucketSize (rawPoints rows)) (fun p => f p.counters) grid_nodup hall
  rw [rows_byBucket h, List.map_map] at hsum
  rw [pointsOf, fillUsageTrendPoints, List.map_map]
  refine Eq.trans (congrArg List.sum (List.map_congr_left fun g _ => ?_)) hsum
  rw [Function.comp_apply]
  cases (byBucket bucketSize (rawPoints rows)).find g with
  | none => exact hf
  | some p => rfl

/-! ## The grid and the window -/

theorem mem_grid {g : GoTime} (hg : g % usageBucketStep bucketSize = 0) : g ∈ grid start n bucketSize ↔
    normalizeUsageBucketStart start bucketSize ≤ g ∧
      g < normalizeUsageBucketStart start bucketSize + n * usageBucketStep bucketSize := by
  have hbase : normalizeUsageBucketStart start bucketSize % usageBucketStep bucketSize = 0 := by
    rw [normalizeUsageBucketStart, Int.sub_emod, Int.emod_emod, Int.sub_self, Int.zero_emod]
  have hstep := usageBucketStep_pos bucketSize
  rw [grid, List.mem_map]
  obtain ⟨k, hk⟩ := Int.dvd_of_emod_eq_zero hg
  obtain ⟨j, hj⟩ := Int.dvd_of_emod_eq_zero hbase
  rw [hj, hk]
  have hshift (i : Nat) : usageBucketStep bucketSize * j + i * usageBucketStep bucketSize =
      usageBucketStep bucketSize * (j + i) := by
    rw [Int.mul_add, Int.mul_comm (i : Int)]
  simp only [hshift, List.mem_range, Int.mul_le_mul_left hstep, Int.mul_lt_mul_left hstep]
  constructor
  · rintro ⟨i, hi, heq⟩
    have hki : j + i = k := Int.eq_of_mul_eq_mul_left hstep.ne' heq
    omega
  · rintro ⟨hle, hlt⟩
    refine ⟨(k - j).toNat, by omega, congrArg _ ?_⟩
    rw [Int.toNat_of_nonneg (Int.sub_nonneg_of_le hle), Int.add_comm, Int.sub_add_cancel]

variable {value username model selectedModel : String} {now : GoTime}

theorem window_covered_iff {row : UsageRow}
    (hrow : Selected (usageTrendWindow value username model now) selectedModel row)
    (hon : 1000 * row.key.bucketStart %
      usageBucketStep (usageTrendWindow value username model now).bucketSize = 0) :
    1000 * row.key.bucketStart ∈ grid (usageTrendWindow value username model now).start
        (usageTrendWindow value username model now).expectedBuckets
        (usageTrendWindow value username model now).bucketSize ↔
      (Go.Text.trimSpace value = "1d" → 1000 * row.key.bucketStart ≠ normalizeUsageBucketStart now .hour) := by
  have hday : ∀ s k stop : Int, stop % (24 * 3600000000000) = 0 → (stop - k * (24 * 3600000000000)) / 1000 ≤ s →
      s < stop / 1000 → stop - k * (24 * 3600000000000) ≤ 1000 * s ∧
        1000 * s < stop - k * (24 * 3600000000000) + k * (24 * 3600000000000) := fun s k stop hstop hle hlt => by omega
  have hhour : ∀ s t : Int, 1000 * s % 3600000000000 = 0 → (t - 24 * 3600000000000) / 1000 ≤ s → s < t / 1000 →
      (((t - 24 * 3600000000000) - (t - 24 * 3600000000000) % 3600000000000 ≤ 1000 * s ∧
        1000 * s < (t - 24 * 3600000000000) - (t - 24 * 3600000000000) % 3600000000000 + 24 * 3600000000000) ↔
      1000 * s ≠ t - t % 3600000000000) := fun s t hs hle hlt => by omega
  have hnext : nextDay now % usageBucketStep .day = 0 := by
    rw [nextDay, normalizeUsageBucketStart, Int.add_emod_right, Int.sub_emod, Int.emod_emod, Int.sub_self,
      Int.zero_emod]
  have hnormalize (k : Int) : normalizeUsageBucketStart (nextDay now - k * usageBucketStep .day) .day =
      nextDay now - k * usageBucketStep .day :=
    normalize_of_onStep (by rw [Int.sub_mul_emod_self_right, hnext])
  rw [mem_grid hon]
  obtain ⟨-, -, hle, hlt, -⟩ := hrow
  unfold usageTrendWindow at hon hle hlt ⊢
  by_cases h1 : Go.Text.trimSpace value = "1d"
  · simp only [if_pos h1] at hon hle hlt ⊢
    rw [forall_prop_of_true h1]
    exact hhour _ now hon hle hlt
  · rw [forall_prop_of_false h1]
    simp only [if_neg h1] at hon hle hlt ⊢
    by_cases h7 : Go.Text.trimSpace value = "7d"
    · simp only [if_pos h7] at hon hle hlt ⊢
      rw [hnormalize]
      exact iff_of_true (hday _ 7 _ hnext hle hlt) trivial
    · simp only [if_neg h7] at hon hle hlt ⊢
      rw [hnormalize]
      exact iff_of_true (hday _ 30 _ hnext hle hlt) trivial

/-! ## The trend -/

variable {collate : String → String → Bool} {trend : EmployeeUsageTrend}

/-- What `EmployeeUsageTrend` returns, if the sums can be scanned. -/
structure Shows (filter : EmployeeUsageFilter) (rows : List UsageRow) (trend : EmployeeUsageTrend) : Prop where
  points : trend.points = pointsOf filter.start filter.expectedBuckets filter.bucketSize rows
  active : trend.activeBucketCount = activeCount (rawPoints rows)
  summary : ∀ c, trend.summary c = ((rawPoints rows).map fun point => point.counters c).foldl Go.add 0

theorem trend_shows (husername : Go.Text.trimSpace filter.username ≠ "") (hbuckets : 0 < filter.expectedBuckets)
    (hrows : selectedRows filter (Go.Text.trimSpace filter.model) table = rows)
    (h : employeeUsageTrend collate table filter = some trend) :
    Shows filter rows trend ∧ queryPoints rows = some (rawPoints rows) ∧
      ∃ summary, queryModels rows = some summary := by
  rw [employeeUsageTrend, if_neg husername, hrows] at h
  obtain ⟨raw, hraw, h⟩ := Option.bind_eq_some_iff.1 h
  obtain ⟨summary, hsummary, h⟩ := Option.bind_eq_some_iff.1 h
  obtain ⟨-, rfl⟩ := queryPoints_eq_some.1 hraw
  rw [if_pos hbuckets] at h
  obtain rfl := Option.some.inj h
  exact ⟨⟨rfl, rfl, fun _ => rfl⟩, hraw, summary, hsummary⟩

theorem exists_trend (husername : Go.Text.trimSpace filter.username ≠ "")
    (hrows : selectedRows filter (Go.Text.trimSpace filter.model) table = rows) (hfits : SumsFit rows) :
    ∃ trend, employeeUsageTrend collate table filter = some trend := by
  obtain ⟨summary, hsummary⟩ := queryModels_isSome.2 hfits.2.1
  rw [employeeUsageTrend, if_neg husername, hrows]
  dsimp only
  rw [queryPoints_eq_some.2 ⟨hfits.1, rfl⟩, hsummary]
  exact ⟨_, rfl⟩

theorem Shows.addsUp (h : Shows filter rows trend) (hon : OnStep filter.bucketSize rows)
    (hgrid : ∀ row ∈ rows, 1000 * row.key.bucketStart ∈ grid filter.start filter.expectedBuckets filter.bucketSize)
    (hfits : SumsFit rows) : AddsUp filter rows trend := by
  have hpoints := fill_points filter.start filter.expectedBuckets hon
  rw [← h.points] at hpoints
  have hat (i : Nat) (p : UsageTrendPoint) (hp : trend.points[i]? = some p) :
      (grid filter.start filter.expectedBuckets filter.bucketSize)[i]? = some p.bucketStart ∧
        p.bucketSize = filter.bucketSize := by
    have heq := congrArg (fun l => l[i]?) hpoints
    simp only [List.getElem?_map, hp, Option.map_some] at heq
    obtain ⟨g, hg, hpg⟩ := Option.map_eq_some_iff.1 heq.symm
    obtain ⟨rfl, hsize⟩ := Prod.mk.inj hpg
    exact ⟨hg, hsize.symm⟩
  have hgridAt (i : Nat) (g : GoTime)
      (hg : (grid filter.start filter.expectedBuckets filter.bucketSize)[i]? = some g) :
      normalizeUsageBucketStart filter.start filter.bucketSize + i * usageBucketStep filter.bucketSize = g := by
    rw [grid, List.getElem?_map] at hg
    obtain ⟨j, hj, hjg⟩ := Option.map_eq_some_iff.1 hg
    obtain ⟨hlt, rfl⟩ := List.getElem?_eq_some_iff.1 hj
    rw [List.getElem_range] at hjg
    exact hjg
  refine ⟨fun i p q hp hq => ?_, fun p hp => ?_, fun row hrow => ?_, fun c => ?_, ?_⟩
  · rw [← hgridAt i _ (hat i p hp).1, ← hgridAt (i + 1) _ (hat (i + 1) q hq).1, Int.natCast_add, Int.add_mul,
      Int.natCast_one, Int.one_mul, Int.add_assoc]
  · obtain ⟨i, hi⟩ := List.getElem?_of_mem hp
    refine ⟨(hat i p hi).2, ?_⟩
    rw [← hgridAt i _ (hat i p hi).1, Int.add_mul_emod_self_right, normalizeUsageBucketStart, Int.sub_emod,
      Int.emod_emod, Int.sub_self, Int.zero_emod]
  · -- The grid has the bucket once, and the point there is the one of the selected bucket.
    have honce : (grid filter.start filter.expectedBuckets filter.bucketSize).filter
        (fun g => g = 1000 * row.key.bucketStart) = [1000 * row.key.bucketStart] := by
      rw [List.filter_eq, List.count_eq_one_of_mem grid_nodup (hgrid row hrow)]
      rfl
    rw [h.points, pointsOf, fillUsageTrendPoints, List.filter_map]
    have hstart : ((fun p : UsageTrendPoint => decide (p.bucketStart = 1000 * row.key.bucketStart)) ∘ fun g =>
        ((byBucket filter.bucketSize (rawPoints rows)).find g).getD ⟨g, filter.bucketSize, fun _ => 0⟩) =
        fun g => decide (g = 1000 * row.key.bucketStart) := by
      funext g
      rw [Function.comp_apply, (point_start hon g).1]
    rw [hstart, honce, List.map_singleton, find_byBucket hon hrow, Option.getD_some]
  · rw [h.points, h.summary, sum_points (fun counters => counters c) rfl hon hgrid]
    refine ((Go.foldl_add_eq_sum_iff _).2 ?_).symm
    rw [sum_rawPoints]
    exact hfits.2.2 c c.mem_all
  · have hzero : (if decide (Active fun _ => 0) then 1 else 0) = 0 := by decide
    have hsum := sum_points (fun counters => if decide (Active counters) then 1 else 0) hzero hon hgrid
    rw [h.active, h.points, activeCount, countP_eq_sum, countP_eq_sum, hsum]

/-- The rows that the queries for the points select. -/
def windowRows (value username model : String) (now : GoTime) (table : List UsageRow) :
    List UsageRow :=
  selectedRows (usageTrendWindow value username model now) (Go.Text.trimSpace model) table

/-- The usage trend of an employee adds up if and only if all sums are in the range of `int64` and, in the window
of a day, nothing is selected of the current hour. -/
theorem usage_trend_adds_up_iff (collate : String → String → Bool)
    (value username model : String) (now : GoTime) (table : List UsageRow) (husername : Go.Text.trimSpace username ≠ "")
    (haligned : Aligned table) :
    (∃ trend, employeeUsageTrend collate table (usageTrendWindow value username model now) =
        some trend ∧ AddsUp (usageTrendWindow value username model now)
          (windowRows value username model now table) trend) ↔
      SumsFit (windowRows value username model now table) ∧
        (Go.Text.trimSpace value = "1d" → ∀ row ∈ windowRows value username model now table,
          1000 * row.key.bucketStart ≠ normalizeUsageBucketStart now .hour) := by
  generalize hrows : windowRows value username model now table = rows
  rw [windowRows] at hrows
  generalize hfilter : usageTrendWindow value username model now = filter at hrows ⊢
  have hon : OnStep filter.bucketSize rows := hrows ▸ onStep_selected haligned
  have hfields : filter.username = username ∧ filter.model = model ∧ 0 < filter.expectedBuckets := by
    rw [← hfilter, usageTrendWindow]
    split
    · exact ⟨rfl, rfl, Nat.zero_lt_succ _⟩
    · split <;> exact ⟨rfl, rfl, Nat.zero_lt_succ _⟩
  obtain ⟨hname, hmodel, hbuckets⟩ := hfields
  rw [← hname] at husername
  rw [← hmodel] at hrows
  have hcovered : (∀ row ∈ rows, 1000 * row.key.bucketStart ∈
      grid filter.start filter.expectedBuckets filter.bucketSize) ↔
      (Go.Text.trimSpace value = "1d" →
        ∀ row ∈ rows, 1000 * row.key.bucketStart ≠ normalizeUsageBucketStart now .hour) := by
    have hrow : ∀ row ∈ rows, (1000 * row.key.bucketStart ∈
        grid filter.start filter.expectedBuckets filter.bucketSize ↔
        (Go.Text.trimSpace value = "1d" → 1000 * row.key.bucketStart ≠ normalizeUsageBucketStart now .hour)) := by
      intro row hmem
      have hselected : Selected filter (Go.Text.trimSpace filter.model) row := by
        rw [← hrows] at hmem
        exact of_decide_eq_true (List.mem_filter.1 hmem).2
      have honrow := hon row hmem
      subst hfilter
      exact window_covered_iff hselected honrow
    exact ⟨fun h h1 row hmem => (hrow row hmem).1 (h row hmem) h1,
      fun h row hmem => (hrow row hmem).2 fun h1 => h h1 row hmem⟩
  rw [← hcovered]
  constructor
  · rintro ⟨trend, htrend, hadds⟩
    obtain ⟨hshows, hpoints, hmodels⟩ := trend_shows husername hbuckets hrows htrend
    have hgrid : ∀ row ∈ rows, 1000 * row.key.bucketStart ∈
        grid filter.start filter.expectedBuckets filter.bucketSize := by
      intro row hmem
      have hone := hadds.covered row hmem
      obtain ⟨hp, -⟩ := List.mem_filter.1 (hone ▸ List.mem_singleton_self _)
      have hstart := List.mem_map_of_mem (f := fun p : UsageTrendPoint => (p.bucketStart, p.bucketSize)) hp
      rw [hshows.points, fill_points _ _ hon] at hstart
      obtain ⟨g, hg, heq⟩ := List.mem_map.1 hstart
      have hstart : g = 1000 * row.key.bucketStart := (Prod.mk.inj heq).1
      rwa [← hstart]
    refine ⟨⟨(queryPoints_eq_some.1 hpoints).1, queryModels_isSome.1 hmodels, fun c _ => ?_⟩, hgrid⟩
    -- The sum of the points is that of all rows, and the loop has computed it.
    have hsum := hadds.summary c
    rw [hshows.points, hshows.summary, sum_points (fun counters => counters c) rfl hon hgrid, eq_comm,
      Go.foldl_add_eq_sum_iff, sum_rawPoints] at hsum
    exact hsum
  · rintro ⟨hfits, hgrid⟩
    obtain ⟨trend, htrend⟩ : ∃ trend, employeeUsageTrend collate table filter = some trend :=
      exists_trend husername hrows hfits
    exact ⟨trend, htrend, (trend_shows husername hbuckets hrows htrend).1.addsUp hon hgrid hfits⟩

/-- A request in the first hour of the epoch. -/
def firstHour : UsageRow where
  key := ⟨0, "hour", "", "alice", "gpt-4o", "", ""⟩
  counters
    | .requestCount => 1
    | _ => 0

theorem aligned_firstHour : Aligned [firstHour] := by
  refine List.forall_mem_singleton.2 fun bucket _ => ?_
  cases bucket <;> rfl

/-- At the end of that hour, the window of a day has it. -/
theorem usage_trend_adds_up_iff_fullHour : ∃ trend,
    employeeUsageTrend (fun _ _ => true) [firstHour] (usageTrendWindow "1d" "alice" "" 3600000000000) =
        some trend ∧
      AddsUp (usageTrendWindow "1d" "alice" "" 3600000000000)
        (windowRows "1d" "alice" "" 3600000000000 [firstHour]) trend := by
  refine (usage_trend_adds_up_iff (fun _ _ => true) "1d" "alice" "" 3600000000000 [firstHour] (by decide)
    aligned_firstHour).2 ?_
  have hrows : windowRows "1d" "alice" "" 3600000000000 [firstHour] = [firstHour] := rfl
  rw [hrows]
  exact ⟨⟨by decide, by decide, by decide⟩, fun _ => by decide⟩

/-- Half an hour earlier the request is in the summary, and in none of the points. -/
theorem current_hour_not_shown : ∃ trend,
    employeeUsageTrend (fun _ _ => true) [firstHour] (usageTrendWindow "1d" "alice" "" 1800000000000) =
        some trend ∧
      trend.summary .requestCount = 1 ∧ (trend.points.map fun p => p.counters .requestCount).sum = 0 ∧
      trend.activeBucketCount = 1 ∧ (trend.points.countP fun p => Active p.counters) = 0 := by
  have hrows : selectedRows (usageTrendWindow "1d" "alice" "" 1800000000000) "" [firstHour] = [firstHour] := rfl
  have hraw : rawPoints [firstHour] = [⟨0, sumsOf [firstHour] fun row => row.key.bucketStart = 0⟩] := by
    have hdedup : ([firstHour].map fun row => row.key.bucketStart).dedup = [0] := by decide
    rw [rawPoints, bucketStarts, hdedup, List.mergeSort_singleton]
    rfl
  obtain ⟨trend, htrend⟩ : ∃ trend, employeeUsageTrend (fun _ _ => true) [firstHour]
      (usageTrendWindow "1d" "alice" "" 1800000000000) = some trend :=
    exists_trend (by decide) hrows ⟨by decide, by decide, by decide⟩
  obtain ⟨hpoints, hactive, hsummary⟩ := (trend_shows (by decide) (by decide) hrows htrend).1
  rw [hraw] at hactive hsummary
  rw [pointsOf, hraw] at hpoints
  refine ⟨trend, htrend, (hsummary .requestCount).trans (by decide), ?_, hactive.trans (by decide), ?_⟩
  · rw [hpoints]
    decide
  · rw [hpoints]
    decide

end AuditGateway.Admin
