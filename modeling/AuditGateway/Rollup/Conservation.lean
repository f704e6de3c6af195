import AuditGateway.Rollup.Usage

/-!
# The full rollup conserves usage

`rebuild_usage_aggregates_full` groups the facts by the columns of the unique constraint of
`usage_aggregates`, so that no row of a statement overwrites another. Each fact is in one hour row and
in one day row, and the rows add up to the facts (`Conserves`).

A sum that does not fit its column makes the statement fail (`full_rollup_overflows`).
-/

namespace AuditGateway.Rollup

open AuditGateway.Framework

/-! ## Conservation -/

/-- The columns that hour rows and day rows have in common. -/
structure Dimensions where
  tokenFingerprint : String
  username : String
  model : String
  routePattern : String
  protocolFamily : String
deriving DecidableEq, Repr

def UsageFact.dimensions (f : UsageFact) : Dimensions :=
  ⟨f.tokenFingerprint, f.username, f.model, f.routePattern, f.protocolFamily⟩

def AggregateKey.dimensions (k : AggregateKey) : Dimensions :=
  ⟨k.tokenFingerprint, k.username, k.model, k.routePattern, k.protocolFamily⟩

/-- What a table has in a column at a key. -/
def valueAt (T : UsageAggregates) (c : Counter) (k : AggregateKey) : Int := ((T k).map (·.counters c)).getD 0

/-- The sum of a column over the rows with certain keys. -/
noncomputable def rowSum (T : UsageAggregates) (c : Counter) (keys : Set AggregateKey) : Int :=
  ∑ᶠ k ∈ keys, valueAt T c k

/-- The sum of a column over the facts with certain dimensions. -/
def factSum (facts : Multiset UsageFact) (c : Counter) (dims : Dimensions → Prop) [DecidablePred dims] : Int :=
  ((facts.filter fun f => dims f.dimensions).map (·.counters c)).sum

/-- The keys of rows of a bucket size with certain dimensions. -/
def keysOf (bucket : Bucket) (dims : Dimensions → Prop) : Set AggregateKey :=
  {k | k.bucketSize = bucket.value ∧ dims k.dimensions}

/-- A fact is counted in the row of its hour and in that of its day. -/
def CountedIn (z : DateTrunc) (f : UsageFact) (k : AggregateKey) : Prop :=
  f.aggregateKey z .hour = k ∨ f.aggregateKey z .day = k

instance (z : DateTrunc) (f : UsageFact) (k : AggregateKey) : Decidable (CountedIn z f k) :=
  inferInstanceAs (Decidable (_ ∨ _))

/-- The hours of a day, with its dimensions. -/
def hoursOf (k : AggregateKey) : Set AggregateKey :=
  {k' | k'.bucketSize = Bucket.hour.value ∧ k'.dimensions = k.dimensions ∧
    k.bucketStart ≤ k'.bucketStart ∧ k'.bucketStart < k.bucketStart + Bucket.day.length}

/-- The hour and day rows of a table are those of the facts, and add up to them. -/
structure Conserves (z : DateTrunc) (facts : Multiset UsageFact) (T : UsageAggregates) : Prop where
  /-- A row is the sum of the facts that are counted in it, and there is one. -/
  rows : ∀ (bucket : Bucket) k row, k.bucketSize = bucket.value → T k = some row →
    (∃ f ∈ facts, CountedIn z f k) ∧
      ∀ c, row.counters c = ((facts.filter fun f => CountedIn z f k).map (·.counters c)).sum
  /-- A fact is counted in one row of each size, which has its dimensions. -/
  once : ∀ f ∈ facts, ∀ bucket : Bucket, ∃! k, k.bucketSize = bucket.value ∧ k.dimensions = f.dimensions ∧
    (T k).isSome ∧ CountedIn z f k
  sums : ∀ (bucket : Bucket) c (dims : Dimensions → Prop) [DecidablePred dims],
    rowSum T c (keysOf bucket dims) = factSum facts c dims
  /-- A day is the sum of its hours. -/
  nested : ∀ k row, k.bucketSize = Bucket.day.value → T k = some row → ∀ c, row.counters c = rowSum T c (hoursOf k)

section

variable {z : DateTrunc} {facts : Multiset UsageFact} {now : Instant} {T : UsageAggregates} {k : AggregateKey}
  {bucket : Bucket} {c : Counter} {f : UsageFact} {r : Nat × UsageAggregates}

theorem countedIn_iff (h : k.bucketSize = bucket.value) : CountedIn z f k ↔ f.aggregateKey z bucket = k := by
  have hother : ∀ b : Bucket, f.aggregateKey z b = k → b = bucket := by
    rintro b rfl
    revert h
    cases b <;> cases bucket <;> simp [UsageFact.aggregateKey, Bucket.value]
  constructor
  · rintro (hk | hk)
    · exact hother _ hk ▸ hk
    · exact hother _ hk ▸ hk
  · intro hk
    cases bucket
    · exact .inl hk
    · exact .inr hk

theorem total_apply : total (UsageFact.aggregateKey z bucket) UsageFact.counters facts k c =
    total (UsageFact.aggregateKey z bucket) (·.counters c) facts k := by
  rw [total, total, Pi.multiset_sum_apply, Multiset.map_map]
  rfl

/-! ## What is at a key -/

section

variable (hr : rebuildUsageAggregatesFull z facts now T = .ok r)
include hr

theorem counters_rebuild (h : k.bucketSize = bucket.value) : (r.2 k).map AggregateRow.counters =
    groupSum (UsageFact.aggregateKey z bucket) UsageFact.counters facts k := by
  have hcontent := content_rebuildFull hr h
  have hcounters := congrArg (Option.map fun x : Int × String × Counters => x.2.2) hcontent
  simpa [Option.map_map, Function.comp_def, AggregateRow.content, inserted] using hcounters

theorem valueAt_rebuild (h : k.bucketSize = bucket.value) :
    valueAt r.2 c k = total (UsageFact.aggregateKey z bucket) (·.counters c) facts k := by
  have hvalue : valueAt r.2 c k = ((r.2 k).map AggregateRow.counters).elim 0 (· c) := by
    unfold valueAt
    cases r.2 k <;> rfl
  rw [hvalue, counters_rebuild hr h]
  by_cases hin : ∃ f ∈ facts, f.aggregateKey z bucket = k
  · rw [groupSum_of_exists hin]
    exact total_apply
  · push Not at hin
    rw [groupSum_of_forall hin, total_eq_zero hin]
    rfl

theorem rowSum_rebuild {P : AggregateKey → Prop} [DecidablePred P] :
    rowSum r.2 c {k | k.bucketSize = bucket.value ∧ P k} =
      ((facts.filter fun f => P (f.aggregateKey z bucket)).map (·.counters c)).sum := by
  let S : Finset AggregateKey := (facts.map (UsageFact.aggregateKey z bucket)).toFinset
  have hS : ∀ f ∈ facts, f.aggregateKey z bucket ∈ S := fun f hf =>
    Multiset.mem_toFinset.2 (Multiset.mem_map_of_mem _ hf)
  have hmem : ∀ k ∈ S, k.bucketSize = bucket.value := by
    intro k hk
    obtain ⟨f, -, rfl⟩ := Multiset.mem_map.1 (Multiset.mem_toFinset.1 hk)
    rfl
  rw [rowSum, finsum_mem_eq_sum_of_subset (t := S.filter P)]
  · rw [← sum_total hS]
    refine Finset.sum_congr rfl fun k hk => ?_
    exact valueAt_rebuild hr (hmem k (Finset.mem_of_mem_filter k hk))
  · rintro k ⟨⟨hsize, hP⟩, hne⟩
    refine Finset.mem_coe.2 (Finset.mem_filter.2 ⟨?_, hP⟩)
    by_contra hnot
    refine hne ?_
    rw [valueAt_rebuild hr hsize]
    exact total_eq_zero fun f hf hk => hnot (hk ▸ hS f hf)
  · intro k hk
    obtain ⟨hk, hP⟩ := Finset.mem_filter.1 (Finset.mem_coe.1 hk)
    exact ⟨hmem k hk, hP⟩

theorem exists_fact {row : AggregateRow} (h : k.bucketSize = bucket.value)
    (hrow : r.2 k = some row) : ∃ f ∈ facts, f.aggregateKey z bucket = k := by
  by_contra hnot
  push Not at hnot
  have hcounters : some row.counters = groupSum (UsageFact.aggregateKey z bucket) UsageFact.counters facts k := by
    rw [← counters_rebuild hr h, hrow]
    rfl
  rw [groupSum_of_forall hnot] at hcounters
  cases hcounters

end

theorem valueAt_of_row {row : AggregateRow} (h : T k = some row) : valueAt T c k = row.counters c := by
  rw [valueAt, h]
  rfl

theorem day_eq_iff (t t₀ : Int) :
    t - t % (24 * 3600000000) = t₀ - t₀ % (24 * 3600000000) ↔
      t₀ - t₀ % (24 * 3600000000) ≤ t - t % 3600000000 ∧
        t - t % 3600000000 < t₀ - t₀ % (24 * 3600000000) + 24 * 3600000000 := by
  omega

theorem aggregateKey_day_iff {f₀ : UsageFact} (hk : f₀.aggregateKey .utc .day = k) :
    f.aggregateKey .utc .day = k ↔ (f.aggregateKey .utc .hour).dimensions = k.dimensions ∧
      k.bucketStart ≤ (f.aggregateKey .utc .hour).bucketStart ∧
      (f.aggregateKey .utc .hour).bucketStart < k.bucketStart + Bucket.day.length := by
  subst hk
  have hday := day_eq_iff f.requestStartedAt f₀.requestStartedAt
  simp only [UsageFact.aggregateKey, AggregateKey.mk.injEq, AggregateKey.dimensions, Dimensions.mk.injEq, DateTrunc.utc,
    Bucket.length, hour, true_and]
  exact (and_congr_left' hday).trans and_comm

theorem conserves_rebuild (hr : rebuildUsageAggregatesFull .utc facts now T = .ok r) : Conserves .utc facts r.2 where
  rows := by
    intro bucket k row h hrow
    obtain ⟨f, hf, hk⟩ := exists_fact hr h hrow
    refine ⟨⟨f, hf, (countedIn_iff h).2 hk⟩, fun c => ?_⟩
    rw [← valueAt_of_row hrow, valueAt_rebuild hr h, total]
    simp only [countedIn_iff h]
  once := by
    intro f hf bucket
    refine ⟨f.aggregateKey .utc bucket, ⟨rfl, rfl, ?_, (countedIn_iff rfl).2 rfl⟩, ?_⟩
    · rw [← Option.isSome_map, counters_rebuild hr rfl, groupSum_of_exists ⟨f, hf, rfl⟩]
      rfl
    · rintro k ⟨hsize, -, -, hcounted⟩
      exact ((countedIn_iff hsize).1 hcounted).symm
  sums := fun _ _ _ _ => rowSum_rebuild hr
  nested := by
    intro k row h hrow c
    obtain ⟨f₀, -, hk⟩ := exists_fact hr h hrow
    rw [← valueAt_of_row hrow, valueAt_rebuild hr h, hoursOf, rowSum_rebuild hr, total]
    simp only [← aggregateKey_day_iff hk]

end

/-- The rebuild returns a table that conserves usage, and that running it again does not change, if and only if the
sums of all hours and days fit their columns. -/
theorem full_rollup_conserves_iff (facts : Multiset UsageFact) (now : Instant) (T : UsageAggregates) :
    (∃ n T', rebuildUsageAggregatesFull .utc facts now T = .ok (n, T') ∧ Conserves .utc facts T' ∧
      ∀ later, ∃ n' T'', rebuildUsageAggregatesFull .utc facts later T' = .ok (n', T'') ∧ SameBuckets T'' T') ↔
    ∀ bucket, Fits .utc facts bucket := by
  constructor
  · rintro ⟨n, T', hr, -⟩
    exact (rollupBuckets_eq_ok_iff.1 hr).1
  · intro hfits
    obtain ⟨⟨n, T'⟩, hr⟩ := rebuildFull_of_fits hfits now T
    refine ⟨n, T', hr, conserves_rebuild hr, fun later => ?_⟩
    obtain ⟨⟨n', T''⟩, hr'⟩ := rebuildFull_of_fits hfits later T'
    refine ⟨n', T'', hr', fun k hsize => ?_⟩
    obtain ⟨bucket, hsize⟩ := Bucket.of_size hsize
    exact (content_rebuildFull hr' hsize).trans (content_rebuildFull hr hsize).symm

def largestFact : UsageFact where
  requestStartedAt := 0
  counters
    | .totalTokens => 2 ^ 63 - 1
    | _ => 1

/-- Two such facts in one hour: their sum does not fit, and the rebuild raises. -/
theorem full_rollup_overflows : (∀ c, Bigint (largestFact.counters c)) ∧
    ∀ T, rebuildUsageAggregatesFull .utc {largestFact, largestFact} 0 T = .error .numericValueOutOfRange := by
  have hfits : ¬ Fits .utc {largestFact, largestFact} .hour := by decide
  refine ⟨fun c => by cases c <;> decide, fun T => ?_⟩
  cases hr : rebuildUsageAggregatesFull .utc {largestFact, largestFact} 0 T with
  | error => rfl
  | ok => exact absurd ((rollupBuckets_eq_ok_iff.1 hr).1 .hour) hfits

end AuditGateway.Rollup
