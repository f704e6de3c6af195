import AuditGateway.Framework.Aggregate

/-!
# The rollup of usage facts

`trace_usage_facts` summed into the hour and day buckets of `usage_aggregates`
(`offline.py`), either from all facts (`rebuildUsageAggregatesFull`) or from the
facts of the last hours (`rebuildUsageAggregatesRecent`).

The recent rebuild drops the buckets that start in its window, and writes every
bucket that has a fact in it. A bucket that starts before the window and reaches into
it is not dropped but written over, with the sums of only a part of its facts:
`recent_agrees_iff` says when the recent rebuild still agrees with the full one, and
`straddling_day_forgets` is a day on which it does not.

The columns are `BIGINT`. A sum that does not fit makes its statement fail, and the
transaction is rolled back.
-/

namespace AuditGateway.Rollup

open AuditGateway.Framework

/-- Microseconds since the epoch. -/
abbrev Instant := Int

abbrev hour : Instant := 3600000000

/-! ## Facts and aggregates -/

/-- The columns that are summed up. -/
inductive Counter
  | requestCount
  | successCount
  | errorCount
  | streamCount
  | promptTokens
  | completionTokens
  | totalTokens
  | reasoningTokens
  | cachedTokens
  | requestBodyBytes
  | responseBodyBytes
deriving DecidableEq, Repr

abbrev Counters := Counter → Int

/-- A row of `trace_usage_facts`. -/
structure UsageFact where
  tokenFingerprint : String := ""
  username : String := ""
  model : String := ""
  routePattern : String := ""
  protocolFamily : String := ""
  requestStartedAt : Instant
  counters : Counters

/-- The unit a bucket is truncated to, as `date_trunc` and `bucket_size` name it. -/
inductive Bucket
  | hour
  | day
deriving DecidableEq, Repr

def Bucket.value : Bucket → String
  | hour => "hour"
  | day => "day"

/-- `date_trunc` in the time zone of the session: the start of the hour or day that the
instant is in, which is not after it. -/
structure DateTrunc where
  trunc : Bucket → Instant → Instant
  trunc_le : ∀ b t, trunc b t ≤ t

/-- The length of a bucket where every day has 24 hours. -/
def Bucket.length : Bucket → Instant
  | hour => Rollup.hour
  | day => 24 * Rollup.hour

/-- `date_trunc` in UTC. -/
def DateTrunc.utc : DateTrunc where
  trunc b t := t - t % b.length
  trunc_le b t := Int.sub_le_self t (Int.emod_nonneg t (by cases b <;> decide))

/-- The columns of the unique constraint of `usage_aggregates`. -/
structure AggregateKey where
  bucketStart : Instant
  bucketSize : String
  tokenFingerprint : String
  username : String
  model : String
  routePattern : String
  protocolFamily : String
deriving DecidableEq, Repr

/-- The other columns of a row of `usage_aggregates`. -/
structure AggregateRow where
  newApiTokenId : Int := 0
  tokenNameSnapshot : String := ""
  counters : Counters
  createdAt : Instant
  updatedAt : Instant

abbrev UsageAggregates := AggregateKey → Option AggregateRow

/-- The columns of `ON CONFLICT` in the row that is inserted for a fact's group. -/
def UsageFact.aggregateKey (z : DateTrunc) (bucket : Bucket) (f : UsageFact) : AggregateKey where
  bucketStart := z.trunc bucket f.requestStartedAt
  bucketSize := bucket.value
  tokenFingerprint := f.tokenFingerprint
  username := f.username
  model := f.model
  routePattern := f.routePattern
  protocolFamily := f.protocolFamily

/-! ## Groups -/

inductive Column
  | time (t : Instant)
  | text (s : String)
  | int (n : Int)
deriving DecidableEq, Repr

/-- The select list up to the sums. -/
def UsageFact.selectList (z : DateTrunc) (bucket : Bucket) (f : UsageFact) : List Column :=
  [.time (z.trunc bucket f.requestStartedAt), .text bucket.value, .text f.tokenFingerprint, .int 0, .text f.username,
    .text "", .text f.model, .text f.routePattern, .text f.protocolFamily]

/-- `GROUP BY 1, 2, 3, 5, 7, 8, 9`. -/
def UsageFact.group (z : DateTrunc) (bucket : Bucket) (f : UsageFact) : List (Option Column) :=
  [1, 2, 3, 5, 7, 8, 9].map fun n => (f.selectList z bucket)[n - 1]?

/-- The columns of the unique constraint in the order of the select list. -/
def AggregateKey.columns (k : AggregateKey) : List (Option Column) :=
  [.time k.bucketStart, .text k.bucketSize, .text k.tokenFingerprint, .text k.username, .text k.model,
    .text k.routePattern, .text k.protocolFamily].map some

theorem group_eq_columns_iff {z : DateTrunc} {bucket : Bucket} {f : UsageFact} {k : AggregateKey} :
    f.group z bucket = k.columns ↔ f.aggregateKey z bucket = k := by
  obtain ⟨start, size, fingerprint, username, model, route, family⟩ := k
  simp [UsageFact.group, UsageFact.selectList, AggregateKey.columns, UsageFact.aggregateKey]

/-! ## The statements -/

/-- The values of a `BIGINT` column. -/
def Bigint (n : Int) : Prop := -2 ^ 63 ≤ n ∧ n < 2 ^ 63

instance (n : Int) : Decidable (Bigint n) := inferInstanceAs (Decidable (_ ∧ _))

def Counter.all : List Counter :=
  [.requestCount, .successCount, .errorCount, .streamCount, .promptTokens, .completionTokens, .totalTokens,
    .reasoningTokens, .cachedTokens, .requestBodyBytes, .responseBodyBytes]

/-- The sums of the groups of a statement can be inserted. -/
def Fits (z : DateTrunc) (facts : Multiset UsageFact) (bucket : Bucket) : Prop :=
  ∀ f ∈ facts, ∀ c ∈ Counter.all,
    Bigint (total (UsageFact.aggregateKey z bucket) UsageFact.counters facts (f.aggregateKey z bucket) c)

instance (z : DateTrunc) (facts : Multiset UsageFact) (bucket : Bucket) : Decidable (Fits z facts bucket) :=
  inferInstanceAs (Decidable (∀ _ ∈ _, _))

/-- `bigint out of range`. -/
inductive DataError
  | numericValueOutOfRange
deriving DecidableEq, Repr

/-- A row for each group, which replaces the counters of the row of a conflict. -/
def upsertGroups (z : DateTrunc) (bucket : Bucket) (facts : Multiset UsageFact) (now : Instant)
    (T : UsageAggregates) : UsageAggregates := fun k =>
  match groupSum (UsageFact.group z bucket) UsageFact.counters facts k.columns, T k with
  | none, row => row
  | some sums, none => some { counters := sums, createdAt := now, updatedAt := now }
  | some sums, some row => some { row with counters := sums, updatedAt := now }

/-- The row count of the statement: its number of groups. -/
def rollupRowcount (z : DateTrunc) (bucket : Bucket) (facts : Multiset UsageFact) : Nat :=
  (facts.map (UsageFact.group z bucket)).dedup.card

/-- `ROLLUP_USAGE_FACTS`, with its row count. -/
def rollupUsageFacts (z : DateTrunc) (bucket : Bucket) (facts : Multiset UsageFact) (now : Instant)
    (T : UsageAggregates) : Except DataError (Nat × UsageAggregates) :=
  if Fits z facts bucket then .ok (rollupRowcount z bucket facts, upsertGroups z bucket facts now T)
  else .error .numericValueOutOfRange

/-- `now() - (window_hours || ' hours')::interval`. -/
def windowStart (now : Instant) (windowHours : Int) : Instant :=
  now - windowHours * hour

/-- The `WHERE` of `ROLLUP_USAGE_FACTS_WINDOWED`, which is `ROLLUP_USAGE_FACTS` otherwise. -/
def inWindow (now : Instant) (windowHours : Int) (facts : Multiset UsageFact) : Multiset UsageFact :=
  facts.filter fun f => windowStart now windowHours ≤ f.requestStartedAt

/-- `DELETE FROM usage_aggregates WHERE bucket_size IN ('hour', 'day')`, with what else is
asked of the row. -/
def deleteBuckets (which : AggregateKey → Bool) (T : UsageAggregates) : UsageAggregates := fun k =>
  if (k.bucketSize = "hour" ∨ k.bucketSize = "day") ∧ which k then none else T k

/-- The loop over the bucket sizes that both functions end with. -/
def rollupBuckets (z : DateTrunc) (facts : Multiset UsageFact) (now : Instant) (T : UsageAggregates) :
    Except DataError (Nat × UsageAggregates) :=
  [Bucket.hour, Bucket.day].foldlM
    (fun acc bucket => (rollupUsageFacts z bucket facts now acc.2).map fun (rowcount, T) =>
      (acc.1 + rowcount, T)) (0, T)

/-- `rebuild_usage_aggregates_full`. -/
def rebuildUsageAggregatesFull (z : DateTrunc) (facts : Multiset UsageFact) (now : Instant)
    (T : UsageAggregates) : Except DataError (Nat × UsageAggregates) :=
  rollupBuckets z facts now (deleteBuckets (fun _ => true) T)

/-- `rebuild_usage_aggregates_recent`. -/
def rebuildUsageAggregatesRecent (z : DateTrunc) (facts : Multiset UsageFact) (now : Instant)
    (windowHours : Int) (T : UsageAggregates) : Except DataError (Nat × UsageAggregates) :=
  rollupBuckets z (inWindow now windowHours facts) now
    (deleteBuckets (fun k => windowStart now windowHours ≤ k.bucketStart) T)

/-! ## What the rebuilds leave at a key -/

/-- The columns of a row without the times at which it was written. -/
def AggregateRow.content (row : AggregateRow) : Int × String × Counters :=
  (row.newApiTokenId, row.tokenNameSnapshot, row.counters)

/-- The tables have the same hour and day buckets. -/
def SameBuckets (T T' : UsageAggregates) : Prop :=
  ∀ k : AggregateKey, k.bucketSize = "hour" ∨ k.bucketSize = "day" →
    (T k).map AggregateRow.content = (T' k).map AggregateRow.content

variable {z : DateTrunc} {facts F N : Multiset UsageFact} {now now₀ : Instant} {windowHours : Int}
  {T T₀ : UsageAggregates} {k : AggregateKey} {bucket : Bucket}

theorem Bucket.of_size (h : k.bucketSize = "hour" ∨ k.bucketSize = "day") :
    ∃ bucket : Bucket, k.bucketSize = bucket.value := by
  obtain h | h := h
  · exact ⟨hour, h⟩
  · exact ⟨day, h⟩

theorem Bucket.size_of_value (h : k.bucketSize = bucket.value) :
    k.bucketSize = "hour" ∨ k.bucketSize = "day" := by
  cases bucket
  · exact .inl h
  · exact .inr h

/-- The table that both statements of a rebuild leave. -/
def upsertBuckets (z : DateTrunc) (facts : Multiset UsageFact) (now : Instant) (T : UsageAggregates) :
    UsageAggregates :=
  upsertGroups z .day facts now (upsertGroups z .hour facts now T)

theorem rollupBuckets_eq_ok_iff {r : Nat × UsageAggregates} : rollupBuckets z facts now T = .ok r ↔
    (∀ bucket, Fits z facts bucket) ∧
      r = (rollupRowcount z .hour facts + rollupRowcount z .day facts, upsertBuckets z facts now T) := by
  have hfits : (∀ bucket, Fits z facts bucket) ↔ Fits z facts .hour ∧ Fits z facts .day :=
    ⟨fun h => ⟨h _, h _⟩, fun h bucket => by cases bucket; exacts [h.1, h.2]⟩
  rw [hfits, rollupBuckets]
  by_cases hhour : Fits z facts .hour
  · by_cases hday : Fits z facts .day <;>
      simp [rollupUsageFacts, hhour, hday, upsertBuckets, Except.map, pure, Except.pure, bind, Except.bind, eq_comm]
  · simp [rollupUsageFacts, hhour, Except.map, bind, Except.bind]

theorem rebuildFull_of_fits (h : ∀ bucket, Fits z facts bucket) (now : Instant) (T : UsageAggregates) :
    ∃ r, rebuildUsageAggregatesFull z facts now T = .ok r :=
  ⟨_, rollupBuckets_eq_ok_iff.2 ⟨h, rfl⟩⟩

theorem upsertGroups_eq : upsertGroups z bucket facts now T k =
    match groupSum (UsageFact.aggregateKey z bucket) UsageFact.counters facts k, T k with
    | none, row => row
    | some sums, none => some { counters := sums, createdAt := now, updatedAt := now }
    | some sums, some row => some { row with counters := sums, updatedAt := now } := by
  rw [upsertGroups, groupSum_congr fun _ => group_eq_columns_iff]

theorem upsertGroups_other (h : k.bucketSize ≠ bucket.value) :
    upsertGroups z bucket facts now T k = T k := by
  have hnone : groupSum (UsageFact.aggregateKey z bucket) UsageFact.counters facts k = none :=
    groupSum_of_forall fun f _ hk => h (congrArg AggregateKey.bucketSize hk).symm
  rw [upsertGroups_eq, hnone]

theorem upsertBuckets_apply (h : k.bucketSize = bucket.value) :
    upsertBuckets z facts now T k = upsertGroups z bucket facts now T k := by
  rw [upsertBuckets]
  cases bucket with
  | hour =>
    refine upsertGroups_other ?_
    rw [h]
    decide
  | day =>
    have hother : upsertGroups z .hour facts now T k = T k := by
      refine upsertGroups_other ?_
      rw [h]
      decide
    rw [upsertGroups_eq, hother, upsertGroups_eq]

/-- The content of a row that a rollup has inserted. -/
def inserted (sums : Counters) : Int × String × Counters :=
  (0, "", sums)

theorem content_upsertGroups {T : UsageAggregates} {old : Option Counters}
    (h : (T k).map AggregateRow.content = old.map inserted) :
    (upsertGroups z bucket facts now T k).map AggregateRow.content =
      ((groupSum (UsageFact.aggregateKey z bucket) UsageFact.counters facts k).or old).map inserted := by
  rw [upsertGroups_eq]
  cases groupSum (UsageFact.aggregateKey z bucket) UsageFact.counters facts k with
  | none => exact h
  | some sums =>
    cases hrow : T k with
    | none => rfl
    | some row =>
      rw [hrow] at h
      obtain ⟨counters, _, hrow⟩ := Option.map_eq_some_iff.1 h.symm
      have hid : row.newApiTokenId = 0 := (congrArg Prod.fst hrow).symm
      have hname : row.tokenNameSnapshot = "" := (congrArg (fun x => x.2.1) hrow).symm
      simp only [Option.map_some, Option.some_or, AggregateRow.content, inserted, hid, hname]

theorem content_rebuildFull {r : Nat × UsageAggregates} (hr : rebuildUsageAggregatesFull z facts now T = .ok r)
    (h : k.bucketSize = bucket.value) : (r.2 k).map AggregateRow.content =
      (groupSum (UsageFact.aggregateKey z bucket) UsageFact.counters facts k).map inserted := by
  obtain ⟨-, rfl⟩ := rollupBuckets_eq_ok_iff.1 hr
  have hdel : deleteBuckets (fun _ => true) T k = none := if_pos ⟨Bucket.size_of_value h, rfl⟩
  have hold : (deleteBuckets (fun _ => true) T k).map AggregateRow.content =
      (none : Option Counters).map inserted := by rw [hdel]; rfl
  dsimp only
  rw [upsertBuckets_apply h, content_upsertGroups hold, Option.or_none]

theorem content_rebuildRecent {r r₀ : Nat × UsageAggregates} (hr₀ : rebuildUsageAggregatesFull z F now₀ T₀ = .ok r₀)
    (hT : SameBuckets T r₀.2) (hr : rebuildUsageAggregatesRecent z facts now windowHours T = .ok r)
    (h : k.bucketSize = bucket.value) : (r.2 k).map AggregateRow.content =
      (refreshed (UsageFact.aggregateKey z bucket) UsageFact.counters
        (fun k => windowStart now windowHours ≤ k.bucketStart)
        (fun f => windowStart now windowHours ≤ f.requestStartedAt) facts
        (groupSum (UsageFact.aggregateKey z bucket) UsageFact.counters F) k).map inserted := by
  obtain ⟨-, rfl⟩ := rollupBuckets_eq_ok_iff.1 hr
  have hsize := Bucket.size_of_value h
  dsimp only
  rw [upsertBuckets_apply h, refreshed]
  refine content_upsertGroups ?_
  simp only [deleteBuckets, hsize, true_and, decide_eq_true_eq]
  split
  · rfl
  · rw [hT k hsize, content_rebuildFull hr₀ h]

/-! ## Agreement -/

/-- The sums of the bucket's facts that are before the window. -/
def earlier (z : DateTrunc) (bucket : Bucket) (now : Instant) (windowHours : Int) (F : Multiset UsageFact)
    (k : AggregateKey) : Counters :=
  total (UsageFact.aggregateKey z bucket) UsageFact.counters
    (F.filter fun f => ¬ windowStart now windowHours ≤ f.requestStartedAt) k

/-- In each bucket that starts before the window and has facts in it, the facts before it add up to nothing. -/
def NothingEarlier (z : DateTrunc) (now : Instant) (windowHours : Int) (F N : Multiset UsageFact) : Prop :=
  ∀ (bucket : Bucket) (k : AggregateKey), k.bucketStart < windowStart now windowHours →
    (∃ f ∈ F + N, f.aggregateKey z bucket = k ∧ windowStart now windowHours ≤ f.requestStartedAt) →
    earlier z bucket now windowHours F k = 0

section

variable (hnew : ∀ f ∈ N, windowStart now windowHours ≤ f.requestStartedAt)
include hnew

theorem refreshed_iff (bucket : Bucket) (k : AggregateKey) :
    refreshed (UsageFact.aggregateKey z bucket) UsageFact.counters
        (fun k => windowStart now windowHours ≤ k.bucketStart)
        (fun f => windowStart now windowHours ≤ f.requestStartedAt) (F + N)
        (groupSum (UsageFact.aggregateKey z bucket) UsageFact.counters F) k =
      groupSum (UsageFact.aggregateKey z bucket) UsageFact.counters (F + N) k ↔
    (¬ windowStart now windowHours ≤ k.bucketStart →
      (∃ f ∈ F + N, f.aggregateKey z bucket = k ∧ windowStart now windowHours ≤ f.requestStartedAt) →
      earlier z bucket now windowHours F k = 0) :=
  refreshed_eq_groupSum_iff (fun f _ h => h.trans (z.trunc_le bucket f.requestStartedAt)) hnew

theorem NothingEarlier.fits (h : NothingEarlier z now windowHours F N) (hfits : Fits z (F + N) bucket) :
    Fits z (inWindow now windowHours (F + N)) bucket := by
  intro f hf c hc
  rw [inWindow] at hf ⊢
  obtain ⟨hmem, hle⟩ := Multiset.mem_filter.1 hf
  have heq := (refreshed_iff hnew bucket (f.aggregateKey z bucket)).2 fun hlt => h bucket _ (not_le.1 hlt)
  rw [refreshed, groupSum_of_exists ⟨f, hf, rfl⟩, groupSum_of_exists ⟨f, hmem, rfl⟩, Option.some_or] at heq
  rw [Option.some.inj heq]
  exact hfits f hmem c hc

/-- The recent rebuild, of a table that the full one has made from `F`, after facts have
come in the window: it agrees with the full rebuild if and only if the sums of all facts
fit their columns, and in each bucket that starts before the window and has facts in it,
the facts before it add up to nothing. -/
theorem recent_agrees_iff {r₀ : Nat × UsageAggregates} (hr₀ : rebuildUsageAggregatesFull z F now₀ T₀ = .ok r₀)
    (hT : SameBuckets T r₀.2) :
    (∃ r r', rebuildUsageAggregatesRecent z (F + N) now windowHours T = .ok r ∧
      rebuildUsageAggregatesFull z (F + N) now T = .ok r' ∧ SameBuckets r.2 r'.2) ↔
      (∀ bucket, Fits z (F + N) bucket) ∧ NothingEarlier z now windowHours F N := by
  have hinj : Function.Injective (Option.map inserted) :=
    Option.map_injective fun a b hab => congrArg (fun x => x.2.2) hab
  have hsame {r r'} (hr : rebuildUsageAggregatesRecent z (F + N) now windowHours T = .ok r)
      (hr' : rebuildUsageAggregatesFull z (F + N) now T = .ok r') (bucket : Bucket) (k : AggregateKey)
      (h : k.bucketSize = bucket.value) :
      (r.2 k).map AggregateRow.content = (r'.2 k).map AggregateRow.content ↔
        (¬ windowStart now windowHours ≤ k.bucketStart →
          (∃ f ∈ F + N, f.aggregateKey z bucket = k ∧ windowStart now windowHours ≤ f.requestStartedAt) →
          earlier z bucket now windowHours F k = 0) := by
    rw [content_rebuildRecent hr₀ hT hr h, content_rebuildFull hr' h, hinj.eq_iff]
    exact refreshed_iff hnew bucket k
  constructor
  · rintro ⟨r, r', hr, hr', h⟩
    refine ⟨(rollupBuckets_eq_ok_iff.1 hr').1, fun bucket k hlt hin => ?_⟩
    obtain ⟨f, hf, hk, hle⟩ := hin
    have hsize : k.bucketSize = bucket.value := (congrArg AggregateKey.bucketSize hk).symm
    exact (hsame hr hr' bucket k hsize).1 (h k (Bucket.size_of_value hsize)) (not_le.2 hlt) ⟨f, hf, hk, hle⟩
  · rintro ⟨hfits, h⟩
    obtain ⟨r, hr⟩ : ∃ r, rebuildUsageAggregatesRecent z (F + N) now windowHours T = .ok r :=
      ⟨_, rollupBuckets_eq_ok_iff.2 ⟨fun bucket => h.fits hnew (hfits bucket), rfl⟩⟩
    obtain ⟨r', hr'⟩ := rebuildFull_of_fits hfits now T
    refine ⟨r, r', hr, hr', fun k hsize => ?_⟩
    obtain ⟨bucket, hsize⟩ := Bucket.of_size hsize
    exact (hsame hr hr' bucket k hsize).2 fun hlt => h bucket k (not_le.1 hlt)

end

/-- A fact for one request of a trace. -/
def oneRequest (t : Instant) : UsageFact where
  requestStartedAt := t
  counters
    | .requestCount => 1
    | _ => 0

/-- Requests at three and four o'clock, with a window that starts at two. -/
theorem recent_agrees_in_window :
    ∃ r₀ r r', rebuildUsageAggregatesFull .utc {oneRequest (3 * hour)} 0 (fun _ => none) = .ok r₀ ∧
      rebuildUsageAggregatesRecent .utc ({oneRequest (3 * hour)} + {oneRequest (4 * hour)}) (5 * hour) 3 r₀.2 = .ok r ∧
      rebuildUsageAggregatesFull .utc ({oneRequest (3 * hour)} + {oneRequest (4 * hour)}) (5 * hour) r₀.2 = .ok r' ∧
      SameBuckets r.2 r'.2 := by
  have hfits : ∀ bucket, Fits .utc {oneRequest (3 * hour)} bucket := by
    intro bucket
    cases bucket <;> decide
  obtain ⟨r₀, hr₀⟩ := rebuildFull_of_fits hfits 0 fun _ => none
  have hnew : ∀ f ∈ ({oneRequest (4 * hour)} : Multiset UsageFact), windowStart (5 * hour) 3 ≤ f.requestStartedAt := by
    intro f hf
    rw [Multiset.mem_singleton.1 hf]
    decide
  have hearlier : NothingEarlier .utc (5 * hour) 3 {oneRequest (3 * hour)} {oneRequest (4 * hour)} := by
    intro bucket k _ _
    refine total_eq_zero fun f hf _ => ?_
    obtain ⟨hf, hlt⟩ := Multiset.mem_filter.1 hf
    rw [Multiset.mem_singleton.1 hf] at hlt
    exact hlt (by decide)
  obtain ⟨r, r', h⟩ :=
    (recent_agrees_iff hnew hr₀ fun _ _ => rfl).2 ⟨fun bucket => by cases bucket <;> decide, hearlier⟩
  exact ⟨r₀, r, r', hr₀, h⟩

/-- The bucket of the first day, for the facts of `oneRequest`. -/
def firstDay : AggregateKey := (oneRequest 0).aggregateKey .utc .day

/-- The requests of the first day that a rebuild has counted. -/
def countedOnFirstDay (r : Except DataError (Nat × UsageAggregates)) : Option Int :=
  (r.toOption.bind fun r => r.2 firstDay).map (·.counters .requestCount)

/-- A request at one o'clock has been rolled up, and one at four o'clock has come. The
recent rebuild at five, with a window of three hours, counts one request on that day, and
the full rebuild two. -/
theorem straddling_day_forgets :
    let F := ({oneRequest hour} : Multiset UsageFact)
    let F' := F + {oneRequest (4 * hour)}
    ∃ r, rebuildUsageAggregatesFull .utc F hour (fun _ => none) = .ok r ∧
      countedOnFirstDay (rebuildUsageAggregatesRecent .utc F' (5 * hour) 3 r.2) = some 1 ∧
      countedOnFirstDay (rebuildUsageAggregatesFull .utc F' (5 * hour) r.2) = some 2 := by
  have hfits : ∀ bucket, Fits .utc {oneRequest hour} bucket := by
    intro bucket
    cases bucket <;> decide
  exact ⟨_, rollupBuckets_eq_ok_iff.2 ⟨hfits, rfl⟩, by decide⟩

end AuditGateway.Rollup
