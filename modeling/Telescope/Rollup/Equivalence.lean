import Mathlib.Algebra.BigOperators.Group.List.Lemmas
import Telescope.Metrics.Timeseries

namespace Telescope
namespace Rollup

open Metrics

/-!
# Rollups against raw entries

The number of entries, the sum of their durations and the greatest of them are additive:
whatever the batches of a flush are, the buckets of the store add up to the entries.
Where the window and its buckets are made of whole minutes, a rollup goes to the same
bucket of a report as its entries.
-/

/-! ## Points -/

/-- What is known of some entries: their number, and the sum and the greatest of their
durations. -/
@[ext]
structure Point where
  count : Nat
  sum : Rat
  peak : WithBot Rat

namespace Point

instance : Zero Point := ⟨⟨0, 0, ⊥⟩⟩

instance : Add Point := ⟨fun first second =>
  ⟨first.count + second.count, first.sum + second.sum, first.peak ⊔ second.peak⟩⟩

instance : AddCommMonoid Point where
  add_assoc first second third :=
    Point.ext (Nat.add_assoc ..) (add_assoc ..) (sup_assoc ..)
  zero_add point := Point.ext (Nat.zero_add _) (zero_add _) (bot_sup_eq _)
  add_zero point := Point.ext (Nat.add_zero _) (add_zero _) (sup_bot_eq _)
  add_comm first second := Point.ext (Nat.add_comm ..) (add_comm ..) (sup_comm ..)
  nsmul := nsmulRec

def ofEntry {C : Type*} (entry : Entry C) : Point := ⟨1, durationOf entry, durationOf entry⟩

def ofRollup (rollup : RollupBucket) : Point := ⟨rollup.count, rollup.sum, rollup.max⟩

def ofEntries {C : Type*} (entries : List (Entry C)) : Point := (entries.map ofEntry).sum

def ofRollups (rollups : List RollupBucket) : Point := (rollups.map ofRollup).sum

theorem count_sum (points : List Point) : points.sum.count = (points.map Point.count).sum := by
  induction points with
  | nil => rfl
  | cons point points inductionHypothesis =>
      rw [List.sum_cons, List.map_cons, List.sum_cons, ← inductionHypothesis]
      rfl

theorem count_ofEntries {C : Type*} (entries : List (Entry C)) : (ofEntries entries).count = entries.length := by
  rw [ofEntries, count_sum, List.map_map]
  induction entries with
  | nil => rfl
  | cons entry entries inductionHypothesis =>
      rw [List.map_cons, List.sum_cons, inductionHypothesis, List.length_cons, Nat.add_comm]
      rfl

theorem count_ofRollups (rollups : List RollupBucket) :
    (ofRollups rollups).count = (rollups.map RollupDelta.count).sum := by
  rw [ofRollups, count_sum, List.map_map]
  rfl

end Point

variable {C : Type*}

/-! ## Keys -/

theorem rollupKey_inj {metric other : Text} {bucketStart otherStart : Int} :
    rollupKey metric bucketStart = rollupKey other otherStart <->
      metric = other ∧ bucketStart = otherStart := by
  constructor
  · intro same
    have absent := @Decimal.ofInt_not_mem '|' rfl (by decide)
    have equal : metric = other ∧ Decimal.ofInt bucketStart = Decimal.ofInt otherStart := by
      rcases List.append_eq_append_iff.mp same with ⟨between, isOther, rest⟩ | ⟨between, isMetric, rest⟩
      · rcases List.cons_eq_append_iff.mp rest with ⟨rfl, last⟩ | ⟨later, rfl, last⟩
        · rw [isOther, List.append_nil]
          exact ⟨rfl, (List.cons.inj last).2.symm⟩
        · exact (absent bucketStart (last ▸ List.mem_append_right _ (List.mem_cons_self ..))).elim
      · rcases List.cons_eq_append_iff.mp rest with ⟨rfl, last⟩ | ⟨later, rfl, last⟩
        · rw [isMetric, List.append_nil]
          exact ⟨rfl, (List.cons.inj last).2⟩
        · exact (absent otherStart (last ▸ List.mem_append_right _ (List.mem_cons_self ..))).elim
    refine ⟨equal.1, ?_⟩
    have numbers := congrArg Decimal.toInt equal.2
    rw [Decimal.toInt_ofInt, Decimal.toInt_ofInt] at numbers
    exact Option.some_inj.mp numbers
  · rintro ⟨rfl, rfl⟩
    rfl

/-- A group is under the key of its metric and minute, and is not empty. -/
structure Kept (key : Text) (rollup : RollupDelta) : Prop where
  key : key = rollupKey rollup.metric rollup.bucketStart
  counted : 1 ≤ rollup.count

theorem keeps_deltaGroups (entries : List (Entry C)) :
    Grouping.Keeps deltaGroups Kept entries where
  first _entry _member := ⟨rfl, le_refl 1⟩
  change _entry _member _existing kept := ⟨kept.key, Nat.le_add_left ..⟩

theorem keeps_bucketGroups {deltas : List RollupDelta} (counted : forall delta, delta ∈ deltas -> 1 ≤ delta.count) :
    Grouping.Keeps bucketGroups Kept deltas where
  first delta member := ⟨rfl, counted delta member⟩
  change _delta _member _existing kept := ⟨kept.key, Nat.le_add_right_of_le kept.counted⟩

theorem kept_aggregateDeltas (entries : List (Entry C)) :
    Grouping.Holds Kept (Grouping.empty.gather deltaGroups entries) :=
  Grouping.holds_gather (keeps_deltaGroups entries) (Grouping.holds_empty Kept)

theorem counted_of_aggregateDeltas (entries : List (Entry C)) :
    forall delta, delta ∈ aggregateDeltas entries -> 1 ≤ delta.count := by
  intro delta member
  rcases List.mem_map.mp member with ⟨group, there, rfl⟩
  exact (kept_aggregateDeltas entries group there).counted

theorem kept_recordBatches {rollups : Rollups} (kept : Grouping.Holds Kept rollups)
    (batches : List (List (Entry C))) : Grouping.Holds Kept (recordBatches rollups batches) := by
  induction batches generalizing rollups with
  | nil => exact kept
  | cons batch batches inductionHypothesis =>
      exact inductionHypothesis
        (Grouping.holds_gather (keeps_bucketGroups (counted_of_aggregateDeltas batch)) kept)

/-! ## Sums -/

section Sums

variable {M : Type*} [AddCommMonoid M]

/-- A measure of rollups to which every entry adds its own amount, and to which a merge
adds the measure of the delta, while every group is kept in shape. -/
structure Additive (kept : Text -> RollupDelta -> Prop) (measure : RollupDelta -> M) (amount : Entry C -> M) : Prop where
  keepsEntries : forall entries : List (Entry C), Grouping.Keeps deltaGroups kept entries
  keepsDeltas : forall deltas, (forall delta, delta ∈ deltas -> Exists fun key => kept key delta) ->
    Grouping.Keeps bucketGroups kept deltas
  firstEntry : forall entry, measure (deltaGroups.first entry) = amount entry
  changeEntry : forall entry existing, kept (deltaGroups.key entry) existing ->
    measure (deltaGroups.change existing entry) = measure existing + amount entry
  firstDelta : forall delta key, kept key delta -> measure (bucketGroups.first delta) = measure delta
  changeDelta : forall delta key existing, kept key delta -> kept (bucketGroups.key delta) existing ->
    measure (bucketGroups.change existing delta) = measure existing + measure delta

namespace Additive

variable {kept : Text -> RollupDelta -> Prop} {measure : RollupDelta -> M} {amount : Entry C -> M}
  (additive : Additive kept measure amount)

include additive

theorem kept_aggregateDeltas (entries : List (Entry C)) :
    forall delta, delta ∈ aggregateDeltas entries -> Exists fun key => kept key delta := by
  intro delta member
  rcases List.mem_map.mp member with ⟨group, there, rfl⟩
  exact ⟨group.1, Grouping.holds_gather (additive.keepsEntries entries) (Grouping.holds_empty kept) group there⟩

theorem sum_aggregateDeltas (entries : List (Entry C)) :
    ((aggregateDeltas entries).map measure).sum = (entries.map amount).sum := by
  have summed := Grouping.total_gather measure amount (additive.keepsEntries entries)
    (fun entry _member => additive.firstEntry entry) (fun entry _member => additive.changeEntry entry)
    (Grouping.holds_empty kept)
  exact summed.trans (zero_add _)

theorem sum_recordRollups {rollups : Rollups} (holds : Grouping.Holds kept rollups) {deltas : List RollupDelta}
    (shaped : forall delta, delta ∈ deltas -> Exists fun key => kept key delta) :
    (recordRollups rollups deltas).total measure = rollups.total measure + (deltas.map measure).sum := by
  refine Grouping.total_gather measure measure (additive.keepsDeltas deltas shaped) ?_ ?_ holds
  · intro delta member
    rcases shaped delta member with ⟨key, isKept⟩
    exact additive.firstDelta delta key isKept
  · intro delta member existing isKept
    rcases shaped delta member with ⟨key, shapedDelta⟩
    exact additive.changeDelta delta key existing shapedDelta isKept

theorem sum_recordBatches {rollups : Rollups} (holds : Grouping.Holds kept rollups)
    (batches : List (List (Entry C))) :
    (recordBatches rollups batches).total measure =
      rollups.total measure + (batches.flatten.map amount).sum := by
  induction batches generalizing rollups with
  | nil => exact (add_zero _).symm
  | cons batch batches inductionHypothesis =>
      have shaped := additive.kept_aggregateDeltas batch
      have rest := inductionHypothesis (Grouping.holds_gather (additive.keepsDeltas _ shaped) holds)
      rw [List.flatten_cons, List.map_append, List.sum_append, ← additive.sum_aggregateDeltas, ← add_assoc,
        ← additive.sum_recordRollups holds shaped]
      exact rest

end Additive

variable (chosen : Text -> Int -> Bool) (amountOf : RollupDelta -> M) (amountOfEntry : Entry C -> M)

/-- The amount of a rollup, if it is chosen. -/
def chosenRollup (rollup : RollupDelta) : M :=
  if chosen rollup.metric rollup.bucketStart then amountOf rollup else 0

def chosenEntry (entry : Entry C) : M :=
  if chosen entry.type (bucketOf entry) then amountOfEntry entry else 0

variable {amountOf amountOfEntry}

/-- A choice by metric and minute is the same for all entries of a group. -/
theorem Additive.of_chosen {kept : Text -> RollupDelta -> Prop} (additive : Additive kept amountOf amountOfEntry)
    (keyed : forall key rollup, kept key rollup -> key = rollupKey rollup.metric rollup.bucketStart) :
    Additive kept (chosenRollup chosen amountOf) (chosenEntry chosen amountOfEntry) where
  keepsEntries := additive.keepsEntries
  keepsDeltas := additive.keepsDeltas
  firstEntry entry := by
    change (if _ then _ else _) = if _ then _ else _
    rw [additive.firstEntry]
    rfl
  changeEntry entry existing isKept := by
    rcases rollupKey_inj.mp (keyed _ _ isKept) with ⟨sameType, sameBucket⟩
    rw [chosenEntry, sameType, sameBucket]
    change (if chosen existing.metric existing.bucketStart then _ else _) =
      (if chosen existing.metric existing.bucketStart then _ else _) + _
    rw [additive.changeEntry entry existing isKept]
    split
    · rfl
    · exact (add_zero _).symm
  firstDelta delta key isKept := by
    change (if _ then _ else _) = if _ then _ else _
    rw [additive.firstDelta delta key isKept]
    rfl
  changeDelta delta key existing shaped isKept := by
    rcases rollupKey_inj.mp (keyed _ _ isKept) with ⟨sameMetric, sameBucket⟩
    rw [chosenRollup, chosenRollup, chosenRollup, sameMetric, sameBucket]
    change (if chosen existing.metric existing.bucketStart then _ else _) =
      (if chosen existing.metric existing.bucketStart then _ else _) +
        (if chosen existing.metric existing.bucketStart then _ else _)
    rw [additive.changeDelta delta key existing shaped isKept]
    split
    · rfl
    · exact (add_zero _).symm

theorem additive_point : Additive Kept Point.ofRollup (Point.ofEntry (C := C)) where
  keepsEntries := keeps_deltaGroups
  keepsDeltas _deltas shaped := keeps_bucketGroups fun delta member => by
    rcases shaped delta member with ⟨key, kept⟩
    exact kept.counted
  firstEntry _entry := rfl
  changeEntry _entry _existing _kept := rfl
  firstDelta _delta _key _kept := rfl
  changeDelta _delta _key _existing _shaped _kept := rfl

end Sums

/-! ## Queries -/

variable {rollups : List RollupBucket}

section Queries

variable (metrics : List Text) (fromBucket toBucket : Int)

/-- A query covers an entry. -/
def queried (entry : Entry C) : Bool :=
  decide (entry.type ∈ metrics ∧ fromBucket ≤ bucketOf entry ∧ bucketOf entry ≤ toBucket)

theorem sum_map_filter {α M : Type*} [AddCommMonoid M] (items : List α) (keep : α -> Bool) (measure : α -> M) :
    ((items.filter keep).map measure).sum =
      (items.map fun item => if keep item then measure item else 0).sum := by
  induction items with
  | nil => rfl
  | cons item items inductionHypothesis =>
      rw [List.map_cons, List.sum_cons, ← inductionHypothesis, List.filter_cons]
      split
      · rw [List.map_cons, List.sum_cons]
      · rw [zero_add]

/-- What is additive is the same of the rollups of a query, of some metrics and minutes, and
of the entries. -/
theorem sum_query {M : Type*} [AddCommMonoid M] {kept : Text -> RollupDelta -> Prop} {amountOf : RollupDelta -> M}
    {amountOfEntry : Entry C -> M} (additive : Additive kept amountOf amountOfEntry)
    (keyed : forall key rollup, kept key rollup -> key = rollupKey rollup.metric rollup.bucketStart)
    (normalized : forall rollup : RollupDelta,
      amountOf { rollup with histogram := normalizeHistogram rollup.histogram } = amountOf rollup)
    (chosen : Text -> Int -> Bool) {entries : List (Entry C)} {batches : List (List (Entry C))}
    (parts : batches.flatten.Perm entries) :
    (((queryRollups (recordBatches Grouping.empty batches) metrics fromBucket toBucket).filter
        fun rollup => chosen rollup.metric rollup.bucketStart).map amountOf).sum =
      (((entries.filter (queried metrics fromBucket toBucket)).filter
        fun entry => chosen entry.type (bucketOf entry)).map amountOfEntry).sum := by
  have summed := (additive.of_chosen
    (fun metric bucketStart => chosen metric bucketStart &&
      decide (metric ∈ metrics ∧ fromBucket ≤ bucketStart ∧ bucketStart ≤ toBucket)) keyed).sum_recordBatches
    (Grouping.holds_empty kept) batches
  have plain : (amountOf ∘ fun bucket : RollupBucket =>
      { bucket with histogram := normalizeHistogram bucket.histogram }) = amountOf := funext normalized
  rw [(parts.map _).sum_eq] at summed
  rw [queryRollups, List.filter_map, List.map_map, plain, List.filter_filter, List.filter_filter, sum_map_filter,
    sum_map_filter]
  exact summed.trans (zero_add _)

/-- The rollups of a query, of some metrics and minutes, add up to the entries. -/
theorem ofRollups_query (chosen : Text -> Int -> Bool) {entries : List (Entry C)}
    {batches : List (List (Entry C))} (parts : batches.flatten.Perm entries) :
    Point.ofRollups ((queryRollups (recordBatches Grouping.empty batches) metrics fromBucket toBucket).filter
        fun rollup => chosen rollup.metric rollup.bucketStart) =
      Point.ofEntries ((entries.filter (queried metrics fromBucket toBucket)).filter
        fun entry => chosen entry.type (bucketOf entry)) :=
  sum_query metrics fromBucket toBucket additive_point (fun _key _rollup kept => kept.key) (fun _rollup => rfl)
    chosen parts

theorem counted_of_query {batches : List (List (Entry C))} {rollup : RollupBucket}
    (member : rollup ∈ queryRollups (recordBatches Grouping.empty batches) metrics fromBucket toBucket) :
    1 ≤ rollup.count := by
  rcases List.mem_map.mp member with ⟨bucket, selected, rfl⟩
  rcases List.mem_map.mp (List.mem_filter.mp selected).1 with ⟨group, there, rfl⟩
  exact (kept_recordBatches (Grouping.holds_empty Kept) batches group there).counted

/-- A query returns one rollup for a metric and a minute. -/
theorem nodup_query (batches : List (List (Entry C))) :
    ((queryRollups (recordBatches Grouping.empty batches) metrics fromBucket toBucket).map
      fun rollup => rollupKey rollup.metric rollup.bucketStart).Nodup := by
  have keys : (recordBatches Grouping.empty batches).values.map
      (fun rollup => rollupKey rollup.metric rollup.bucketStart) =
        (recordBatches Grouping.empty batches).groups.map Prod.fst := by
    rw [Grouping.values, List.map_map]
    refine List.map_congr_left fun group there => ?_
    exact (kept_recordBatches (Grouping.holds_empty Kept) batches group there).key.symm
  rw [queryRollups, List.map_map]
  refine List.Nodup.sublist (List.filter_sublist.map _) ?_
  change ((recordBatches Grouping.empty batches).values.map
    fun rollup => rollupKey rollup.metric rollup.bucketStart).Nodup
  rw [keys]
  exact (recordBatches Grouping.empty batches).distinct

/-- The rollups of a metric and a minute. -/
def ofMinute (rollups : List RollupBucket) (metric : Text) (bucketStart : Int) : List RollupBucket :=
  rollups.filter fun rollup => decide (rollup.metric = metric ∧ rollup.bucketStart = bucketStart)

theorem mem_ofMinute {metric : Text} {bucketStart : Int} {rollup : RollupBucket} :
    rollup ∈ ofMinute rollups metric bucketStart <->
      rollup ∈ rollups ∧ rollup.metric = metric ∧ rollup.bucketStart = bucketStart := by
  rw [ofMinute, List.mem_filter, decide_eq_true_eq]

theorem length_ofMinute_le (distinct : (rollups.map fun rollup => rollupKey rollup.metric rollup.bucketStart).Nodup)
    (metric : Text) (bucketStart : Int) : (ofMinute rollups metric bucketStart).length ≤ 1 := by
  have alone := distinct.sublist
    ((List.filter_sublist (p := fun rollup => decide (rollup.metric = metric ∧ rollup.bucketStart = bucketStart))).map _)
  have same : forall key,
      key ∈ (ofMinute rollups metric bucketStart).map (fun rollup => rollupKey rollup.metric rollup.bucketStart) ->
        key = rollupKey metric bucketStart := by
    intro key member
    rcases List.mem_map.mp member with ⟨rollup, there, rfl⟩
    rcases mem_ofMinute.mp there with ⟨_, rfl, rfl⟩
    rfl
  rw [← ofMinute, List.eq_replicate_of_mem same, List.nodup_replicate, List.length_map] at alone
  exact alone

variable {metrics fromBucket toBucket}

/-- The rollups of a type count one entry each exactly where no two entries of the type
share a minute. -/
theorem ones_iff_nodup {entries : List (Entry C)} {batches : List (List (Entry C))}
    (parts : batches.flatten.Perm entries) (type : Text) :
    (forall rollup,
      rollup ∈ queryRollups (recordBatches Grouping.empty batches) metrics fromBucket toBucket ->
        rollup.metric = type -> rollup.count = 1) <->
      (((entries.filter (queried metrics fromBucket toBucket)).filter
        fun entry => decide (entry.type = type)).map bucketOf).Nodup := by
  have distinct := nodup_query metrics fromBucket toBucket batches
  have counted : forall rollup,
      rollup ∈ queryRollups (recordBatches Grouping.empty batches) metrics fromBucket toBucket ->
        1 ≤ rollup.count := fun _ => counted_of_query metrics fromBucket toBucket
  have summed := fun bucketStart => congrArg Point.count
    (ofRollups_query metrics fromBucket toBucket
      (fun metric start => decide (metric = type ∧ start = bucketStart)) parts)
  generalize queryRollups (recordBatches Grouping.empty batches) metrics fromBucket toBucket = rollups at *
  generalize entries.filter (queried metrics fromBucket toBucket) = raw at *
  have minute : forall bucketStart,
      ((raw.filter fun entry => decide (entry.type = type)).map bucketOf).count bucketStart =
        ((ofMinute rollups type bucketStart).map RollupDelta.count).sum := by
    intro bucketStart
    have counts := summed bucketStart
    rw [Point.count_ofRollups, Point.count_ofEntries] at counts
    rw [ofMinute, counts, List.count_eq_countP, List.countP_map, List.countP_filter,
      List.countP_eq_length_filter]
    congr 2
    funext entry
    rw [Function.comp_apply, Bool.decide_and, Bool.and_comm]
    rfl
  rw [List.nodup_iff_count_le_one]
  constructor
  · intro ones bucketStart
    have one : forall count, count ∈ (ofMinute rollups type bucketStart).map RollupDelta.count -> count = 1 := by
      intro count member
      rcases List.mem_map.mp member with ⟨rollup, there, rfl⟩
      rcases mem_ofMinute.mp there with ⟨isRollup, isType, _⟩
      exact ones rollup isRollup isType
    rw [minute, List.eq_replicate_of_mem one, List.sum_replicate, List.length_map, Nat.nsmul_eq_mul,
      Nat.mul_one]
    exact length_ofMinute_le distinct type bucketStart
  · intro single rollup member isType
    have least := counted rollup member
    have most := single rollup.bucketStart
    rw [minute] at most
    have there := List.single_le_sum (fun _ _ => Nat.zero_le _) rollup.count
      (List.mem_map_of_mem (mem_ofMinute.mpr ⟨member, isType, rfl⟩))
    omega

end Queries

/-! ## Reports -/

section Reports

variable {windowStart windowEnd : TimeValue} {bucketCount : Rat}

/-- In a window of whole minutes, a minute goes to the bucket of its times. -/
theorem reportIndex_floorToBucket (startAligned : ROLLUP_BUCKET_MS ∣ windowStart.ms)
    (widthAligned : ROLLUP_BUCKET_MS ∣ reportBucketMs windowStart windowEnd bucketCount) (time : Int) :
    reportIndex windowStart windowEnd bucketCount (floorToBucket time) =
      reportIndex windowStart windowEnd bucketCount time := by
  obtain ⟨start, isStart⟩ := startAligned
  obtain ⟨width, isWidth⟩ := widthAligned
  have shifted : forall number : Int, (ROLLUP_BUCKET_MS * number) / ROLLUP_BUCKET_MS = number :=
    fun number => Int.mul_ediv_cancel_left number (by decide)
  have minutes : (floorToBucket time - windowStart.ms) / ROLLUP_BUCKET_MS =
      (time - windowStart.ms) / ROLLUP_BUCKET_MS := by
    rw [floorToBucket, isStart, ROLLUP_BUCKET_MS]
    omega
  rw [reportIndex, reportIndex, isWidth, ← Int.ediv_ediv_of_nonneg (by decide), minutes,
    Int.ediv_ediv_of_nonneg (by decide)]

variable (windowStart windowEnd bucketCount)

/-- The rollups and the entries of a bucket of a report. -/
def pointOfRollups (rollups : List RollupBucket) (index : Nat) (wanted : Text -> Bool) : Point :=
  Point.ofRollups (rollups.filter fun rollup =>
    wanted rollup.metric && decide (reportIndex windowStart windowEnd bucketCount rollup.bucketStart = index))

def pointOfEntries (entries : List (Entry C)) (index : Nat) (wanted : Text -> Bool) : Point :=
  Point.ofEntries (entries.filter fun entry =>
    wanted entry.type && decide (reportIndex windowStart windowEnd bucketCount entry.createdAt = index))

theorem countsOf_rollups (rollups : List RollupBucket) (index : Nat) (type : Text) :
    (countsOf type (received windowStart windowEnd bucketCount index (rollups.map placedRollup))).sum =
      (pointOfRollups windowStart windowEnd bucketCount rollups index fun metric => decide (metric = type)).count := by
  rw [pointOfRollups, Point.count_ofRollups, countsOf, received, List.filter_map, List.filter_map,
    List.filter_filter, List.map_map]
  rfl

theorem countsOf_entries (entries : List (Entry C)) (index : Nat) (type : Text) :
    countsOf type (received windowStart windowEnd bucketCount index (entries.map placedEntry)) =
      List.replicate
        (pointOfEntries windowStart windowEnd bucketCount entries index fun other => decide (other = type)).count 1 := by
  rw [pointOfEntries, Point.count_ofEntries, countsOf, received, List.filter_map, List.filter_map,
    List.filter_filter, List.map_map]
  exact List.map_const' ..

theorem total_rollups (rollups : List RollupBucket) (index : Nat) :
    ((received windowStart windowEnd bucketCount index (rollups.map placedRollup)).map Placed.count).sum =
      (pointOfRollups windowStart windowEnd bucketCount rollups index fun _ => true).count := by
  rw [pointOfRollups, Point.count_ofRollups, received, List.filter_map, List.map_map]
  rfl

theorem total_entries (entries : List (Entry C)) (index : Nat) :
    ((received windowStart windowEnd bucketCount index (entries.map placedEntry)).map Placed.count).sum =
      (pointOfEntries windowStart windowEnd bucketCount entries index fun _ => true).count := by
  rw [pointOfEntries, Point.count_ofEntries, received, List.filter_map, List.map_map,
    show Placed.count ∘ placedEntry = fun _ : Entry C => 1 from rfl, List.map_const', List.sum_replicate,
    Nat.nsmul_eq_mul, Nat.mul_one]
  rfl

theorem mem_countsOf_rollups {index count : Nat} {type : Text} :
    count ∈ countsOf type (received windowStart windowEnd bucketCount index (rollups.map placedRollup)) <->
      Exists fun rollup => rollup ∈ rollups ∧ rollup.metric = type ∧
        reportIndex windowStart windowEnd bucketCount rollup.bucketStart = index ∧ rollup.count = count := by
  simp only [countsOf, received, List.mem_map, List.mem_filter, decide_eq_true_eq]
  constructor
  · rintro ⟨_, ⟨⟨⟨rollup, member, rfl⟩, isIndex⟩, isType⟩, isCount⟩
    exact ⟨rollup, member, isType, isIndex, isCount⟩
  · rintro ⟨rollup, member, isType, isIndex, isCount⟩
    exact ⟨_, ⟨⟨⟨rollup, member, rfl⟩, isIndex⟩, isType⟩, isCount⟩

variable {windowStart windowEnd bucketCount}

/-- Where the points agree, the buckets receive the same but for the types that name a
method and have more than one entry in a rollup. -/
theorem received_agree_iff {entries : List (Entry C)} (counted : forall rollup, rollup ∈ rollups -> 1 ≤ rollup.count)
    (points : forall index wanted, pointOfRollups windowStart windowEnd bucketCount rollups index wanted =
      pointOfEntries windowStart windowEnd bucketCount entries index wanted) :
    (forall index, index < (reportCount bucketCount).toNat ->
      ((received windowStart windowEnd bucketCount index (rollups.map placedRollup)).map Placed.count).sum =
          ((received windowStart windowEnd bucketCount index (entries.map placedEntry)).map Placed.count).sum ∧
        forall type,
          tallied type none
              (countsOf type (received windowStart windowEnd bucketCount index (rollups.map placedRollup))) =
            tallied type none
              (countsOf type (received windowStart windowEnd bucketCount index (entries.map placedEntry)))) <->
      forall type, type ∈ OBJECT_METHODS ->
        forall rollup, rollup ∈ rollups -> rollup.metric = type -> rollup.count = 1 := by
  have tallies : forall index type,
      tallied type none
            (countsOf type (received windowStart windowEnd bucketCount index (rollups.map placedRollup))) =
          tallied type none
            (countsOf type (received windowStart windowEnd bucketCount index (entries.map placedEntry))) <->
        (type ∈ OBJECT_METHODS -> forall count,
          count ∈ countsOf type (received windowStart windowEnd bucketCount index (rollups.map placedRollup)) ->
            count = 1) := by
    intro index type
    rw [countsOf_entries, ← points, ← countsOf_rollups]
    refine tallied_eq_ones_iff type fun count member => ?_
    rcases (mem_countsOf_rollups ..).mp member with ⟨rollup, isRollup, _, _, rfl⟩
    exact counted rollup isRollup
  constructor
  · intro agree type isMethod rollup member isType
    have own := (agree _ (reportIndex_lt windowStart windowEnd bucketCount rollup.bucketStart)).2 type
    exact (tallies _ type).mp own isMethod _
      ((mem_countsOf_rollups ..).mpr ⟨rollup, member, isType, rfl, rfl⟩)
  · intro ones index _
    rw [total_rollups, total_entries, points]
    refine ⟨rfl, fun type => (tallies index type).mpr fun isMethod count member => ?_⟩
    rcases (mem_countsOf_rollups ..).mp member with ⟨rollup, isRollup, isType, _, rfl⟩
    exact ones type isMethod rollup isRollup isType

variable (metrics : List Text) (fromBucket toBucket : Int)

theorem points_agree (startAligned : ROLLUP_BUCKET_MS ∣ windowStart.ms)
    (widthAligned : ROLLUP_BUCKET_MS ∣ reportBucketMs windowStart windowEnd bucketCount)
    {entries : List (Entry C)} {batches : List (List (Entry C))} (parts : batches.flatten.Perm entries)
    (index : Nat) (wanted : Text -> Bool) :
    pointOfRollups windowStart windowEnd bucketCount
        (queryRollups (recordBatches Grouping.empty batches) metrics fromBucket toBucket) index wanted =
      pointOfEntries windowStart windowEnd bucketCount
        (entries.filter (queried metrics fromBucket toBucket)) index wanted := by
  have summed := ofRollups_query metrics fromBucket toBucket (fun metric bucketStart =>
    wanted metric && decide (reportIndex windowStart windowEnd bucketCount bucketStart = index)) parts
  refine summed.trans (congrArg Point.ofEntries (List.filter_congr fun entry _ => ?_))
  rw [bucketOf, reportIndex_floorToBucket startAligned widthAligned]

variable {metrics fromBucket toBucket}

/-- The reports agree, with the counts, sums and maxima behind every bucket, exactly where
no two entries of a type that names a method of all objects share a minute, or a date of
the reports is out of range. -/
theorem rollups_agree_iff (startAligned : ROLLUP_BUCKET_MS ∣ windowStart.ms)
    (widthAligned : ROLLUP_BUCKET_MS ∣ reportBucketMs windowStart windowEnd bucketCount)
    {entries : List (Entry C)} {batches : List (List (Entry C))} (parts : batches.flatten.Perm entries) :
    (timeseriesFromRollups windowStart windowEnd bucketCount
          (queryRollups (recordBatches Grouping.empty batches) metrics fromBucket toBucket) =
        bucketTimeseries windowStart windowEnd bucketCount
          (entries.filter (queried metrics fromBucket toBucket)) ∧
      forall index wanted,
        pointOfRollups windowStart windowEnd bucketCount
            (queryRollups (recordBatches Grouping.empty batches) metrics fromBucket toBucket) index wanted =
          pointOfEntries windowStart windowEnd bucketCount
            (entries.filter (queried metrics fromBucket toBucket)) index wanted) <->
      reportStarts windowStart windowEnd bucketCount = none ∨
        forall type, type ∈ OBJECT_METHODS ->
          (((entries.filter (queried metrics fromBucket toBucket)).filter
            fun entry => decide (entry.type = type)).map bucketOf).Nodup := by
  have points := points_agree metrics fromBucket toBucket startAligned widthAligned parts
  rw [and_iff_left points, timeseriesFromRollups, bucketTimeseries, assemble_eq_iff]
  refine or_congr_right ?_
  rw [received_agree_iff (fun _ => counted_of_query metrics fromBucket toBucket) points]
  exact forall_congr' fun type => forall_congr' fun _ => ones_iff_nodup parts type

end Reports

/-! ## A type that names a method -/

def minuteEntry (type : Text) (createdAt : Int) : Entry Text where
  id := []
  batchId := []
  type := type
  familyHash := none
  content := []
  tags := []
  sequence := 0
  durationMs := some 1
  origin := .manual
  instanceId := []
  traceId := none
  spanId := none
  createdAt := createdAt

def epoch : TimeValue := ⟨0, inRange_zero⟩

def oneMinute : TimeValue := ⟨60000, by decide⟩

/-- Two entries of a type in one minute, reported as one bucket of a minute. -/
theorem rollups_agree_requests :
    ROLLUP_BUCKET_MS ∣ epoch.ms ∧ ROLLUP_BUCKET_MS ∣ reportBucketMs epoch oneMinute 1 ∧
      timeseriesFromRollups epoch oneMinute 1
          (queryRollups
            (recordBatches Grouping.empty
              [[minuteEntry "request".toList 0], [minuteEntry "request".toList 1]])
            ["request".toList] 0 60000) =
        bucketTimeseries epoch oneMinute 1
          ([minuteEntry "request".toList 0, minuteEntry "request".toList 1].filter
            (queried ["request".toList] 0 60000)) := by
  have start : ROLLUP_BUCKET_MS ∣ epoch.ms := by decide
  have width : ROLLUP_BUCKET_MS ∣ reportBucketMs epoch oneMinute 1 := by decide +kernel
  refine ⟨start, width, ((rollups_agree_iff start width (List.Perm.refl _)).mpr (.inr ?_)).1⟩
  decide +kernel

/-- In one minute, two entries of the type `constructor` read as `…11` and as `…2`. -/
theorem constructor_reports_differ :
    ROLLUP_BUCKET_MS ∣ epoch.ms ∧ ROLLUP_BUCKET_MS ∣ reportBucketMs epoch oneMinute 1 ∧
      timeseriesFromRollups epoch oneMinute 1
          (queryRollups
            (recordBatches Grouping.empty
              [[minuteEntry "constructor".toList 0, minuteEntry "constructor".toList 1]])
            ["constructor".toList] 0 60000) ≠
        bucketTimeseries epoch oneMinute 1
          [minuteEntry "constructor".toList 0, minuteEntry "constructor".toList 1] := by
  refine ⟨by decide, by decide +kernel, fun same => ?_⟩
  have shown := congrArg (Option.map fun report =>
    report.buckets.map fun bucket => bucket.byType "constructor".toList) same
  revert shown
  decide +kernel

end Rollup
end Telescope
