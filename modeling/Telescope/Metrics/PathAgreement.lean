import Telescope.Foundation.Placement
import Telescope.Metrics.TimeseriesService

namespace Telescope
namespace Metrics

open Rollup

/-!
# Rollups against the scan

A timeseries is answered from the rollups where the scan of the entries could answer it,
too.  The rollups cover whole minutes and, where the query names no type, the built-in
types; the scan covers what is younger than the start of the window.
-/

universe u

variable {C : Type u}

/-! ## What a report shows of counts -/

/-- A number, or nothing, tells how many there are. -/
theorem sum_eq_of_tallied {type : Text} (notProto : type ≠ PROTO) {counts : List Nat} {number : Nat}
    (plain : counts = [] ∨ type ∉ OBJECT_METHODS)
    (same : tallied type none counts = tallied type none (List.replicate number 1)) :
    counts.sum = number := by
  cases number with
  | zero =>
      cases counts with
      | nil => rfl
      | cons count counts =>
          rw [tallied_of_ne notProto] at same
          cases same
  | succ number =>
      rw [List.replicate_succ, tallied_of_ne notProto] at same
      cases counts with
      | nil => cases same
      | cons count counts =>
          rcases plain with isNil | notMethod
          · cases isNil
          · rw [tallied_of_ne notProto, inherited, if_neg notMethod, if_neg notProto, foldl_plus_number,
              ← List.replicate_succ, foldl_plus_number, List.sum_replicate, Nat.nsmul_eq_mul, Nat.mul_one,
              Nat.zero_add, Nat.zero_add] at same
            exact Tally.number.inj (Option.some_inj.mp same)

theorem eq_nil_of_sum_eq_zero {counts : List Nat} (positive : forall count, count ∈ counts -> 1 ≤ count)
    (zero : counts.sum = 0) : counts = [] := by
  cases counts with
  | nil => rfl
  | cons count counts =>
      have first := positive count (List.mem_cons_self ..)
      rw [List.sum_cons] at zero
      omega

/-- Counts by type show what as many single items show exactly where they are as many for
every type, and single ones for a type that names a method. -/
theorem shown_alike_iff {counts : Text -> List Nat} {first second : List Text}
    (positive : forall type count, count ∈ counts type -> 1 ≤ count)
    (sums : forall type, (counts type).sum = first.count type)
    (methods : forall type, type ∈ OBJECT_METHODS -> type ∉ first ∨ forall other, other ∈ first ++ second -> type = other) :
    (first.length = second.length ∧
        forall type, tallied type none (counts type) =
          tallied type none (List.replicate (second.count type) 1)) <->
      forall type, first.count type = second.count type ∧
        (type ∈ OBJECT_METHODS -> forall count, count ∈ counts type -> count = 1) := by
  constructor
  · rintro ⟨lengths, tallies⟩
    have others : forall type, type ≠ PROTO -> first.count type = second.count type := by
      intro type notProto
      rw [← sums]
      by_cases isMethod : type ∈ OBJECT_METHODS
      · rcases methods type isMethod with absent | alone
        · have empty := sums type
          rw [List.count_eq_zero_of_not_mem absent] at empty
          exact sum_eq_of_tallied notProto (.inl (eq_nil_of_sum_eq_zero (positive type) empty)) (tallies type)
        · rw [sums, List.count_eq_length.mpr fun other member => alone other (List.mem_append_left _ member),
            List.count_eq_length.mpr fun other member => alone other (List.mem_append_right _ member)]
          exact lengths
      · exact sum_eq_of_tallied notProto (.inr isMethod) (tallies type)
    have all : forall type, first.count type = second.count type := by
      intro type
      by_cases isProto : type = PROTO
      · rw [isProto]
        exact Placement.count_eq_of_others lengths others
      · exact others type isProto
    refine fun type => ⟨all type, (tallied_eq_ones_iff type (positive type)).mp ?_⟩
    rw [sums, all]
    exact tallies type
  · intro alike
    refine ⟨(List.perm_iff_count.mpr fun type => (alike type).1).length_eq, fun type => ?_⟩
    rw [← (alike type).1, ← sums]
    exact (tallied_eq_ones_iff type (positive type)).mpr (alike type).2

section Series

variable (query : TimeseriesQuery) (windowStart windowEnd : TimeValue)

/-- The rollups of the query count the entry. -/
def inRollups (entry : Entry C) : Bool :=
  queried query.metrics (floorToBucket windowStart.ms) (floorToBucket windowEnd.ms) entry

/-- The scan finds the entry. -/
def inWindow [JsonContent C] (entry : Entry C) : Bool :=
  decide ((query.baseQuery windowStart).Matches entry)

/-- The series of all raw entries of the window. -/
def rawSeries [JsonContent C] (contents : List (Entry C)) : Option TimeseriesReport :=
  bucketTimeseries windowStart windowEnd query.bucketCount ((query.baseQuery windowStart).results contents)

/-- What the query reads of the rollups of some flush batches. -/
def storedRollups (batches : List (List (Entry C))) : List RollupBucket :=
  queryRollups (recordBatches Grouping.empty batches) query.metrics
    (floorToBucket windowStart.ms) (floorToBucket windowEnd.ms)

/-- The bucket of the minute of an entry. -/
def minuteIndex (entry : Entry C) : Nat :=
  reportIndex windowStart windowEnd query.bucketCount (bucketOf entry)

/-- The bucket of an entry. -/
def entryIndex (entry : Entry C) : Nat :=
  reportIndex windowStart windowEnd query.bucketCount entry.createdAt

/-- The entries of a type. -/
def ofType (type : Text) (contents : List (Entry C)) : List (Entry C) :=
  contents.filter fun entry => decide (entry.type = type)

/-! ## Counts by bucket and type -/

theorem length_filter_type (entries : List (Entry C)) (place : Entry C -> Nat) (type : Text) (index : Nat) :
    (entries.filter fun entry => decide (entry.type = type) && decide (place entry = index)).length =
      ((entries.filter fun entry => decide (place entry = index)).map Entry.type).count type := by
  rw [List.count_eq_countP, List.countP_map, List.countP_filter, List.countP_eq_length_filter]
  congr 2
  funext entry
  rw [Function.comp_apply, beq_eq_decide]

theorem length_filter_place (entries : List (Entry C)) (place : Entry C -> Nat) (type : Text) (index : Nat) :
    (entries.filter fun entry => decide (entry.type = type) && decide (place entry = index)).length =
      ((ofType type entries).map place).count index := by
  rw [List.count_eq_countP, List.countP_map, ofType, List.countP_filter, List.countP_eq_length_filter]
  congr 2
  funext entry
  exact Bool.and_comm ..

/-! ## Series -/

/-- The order of the entries does not matter to their report. -/
theorem bucketTimeseries_perm {entries others : List (Entry C)}
    (alike : (entries.map placedEntry).Perm (others.map placedEntry)) (bucketCount : Rat) :
    bucketTimeseries windowStart windowEnd bucketCount entries =
      bucketTimeseries windowStart windowEnd bucketCount others := by
  refine (assemble_eq_iff ..).mpr (.inr fun index _ => ?_)
  have received_alike := alike.filter fun placed =>
    decide (reportIndex windowStart windowEnd bucketCount placed.time = index)
  refine ⟨(received_alike.map Placed.count).sum_eq, fun type => ?_⟩
  have counts := (received_alike.filter fun placed => decide (placed.type = type)).map Placed.count
  change (countsOf type (received _ _ _ _ _)).Perm (countsOf type (received _ _ _ _ _)) at counts
  rw [countsOf_entries, countsOf_entries, List.perm_replicate] at counts
  rw [countsOf_entries, countsOf_entries, counts]

theorem rawSeries_eq [JsonContent C] (contents : List (Entry C)) :
    rawSeries query windowStart windowEnd contents =
      bucketTimeseries windowStart windowEnd query.bucketCount
        (contents.filter (inWindow query windowStart)) := by
  refine bucketTimeseries_perm windowStart windowEnd ?_ _
  rw [EntryQuery.results, List.map_map]
  have projected : placedEntry ∘ (query.baseQuery windowStart).project = (placedEntry : Entry C -> Placed) := by
    funext entry
    rw [Function.comp_apply, EntryQuery.project]
    split <;> rfl
  rw [projected]
  exact (sortNewestFirst_perm _).map _

variable {query windowStart windowEnd}

theorem type_of_inRollups {entry : Entry C} (isIn : inRollups query windowStart windowEnd entry = true) :
    entry.type ∈ query.metrics := (of_decide_eq_true isIn).1

theorem type_of_inWindow [JsonContent C] {entry : Entry C} (isIn : inWindow query windowStart entry = true) :
    forall type, type ∈ query.type -> entry.type = type := (of_decide_eq_true isIn).1

theorem methods_not_builtin : forall type, type ∈ OBJECT_METHODS -> type ∉ BUILTIN_METRICS := by decide

/-- A type that names a method is in the series only where it is the one type of the query. -/
theorem methods_alone [JsonContent C] (contents : List (Entry C)) (type : Text) (isMethod : type ∈ OBJECT_METHODS) :
    (forall entry, entry ∈ contents -> inRollups query windowStart windowEnd entry = true -> entry.type ≠ type) ∨
      forall entry, entry ∈ contents -> inRollups query windowStart windowEnd entry = true ∨
        inWindow query windowStart entry = true -> type = entry.type := by
  cases asked : query.type with
  | none =>
      refine .inl fun entry _ isIn isType => methods_not_builtin type isMethod ?_
      have isMetric := type_of_inRollups isIn
      rw [TimeseriesQuery.metrics, asked] at isMetric
      rw [← isType]
      exact isMetric
  | some only =>
      by_cases same : only = type
      · refine .inr fun entry _ isIn => ?_
        rcases isIn with counted | found
        · have isMetric := type_of_inRollups counted
          rw [TimeseriesQuery.metrics, asked] at isMetric
          rw [List.mem_singleton.mp isMetric, same]
        · rw [type_of_inWindow found only asked, same]
      · refine .inl fun entry _ isIn isType => same ?_
        have isMetric := type_of_inRollups isIn
        rw [TimeseriesQuery.metrics, asked] at isMetric
        rw [← isType, List.mem_singleton.mp isMetric]

theorem count_storedRollups {contents : List (Entry C)} {batches : List (List (Entry C))}
    (parts : batches.flatten.Perm contents) (index : Nat) (wanted : Text -> Bool) :
    (pointOfRollups windowStart windowEnd query.bucketCount
        (storedRollups query windowStart windowEnd batches) index wanted).count =
      ((contents.filter (inRollups query windowStart windowEnd)).filter fun entry =>
        wanted entry.type && decide (minuteIndex query windowStart windowEnd entry = index)).length := by
  have points := ofRollups_query query.metrics (floorToBucket windowStart.ms) (floorToBucket windowEnd.ms)
    (fun metric bucketStart => wanted metric &&
      decide (reportIndex windowStart windowEnd query.bucketCount bucketStart = index)) parts
  exact (congrArg Point.count points).trans (Point.count_ofEntries _)

/-- A bucket shows the same on both paths exactly where, type by type, the entries that the
rollups count in it are as many as those that the scan finds. -/
theorem bucket_alike_iff [JsonContent C] {contents : List (Entry C)} {batches : List (List (Entry C))}
    (parts : batches.flatten.Perm contents) (index : Nat) :
    (((received windowStart windowEnd query.bucketCount index
              ((storedRollups query windowStart windowEnd batches).map placedRollup)).map Placed.count).sum =
          ((received windowStart windowEnd query.bucketCount index
              ((contents.filter (inWindow query windowStart)).map placedEntry)).map Placed.count).sum ∧
        forall type,
          tallied type none (countsOf type (received windowStart windowEnd query.bucketCount index
              ((storedRollups query windowStart windowEnd batches).map placedRollup))) =
            tallied type none (countsOf type (received windowStart windowEnd query.bucketCount index
              ((contents.filter (inWindow query windowStart)).map placedEntry)))) <->
      forall type,
        ((ofType type (contents.filter (inRollups query windowStart windowEnd))).map
              (minuteIndex query windowStart windowEnd)).count index =
            ((ofType type (contents.filter (inWindow query windowStart))).map
              (entryIndex query windowStart windowEnd)).count index ∧
          (type ∈ OBJECT_METHODS -> forall count,
            count ∈ countsOf type (received windowStart windowEnd query.bucketCount index
              ((storedRollups query windowStart windowEnd batches).map placedRollup)) -> count = 1) := by
  have rollups := @count_storedRollups C query windowStart windowEnd contents batches parts index
  simp only [← length_filter_place]
  simp only [length_filter_type]
  rw [total_rollups, total_entries]
  simp only [countsOf_entries]
  rw [rollups, pointOfEntries, Point.count_ofEntries]
  have shown := @shown_alike_iff
    (fun type => countsOf type (received windowStart windowEnd query.bucketCount index
      ((storedRollups query windowStart windowEnd batches).map placedRollup)))
    (((contents.filter (inRollups query windowStart windowEnd)).filter fun entry =>
      decide (minuteIndex query windowStart windowEnd entry = index)).map Entry.type)
    (((contents.filter (inWindow query windowStart)).filter fun entry =>
      decide (entryIndex query windowStart windowEnd entry = index)).map Entry.type)
    ?_ ?_ ?_
  · rw [List.length_map, List.length_map] at shown
    refine Iff.trans (and_congr Iff.rfl (forall_congr' fun type => ?_)) shown
    rw [pointOfEntries, Point.count_ofEntries]
    have found := length_filter_type (contents.filter (inWindow query windowStart))
      (entryIndex query windowStart windowEnd) type index
    rw [← found]
    rfl
  · intro type count member
    rcases (mem_countsOf_rollups ..).mp member with ⟨rollup, isRollup, _, _, rfl⟩
    exact counted_of_query _ _ _ isRollup
  · intro type
    rw [countsOf_rollups, rollups, length_filter_type]
  · intro type isMethod
    rcases methods_alone contents type isMethod with absent | alone
    · refine .inl fun member => ?_
      rcases List.mem_map.mp member with ⟨entry, there, isType⟩
      have counted := List.mem_filter.mp (List.mem_filter.mp there).1
      exact absent entry counted.1 counted.2 isType
    · refine .inr fun other member => ?_
      rcases List.mem_append.mp member with counted | found
      · rcases List.mem_map.mp counted with ⟨entry, there, rfl⟩
        have isIn := List.mem_filter.mp (List.mem_filter.mp there).1
        exact alone entry isIn.1 (.inl isIn.2)
      · rcases List.mem_map.mp found with ⟨entry, there, rfl⟩
        have isIn := List.mem_filter.mp (List.mem_filter.mp there).1
        exact alone entry isIn.1 (.inr isIn.2)

/-- The series agree exactly where, type by type, the entries that the rollups count are in
the same buckets as those that the scan finds, and no two of a type that names a method
share a minute; or a date is out of range. -/
theorem series_agree_iff [JsonContent C] {contents : List (Entry C)} {batches : List (List (Entry C))}
    (parts : batches.flatten.Perm contents) :
    timeseriesFromRollups windowStart windowEnd query.bucketCount
        (storedRollups query windowStart windowEnd batches) =
      rawSeries query windowStart windowEnd contents <->
      reportStarts windowStart windowEnd query.bucketCount = none ∨
        forall type,
          ((ofType type (contents.filter (inRollups query windowStart windowEnd))).map
              (minuteIndex query windowStart windowEnd)).Perm
            ((ofType type (contents.filter (inWindow query windowStart))).map
              (entryIndex query windowStart windowEnd)) ∧
            (type ∈ OBJECT_METHODS ->
              ((ofType type (contents.filter (inRollups query windowStart windowEnd))).map bucketOf).Nodup) := by
  rw [rawSeries_eq, timeseriesFromRollups, bucketTimeseries, assemble_eq_iff]
  refine or_congr_right ?_
  simp only [bucket_alike_iff parts]
  have ones := fun type => @ones_iff_nodup C query.metrics (floorToBucket windowStart.ms)
    (floorToBucket windowEnd.ms) contents batches parts type
  constructor
  · intro alike type
    refine ⟨List.perm_iff_count.mpr fun index => ?_, fun isMethod => (ones type).mp ?_⟩
    · by_cases bound : index < (reportCount query.bucketCount).toNat
      · exact (alike index bound type).1
      · have absent {entries : List (Entry C)} {time : Entry C -> Int} : index ∉ entries.map fun entry =>
            reportIndex windowStart windowEnd query.bucketCount (time entry) := by
          intro member
          rcases List.mem_map.mp member with ⟨entry, _, rfl⟩
          exact bound (reportIndex_lt ..)
        exact (List.count_eq_zero_of_not_mem absent).trans (List.count_eq_zero_of_not_mem absent).symm
    · intro rollup member isType
      exact (alike _ (reportIndex_lt ..) type).2 isMethod rollup.count
        ((mem_countsOf_rollups ..).mpr ⟨rollup, member, isType, rfl, rfl⟩)
  · intro alike index _ type
    refine ⟨(alike type).1.count_eq index, fun isMethod count member => ?_⟩
    rcases (mem_countsOf_rollups ..).mp member with ⟨rollup, isRollup, isType, _, rfl⟩
    exact (ones type).mpr ((alike type).2 isMethod) rollup isRollup isType

/-! ## Buckets of times -/

section Index

variable (windowStart windowEnd) (bucketCount : Rat)

theorem reportBucketMs_pos : 0 < reportBucketMs windowStart windowEnd bucketCount :=
  Int.lt_of_lt_of_le Int.zero_lt_one (le_max_left _ _)

theorem reportBucketMs_le_span :
    reportBucketMs windowStart windowEnd bucketCount ≤ reportSpanMs windowStart windowEnd := by
  have span : 1 ≤ reportSpanMs windowStart windowEnd := le_max_left _ _
  have parts : 1 ≤ reportCount bucketCount := le_max_left _ _
  exact max_le span (Int.ediv_le_self _ (by omega))

theorem reportIndex_mono {earlier later : Int} (ordered : earlier ≤ later) :
    reportIndex windowStart windowEnd bucketCount earlier ≤ reportIndex windowStart windowEnd bucketCount later := by
  have quotients := Int.ediv_le_ediv (reportBucketMs_pos windowStart windowEnd bucketCount)
    (Int.sub_le_sub_right ordered windowStart.ms)
  rw [reportIndex, reportIndex]
  omega

theorem reportIndex_eq_zero {time : Int} (early : time ≤ windowStart.ms) :
    reportIndex windowStart windowEnd bucketCount time = 0 := by
  have quotient := Int.ediv_le_ediv (reportBucketMs_pos windowStart windowEnd bucketCount)
    (Int.sub_nonpos_of_le early)
  rw [Int.zero_ediv] at quotient
  have parts : 1 ≤ reportCount bucketCount := le_max_left _ _
  rw [reportIndex]
  omega

theorem reportIndex_pos (several : 1 < reportCount bucketCount) {time : Int}
    (beyond : reportSpanMs windowStart windowEnd ≤ time - windowStart.ms) :
    0 < reportIndex windowStart windowEnd bucketCount time := by
  have width := (reportBucketMs_le_span windowStart windowEnd bucketCount).trans beyond
  have quotient : 1 ≤ (time - windowStart.ms) / reportBucketMs windowStart windowEnd bucketCount :=
    Int.le_ediv_of_mul_le (reportBucketMs_pos windowStart windowEnd bucketCount) (by rwa [Int.one_mul])
  rw [reportIndex]
  omega

theorem floorToBucket_bounds (time : Int) : floorToBucket time ≤ time ∧ time < floorToBucket time + 60000 := by
  rw [floorToBucket, ROLLUP_BUCKET_MS]
  omega

theorem floorToBucket_mono {earlier later : Int} (ordered : earlier ≤ later) :
    floorToBucket earlier ≤ floorToBucket later := by
  rw [floorToBucket, floorToBucket, ROLLUP_BUCKET_MS]
  omega

theorem floorToBucket_floorToBucket (time : Int) : floorToBucket (floorToBucket time) = floorToBucket time := by
  rw [floorToBucket, floorToBucket, ROLLUP_BUCKET_MS]
  omega

/-- Minutes after that of a time begin after the time. -/
theorem lt_of_floorToBucket_lt {time minute : Int} (later : floorToBucket time < floorToBucket minute) :
    time < minute := by
  refine Int.not_le.mp fun ordered => ?_
  have reversed := floorToBucket_mono ordered
  omega

end Index

/-! ## Which entries both paths take -/

/-- Both paths take the same entries into the same buckets; where there is one bucket, they
take as many of every type. -/
def TakenAlike [JsonContent C] (query : TimeseriesQuery) (windowStart windowEnd : TimeValue)
    (contents : List (Entry C)) : Prop :=
  if query.bucketCount = 1 then
    forall type, contents.countP (fun entry => decide (entry.type = type) && inRollups query windowStart windowEnd entry) =
      contents.countP fun entry => decide (entry.type = type) && inWindow query windowStart entry
  else
    forall entry, entry ∈ contents ->
      inRollups query windowStart windowEnd entry = inWindow query windowStart entry ∧
        (inWindow query windowStart entry = true ->
          minuteIndex query windowStart windowEnd entry = entryIndex query windowStart windowEnd entry)

theorem inWindow_iff [JsonContent C] (tagless : query.tag = none) {entry : Entry C} :
    inWindow query windowStart entry = true <->
      (forall type, type ∈ query.type -> entry.type = type) ∧ windowStart.ms < entry.createdAt := by
  rw [inWindow, decide_eq_true_eq]
  constructor
  · rintro ⟨isType, _, _, _, _, _, _, _, isAfter⟩
    exact ⟨isType, isAfter _ rfl⟩
  · rintro ⟨isType, isAfter⟩
    refine ⟨isType, fun tag isTag => ?_, ?_, ?_, ?_, ?_, ?_, ?_, ?_⟩
    · rw [TimeseriesQuery.baseQuery, tagless] at isTag
      cases isTag
    all_goals rintro value ⟨⟩
    exact isAfter

theorem metrics_of_type (entry : Entry C) :
    entry.type ∈ query.metrics -> forall type, type ∈ query.type -> entry.type = type := by
  intro isMetric type asked
  rw [TimeseriesQuery.metrics, asked] at isMetric
  exact List.mem_singleton.mp isMetric

/-- What only the rollups count is in front; what only the scan finds is behind the first
bucket; and no minute is behind its times. -/
theorem later_of_metric [JsonContent C] (tagless : query.tag = none)
    (several : 1 < reportCount query.bucketCount) {entries : List (Entry C)}
    (metric : forall entry, entry ∈ entries -> entry.type ∈ query.metrics) :
    Placement.Later entries (inRollups query windowStart windowEnd) (inWindow query windowStart)
      (minuteIndex query windowStart windowEnd) (entryIndex query windowStart windowEnd) where
  onlyEarly := by
    intro entry member _ notFound
    have isType := metrics_of_type entry (metric entry member)
    have early : entry.createdAt ≤ windowStart.ms := by
      refine Int.not_lt.mp fun younger => ?_
      rw [(inWindow_iff tagless).mpr ⟨isType, younger⟩] at notFound
      cases notFound
    exact reportIndex_eq_zero _ _ _ ((floorToBucket_bounds entry.createdAt).1.trans early)
  onlyLate := by
    intro entry member notCounted found
    have younger := ((inWindow_iff tagless).mp found).2
    have minutes := floorToBucket_mono younger.le
    have beyond : windowEnd.ms < entry.createdAt := by
      refine Int.lt_of_lt_of_le ?_ (floorToBucket_bounds entry.createdAt).1
      refine lt_of_floorToBucket_lt (Int.not_le.mp fun inside => ?_)
      rw [floorToBucket_floorToBucket] at inside
      rw [inRollups, queried, decide_eq_true ⟨metric entry member, minutes, inside⟩] at notCounted
      cases notCounted
    refine reportIndex_pos _ _ _ several ?_
    rw [reportSpanMs]
    omega
  both := by
    intro entry _ _ _
    exact reportIndex_mono _ _ _ (floorToBucket_bounds entry.createdAt).1

theorem ofType_filter (type : Text) (keep : Entry C -> Bool) (contents : List (Entry C)) :
    ofType type (contents.filter keep) = (ofType type contents).filter keep := by
  rw [ofType, ofType, List.filter_filter, List.filter_filter]
  exact List.filter_congr fun entry _ => Bool.and_comm ..

theorem reportCount_bucketCount : reportCount query.bucketCount = query.bucketCount := by
  rw [reportCount, Int.floor_intCast, TimeseriesQuery.bucketCount, MAX_BUCKETS]
  omega

/-- One type fills the buckets alike. -/
theorem perm_type_iff [JsonContent C] (tagless : query.tag = none)
    (several : 1 < reportCount query.bucketCount) (contents : List (Entry C)) (type : Text) :
    ((ofType type (contents.filter (inRollups query windowStart windowEnd))).map
          (minuteIndex query windowStart windowEnd)).Perm
        ((ofType type (contents.filter (inWindow query windowStart))).map
          (entryIndex query windowStart windowEnd)) <->
      forall entry, entry ∈ ofType type contents ->
        inRollups query windowStart windowEnd entry = inWindow query windowStart entry ∧
          (inWindow query windowStart entry = true ->
            minuteIndex query windowStart windowEnd entry = entryIndex query windowStart windowEnd entry) := by
  have typed : forall entry, entry ∈ ofType type contents -> entry.type = type :=
    fun entry member => of_decide_eq_true (List.mem_filter.mp member).2
  rw [ofType_filter, ofType_filter]
  by_cases isMetric : type ∈ query.metrics
  · exact Placement.perm_places_iff (later_of_metric tagless several fun entry member =>
      (typed entry member).symm ▸ isMetric)
  · have uncounted : forall entry, entry ∈ ofType type contents ->
        inRollups query windowStart windowEnd entry = false := by
      intro entry member
      refine Bool.eq_false_iff.mpr fun counted => isMetric ?_
      rw [← typed entry member]
      exact type_of_inRollups counted
    rw [List.filter_eq_nil_iff.mpr fun entry member => Bool.eq_false_iff.mp (uncounted entry member),
      List.map_nil, List.nil_perm, List.map_eq_nil_iff, List.filter_eq_nil_iff]
    refine forall_congr' fun entry => forall_congr' fun member => ?_
    rw [uncounted entry member]
    constructor
    · intro notFound
      exact ⟨(Bool.eq_false_iff.mpr notFound).symm, fun found => (notFound found).elim⟩
    · rintro ⟨notFound, _⟩ found
      rw [found] at notFound
      cases notFound

theorem perm_types_iff [JsonContent C] (tagless : query.tag = none) (contents : List (Entry C)) :
    (forall type,
      ((ofType type (contents.filter (inRollups query windowStart windowEnd))).map
          (minuteIndex query windowStart windowEnd)).Perm
        ((ofType type (contents.filter (inWindow query windowStart))).map
          (entryIndex query windowStart windowEnd))) <->
      TakenAlike query windowStart windowEnd contents := by
  rw [TakenAlike]
  by_cases single : query.bucketCount = 1
  · rw [if_pos single]
    refine forall_congr' fun type => ?_
    have zero : forall time, reportIndex windowStart windowEnd query.bucketCount time = 0 := by
      intro time
      have below := reportIndex_lt windowStart windowEnd query.bucketCount time
      have parts := reportCount_bucketCount.trans single
      omega
    have placed : forall (entries : List (Entry C)) (time : Entry C -> Int),
        (entries.map fun entry => reportIndex windowStart windowEnd query.bucketCount (time entry)) =
          List.replicate entries.length 0 := by
      intro entries time
      simp only [zero]
      exact List.map_const' ..
    have sizes : forall keep : Entry C -> Bool, (ofType type (contents.filter keep)).length =
        contents.countP fun entry => decide (entry.type = type) && keep entry := by
      intro keep
      rw [ofType, List.filter_filter, List.countP_eq_length_filter]
    rw [← sizes, ← sizes]
    unfold minuteIndex entryIndex
    rw [placed _ bucketOf, placed _ Entry.createdAt, List.perm_replicate]
    constructor
    · intro same
      have lengths := congrArg List.length same
      rw [List.length_replicate, List.length_replicate] at lengths
      exact lengths
    · intro same
      rw [same]
  · rw [if_neg single]
    have several : 1 < reportCount query.bucketCount := by
      have least : 1 ≤ reportCount query.bucketCount := le_max_left _ _
      rw [reportCount_bucketCount] at least ⊢
      omega
    constructor
    · intro alike entry member
      exact (perm_type_iff tagless several contents entry.type).mp (alike entry.type) entry
        (List.mem_filter.mpr ⟨member, decide_eq_true rfl⟩)
    · intro alike type
      exact (perm_type_iff tagless several contents type).mpr fun entry member =>
        alike entry (List.mem_filter.mp member).1

end Series

/-! ## The service -/

theorem report_fromRollups (rollups : Rollups) (query : TimeseriesQuery) (windowStart windowEnd : TimeValue) :
    (fromRollups rollups query windowStart windowEnd).map TimeseriesResult.toTimeseriesReport =
      timeseriesFromRollups windowStart windowEnd query.bucketCount
        (queryRollups rollups query.metrics (floorToBucket windowStart.ms) (floorToBucket windowEnd.ms)) := by
  rw [fromRollups]
  cases timeseriesFromRollups windowStart windowEnd query.bucketCount
    (queryRollups rollups query.metrics (floorToBucket windowStart.ms) (floorToBucket windowEnd.ms)) <;> rfl

/-- Below the cap of the scan, the path of the entries computes the raw series. -/
theorem report_fromEntries [JsonContent C] {contents : List (Entry C)} (distinct : Entry.DistinctIds contents)
    (options : WindowReadOptions) (positive : 0 < options.pageSize.getD DEFAULT_PAGE_SIZE)
    (query : TimeseriesQuery) (windowStart windowEnd : TimeValue)
    (fits : ((query.baseQuery windowStart).results contents).length < options.scanCap.getD DEFAULT_SCAN_CAP) :
    (fromEntries (listingGet contents) query windowStart windowEnd options).map
        TimeseriesResult.toTimeseriesReport = rawSeries query windowStart windowEnd contents := by
  have read := collectEntriesInWindow_listing distinct options positive fits
  rw [fromEntries]
  simp only [read]
  rw [rawSeries]
  cases bucketTimeseries windowStart windowEnd query.bucketCount ((query.baseQuery windowStart).results contents) <;> rfl

/-- A query without a tag gets from the rollups the series of the raw entries exactly where
both paths take the same entries into the same buckets, and no two entries of a type that
names a method share a minute; or where a date is out of range. -/
theorem getTimeseries_agrees_iff [JsonContent C] (get : EntryQuery -> Page C) (options : WindowReadOptions)
    (query : TimeseriesQuery) (tagless : query.tag = none) (windowEnd : TimeValue)
    {contents : List (Entry C)} {batches : List (List (Entry C))} (parts : batches.flatten.Perm contents) :
    (getTimeseries { get := get, rollups := some (recordBatches Grouping.empty batches) } options query
          windowEnd).map TimeseriesResult.toTimeseriesReport =
        (query.windowStart windowEnd).bind (fun windowStart => rawSeries query windowStart windowEnd contents) <->
      forall windowStart, query.windowStart windowEnd = some windowStart ->
        reportStarts windowStart windowEnd query.bucketCount = none ∨
          (TakenAlike query windowStart windowEnd contents ∧
            forall type, type ∈ OBJECT_METHODS ->
              ((ofType type (contents.filter (inRollups query windowStart windowEnd))).map bucketOf).Nodup) := by
  cases start : query.windowStart windowEnd with
  | none =>
      rw [getTimeseries, start]
      exact iff_of_true rfl fun _ isStart => by cases isStart
  | some windowStart =>
      have answered : getTimeseries { get := get, rollups := some (recordBatches Grouping.empty batches) }
          options query windowEnd =
            fromRollups (recordBatches Grouping.empty batches) query windowStart windowEnd := by
        rw [getTimeseries, start, tagless]
        rfl
      rw [answered, report_fromRollups, Option.bind_some]
      refine (series_agree_iff parts).trans ?_
      rw [forall_and, perm_types_iff tagless]
      constructor
      · rintro agree _ ⟨⟩
        exact agree
      · intro agree
        exact agree windowStart rfl

/-- The window from the first to the second minute, in two buckets. -/
def secondMinute (type : Option Text) : TimeseriesQuery where
  windowMs := .finite 60000
  buckets := some 2
  type := type

def twoMinutes : TimeValue := ⟨120000, by decide⟩

theorem windowStart_secondMinute (type : Option Text) :
    (secondMinute type).windowStart twoMinutes = some oneMinute := by
  have start : ((secondMinute none).windowStart twoMinutes).map TimeValue.ms = some 60000 := by decide +kernel
  change (secondMinute none).windowStart twoMinutes = some oneMinute
  rcases Option.map_eq_some_iff.mp start with ⟨⟨ms, inRange⟩, isStart, rfl⟩
  exact isStart

theorem report_fromEntries_request :
    (fromEntries (listingGet [minuteEntry EntryType.Request 60001]) (secondMinute none) oneMinute twoMinutes {}).map
        TimeseriesResult.toTimeseriesReport =
      rawSeries (secondMinute none) oneMinute twoMinutes [minuteEntry EntryType.Request 60001] :=
  report_fromEntries (by decide) {} (by decide) (secondMinute none) oneMinute twoMinutes (by decide +kernel)

/-- A request in the first millisecond after the start of the window. -/
theorem getTimeseries_agrees_request :
    (getTimeseries
          { get := listingGet [minuteEntry EntryType.Request 60001]
            rollups := some (recordBatches Grouping.empty [[minuteEntry EntryType.Request 60001]]) }
          {} (secondMinute none) twoMinutes).map TimeseriesResult.toTimeseriesReport =
      ((secondMinute none).windowStart twoMinutes).bind fun windowStart =>
        rawSeries (secondMinute none) windowStart twoMinutes [minuteEntry EntryType.Request 60001] := by
  refine (getTimeseries_agrees_iff _ {} (secondMinute none) rfl twoMinutes (List.Perm.refl _)).mpr ?_
  intro windowStart isStart
  rw [windowStart_secondMinute] at isStart
  cases isStart
  refine .inr ⟨?_, ?_⟩
  · rw [TakenAlike, if_neg (by decide +kernel)]
    decide +kernel
  · decide +kernel

/-- An entry of an extension's type is in the scan and in no rollup that the query reads. -/
theorem extensionType_series_differ :
    (getTimeseries
          { get := listingGet [minuteEntry "feature_flag".toList 60001]
            rollups := some (recordBatches Grouping.empty [[minuteEntry "feature_flag".toList 60001]]) }
          {} (secondMinute none) twoMinutes).map TimeseriesResult.toTimeseriesReport ≠
      ((secondMinute none).windowStart twoMinutes).bind fun windowStart =>
        rawSeries (secondMinute none) windowStart twoMinutes [minuteEntry "feature_flag".toList 60001] := by
  intro same
  have totals := congrArg (Option.map fun report : TimeseriesReport => report.buckets.map TimeseriesBucket.total) same
  revert totals
  decide +kernel

end Metrics
end Telescope
