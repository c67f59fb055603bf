import Telescope.Foundation.Histogram
import Telescope.Foundation.RoundingOrder
import Telescope.Metrics.StatsService

namespace Telescope
namespace Rollup

open Metrics

/-!
# Estimated percentiles

The estimate of a percentile is the upper boundary of the histogram cell that holds its
rank, or the greatest duration if that is less.  The merged histogram of a window counts
the durations of its entries, and the rank of the estimate is that of the percentile by
nearest rank: both are in the same cell, unless it is the overflow one.
-/

variable {C : Type*}

/-! ## Percentiles of any fraction -/

/-- The nearest-rank percentile of ascending samples; zero where there are none. -/
def percentileOf (sortedAscending : List Rat) (fraction : Rat) : Rat :=
  let rawIndex := ⌈Number.nearest (fraction * sortedAscending.length)⌉ - 1
  let index := (min ((sortedAscending.length : Int) - 1) (max 0 rawIndex)).toNat
  (sortedAscending[index]?).getD 0

/-- The rank of a fraction, from one on. -/
def targetRank (total : Nat) (fraction : Rat) : Nat :=
  (max 1 ⌈Number.nearest (min 1 (max 0 fraction) * total)⌉).toNat

/-- The upper boundary of the cell of a histogram that holds the rank of a fraction. -/
def estimatePercentileFromHistogram (histogram : List Nat) (fraction : Rat) : Nat :=
  let cells := normalizeHistogram histogram
  let total := cells.sum
  if total = 0 then 0 else histogramCell cells 0 0 (targetRank total fraction)

def mergedHistogram (buckets : List RollupBucket) : List Nat :=
  buckets.foldl (fun merged bucket => mergeHistograms merged bucket.histogram) emptyHistogram

def mergedMax (buckets : List RollupBucket) : Rat :=
  buckets.foldl (fun mergedMax bucket => max mergedMax bucket.max) 0

/-- The percentile that rollups estimate, if they have samples. -/
def estimatePercentile (buckets : List RollupBucket) (fraction : Rat) : Option Rat :=
  if (mergedHistogram buckets).sum = 0 then none
  else some (min (estimatePercentileFromHistogram (mergedHistogram buckets) fraction) (mergedMax buckets))

/-- The service reports the estimates of three fractions. -/
theorem estimatePercentiles_eq (rollups : Rollups) (type : Text) (windowStart windowEnd : TimeValue) :
    estimatePercentiles rollups type windowStart windowEnd =
      let estimate := estimatePercentile
        (queryRollups rollups [type] (floorToBucket windowStart.ms) (floorToBucket windowEnd.ms))
      (estimate (quantile 50)).bind fun p50 =>
        (estimate (quantile 95)).bind fun p95 =>
          (estimate (quantile 99)).map fun p99 => ⟨p50, p95, p99⟩ := by
  have median : min 1 (max 0 (quantile 50)) = quantile 50 := by decide +kernel
  have high : min 1 (max 0 (quantile 95)) = quantile 95 := by decide +kernel
  have highest : min 1 (max 0 (quantile 99)) = quantile 99 := by decide +kernel
  rw [estimatePercentiles]
  simp only [estimatePercentile, mergedHistogram, mergedMax, estimatePercentileFromHistogram, targetRank, median,
    high, highest, Metrics.estimatePercentileFromHistogram]
  split <;> rfl

/-! ## Cells -/

/-- The upper boundary of a cell; the overflow cell has the last one. -/
def upperBoundary (cell : Nat) : Nat :=
  (LATENCY_BOUNDARIES_MS[cell]?).getD (LATENCY_BOUNDARIES_MS.getLast?.getD 0)

def OVERFLOW : Nat := LATENCY_BOUNDARIES_MS.length

theorem upperBoundary_of_overflow {cell : Nat} (beyond : OVERFLOW ≤ cell) : upperBoundary cell = 10000 := by
  rw [upperBoundary, List.getElem?_eq_none beyond]
  rfl

theorem upperBoundary_mono : Monotone upperBoundary := by
  refine monotone_nat_of_le_succ fun cell => ?_
  rcases Nat.lt_or_ge cell OVERFLOW with bounded | beyond
  · have all : forall cell, cell < OVERFLOW -> upperBoundary cell ≤ upperBoundary (cell + 1) := by decide
    exact all cell bounded
  · rw [upperBoundary_of_overflow beyond, upperBoundary_of_overflow (Nat.le_succ_of_le beyond)]

theorem histogramBucketIndex_def (durationMs : Rat) :
    histogramBucketIndex durationMs =
      LATENCY_BOUNDARIES_MS.findIdx fun boundary : Nat => decide (durationMs ≤ (boundary : Rat)) := rfl

theorem histogramBucketIndex_le (durationMs : Rat) : histogramBucketIndex durationMs ≤ OVERFLOW :=
  (histogramBucketIndex_def durationMs).le.trans List.findIdx_le_length

theorem le_upperBoundary {durationMs : Rat} (bounded : histogramBucketIndex durationMs < OVERFLOW) :
    durationMs ≤ upperBoundary (histogramBucketIndex durationMs) := by
  rw [histogramBucketIndex_def] at bounded ⊢
  have reached := List.findIdx_getElem (w := bounded)
  rw [upperBoundary, List.getElem?_eq_getElem bounded]
  exact of_decide_eq_true reached

theorem upperBoundary_lt {durationMs : Rat} {cell : Nat} (before : cell < histogramBucketIndex durationMs) :
    upperBoundary cell < durationMs := by
  have inRange : cell < LATENCY_BOUNDARIES_MS.length := before.trans_le (histogramBucketIndex_le durationMs)
  rw [histogramBucketIndex_def] at before
  have missed := List.not_of_lt_findIdx before
  rw [upperBoundary, List.getElem?_eq_getElem inRange]
  exact not_le.mp (of_decide_eq_false missed)

/-- A duration is in the cell whose boundaries it is between. -/
theorem histogramBucketIndex_eq {durationMs : Rat} {cell : Nat} (bounded : cell < OVERFLOW)
    (above : forall earlier, earlier < cell -> upperBoundary earlier < durationMs)
    (atMost : durationMs ≤ upperBoundary cell) : histogramBucketIndex durationMs = cell := by
  rcases Nat.lt_trichotomy (histogramBucketIndex durationMs) cell with before | same | beyond
  · exact absurd (le_upperBoundary (before.trans bounded)) (not_le.mpr (above _ before))
  · exact same
  · exact absurd atMost (not_le.mpr (upperBoundary_lt beyond))

theorem histogramBucketIndex_mono {shorter longer : Rat} (atMost : shorter ≤ longer) :
    histogramBucketIndex shorter ≤ histogramBucketIndex longer := by
  by_contra beyond
  have above := upperBoundary_lt (Nat.lt_of_not_le beyond)
  have below := @le_upperBoundary longer
    ((Nat.lt_of_not_le beyond).trans_le (histogramBucketIndex_le shorter))
  exact absurd (atMost.trans below) (not_le.mpr above)

/-- The walk over the cells is a search for the rank. -/
theorem histogramCell_eq (cells : List Nat) (index cumulative rank : Nat) :
    histogramCell cells index cumulative rank =
      ((Histogram.locate rank cells cumulative).map fun place => upperBoundary (index + place)).getD 10000 := by
  induction cells generalizing index cumulative with
  | nil => rfl
  | cons count cells inductionHypothesis =>
      rw [histogramCell, Histogram.locate]
      split
      · rfl
      · rw [inductionHypothesis, Option.map_map]
        simp only [Function.comp_def, Nat.succ_eq_add_one, Nat.add_assoc, Nat.add_comm 1]

/-- A later rank is not in an earlier cell. -/
theorem histogramCell_mono {rank other : Nat} (atMost : rank ≤ other) (cells : List Nat) (index cumulative : Nat) :
    histogramCell cells index cumulative rank ≤ histogramCell cells index cumulative other := by
  have least : forall (cells : List Nat) (index cumulative : Nat),
      upperBoundary index ≤ histogramCell cells index cumulative other := by
    intro cells
    induction cells with
    | nil =>
        intro index _
        rw [histogramCell_eq]
        exact (upperBoundary_mono (Nat.le_add_right index OVERFLOW)).trans
          (upperBoundary_of_overflow (Nat.le_add_left ..)).le
    | cons count cells inductionHypothesis =>
        intro index cumulative
        rw [histogramCell]
        split
        · exact Nat.le_refl _
        · exact (upperBoundary_mono (Nat.le_succ index)).trans (inductionHypothesis ..)
  induction cells generalizing index cumulative with
  | nil => exact Nat.le_refl _
  | cons count cells inductionHypothesis =>
      rw [histogramCell, histogramCell]
      by_cases reached : other ≤ cumulative + count
      · rw [if_pos reached, if_pos (atMost.trans reached)]
      · rw [if_neg reached]
        split
        · exact (upperBoundary_mono (Nat.le_succ index)).trans (least cells ..)
        · exact inductionHypothesis ..

/-! ## The histogram of a window -/

/-- A group is under its key, with a cell for every bucket. -/
structure Shaped (key : Text) (rollup : RollupDelta) : Prop where
  key : key = rollupKey rollup.metric rollup.bucketStart
  width : rollup.histogram.length = HISTOGRAM_BUCKET_COUNT

def cellCount (cell : Nat) (rollup : RollupDelta) : Nat := rollup.histogram.getD cell 0

/-- One for an entry whose duration is in the cell. -/
def latencyIn (cell : Nat) (entry : Entry C) : Nat :=
  if entry.durationMs.any fun durationMs => decide (histogramBucketIndex durationMs = cell) then 1 else 0

theorem length_countLatency (histogram : List Nat) (entry : Entry C) :
    (countLatency histogram entry).length = histogram.length := by
  rw [countLatency]
  split
  · rfl
  · exact List.length_modify ..

theorem getD_countLatency {histogram : List Nat} (width : histogram.length = HISTOGRAM_BUCKET_COUNT)
    {cell : Nat} (inRange : cell < HISTOGRAM_BUCKET_COUNT) (entry : Entry C) :
    (countLatency histogram entry).getD cell 0 = histogram.getD cell 0 + latencyIn cell entry := by
  have isCell : cell < histogram.length := width.symm ▸ inRange
  rw [countLatency, latencyIn]
  cases entry.durationMs with
  | none => rfl
  | some durationMs =>
      dsimp only
      rw [incrementHistogram, List.getD_eq_getElem?_getD, List.getD_eq_getElem?_getD, List.getElem?_modify,
        List.getElem?_eq_getElem isCell, Option.any_some]
      simp only [decide_eq_true_eq]
      by_cases counted : histogramBucketIndex durationMs = cell
      · rw [if_pos counted]
        change (if _ then _ else _) = _
        rw [if_pos counted]
        rfl
      · rw [if_neg counted]
        change (if _ then _ else _) = _
        rw [if_neg counted]
        rfl

theorem getD_emptyHistogram (cell : Nat) : emptyHistogram.getD cell 0 = 0 := by
  rw [emptyHistogram, List.getD_eq_getElem?_getD, List.getElem?_replicate]
  split <;> rfl

/-- Every entry adds one to the cell of its duration. -/
theorem additive_cellCount {cell : Nat} (inRange : cell < HISTOGRAM_BUCKET_COUNT) :
    Additive Shaped (cellCount cell) (latencyIn cell (C := C)) where
  keepsEntries entries :=
    { first := fun entry _member => ⟨rfl, length_countLatency emptyHistogram entry⟩
      change := fun entry _member existing shaped =>
        ⟨shaped.key, (length_countLatency existing.histogram entry).trans shaped.width⟩ }
  keepsDeltas _deltas _shaped :=
    { first := fun delta _member => ⟨rfl, length_normalizeHistogram delta.histogram⟩
      change := fun delta _member existing shaped =>
        ⟨shaped.key, length_mergeHistograms existing.histogram delta.histogram⟩ }
  firstEntry entry := by
    have counted := @getD_countLatency C emptyHistogram (List.length_replicate ..) cell inRange entry
    rw [getD_emptyHistogram, Nat.zero_add] at counted
    exact counted
  changeEntry entry existing shaped := getD_countLatency shaped.width inRange entry
  firstDelta delta _key _shaped := getD_normalizeHistogram delta.histogram inRange
  changeDelta delta _key existing _shaped _kept :=
    getD_mergeHistograms existing.histogram delta.histogram inRange

/-- The durations of entries that have one. -/
def latencies (entries : List (Entry C)) : List Rat := entries.filterMap Entry.durationMs

theorem sum_latencyIn (cell : Nat) (entries : List (Entry C)) :
    (entries.map (latencyIn cell)).sum =
      (latencies entries).countP fun durationMs => decide (histogramBucketIndex durationMs = cell) := by
  induction entries with
  | nil => rfl
  | cons entry entries inductionHypothesis =>
      rw [List.map_cons, List.sum_cons, inductionHypothesis, latencyIn]
      cases duration : entry.durationMs with
      | none =>
          have skipped : latencies (entry :: entries) = latencies entries := List.filterMap_cons_none duration
          rw [skipped]
          exact Nat.zero_add _
      | some durationMs =>
          have counted : latencies (entry :: entries) = durationMs :: latencies entries :=
            List.filterMap_cons_some duration
          rw [counted, List.countP_cons, Option.any_some, Nat.add_comm]

theorem getD_mergedHistogram (buckets : List RollupBucket) {cell : Nat} (inRange : cell < HISTOGRAM_BUCKET_COUNT) :
    (mergedHistogram buckets).getD cell 0 = (buckets.map (cellCount cell)).sum := by
  have merged : forall (buckets : List RollupBucket) (histogram : List Nat),
      (buckets.foldl (fun merged bucket => mergeHistograms merged bucket.histogram) histogram).getD cell 0 =
        histogram.getD cell 0 + (buckets.map (cellCount cell)).sum := by
    intro buckets
    induction buckets with
    | nil => exact fun _ => rfl
    | cons bucket buckets inductionHypothesis =>
        intro histogram
        rw [List.foldl_cons, inductionHypothesis, getD_mergeHistograms _ _ inRange, List.map_cons, List.sum_cons,
          Nat.add_assoc]
        rfl
  rw [mergedHistogram, merged, getD_emptyHistogram, Nat.zero_add]

theorem length_mergedHistogram (buckets : List RollupBucket) :
    (mergedHistogram buckets).length = HISTOGRAM_BUCKET_COUNT := by
  rcases List.eq_nil_or_concat' buckets with rfl | ⟨earlier, last, rfl⟩
  · rfl
  · rw [mergedHistogram, List.foldl_append]
    exact length_mergeHistograms ..

/-! ## The greatest duration -/

theorem Point.peak_le {points : List Point} {point : Point} (member : point ∈ points) :
    point.peak ≤ points.sum.peak := by
  induction points with
  | nil => exact (List.not_mem_nil member).elim
  | cons first points inductionHypothesis =>
      rw [List.sum_cons]
      change point.peak ≤ first.peak ⊔ points.sum.peak
      rcases List.mem_cons.mp member with rfl | later
      · exact le_sup_left
      · exact (inductionHypothesis later).trans le_sup_right

theorem Point.peak_sum (points : List Point) :
    points.sum.peak = ⊥ ∨ Exists fun point => point ∈ points ∧ points.sum.peak = point.peak := by
  induction points with
  | nil => exact .inl rfl
  | cons first points inductionHypothesis =>
      rw [List.sum_cons]
      change first.peak ⊔ points.sum.peak = ⊥ ∨
        Exists fun point => point ∈ first :: points ∧ first.peak ⊔ points.sum.peak = point.peak
      rcases le_total first.peak points.sum.peak with below | above
      · rw [sup_eq_right.mpr below]
        rcases inductionHypothesis with none | ⟨point, member, isPeak⟩
        · exact .inl none
        · exact .inr ⟨point, List.mem_cons_of_mem _ member, isPeak⟩
      · rw [sup_eq_left.mpr above]
        exact .inr ⟨first, List.mem_cons_self .., rfl⟩

theorem coe_mergedMax (buckets : List RollupBucket) :
    ((mergedMax buckets : Rat) : WithBot Rat) = ((0 : Rat) : WithBot Rat) ⊔ (Point.ofRollups buckets).peak := by
  have merged : forall (buckets : List RollupBucket) (greatest : Rat),
      ((buckets.foldl (fun mergedMax bucket => max mergedMax bucket.max) greatest : Rat) : WithBot Rat) =
        (greatest : WithBot Rat) ⊔ (Point.ofRollups buckets).peak := by
    intro buckets
    induction buckets with
    | nil => exact fun greatest => (sup_bot_eq _).symm
    | cons bucket buckets inductionHypothesis =>
        intro greatest
        rw [List.foldl_cons, inductionHypothesis, WithBot.coe_max, sup_assoc]
        rfl
  exact merged buckets 0

section Window

variable (metrics : List Text) (fromBucket toBucket : Int) {entries : List (Entry C)}
  {batches : List (List (Entry C))} (parts : batches.flatten.Perm entries)

include parts

/-- The merged histogram counts the durations of the entries that the query covers. -/
theorem mergedHistogram_query :
    mergedHistogram (queryRollups (recordBatches Grouping.empty batches) metrics fromBucket toBucket) =
      Histogram.cells histogramBucketIndex HISTOGRAM_BUCKET_COUNT
        (latencies (entries.filter (queried metrics fromBucket toBucket))) := by
  refine List.ext_getElem ?_ fun cell isCell _inRange => ?_
  · rw [length_mergedHistogram, Histogram.length_cells]
  · have inRange : cell < HISTOGRAM_BUCKET_COUNT := length_mergedHistogram _ ▸ isCell
    have counted := sum_query metrics fromBucket toBucket (additive_cellCount (C := C) inRange)
      (fun _key _rollup shaped => shaped.key) (fun rollup => getD_normalizeHistogram rollup.histogram inRange)
      (fun _metric _bucketStart => true) parts
    rw [List.filter_eq_self.mpr fun _ _ => rfl, List.filter_eq_self.mpr fun _ _ => rfl, sum_latencyIn,
      ← getD_mergedHistogram _ inRange, List.getD_eq_getElem?_getD, List.getElem?_eq_getElem isCell] at counted
    refine counted.trans ?_
    simp only [Histogram.cells, List.getElem_map, List.getElem_range]

/-- The merged maximum is the greatest of the durations, if there are some and none is
negative. -/
theorem mergedMax_query
    (nonnegative : forall durationMs,
      durationMs ∈ latencies (entries.filter (queried metrics fromBucket toBucket)) -> 0 ≤ durationMs)
    (some : latencies (entries.filter (queried metrics fromBucket toBucket)) ≠ []) :
    let greatest := mergedMax (queryRollups (recordBatches Grouping.empty batches) metrics fromBucket toBucket)
    greatest ∈ latencies (entries.filter (queried metrics fromBucket toBucket)) ∧
      forall durationMs,
        durationMs ∈ latencies (entries.filter (queried metrics fromBucket toBucket)) -> durationMs ≤ greatest := by
  intro greatest
  have peaks := ofRollups_query metrics fromBucket toBucket (fun _metric _bucketStart => true) parts
  rw [List.filter_eq_self.mpr fun _ _ => rfl, List.filter_eq_self.mpr fun _ _ => rfl] at peaks
  have isGreatest := coe_mergedMax (queryRollups (recordBatches Grouping.empty batches) metrics fromBucket toBucket)
  rw [peaks] at isGreatest
  generalize entries.filter (queried metrics fromBucket toBucket) = covered at *
  have most : forall durationMs, durationMs ∈ latencies covered -> durationMs ≤ greatest := by
    intro durationMs member
    rcases List.mem_filterMap.mp member with ⟨entry, isCovered, isDuration⟩
    have below : (Point.ofEntry entry).peak ≤ (Point.ofEntries covered).peak :=
      Point.peak_le (List.mem_map_of_mem isCovered)
    have isPeak : (Point.ofEntry entry).peak = ((durationMs : Rat) : WithBot Rat) := by
      rw [Point.ofEntry, durationOf, isDuration]
      rfl
    rw [isPeak] at below
    exact WithBot.coe_le_coe.mp (isGreatest ▸ below.trans le_sup_right)
  refine ⟨?_, most⟩
  -- Zero is the greatest only where it is a duration: none is negative.
  have zero : greatest = 0 -> greatest ∈ latencies covered := by
    intro isZero
    rcases List.exists_mem_of_ne_nil _ some with ⟨durationMs, member⟩
    have same : durationMs = greatest := le_antisymm (most _ member) (isZero.le.trans (nonnegative _ member))
    exact same ▸ member
  rcases le_total (Point.ofEntries covered).peak ((0 : Rat) : WithBot Rat) with below | above
  · rw [sup_eq_left.mpr below] at isGreatest
    exact zero (WithBot.coe_injective isGreatest)
  · rw [sup_eq_right.mpr above] at isGreatest
    rcases Point.peak_sum (covered.map Point.ofEntry) with none | ⟨point, member, isPeak⟩
    · exact absurd (isGreatest.trans none) (WithBot.coe_ne_bot)
    · rcases List.mem_map.mp member with ⟨entry, isCovered, rfl⟩
      have same : greatest = durationOf entry := WithBot.coe_injective (isGreatest.trans isPeak)
      cases duration : entry.durationMs with
      | none => exact zero (same.trans (by rw [durationOf, duration]; rfl))
      | some durationMs =>
          have isDuration : durationOf entry = durationMs := by rw [durationOf, duration]; rfl
          rw [same, isDuration]
          exact List.mem_filterMap.mpr ⟨entry, isCovered, duration⟩

/-- The estimate of a fraction, for a histogram of some samples and the greatest of them. -/
def estimateOf (samples : List Rat) (greatest fraction : Rat) : Rat :=
  min (histogramCell (Histogram.cells histogramBucketIndex HISTOGRAM_BUCKET_COUNT samples) 0 0
    (targetRank samples.length fraction) : Nat) greatest

omit parts in
theorem sum_latencyCells (samples : List Rat) :
    (Histogram.cells histogramBucketIndex HISTOGRAM_BUCKET_COUNT samples).sum = samples.length :=
  Histogram.sum_cells fun sample _member => Nat.lt_succ_of_le (histogramBucketIndex_le sample)

/-- Rollups with samples estimate from their histogram and the greatest of them; rollups
without samples estimate nothing. -/
theorem estimatePercentile_query
    (fraction : Rat) :
    estimatePercentile (queryRollups (recordBatches Grouping.empty batches) metrics fromBucket toBucket) fraction =
      if latencies (entries.filter (queried metrics fromBucket toBucket)) = [] then none
      else
        some (estimateOf (latencies (entries.filter (queried metrics fromBucket toBucket)))
          (mergedMax (queryRollups (recordBatches Grouping.empty batches) metrics fromBucket toBucket)) fraction) := by
  have normal : normalizeHistogram (Histogram.cells histogramBucketIndex HISTOGRAM_BUCKET_COUNT
      (latencies (entries.filter (queried metrics fromBucket toBucket)))) =
        Histogram.cells histogramBucketIndex HISTOGRAM_BUCKET_COUNT
          (latencies (entries.filter (queried metrics fromBucket toBucket))) := by
    refine List.ext_getElem ?_ fun cell isCell inRange => ?_
    · rw [length_normalizeHistogram, Histogram.length_cells]
    · have same := getD_normalizeHistogram (Histogram.cells histogramBucketIndex HISTOGRAM_BUCKET_COUNT
        (latencies (entries.filter (queried metrics fromBucket toBucket))))
        (length_normalizeHistogram _ ▸ isCell)
      rwa [List.getD_eq_getElem?_getD, List.getD_eq_getElem?_getD, List.getElem?_eq_getElem isCell,
        List.getElem?_eq_getElem inRange] at same
  rw [estimatePercentile, mergedHistogram_query metrics fromBucket toBucket parts, sum_latencyCells,
    estimatePercentileFromHistogram, normal, sum_latencyCells]
  by_cases none : latencies (entries.filter (queried metrics fromBucket toBucket)) = []
  · rw [if_pos none, none]
    rfl
  · have some : (latencies (entries.filter (queried metrics fromBucket toBucket))).length ≠ 0 :=
      fun zero => none (List.length_eq_zero_iff.mp zero)
    simp only [if_neg none, if_neg some]
    rfl

end Window

/-! ## Estimates against samples -/

section Samples

variable {samples : List Rat} {greatest : Rat}

theorem targetRank_eq {fraction : Rat} (positive : 0 < fraction) (atMost : fraction ≤ 1) (total : Nat) :
    targetRank total fraction = (max 1 ⌈Number.nearest (fraction * total)⌉).toNat := by
  rw [targetRank, max_eq_right positive.le, min_eq_right atMost]

theorem targetRank_pos (total : Nat) (fraction : Rat) : 1 ≤ targetRank total fraction := by
  rw [targetRank]
  omega

theorem targetRank_mono (total : Nat) {fraction other : Rat} (atMost : fraction ≤ other) :
    targetRank total fraction ≤ targetRank total other := by
  have bounded : min 1 (max 0 fraction) * total ≤ min 1 (max 0 other) * (total : Rat) :=
    mul_le_mul_of_nonneg_right (min_le_min_left _ (max_le_max_left _ atMost)) (Nat.cast_nonneg total)
  have ceilings := Int.ceil_le_ceil (Number.nearest_mono bounded)
  rw [targetRank, targetRank]
  omega

/-- The percentile by nearest rank is the sample of the rank, or the last one. -/
theorem percentileOf_eq {sortedAscending : List Rat} {fraction : Rat} (positive : 0 < fraction)
    (atMost : fraction ≤ 1) :
    percentileOf sortedAscending fraction =
      (sortedAscending[min (sortedAscending.length - 1) (targetRank sortedAscending.length fraction - 1)]?).getD 0 := by
  rw [percentileOf, targetRank_eq positive atMost]
  congr 2
  omega

/-- The greatest sample is the last one. -/
theorem last_of_ascending (isGreatest : greatest ∈ samples) (most : forall sample, sample ∈ samples -> sample ≤ greatest) :
    (ascending samples)[(ascending samples).length - 1]? = some greatest := by
  have perm := List.perm_insertionSort (· ≤ ·) samples
  have sorted : (ascending samples).Pairwise (· ≤ ·) := List.pairwise_insertionSort (· ≤ ·) samples
  have member : greatest ∈ ascending samples := perm.mem_iff.mpr isGreatest
  have inRange : (ascending samples).length - 1 < (ascending samples).length := by
    have some := List.length_pos_of_mem member
    omega
  rw [List.getElem?_eq_getElem inRange]
  refine congrArg some (le_antisymm (most _ (perm.mem_iff.mp (List.getElem_mem _))) ?_)
  rcases List.mem_iff_getElem.mp member with ⟨place, isPlace, same⟩
  rw [← same]
  rcases Nat.lt_or_ge place ((ascending samples).length - 1) with before | atLast
  · exact List.pairwise_iff_getElem.mp sorted _ _ _ _ before
  · have isLast : place = (ascending samples).length - 1 := by omega
    exact le_of_eq (by congr 1)

/-- Where the percentile by nearest rank is not in the overflow cell, the estimate is in
its cell. -/
theorem cell_estimateOf (isGreatest : greatest ∈ samples)
    (most : forall sample, sample ∈ samples -> sample ≤ greatest) {fraction : Rat} (positive : 0 < fraction)
    (atMost : fraction ≤ 1)
    (bounded : histogramBucketIndex (percentileOf (ascending samples) fraction) ≠ OVERFLOW) :
    histogramBucketIndex (estimateOf samples greatest fraction) =
      histogramBucketIndex (percentileOf (ascending samples) fraction) := by
  have perm := List.perm_insertionSort (· ≤ ·) samples
  have length : (ascending samples).length = samples.length := perm.length_eq
  have some : 0 < samples.length := List.length_pos_of_mem isGreatest
  have rankPositive := targetRank_pos samples.length fraction
  have cells : Histogram.cells histogramBucketIndex HISTOGRAM_BUCKET_COUNT samples =
      Histogram.cells histogramBucketIndex HISTOGRAM_BUCKET_COUNT (ascending samples) :=
    (Histogram.cells_perm perm _).symm
  rw [percentileOf_eq positive atMost, length] at bounded ⊢
  rw [estimateOf, cells, histogramCell_eq]
  have strict : forall {cell : Nat}, cell ≠ OVERFLOW -> cell ≤ OVERFLOW -> cell < OVERFLOW :=
    fun different atMost => lt_of_le_of_ne atMost different
  rcases Nat.lt_or_ge samples.length (targetRank samples.length fraction) with beyond | within
  · -- The product was rounded past the last rank: both are the greatest sample.
    have last := last_of_ascending isGreatest most
    rw [length] at last
    rw [Nat.min_eq_left (by omega), last] at bounded ⊢
    rw [Histogram.locate_eq_none (by rw [sum_latencyCells, length]; omega)]
    have below := le_upperBoundary (strict bounded (histogramBucketIndex_le greatest))
    have finite := upperBoundary_mono (histogramBucketIndex_le greatest)
    rw [upperBoundary_of_overflow (Nat.le_refl OVERFLOW)] at finite
    have small : greatest ≤ ((10000 : Nat) : Rat) := below.trans (by exact_mod_cast finite)
    change histogramBucketIndex (min ((10000 : Nat) : Rat) greatest) = _
    rw [min_eq_right small]
    rfl
  · rw [Nat.min_eq_right (by omega)] at bounded ⊢
    have inRange : targetRank samples.length fraction - 1 < (ascending samples).length := by omega
    rw [List.getElem?_eq_getElem inRange] at bounded ⊢
    generalize isSample : (ascending samples)[targetRank samples.length fraction - 1] = sample at bounded ⊢
    have found := @Histogram.locate_cells Rat histogramBucketIndex HISTOGRAM_BUCKET_COUNT (ascending samples)
      (fun other _member => Nat.lt_succ_of_le (histogramBucketIndex_le other))
      ((List.pairwise_insertionSort (· ≤ ·) samples).imp histogramBucketIndex_mono) _ _
      ((List.getElem?_eq_getElem inRange).trans (congrArg Option.some isSample))
    rw [Nat.sub_add_cancel rankPositive] at found
    rw [found]
    change histogramBucketIndex (min ((upperBoundary (0 + histogramBucketIndex sample) : Nat) : Rat) greatest) =
      histogramBucketIndex sample
    rw [Nat.zero_add]
    have isBounded := strict bounded (histogramBucketIndex_le sample)
    have sampleLe : sample ≤ greatest := most sample (perm.mem_iff.mp (isSample ▸ List.getElem_mem inRange))
    refine histogramBucketIndex_eq isBounded (fun earlier before => ?_) (min_le_left _ _)
    refine lt_min ?_ ((upperBoundary_lt before).trans_le sampleLe)
    exact (upperBoundary_lt before).trans_le (le_upperBoundary isBounded)

theorem estimateOf_mono (samples : List Rat) (greatest : Rat) {fraction other : Rat} (atMost : fraction ≤ other) :
    estimateOf samples greatest fraction ≤ estimateOf samples greatest other := by
  have cells := histogramCell_mono (targetRank_mono samples.length atMost)
    (Histogram.cells histogramBucketIndex HISTOGRAM_BUCKET_COUNT samples) 0 0
  exact min_le_min_right _ (by exact_mod_cast cells)

end Samples

/-- What an estimate has in common with the percentiles of samples by nearest rank. -/
structure EstimatesPercentiles (samples : List Rat) (estimate : Rat -> Rat) : Prop where
  sameCell : forall fraction, 0 < fraction -> fraction ≤ 1 ->
    histogramBucketIndex (percentileOf (ascending samples) fraction) ≠ OVERFLOW ->
      histogramBucketIndex (estimate fraction) =
        histogramBucketIndex (percentileOf (ascending samples) fraction)
  atMost : Exists fun greatest => greatest ∈ samples ∧ (forall sample, sample ∈ samples -> sample ≤ greatest) ∧
    forall fraction, estimate fraction ≤ greatest
  mono : forall fraction other, fraction ≤ other -> estimate fraction ≤ estimate other

/-- The rollups of a window estimate the percentiles of its durations: the estimate of any
fraction is in the cell of the percentile, unless that is the overflow cell, never above the
greatest duration, and no less than that of a smaller fraction. -/
theorem estimates_percentiles (batches : List (List (Entry C))) (metrics : List Text) (fromBucket toBucket : Int)
    (nonnegative : forall durationMs,
      durationMs ∈ latencies (batches.flatten.filter (queried metrics fromBucket toBucket)) -> 0 ≤ durationMs) :
    let rollups := queryRollups (recordBatches Grouping.empty batches) metrics fromBucket toBucket
    let samples := latencies (batches.flatten.filter (queried metrics fromBucket toBucket))
    (samples = [] -> forall fraction, estimatePercentile rollups fraction = none) ∧
      (samples ≠ [] -> Exists fun estimate : Rat -> Rat =>
        (forall fraction, estimatePercentile rollups fraction = some (estimate fraction)) ∧
          EstimatesPercentiles samples estimate) := by
  intro rollups samples
  have estimated := @estimatePercentile_query C metrics fromBucket toBucket _ batches (List.Perm.refl _)
  constructor
  · intro none fraction
    exact (estimated fraction).trans (if_pos none)
  · intro some
    rcases mergedMax_query metrics fromBucket toBucket (List.Perm.refl batches.flatten) nonnegative some with
      ⟨isGreatest, most⟩
    refine ⟨estimateOf samples (mergedMax rollups), fun fraction => (estimated fraction).trans (if_neg some), ?_⟩
    exact
      { sameCell := fun fraction positive atMost => cell_estimateOf isGreatest most positive atMost
        atMost := ⟨mergedMax rollups, isGreatest, most, fun fraction => min_le_right _ _⟩
        mono := fun fraction other => estimateOf_mono samples (mergedMax rollups) }

/-- A request of one millisecond. -/
theorem estimates_percentiles_request :
    Exists fun estimate : Rat -> Rat =>
      (forall fraction,
        estimatePercentile
            (queryRollups (recordBatches Grouping.empty [[minuteEntry "request".toList 0]]) ["request".toList] 0 0)
            fraction = some (estimate fraction)) ∧
        EstimatesPercentiles
          (latencies ([[minuteEntry "request".toList 0]].flatten.filter (queried ["request".toList] 0 0))) estimate :=
  (estimates_percentiles [[minuteEntry "request".toList 0]] ["request".toList] 0 0 (by decide +kernel)).2
    (by decide +kernel)

end Rollup
end Telescope
