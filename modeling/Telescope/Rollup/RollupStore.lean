import Mathlib.Algebra.Order.Ring.Unbundled.Rat
import Telescope.Core.StorageProvider
import Telescope.Foundation.Grouping

namespace Telescope
namespace Rollup

/-!
# Rollups

A batch of entries is folded into deltas, one for each type and minute; the in-memory
store merges deltas into its buckets.  Both keep a map under the text of the type, a
bar and the number of the minute's first millisecond.  Sums of durations are exact, as
those of integers are.
-/

/-- One minute is the base rollup granularity. -/
def ROLLUP_BUCKET_MS : Int := 60000

/-- The inclusive upper boundaries of the latency histogram. -/
def LATENCY_BOUNDARIES_MS : List Nat := [1, 2, 5, 10, 25, 50, 100, 250, 500, 1000, 2500, 5000, 10000]

def HISTOGRAM_BUCKET_COUNT : Nat := LATENCY_BOUNDARIES_MS.length + 1

def emptyHistogram : List Nat := List.replicate HISTOGRAM_BUCKET_COUNT 0

/-- The first boundary that the duration does not exceed, else the overflow index. -/
def histogramBucketIndex (durationMs : Rat) : Nat :=
  LATENCY_BOUNDARIES_MS.findIdx fun boundary => decide (durationMs ≤ boundary)

def incrementHistogram (histogram : List Nat) (durationMs : Rat) : List Nat :=
  histogram.modify (histogramBucketIndex durationMs) (· + 1)

def normalizeHistogram (histogram : List Nat) : List Nat :=
  (List.range HISTOGRAM_BUCKET_COUNT).map fun index => histogram.getD index 0

def mergeHistograms (target addend : List Nat) : List Nat :=
  List.zipWith (· + ·) (normalizeHistogram target) (normalizeHistogram addend)

theorem length_normalizeHistogram (histogram : List Nat) :
    (normalizeHistogram histogram).length = HISTOGRAM_BUCKET_COUNT := by
  rw [normalizeHistogram, List.length_map, List.length_range]

theorem getD_normalizeHistogram (histogram : List Nat) {cell : Nat} (inRange : cell < HISTOGRAM_BUCKET_COUNT) :
    (normalizeHistogram histogram).getD cell 0 = histogram.getD cell 0 := by
  rw [normalizeHistogram, List.getD_eq_getElem?_getD, List.getElem?_map, List.getElem?_range inRange]
  rfl

theorem length_mergeHistograms (target addend : List Nat) :
    (mergeHistograms target addend).length = HISTOGRAM_BUCKET_COUNT := by
  rw [mergeHistograms, List.length_zipWith, length_normalizeHistogram, length_normalizeHistogram, Nat.min_self]

theorem getD_mergeHistograms (target addend : List Nat) {cell : Nat} (inRange : cell < HISTOGRAM_BUCKET_COUNT) :
    (mergeHistograms target addend).getD cell 0 = target.getD cell 0 + addend.getD cell 0 := by
  rw [← getD_normalizeHistogram target inRange, ← getD_normalizeHistogram addend inRange, mergeHistograms]
  have left : cell < (normalizeHistogram target).length := (length_normalizeHistogram target).symm ▸ inRange
  have right : cell < (normalizeHistogram addend).length := (length_normalizeHistogram addend).symm ▸ inRange
  rw [List.getD_eq_getElem?_getD, List.getElem?_zipWith, List.getD_eq_getElem?_getD, List.getD_eq_getElem?_getD,
    List.getElem?_eq_getElem left, List.getElem?_eq_getElem right]
  rfl

/-- The start of the minute of a time. -/
def floorToBucket (epochMs : Int) : Int := epochMs / ROLLUP_BUCKET_MS * ROLLUP_BUCKET_MS

/-- An additive aggregate for a metric and a minute. -/
structure RollupDelta where
  metric : Text
  bucketStart : Int
  count : Nat
  sum : Rat
  max : Rat
  histogram : List Nat

/-- A bucket of the store has the fields of a delta. -/
abbrev RollupBucket := RollupDelta

/-- The key of a group. -/
def rollupKey (metric : Text) (bucketStart : Int) : Text := metric ++ '|' :: Decimal.ofInt bucketStart

variable {C : Type*}

/-! ## Deltas of a batch -/

def bucketOf (entry : Entry C) : Int := floorToBucket entry.createdAt

def durationOf (entry : Entry C) : Rat := entry.durationMs.getD 0

def countLatency (histogram : List Nat) (entry : Entry C) : List Nat :=
  match entry.durationMs with
  | none => histogram
  | some durationMs => incrementHistogram histogram durationMs

def deltaGroups : Grouping.Gathering (Entry C) Text RollupDelta where
  key entry := rollupKey entry.type (bucketOf entry)
  first entry :=
    { metric := entry.type
      bucketStart := bucketOf entry
      count := 1
      sum := durationOf entry
      max := durationOf entry
      histogram := countLatency emptyHistogram entry }
  change existing entry :=
    { existing with
      count := existing.count + 1
      sum := existing.sum + durationOf entry
      max := max existing.max (durationOf entry)
      histogram := countLatency existing.histogram entry }

def aggregateDeltas (entries : List (Entry C)) : List RollupDelta :=
  (Grouping.empty.gather deltaGroups entries).values

/-! ## The in-memory store -/

/-- The buckets of the store by their keys. -/
abbrev Rollups := Grouping Text RollupBucket

def bucketGroups : Grouping.Gathering RollupDelta Text RollupBucket where
  key delta := rollupKey delta.metric delta.bucketStart
  first delta := { delta with histogram := normalizeHistogram delta.histogram }
  change existing delta :=
    { existing with
      count := existing.count + delta.count
      sum := existing.sum + delta.sum
      max := max existing.max delta.max
      histogram := mergeHistograms existing.histogram delta.histogram }

def recordRollups (rollups : Rollups) (deltas : List RollupDelta) : Rollups :=
  rollups.gather bucketGroups deltas

/-- The buckets of the metrics whose minutes are in a range. -/
def queryRollups (rollups : Rollups) (metrics : List Text) (fromBucket toBucket : Int) :
    List RollupBucket :=
  (rollups.values.filter fun bucket =>
    decide (bucket.metric ∈ metrics ∧ fromBucket ≤ bucket.bucketStart ∧ bucket.bucketStart ≤ toBucket)).map
      fun bucket => { bucket with histogram := normalizeHistogram bucket.histogram }

/-- Store the deltas of one flush batch after another. -/
def recordBatches (rollups : Rollups) (batches : List (List (Entry C))) : Rollups :=
  batches.foldl (fun rollups batch => recordRollups rollups (aggregateDeltas batch)) rollups

end Rollup
end Telescope
