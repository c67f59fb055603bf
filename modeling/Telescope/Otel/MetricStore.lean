import Mathlib.Data.List.Sort
import Telescope.Core.Value
import Telescope.Foundation.Grouping
import Telescope.Foundation.NumberLine

namespace Telescope
namespace Otel

/-!
# The metric store

Samples are counted in memory for the scrape of a Prometheus server.  A series is found by
its labels as they are printed.  A metric has no more series than a cap; samples that would
open another one are counted as dropped.
-/

/-- A record of labels, in the order of its keys. -/
abbrev Labels := List (Units × Units)

structure MetricSample where
  counter : Units
  labels : Labels
  durationMs : Option Number
  durationMetric : Option Units := none

structure MetricStoreOptions where
  maxSeriesPerMetric : Option Nat := none
  durationBucketsMs : Option (List Rat) := none

structure CounterSeries where
  labels : Labels
  count : Nat

/-- There is a bucket for each of the bounds. -/
structure HistogramSeries where
  labels : Labels
  sum : Number
  count : Nat
  buckets : List Nat

structure MetricStore where
  counters : Grouping Units (Grouping Units CounterSeries)
  histograms : Grouping Units (Grouping Units HistogramSeries)
  dropped : Grouping Units Nat
  maxSeries : Nat
  bounds : List Rat

def DEFAULT_DURATION_BUCKETS_MS : List Rat := [5, 10, 25, 50, 100, 250, 500, 1000, 2500, 5000, 10000]

/-! ## Labels -/

/-- `text.replace(/unit/g, by)`. -/
def replaceAll (unit : Text.CodeUnit) (by' text : Units) : Units :=
  text.flatMap fun other => if other = unit then by' else [other]

def escapeLabelValue (value : Units) : Units :=
  replaceAll 10 (units "\\n") (replaceAll 34 (units "\\\"") (replaceAll 92 (units "\\\\") value))

/-- Labels with something in them. -/
def visible (labels : Labels) : Labels := labels.filter fun label => decide (label.2 ≠ [])

def labelParts (labels : Labels) : List Units :=
  labels.map fun label => label.1 ++ units "=\"" ++ escapeLabelValue label.2 ++ units "\""

def joinParts (parts : List Units) : Units := units "\x7b" ++ (units ",").intercalate parts ++ units "\x7d"

def serializeLabels (labels : Labels) : Units :=
  let parts := labelParts (visible labels)
  if parts.length ≠ 0 then joinParts parts else []

/-- The labels and one more, in braces in any case. -/
def labelsWith (labels : Labels) (extraKey extraVal : Units) : Units :=
  joinParts (labelParts (visible labels) ++ labelParts [(extraKey, extraVal)])

/-! ## Samples -/

def CounterSeries.add (cell : CounterSeries) : CounterSeries := { cell with count := cell.count + 1 }

def HistogramSeries.add (bounds : List Rat) (cell : HistogramSeries) (value : Number) : HistogramSeries where
  labels := cell.labels
  sum := cell.sum.add value
  count := cell.count + 1
  buckets := List.zipWith (fun bound count => if value.le (.finite bound) then count + 1 else count) bounds cell.buckets

namespace MetricStore

def new (options : MetricStoreOptions) : MetricStore where
  counters := .empty
  histograms := .empty
  dropped := .empty
  maxSeries := options.maxSeriesPerMetric.getD 2000
  bounds := (options.durationBucketsMs.getD DEFAULT_DURATION_BUCKETS_MS).insertionSort (· ≤ ·)

def drop (store : MetricStore) (metric : Units) : MetricStore :=
  { store with dropped := store.dropped.upsert metric 1 (· + 1) }

/-- Count the sample in its series, or else drop it; the metric is there in any case. -/
def register {ν : Type} (maxSeries : Nat) (metrics : Grouping Units (Grouping Units ν)) (metric labelKey : Units)
    (first : ν) (change : ν -> ν) : Grouping Units (Grouping Units ν) :=
  metrics.upsert metric (Grouping.empty.upsertCapped maxSeries labelKey first change)
    fun series => series.upsertCapped maxSeries labelKey first change

/-- Whether the metric has no series for the labels, and no room for one. -/
def refuses {ν : Type} (maxSeries : Nat) (metrics : Grouping Units (Grouping Units ν)) (metric labelKey : Units) : Bool :=
  let series := (metrics.lookup metric).getD .empty
  (series.lookup labelKey).isNone && decide (maxSeries ≤ series.groups.length)

def addCounter (store : MetricStore) (metric labelKey : Units) (labels : Labels) : MetricStore :=
  let new : CounterSeries := ⟨labels, 0⟩
  let counters := register store.maxSeries store.counters metric labelKey new.add CounterSeries.add
  let counted := { store with counters }
  if refuses store.maxSeries store.counters metric labelKey then counted.drop metric else counted

def addHistogram (store : MetricStore) (metric labelKey : Units) (labels : Labels) (value : Number) : MetricStore :=
  let new : HistogramSeries := ⟨labels, .finite 0, 0, List.replicate store.bounds.length 0⟩
  let histograms := register store.maxSeries store.histograms metric labelKey (new.add store.bounds value)
    fun cell => cell.add store.bounds value
  let counted := { store with histograms }
  if refuses store.maxSeries store.histograms metric labelKey then counted.drop metric else counted

def add (store : MetricStore) (sample : MetricSample) : MetricStore :=
  let labelKey := serializeLabels sample.labels
  let counted := store.addCounter sample.counter labelKey sample.labels
  match sample.durationMetric, sample.durationMs with
  | some metric, some value =>
      if metric ≠ [] then counted.addHistogram metric labelKey sample.labels value else counted
  | _, _ => counted

/-- The store after samples. -/
def run (options : MetricStoreOptions) (samples : List MetricSample) : MetricStore := samples.foldl add (new options)

/-! ## The scrape -/

def DROPPED_METRIC : Units := units "telescope_metrics_dropped_series_total"

def counterLines (metric : Units) (series : Grouping Units CounterSeries) : List Units :=
  (units "# HELP " ++ metric ++ units " Telescope counter.") ::
    (units "# TYPE " ++ metric ++ units " counter") ::
    series.values.map fun cell => metric ++ serializeLabels cell.labels ++ units " " ++ Number.digits cell.count

def seriesLines (bounds : List Rat) (metric : Units) (cell : HistogramSeries) : List Units :=
  List.zipWith (fun bound count => metric ++ units "_bucket" ++
      labelsWith cell.labels (units "le") (Number.text (.finite bound)) ++ units " " ++ Number.digits count)
    bounds cell.buckets ++
  [metric ++ units "_bucket" ++ labelsWith cell.labels (units "le") (units "+Inf") ++ units " " ++ Number.digits cell.count,
    metric ++ units "_sum" ++ serializeLabels cell.labels ++ units " " ++ Number.text cell.sum,
    metric ++ units "_count" ++ serializeLabels cell.labels ++ units " " ++ Number.digits cell.count]

def histogramLines (bounds : List Rat) (metric : Units) (series : Grouping Units HistogramSeries) : List Units :=
  (units "# HELP " ++ metric ++ units " Telescope duration histogram (milliseconds).") ::
    (units "# TYPE " ++ metric ++ units " histogram") ::
    series.values.flatMap (seriesLines bounds metric)

def droppedLines (dropped : Grouping Units Nat) : List Units :=
  if dropped.groups.length = 0 then []
  else
    (units "# HELP " ++ DROPPED_METRIC ++
        units " Samples dropped because their metric hit the per-metric cardinality cap.") ::
      (units "# TYPE " ++ DROPPED_METRIC ++ units " counter") ::
      dropped.groups.map fun drop => DROPPED_METRIC ++ units "\x7bmetric=\"" ++ escapeLabelValue drop.1 ++
        units "\"\x7d " ++ Number.digits drop.2

def prometheus (store : MetricStore) : Units :=
  let out := store.counters.groups.flatMap (fun entry => counterLines entry.1 entry.2) ++
    store.histograms.groups.flatMap (fun entry => histogramLines store.bounds entry.1 entry.2) ++
    droppedLines store.dropped
  if out.length ≠ 0 then (units "\n").intercalate out ++ units "\n" else []

end MetricStore
end Otel
end Telescope
