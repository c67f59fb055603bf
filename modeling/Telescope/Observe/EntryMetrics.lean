import Telescope.Core.Json
import Telescope.Core.CapturedEntry
import Telescope.Foundation.Grouping
import Telescope.Foundation.NumberLine

namespace Telescope
namespace Observe

/-!
# Entry metrics

Every recorded entry is counted under its type and whether it failed, and its duration
goes into the summary of its type.  Counters are cumulative and also tell what was added
since the last collect; a summary describes the interval alone, with quantiles of a
reservoir.  Both kinds of series are made on demand, up to a ceiling.
-/

/-- A record of numbers, in the order of its keys. -/
abbrev NumberRecord := List (Units × Number)

inductive MetricKind
  | counter
  | gauge
  | summary
  deriving DecidableEq

/-- One custom metric; its numbers are keyed by label. -/
structure WireCustomMetric where
  n : Units
  t : MetricKind
  v : NumberRecord
  iv : Option NumberRecord := none
  q50 : Option NumberRecord := none
  q95 : Option NumberRecord := none
  q99 : Option NumberRecord := none
  ct : Option NumberRecord := none
  sm : Option NumberRecord := none
  mx : Option NumberRecord := none
  l : List Units
  d : Units
  lu : Number

/-- `labelKey(labels)`: the labels by name, as JSON. -/
def labelKey (labels : List (Units × Units)) : Units :=
  let sorted := labels.insertionSort fun left right => ¬ right.1 < left.1
  units "\x7b" ++ [44].intercalate (sorted.map fun label => Json.quote label.1 ++ 58 :: Json.quote label.2) ++ units "\x7d"

def counterKey (type : Units) (failed : Bool) : Units :=
  labelKey [(units "failed", if failed then units "true" else units "false"), (units "type", type)]

def summaryKey (type : Units) : Units := labelKey [(units "type", type)]

def COUNTER_NAME : Units := units "telescope.entries"

def SUMMARY_NAME : Units := units "telescope.duration_ms"

def DEFAULT_MAX_SERIES_PER_METRIC : Nat := 1000

def DEFAULT_SAMPLE_SIZE : Nat := 512

structure EntryMetricsOptions where
  maxSeriesPerMetric : Option Number := none
  sampleSize : Option Number := none

/-- One counter series. -/
structure CounterCell where
  key : Units
  total : Nat
  sinceCollect : Nat

/-- Both counters of an entry type. -/
structure CounterPair where
  ok : Option CounterCell
  failed : Option CounterCell

/-- One summary series; its sum is rounded like any sum of doubles. -/
structure SummaryCell where
  key : Units
  count : Nat
  sum : Number
  max : Number
  reservoir : List Rat

namespace CounterPair

def empty : CounterPair := ⟨none, none⟩

def cell (pair : CounterPair) (failed : Bool) : Option CounterCell := if failed then pair.failed else pair.ok

def setCell (pair : CounterPair) (failed : Bool) (cell : CounterCell) : CounterPair :=
  if failed then { pair with failed := some cell } else { pair with ok := some cell }

/-- The counters there are, in the order in which they are drained. -/
def cells (pair : CounterPair) : List CounterCell := pair.ok.toList ++ pair.failed.toList

/-- After both counters were drained. -/
def drained (pair : CounterPair) : CounterPair where
  ok := pair.ok.map fun cell => { cell with sinceCollect := 0 }
  failed := pair.failed.map fun cell => { cell with sinceCollect := 0 }

end CounterPair

/-- `Math.floor(Math.random() * (count + 1))`. -/
def reservoirIndex (random : Rat) (count : Nat) : Nat :=
  match Number.round (random * (count + 1)) with
  | .finite product => ⌊product⌋.toNat
  | _ => 0

namespace SummaryCell

def new (type : Units) : SummaryCell := ⟨summaryKey type, 0, .finite 0, .infinity true, []⟩

/-- Algorithm R, over the observations of the interval. -/
def observe (sampleSize : Nat) (random value : Rat) (cell : SummaryCell) : SummaryCell where
  key := cell.key
  count := cell.count + 1
  sum := cell.sum.add (.finite value)
  max := if cell.max.lt (.finite value) then .finite value else cell.max
  reservoir :=
    if cell.reservoir.length < sampleSize then cell.reservoir ++ [value]
    else if reservoirIndex random cell.count < sampleSize then
      cell.reservoir.set (reservoirIndex random cell.count) value
    else cell.reservoir

/-- A cell that nothing was put into since the last collect is left as it is. -/
def drained (cell : SummaryCell) : SummaryCell :=
  if cell.count = 0 then cell else ⟨cell.key, 0, .finite 0, .infinity true, []⟩

end SummaryCell

structure EntryMetrics where
  maxSeriesPerMetric : Nat
  sampleSize : Nat
  counters : Grouping Units CounterPair
  summaries : Grouping Units SummaryCell
  counterSeries : Nat
  summarySeries : Nat
  dropped : Nat

namespace EntryMetrics

/-- A positive option, rounded down. -/
def positive (value : Option Number) (fallback : Nat) : Nat :=
  match value with
  | some (.finite value) => if 0 < value then ⌊value⌋.toNat else fallback
  | _ => fallback

/-- The collector validates every number. -/
def safe (value : Number) : Number := if value.isFinite then value else .finite 0

def new (options : EntryMetricsOptions) : EntryMetrics where
  maxSeriesPerMetric := positive options.maxSeriesPerMetric DEFAULT_MAX_SERIES_PER_METRIC
  sampleSize := positive options.sampleSize DEFAULT_SAMPLE_SIZE
  counters := .empty
  summaries := .empty
  counterSeries := 0
  summarySeries := 0
  dropped := 0

/-! ## Observing -/

def drop (metrics : EntryMetrics) : EntryMetrics := { metrics with dropped := metrics.dropped + 1 }

/-- Put a counter into the pair of its type. -/
def putCounter (metrics : EntryMetrics) (type : Units) (failed : Bool) (cell : CounterCell) : EntryMetrics :=
  { metrics with
    counters := metrics.counters.upsert type (CounterPair.empty.setCell failed cell)
      fun pair => pair.setCell failed cell }

/-- The counter of a type. -/
def counter (metrics : EntryMetrics) (type : Units) (failed : Bool) : Option CounterCell :=
  (metrics.counters.lookup type).bind fun pair => pair.cell failed

def count (metrics : EntryMetrics) (type : Units) (failed : Bool) : EntryMetrics :=
  match metrics.counter type failed with
  | some cell =>
      metrics.putCounter type failed
        { cell with total := cell.total + 1, sinceCollect := cell.sinceCollect + 1 }
  | none =>
      if metrics.maxSeriesPerMetric ≤ metrics.counterSeries then metrics.drop
      else
        { metrics.putCounter type failed ⟨counterKey type failed, 1, 1⟩ with
          counterSeries := metrics.counterSeries + 1 }

def putSummary (metrics : EntryMetrics) (type : Units) (random value : Rat) : EntryMetrics :=
  { metrics with
    summaries := metrics.summaries.upsert type
      (SummaryCell.observe metrics.sampleSize random value (SummaryCell.new type))
      (SummaryCell.observe metrics.sampleSize random value) }

def observeDuration (metrics : EntryMetrics) (type : Units) (random value : Rat) : EntryMetrics :=
  match metrics.summaries.lookup type with
  | some _cell => metrics.putSummary type random value
  | none =>
      if metrics.maxSeriesPerMetric ≤ metrics.summarySeries then metrics.drop
      else { metrics.putSummary type random value with summarySeries := metrics.summarySeries + 1 }

def observe (metrics : EntryMetrics) (input : RecordInput) (random : Rat) : EntryMetrics :=
  let counted := metrics.count input.type (isErrorEntry input.tags input.content)
  match input.durationMs with
  | some (.finite duration) => counted.observeDuration input.type random duration
  | _ => counted

/-! ## Collecting -/

/-- One number of every cell, by its key. -/
def record {C : Type} (key : C -> Units) (value : C -> Number) (cells : List C) : NumberRecord :=
  cells.foldl (fun record cell => Fields.assign record (key cell) (value cell)) []

def counterCells (metrics : EntryMetrics) : List CounterCell := metrics.counters.values.flatMap CounterPair.cells

def collectCounter (metrics : EntryMetrics) (lastUpdated : Number) : Option WireCustomMetric :=
  if metrics.counters.groups = [] then none
  else
    some {
      n := COUNTER_NAME
      t := .counter
      v := record CounterCell.key (fun cell => safe (.finite cell.total)) metrics.counterCells
      iv := some (record CounterCell.key (fun cell => safe (.finite cell.sinceCollect)) metrics.counterCells)
      l := [units "failed", units "type"]
      d := units "Telescope entries recorded, by type and failure"
      lu := lastUpdated }

/-- The doubles `0.5`, `0.95` and `0.99`. -/
def HALF : Rat := Number.nearest (1 / 2)

def NINETY_FIVE : Rat := Number.nearest (19 / 20)

def NINETY_NINE : Rat := Number.nearest (99 / 100)

/-- Nearest rank; what is no element of the list is no number, and safe as zero. -/
def quantile (ascending : List Rat) (q : Rat) : Number :=
  let rank := ⌈Number.nearest (q * ascending.length)⌉ - 1
  let index := min ((ascending.length : Int) - 1) (max 0 rank)
  if index < 0 then .finite 0 else (ascending[index.toNat]?).elim (.finite 0) fun value => safe (.finite value)

def quantileOf (q : Rat) (cell : SummaryCell) : Number :=
  quantile (cell.reservoir.insertionSort fun left right => left ≤ right) q

/-- The cells that have an observation of the interval. -/
def summaryCells (metrics : EntryMetrics) : List SummaryCell :=
  metrics.summaries.values.filter fun cell => decide (cell.count ≠ 0)

def collectSummary (metrics : EntryMetrics) (lastUpdated : Number) : Option WireCustomMetric :=
  let cells := metrics.summaryCells
  if cells = [] then none
  else
    some {
      n := SUMMARY_NAME
      t := .summary
      v := record SummaryCell.key (fun cell => safe cell.sum) cells
      q50 := some (record SummaryCell.key (quantileOf HALF) cells)
      q95 := some (record SummaryCell.key (quantileOf NINETY_FIVE) cells)
      q99 := some (record SummaryCell.key (quantileOf NINETY_NINE) cells)
      ct := some (record SummaryCell.key (fun cell => safe (.finite cell.count)) cells)
      sm := some (record SummaryCell.key (fun cell => safe cell.sum) cells)
      mx := some (record SummaryCell.key (fun cell => safe cell.max) cells)
      l := [units "type"]
      d := units "Telescope entry duration by type"
      lu := lastUpdated }

/-- The metrics of a flush, and what is kept for the next one. -/
def collect (metrics : EntryMetrics) (lastUpdated : Number) : List WireCustomMetric × EntryMetrics :=
  ((metrics.collectCounter lastUpdated).toList ++ (metrics.collectSummary lastUpdated).toList,
    { metrics with
      counters := metrics.counters.mapValues CounterPair.drained
      summaries := metrics.summaries.mapValues SummaryCell.drained })

/-! ## Runs -/

/-- What is done with the metrics: an entry is recorded, with the number that is drawn
for it, or the metrics are collected. -/
inductive Event
  | observe (input : RecordInput) (random : Rat)
  | collect (now : Number)

/-- The metrics, and what was collected. -/
structure Session where
  metrics : EntryMetrics
  reports : List (List WireCustomMetric)

def Session.step (session : Session) : Event -> Session
  | .observe input random => { session with metrics := session.metrics.observe input random }
  | .collect now =>
      ⟨(session.metrics.collect now).2, session.reports ++ [(session.metrics.collect now).1]⟩

def run (options : EntryMetricsOptions) (events : List Event) : Session :=
  events.foldl Session.step ⟨new options, []⟩

end EntryMetrics

end Observe
end Telescope
