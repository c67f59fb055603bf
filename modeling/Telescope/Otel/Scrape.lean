import Mathlib.Data.List.Induction
import Telescope.Core.Numeral
import Telescope.Otel.ExpositionRoundTrip
import Telescope.Otel.MetricStore

namespace Telescope
namespace Otel

open Exposition

/-!
# The scrape is read back

A server that scrapes the store reads exactly what the store holds: two comments for each metric,
and behind them the samples of its series, with the labels that are not empty.
-/

/-! ## Labels as they are printed -/

theorem escapeLabelValue_eq (value : Units) : escapeLabelValue value = value.flatMap escapeUnit := by
  rw [escapeLabelValue, replaceAll, replaceAll, replaceAll, List.flatMap_assoc, List.flatMap_assoc]
  refine congrArg (fun escape => value.flatMap escape) (funext fun unit => ?_)
  have escaped : escapeUnit unit =
      if unit = 92 then [92, 92] else if unit = 34 then [92, 34] else if unit = 10 then [92, 110] else [unit] := rfl
  rw [escaped]
  by_cases isBackslash : unit = 92
  · rw [isBackslash]
    rfl
  · rw [if_neg isBackslash, if_neg isBackslash, List.flatMap_singleton]
    by_cases isQuote : unit = 34
    · rw [isQuote]
      rfl
    · rw [if_neg isQuote, if_neg isQuote, List.flatMap_singleton]
      rfl

theorem labelParts_eq (labels : Labels) : labelParts labels = labels.map writePair := by
  refine List.map_congr_left fun label _ => ?_
  rw [writePair, escapeLabelValue_eq, List.append_assoc, List.append_assoc]
  rfl

theorem joinParts_eq (labels : Labels) : joinParts (labels.map writePair) = OPEN :: (writePairs labels ++ [CLOSE]) := by
  rw [joinParts, List.append_assoc]
  rfl

theorem serializeLabels_eq (labels : Labels) : serializeLabels labels = writeLabels (visible labels) := by
  rw [serializeLabels, labelParts_eq, List.length_map, writeLabels]
  by_cases empty : visible labels = []
  · rw [if_pos empty, empty]
    rfl
  · rw [if_neg empty, joinParts_eq]
    exact if_pos fun none => empty (List.eq_nil_of_length_eq_zero none)

theorem labelsWith_eq (labels : Labels) (extraKey extraVal : Units) :
    labelsWith labels extraKey extraVal = writeLabels (visible labels ++ [(extraKey, extraVal)]) := by
  rw [labelsWith, labelParts_eq, labelParts_eq, ← List.map_append, joinParts_eq, writeLabels]
  exact (if_neg (List.append_ne_nil_of_right_ne_nil _ (List.cons_ne_nil _ _))).symm

/-! ## What the store shows -/

namespace MetricStore

def shown (metric : Units) (labels : Labels) (value : Units) : Line := .sample ⟨metric, labels, value⟩

def counterEntries (metric : Units) (series : Grouping Units CounterSeries) : List Line :=
  .help metric (units "Telescope counter.") :: .type metric (units "counter") ::
    series.values.map fun cell => shown metric (visible cell.labels) (Number.digits cell.count)

def bucketEntry (metric : Units) (labels : Labels) (bound : Units) (count : Nat) : Line :=
  shown (metric ++ units "_bucket") (visible labels ++ [(units "le", bound)]) (Number.digits count)

def seriesEntries (bounds : List Rat) (metric : Units) (cell : HistogramSeries) : List Line :=
  List.zipWith (fun bound count => bucketEntry metric cell.labels (Number.text (.finite bound)) count)
    bounds cell.buckets ++
  [bucketEntry metric cell.labels (units "+Inf") cell.count,
    shown (metric ++ units "_sum") (visible cell.labels) cell.sum.text,
    shown (metric ++ units "_count") (visible cell.labels) (Number.digits cell.count)]

def histogramEntries (bounds : List Rat) (metric : Units) (series : Grouping Units HistogramSeries) : List Line :=
  .help metric (units "Telescope duration histogram (milliseconds).") :: .type metric (units "histogram") ::
    series.values.flatMap (seriesEntries bounds metric)

def droppedEntries (dropped : Grouping Units Nat) : List Line :=
  if dropped.groups.length = 0 then []
  else
    .help DROPPED_METRIC (units "Samples dropped because their metric hit the per-metric cardinality cap.") ::
      .type DROPPED_METRIC (units "counter") ::
      dropped.groups.map fun drop => shown DROPPED_METRIC [(units "metric", drop.1)] (Number.digits drop.2)

def entries (store : MetricStore) : List Line :=
  store.counters.groups.flatMap (fun entry => counterEntries entry.1 entry.2) ++
    store.histograms.groups.flatMap (fun entry => histogramEntries store.bounds entry.1 entry.2) ++
    droppedEntries store.dropped

theorem writeLine_shown (metric : Units) (labels : Labels) (value : Units) :
    metric ++ writeLabels labels ++ units " " ++ value = writeLine (shown metric labels value) := by
  rw [List.append_assoc (metric ++ writeLabels labels)]
  rfl

theorem counterLines_eq (metric : Units) (series : Grouping Units CounterSeries) :
    counterLines metric series = (counterEntries metric series).map writeLine := by
  rw [counterEntries, List.map_cons, List.map_cons, List.map_map, counterLines]
  simp only [serializeLabels_eq, writeLine_shown]
  rfl

theorem seriesLines_eq (bounds : List Rat) (metric : Units) (cell : HistogramSeries) :
    seriesLines bounds metric cell = (seriesEntries bounds metric cell).map writeLine := by
  rw [seriesEntries, List.map_append, List.map_zipWith, seriesLines]
  simp only [serializeLabels_eq, labelsWith_eq, writeLine_shown]
  rfl

theorem histogramLines_eq (bounds : List Rat) (metric : Units) (series : Grouping Units HistogramSeries) :
    histogramLines bounds metric series = (histogramEntries bounds metric series).map writeLine := by
  rw [histogramEntries, List.map_cons, List.map_cons, List.map_flatMap, histogramLines]
  simp only [← seriesLines_eq]
  rfl

theorem droppedLines_eq (dropped : Grouping Units Nat) :
    droppedLines dropped = (droppedEntries dropped).map writeLine := by
  rw [droppedLines, droppedEntries]
  split
  · rfl
  · rw [List.map_cons, List.map_cons, List.map_map]
    refine congrArg₂ List.cons rfl (congrArg₂ List.cons rfl (List.map_congr_left fun drop _ => ?_))
    have labels : writeLabels [(units "metric", drop.1)] =
        units "\x7bmetric=\"" ++ (drop.1.flatMap escapeUnit ++ units "\"\x7d") := by
      rw [writeLabels, if_neg (List.cons_ne_nil _ _), writePairs, List.map_singleton, List.intercalate_singleton,
        writePair, List.append_assoc]
      change _ = OPEN :: (units "metric" ++ (EQUALS :: QUOTE :: (_ ++ ([QUOTE] ++ [CLOSE]))))
      rw [← List.append_assoc (drop.1.flatMap escapeUnit)]
      rfl
    rw [Function.comp_apply, ← writeLine_shown, labels, escapeLabelValue_eq]
    simp only [List.append_assoc]
    rfl

theorem intercalate_append {lines : List Units} (some : lines ≠ []) :
    (units "\n").intercalate lines ++ units "\n" = writeLines lines := by
  induction lines with
  | nil => exact (some rfl).elim
  | cons line lines inductionHypothesis =>
      rw [writeLines, List.flatMap_cons]
      cases lines with
      | nil =>
          rw [List.intercalate_singleton, List.flatMap_nil, List.append_nil]
          rfl
      | cons next lines =>
          rw [List.intercalate_cons_cons, List.append_assoc, List.append_assoc, inductionHypothesis (List.cons_ne_nil _ _),
            List.append_assoc]
          rfl

/-- The scrape is what is written of the entries. -/
theorem prometheus_eq (store : MetricStore) : store.prometheus = write store.entries := by
  rw [prometheus, write, entries, List.map_append, List.map_append, List.map_flatMap, List.map_flatMap]
  simp only [counterLines_eq, histogramLines_eq, droppedLines_eq]
  split
  · rename_i some
    exact intercalate_append fun none => some (congrArg List.length none)
  · rename_i none
    rw [List.eq_nil_of_length_eq_zero (not_not.mp none)]
    rfl

/-! ## Names and values -/

theorem isToken {text : Units} (some : text ≠ []) (all : forall unit, unit ∈ text -> Number.IsTextUnit unit) :
    IsToken text :=
  ⟨some, fun blank => absurd (all _ blank) (by decide), fun lineBreak => absurd (all _ lineBreak) (by decide)⟩

theorem isToken_digits (number : Nat) : IsToken (Number.digits number) :=
  isToken (Number.digits_ne_nil number) fun _ member => Number.isTextUnit_digits member

theorem positiveText_ne_nil (value : Rat) : Number.positiveText value ≠ [] := by
  rw [Number.positiveText]
  dsimp only
  split
  · exact List.append_ne_nil_of_left_ne_nil (Number.digits_ne_nil _) _
  · split
    · exact List.append_ne_nil_of_left_ne_nil (List.append_ne_nil_of_right_ne_nil _ (by decide)) _
    · split
      · exact List.append_ne_nil_of_left_ne_nil (List.append_ne_nil_of_left_ne_nil (by decide) _) _
      · exact List.append_ne_nil_of_right_ne_nil _ (Number.digits_ne_nil _)

theorem isToken_text (number : Number) : IsToken number.text := by
  refine isToken ?_ (Number.isTextUnit_text number)
  cases number with
  | nan => exact by decide
  | infinity negative => cases negative <;> exact by decide
  | finite value =>
      rw [Number.text]
      split
      · exact by decide
      · split
        · exact List.append_ne_nil_of_right_ne_nil _ (positiveText_ne_nil _)
        · exact positiveText_ne_nil _

theorem isName_append {name more : Units} (isName : isName isMetricUnit name = true)
    (all : more.all isMetricUnit = true) : Exposition.isName isMetricUnit (name ++ more) = true := by
  cases name with
  | nil => cases isName
  | cons first rest =>
      rw [Exposition.isName, Bool.and_eq_true] at isName
      rw [List.cons_append, Exposition.isName, List.all_append, isName.1, isName.2, all]
      rfl

theorem namedPairs_visible {labels : Labels} (named : NamedPairs labels) : NamedPairs (visible labels) :=
  fun pair member => named pair (List.mem_of_mem_filter member)

/-! ## Every store can be read -/

/-- The names of a sample are names of the format. -/
structure Named (sample : MetricSample) : Prop where
  counter : isName isMetricUnit sample.counter = true
  labels : NamedPairs sample.labels
  durationMetric : forall metric, sample.durationMetric = some metric -> metric ≠ [] ->
    isName isMetricUnit metric = true

/-- Named metrics with named labels. -/
def Readable {ν : Type} (labels : ν -> Labels) (metrics : Grouping Units (Grouping Units ν)) : Prop :=
  metrics.Holds fun metric series =>
    isName isMetricUnit metric = true ∧ series.Holds fun _ cell => NamedPairs (labels cell)

theorem readable_register {ν : Type} {labels : ν -> Labels} {metrics : Grouping Units (Grouping Units ν)}
    {metric : Units} (maxSeries : Nat) (labelKey : Units) {first : ν} {change : ν -> ν} (readable : Readable labels metrics)
    (isName : isName isMetricUnit metric = true) (named : NamedPairs (labels first))
    (changes : forall cell, NamedPairs (labels cell) -> NamedPairs (labels (change cell))) :
    Readable labels (register maxSeries metrics metric labelKey first change) := by
  have capped : forall series : Grouping Units ν, (series.Holds fun _ cell => NamedPairs (labels cell)) ->
      (series.upsertCapped maxSeries labelKey first change).Holds fun _ cell => NamedPairs (labels cell) := by
    intro series holds
    rw [Grouping.upsertCapped]
    split
    · exact holds
    · exact Grouping.holds_upsert holds named changes
  exact Grouping.holds_upsert readable ⟨isName, capped _ (Grouping.holds_empty _)⟩
    fun series kept => ⟨kept.1, capped series kept.2⟩

structure Legible (store : MetricStore) : Prop where
  counters : Readable CounterSeries.labels store.counters
  histograms : Readable HistogramSeries.labels store.histograms

variable {store : MetricStore}

theorem Legible.addCounter (legible : Legible store) {metric : Units} (labelKey : Units) {labels : Labels}
    (isName : isName isMetricUnit metric = true) (named : NamedPairs labels) :
    Legible (store.addCounter metric labelKey labels) := by
  have counters : Readable CounterSeries.labels (register store.maxSeries store.counters metric labelKey
      (CounterSeries.add ⟨labels, 0⟩) CounterSeries.add) :=
    readable_register _ _ legible.counters isName named fun _cell kept => kept
  rw [MetricStore.addCounter]
  split <;> exact ⟨counters, legible.histograms⟩

theorem Legible.addHistogram (legible : Legible store) {metric : Units} (labelKey : Units) {labels : Labels}
    (value : Number) (isName : isName isMetricUnit metric = true) (named : NamedPairs labels) :
    Legible (store.addHistogram metric labelKey labels value) := by
  have histograms : Readable HistogramSeries.labels (register store.maxSeries store.histograms metric labelKey
      (HistogramSeries.add store.bounds ⟨labels, .finite 0, 0, List.replicate store.bounds.length 0⟩ value)
      fun cell => cell.add store.bounds value) :=
    readable_register _ _ legible.histograms isName named fun _cell kept => kept
  rw [MetricStore.addHistogram]
  split <;> exact ⟨legible.counters, histograms⟩

theorem Legible.add (legible : Legible store) {sample : MetricSample} (named : Named sample) :
    Legible (store.add sample) := by
  have counted := legible.addCounter (serializeLabels sample.labels) named.counter named.labels
  rw [MetricStore.add]
  split
  · rename_i metric value isMetric _
    split
    · rename_i some
      exact counted.addHistogram _ value (named.durationMetric metric isMetric some) named.labels
    · exact counted
  · exact counted

theorem legible_run (options : MetricStoreOptions) {samples : List MetricSample}
    (named : forall sample, sample ∈ samples -> Named sample) : Legible (run options samples) := by
  induction samples using List.reverseRecOn with
  | nil => exact ⟨Grouping.holds_empty _, Grouping.holds_empty _⟩
  | append_singleton samples sample inductionHypothesis =>
      rw [run, List.foldl_append]
      exact (inductionHypothesis fun earlier member => named earlier (List.mem_append_left _ member)).add
        (named sample (List.mem_append_right _ (List.mem_singleton_self _)))

theorem wellFormed_counterEntries {metric : Units} {series : Grouping Units CounterSeries}
    (isName : isName isMetricUnit metric = true) (named : series.Holds fun _ cell => NamedPairs cell.labels) :
    forall line, line ∈ counterEntries metric series -> line.WellFormed := by
  intro line member
  rw [counterEntries, List.mem_cons, List.mem_cons, List.mem_map] at member
  rcases member with rfl | rfl | ⟨cell, isCell, rfl⟩
  · exact ⟨isName, by decide⟩
  · exact ⟨isName, by decide⟩
  · rcases List.mem_map.mp isCell with ⟨group, isGroup, rfl⟩
    exact ⟨isName, namedPairs_visible (named group isGroup), isToken_digits _⟩

theorem wellFormed_bucketEntry {metric : Units} {labels : Labels} (isName : isName isMetricUnit metric = true)
    (named : NamedPairs labels) (bound : Units) (count : Nat) :
    (bucketEntry metric labels bound count).WellFormed := by
  refine ⟨isName_append isName (by decide), fun pair member => ?_, isToken_digits _⟩
  rcases List.mem_append.mp member with isVisible | isBound
  · exact namedPairs_visible named pair isVisible
  · rw [List.mem_singleton.mp isBound]
    rfl

theorem wellFormed_seriesEntries {bounds : List Rat} {metric : Units} {cell : HistogramSeries}
    (isName : isName isMetricUnit metric = true) (named : NamedPairs cell.labels) :
    forall line, line ∈ seriesEntries bounds metric cell -> line.WellFormed := by
  intro line member
  rcases List.mem_append.mp member with isBucket | isTotal
  · rw [← List.map_uncurry_zip_eq_zipWith] at isBucket
    rcases List.mem_map.mp isBucket with ⟨bucket, _, rfl⟩
    exact wellFormed_bucketEntry isName named _ _
  · rw [List.mem_cons, List.mem_cons, List.mem_singleton] at isTotal
    rcases isTotal with rfl | rfl | rfl
    · exact wellFormed_bucketEntry isName named _ _
    · exact ⟨isName_append isName (by decide), namedPairs_visible named, isToken_text _⟩
    · exact ⟨isName_append isName (by decide), namedPairs_visible named, isToken_digits _⟩

theorem wellFormed_entries (legible : Legible store) : forall line, line ∈ store.entries -> line.WellFormed := by
  intro line member
  rw [entries, List.mem_append, List.mem_append, List.mem_flatMap, List.mem_flatMap] at member
  rcases member with (⟨group, isGroup, within⟩ | ⟨group, isGroup, within⟩) | isDropped
  · have kept := legible.counters group isGroup
    exact wellFormed_counterEntries kept.1 kept.2 line within
  · have kept := legible.histograms group isGroup
    rw [histogramEntries, List.mem_cons, List.mem_cons, List.mem_flatMap] at within
    rcases within with rfl | rfl | ⟨cell, isCell, ofCell⟩
    · exact ⟨kept.1, by decide⟩
    · exact ⟨kept.1, by decide⟩
    · rcases List.mem_map.mp isCell with ⟨inner, isInner, rfl⟩
      exact wellFormed_seriesEntries kept.1 (kept.2 inner isInner) line ofCell
  · rw [droppedEntries] at isDropped
    split at isDropped
    · cases isDropped
    · rw [List.mem_cons, List.mem_cons, List.mem_map] at isDropped
      rcases isDropped with rfl | rfl | ⟨drop, _, rfl⟩
      · exact ⟨by decide, by decide⟩
      · exact ⟨by decide, by decide⟩
      · exact ⟨(by decide : isName isMetricUnit DROPPED_METRIC = true),
          fun pair isPair => by rw [List.mem_singleton.mp isPair]; rfl, isToken_digits _⟩

/-- Whatever has been sampled, a reader of the format reads the entries of the store. -/
theorem read_prometheus (options : MetricStoreOptions) {samples : List MetricSample}
    (named : forall sample, sample ∈ samples -> Named sample) :
    read (run options samples).prometheus = some (run options samples).entries := by
  rw [prometheus_eq]
  exact read_write (wellFormed_entries (legible_run options named))

/-- A job in a queue whose name has to be escaped. -/
def timedJob : MetricSample :=
  ⟨units "jobs", [(units "queue", units "\"mail\"")], some (.finite 12), some (units "job_ms")⟩

theorem read_prometheus_timedJob :
    read (run {} [timedJob]).prometheus = some (run {} [timedJob]).entries := by
  refine read_prometheus {} fun sample member => ?_
  rw [List.mem_singleton.mp member]
  exact ⟨by decide, fun pair isPair => by rw [List.mem_singleton.mp isPair]; rfl,
    fun _metric isMetric _some => Option.some.inj isMetric ▸ by decide⟩

end MetricStore

end Otel
end Telescope
