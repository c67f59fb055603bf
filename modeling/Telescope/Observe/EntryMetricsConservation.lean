import Mathlib.Algebra.BigOperators.Ring.Finset
import Telescope.Foundation.Admission
import Telescope.Observe.EntryMetrics

namespace Telescope
namespace Observe
namespace EntryMetrics

/-!
# What the entry metrics add up to

Whether a series is made depends on the entries that came, not on when the metrics were
collected, so the counters are the numbers of the entries of their series, and a
summary describes the durations of its type since the last collect, whatever is drawn for
the reservoir.
-/

/-! ## Labels -/

def failedText (failed : Bool) : Units := if failed then units "true" else units "false"

theorem failedText_inj {left right : Bool} (same : failedText left = failedText right) : left = right := by
  revert same
  cases left <;> cases right <;> decide

theorem counterKey_eq (type : Units) (failed : Bool) :
    counterKey type failed = units "\x7b\"failed\":" ++ (Json.quote (failedText failed) ++
      (units ",\"type\":" ++ (Json.quote type ++ units "\x7d"))) := by
  have before : units "failed" < units "type" := by decide +kernel
  have inOrder : ¬ units "type" < units "failed" := lt_asymm before
  have firstName : units "\x7b" ++ (Json.quote (units "failed") ++ [58]) = units "\x7b\"failed\":" := by decide +kernel
  have secondName : 44 :: (Json.quote (units "type") ++ [58]) = units ",\"type\":" := by decide +kernel
  rw [counterKey, labelKey, <- firstName, <- secondName, failedText]
  simp only [List.insertionSort_cons, List.insertionSort_nil, List.orderedInsert, inOrder, not_false_eq_true, if_true,
    List.map_cons, List.map_nil, List.intercalate, List.intersperse, List.flatten_cons, List.flatten_nil,
    List.append_assoc, List.append_nil, List.cons_append, List.nil_append]

theorem summaryKey_eq (type : Units) :
    summaryKey type = units "\x7b\"type\":" ++ (Json.quote type ++ units "\x7d") := by
  have name : units "\x7b" ++ (Json.quote (units "type") ++ [58]) = units "\x7b\"type\":" := by decide +kernel
  rw [summaryKey, labelKey, <- name]
  simp only [List.insertionSort_cons, List.insertionSort_nil, List.orderedInsert, List.map_cons, List.map_nil,
    List.intercalate, List.intersperse, List.flatten_cons, List.flatten_nil, List.append_assoc, List.append_nil,
    List.cons_append, List.nil_append]

theorem counterKey_inj {left right : Units} {leftFailed rightFailed : Bool}
    (same : counterKey left leftFailed = counterKey right rightFailed) :
    (left, leftFailed) = (right, rightFailed) := by
  rw [counterKey_eq, counterKey_eq] at same
  rcases Json.quote_append_inj (List.append_cancel_left same) with ⟨sameFailed, rest⟩
  rw [(Json.quote_append_inj (List.append_cancel_left rest)).1, failedText_inj sameFailed]

theorem summaryKey_inj {left right : Units} (same : summaryKey left = summaryKey right) : left = right := by
  rw [summaryKey_eq, summaryKey_eq] at same
  exact (Json.quote_append_inj (List.append_cancel_left same)).1

/-- A label is no name of the prototype. -/
theorem labelKey_ne (labels : List (Units × Units)) : labelKey labels ≠ units "__proto__" := by
  have brace : units "\x7b" = [123] := by decide
  have underscore : (units "__proto__").head? = some 95 := by decide
  intro same
  rw [<- same, labelKey, brace, List.append_assoc] at underscore
  exact absurd (Option.some.inj underscore) (by decide)

/-! ## Counters -/

/-- The counter of a series that is admitted. -/
def expectedCounter (cap : Nat) (all recent : List (Units × Bool)) (series : Units × Bool) : Option CounterCell :=
  if series ∈ Admission.admitted cap all then
    some ⟨counterKey series.1 series.2, all.count series, recent.count series⟩
  else none

/-- The counters are those of all the series that came, and of those that came since the
last collect. -/
structure TracksCounters (metrics : EntryMetrics) (all recent : List (Units × Bool)) : Prop where
  counter : forall series : Units × Bool,
    metrics.counter series.1 series.2 = expectedCounter metrics.maxSeriesPerMetric all recent series
  counterSeries : metrics.counterSeries = (Admission.admitted metrics.maxSeriesPerMetric all).length
  recentCame : recent ⊆ all

theorem subset_snoc {α : Type} {recent all : List α} (came : recent ⊆ all) (last : α) :
    recent ++ [last] ⊆ all ++ [last] :=
  List.append_subset.mpr ⟨List.subset_append_of_subset_left [last] came, List.subset_append_right all [last]⟩

theorem cell_setCell (pair : CounterPair) (failed other : Bool) (cell : CounterCell) :
    (pair.setCell failed cell).cell other = if other = failed then some cell else pair.cell other := by
  cases failed <;> cases other <;> rfl

theorem counter_putCounter (metrics : EntryMetrics) (type : Units) (failed : Bool) (cell : CounterCell)
    (series : Units × Bool) :
    (metrics.putCounter type failed cell).counter series.1 series.2 =
      if series = (type, failed) then some cell else metrics.counter series.1 series.2 := by
  rcases series with ⟨other, otherFailed⟩
  change ((metrics.counters.upsert type _ _).lookup other).bind _ = _
  rw [Grouping.lookup_upsert]
  by_cases isType : other = type
  · subst isType
    rw [if_pos rfl]
    have isPair : ((other, otherFailed) = (other, failed)) = (otherFailed = failed) := by
      rw [Prod.mk.injEq, eq_self, true_and]
    simp only [isPair]
    rw [counter]
    cases metrics.counters.lookup other with
    | none =>
        change (CounterPair.empty.setCell failed cell).cell otherFailed = _
        rw [cell_setCell]
        cases otherFailed <;> rfl
    | some pair => exact cell_setCell pair failed otherFailed cell
  · rw [if_neg isType, if_neg fun same => isType (Prod.mk.inj same).1]
    rfl

variable {all recent : List (Units × Bool)} {series : Units × Bool}

theorem expectedCounter_snoc_of_ne {cap : Nat} {other : Units × Bool} (different : other ≠ series) :
    expectedCounter cap (all ++ [series]) (recent ++ [series]) other = expectedCounter cap all recent other := by
  have none : [series].count other = 0 := List.count_eq_zero_of_not_mem fun member =>
    different (List.mem_singleton.mp member)
  simp only [expectedCounter, Admission.mem_admitted_snoc_of_ne different, List.count_append, none, Nat.add_zero]

theorem expectedCounter_snoc_self {cap : Nat} (member : series ∈ Admission.admitted cap (all ++ [series])) :
    expectedCounter cap (all ++ [series]) (recent ++ [series]) series =
      some ⟨counterKey series.1 series.2, all.count series + 1, recent.count series + 1⟩ := by
  rw [expectedCounter, if_pos member, List.count_append, List.count_append, List.count_singleton_self]

variable {metrics after : EntryMetrics}

/-- The entry is counted under its series. -/
theorem tracksCounters_put (tracks : TracksCounters metrics all recent)
    (sameCap : after.maxSeriesPerMetric = metrics.maxSeriesPerMetric)
    (member : series ∈ Admission.admitted metrics.maxSeriesPerMetric (all ++ [series]))
    (counters : forall other : Units × Bool, after.counter other.1 other.2 =
      if other = series then
        some ⟨counterKey series.1 series.2, all.count series + 1, recent.count series + 1⟩
      else metrics.counter other.1 other.2)
    (counterSeries : after.counterSeries = (Admission.admitted metrics.maxSeriesPerMetric (all ++ [series])).length) :
    TracksCounters after (all ++ [series]) (recent ++ [series]) where
  counter other := by
    rw [sameCap, counters]
    by_cases same : other = series
    · rw [if_pos same, same, expectedCounter_snoc_self member]
    · rw [if_neg same, expectedCounter_snoc_of_ne same, tracks.counter]
  counterSeries := by rw [sameCap, counterSeries]
  recentCame := subset_snoc tracks.recentCame series

/-- A counter is found again, made, or refused. -/
theorem tracksCounters_count (tracks : TracksCounters metrics all recent) (series : Units × Bool) :
    TracksCounters (metrics.count series.1 series.2) (all ++ [series]) (recent ++ [series]) ∧
      (metrics.count series.1 series.2).dropped =
        metrics.dropped + Admission.refusal metrics.maxSeriesPerMetric all series := by
  have known := tracks.counter series
  cases found : metrics.counter series.1 series.2 with
  | some cell =>
      rw [found, expectedCounter] at known
      split at known
      · rename_i before
        have member := Admission.mem_admitted_snoc before series
        have isCell := Option.some.inj known
        rw [Admission.refusal_of_mem member, count, found]
        refine ⟨tracksCounters_put tracks rfl member (fun other => ?_) ?_, rfl⟩
        · rw [isCell]
          exact counter_putCounter _ _ _ _ other
        · rw [Admission.admitted_snoc, Admission.enrol_of_mem before]
          exact tracks.counterSeries
      · cases known
  | none =>
      rw [found, expectedCounter] at known
      split at known
      · cases known
      · rename_i before
        rw [count, found]
        dsimp only
        by_cases full : metrics.maxSeriesPerMetric ≤ metrics.counterSeries
        · rw [if_pos full]
          rw [tracks.counterSeries] at full
          have unchanged := Admission.admitted_snoc metrics.maxSeriesPerMetric all series
          rw [Admission.enrol_of_full full] at unchanged
          have out : series ∉ Admission.admitted metrics.maxSeriesPerMetric (all ++ [series]) := by
            rw [unchanged]
            exact before
          rw [Admission.refusal_of_not_mem out]
          refine ⟨⟨fun other => ?_, ?_, subset_snoc tracks.recentCame series⟩, rfl⟩
          · by_cases same : other = series
            · rw [same]
              exact found.trans (if_neg out).symm
            · exact (tracks.counter other).trans (expectedCounter_snoc_of_ne same).symm
          · exact tracks.counterSeries.trans (congrArg List.length unchanged).symm
        · rw [if_neg full]
          rw [tracks.counterSeries] at full
          have grown := Admission.admitted_snoc metrics.maxSeriesPerMetric all series
          rw [Admission.enrol_of_new before full] at grown
          have member : series ∈ Admission.admitted metrics.maxSeriesPerMetric (all ++ [series]) := by
            rw [grown]
            exact List.mem_append_right _ (List.mem_singleton_self series)
          have isNew : series ∉ all := Admission.not_mem_of_admitted_snoc member before
          have noCount : all.count series = 0 := List.count_eq_zero_of_not_mem isNew
          have noRecent : recent.count series = 0 :=
            List.count_eq_zero_of_not_mem fun came => isNew (tracks.recentCame came)
          rw [Admission.refusal_of_mem member]
          refine ⟨tracksCounters_put tracks rfl member (fun other => ?_) ?_, rfl⟩
          · rw [noCount, noRecent]
            exact counter_putCounter _ _ _ _ other
          · rw [grown, List.length_append, <- tracks.counterSeries]
            rfl

theorem tracksCounters_drained (tracks : TracksCounters metrics all recent)
    (sameCap : after.maxSeriesPerMetric = metrics.maxSeriesPerMetric)
    (counters : after.counters = metrics.counters.mapValues CounterPair.drained)
    (counterSeries : after.counterSeries = metrics.counterSeries) : TracksCounters after all [] where
  counter series := by
    have drained : after.counter series.1 series.2 =
        (metrics.counter series.1 series.2).map fun cell => { cell with sinceCollect := 0 } := by
      rw [counter, counter, counters, Grouping.lookup_mapValues]
      cases metrics.counters.lookup series.1 with
      | none => rfl
      | some pair => cases series.2 <;> rfl
    rw [drained, tracks.counter, sameCap, expectedCounter, expectedCounter]
    split <;> rfl
  counterSeries := by rw [counterSeries, sameCap, tracks.counterSeries]
  recentCame := List.nil_subset all

/-! ## Summaries -/

/-- The durations of a type. -/
def durationsOf (type : Units) (timed : List (Units × Rat)) : List Rat :=
  (timed.filter fun entry => decide (entry.1 = type)).map Prod.snd

/-- The sum as doubles add it up. -/
def doubleSum (durations : List Rat) : Number :=
  durations.foldl (fun sum duration => sum.add (.finite duration)) (.finite 0)

/-- A number that is the greatest of some durations; of none, it is below all. -/
inductive GreatestOf : Number -> List Rat -> Prop
  | none : GreatestOf (.infinity true) []
  | some {durations : List Rat} {greatest : Rat} (member : greatest ∈ durations)
      (bounds : forall duration, duration ∈ durations -> duration ≤ greatest) :
      GreatestOf (.finite greatest) durations

/-- The cell holds what the durations of its type in the interval come to. -/
structure Describes (sampleSize : Nat) (type : Units) (durations : List Rat) (cell : SummaryCell) :
    Prop where
  key : cell.key = summaryKey type
  count : cell.count = durations.length
  sum : cell.sum = doubleSum durations
  max : GreatestOf cell.max durations
  reservoir : cell.reservoir ⊆ durations
  filled : cell.reservoir.length = min sampleSize durations.length

theorem describes_new (sampleSize : Nat) (type : Units) :
    Describes sampleSize type [] (SummaryCell.new type) :=
  ⟨rfl, rfl, rfl, .none, List.nil_subset [], (Nat.min_zero sampleSize).symm⟩

theorem GreatestOf.snoc {max : Number} {durations : List Rat} (greatest : GreatestOf max durations) (value : Rat) :
    GreatestOf (if max.lt (.finite value) then .finite value else max) (durations ++ [value]) := by
  have last : value ∈ durations ++ [value] := List.mem_append_right _ (List.mem_singleton_self value)
  cases greatest with
  | none =>
      exact .some last fun duration member => (List.mem_singleton.mp member).le
  | @some _ greatest member bounds =>
      by_cases above : greatest < value
      · have isAbove : (Number.finite greatest).lt (.finite value) = true := decide_eq_true above
        rw [if_pos isAbove]
        refine .some last fun duration came => ?_
        rcases List.mem_append.mp came with before | isLast
        · exact (bounds duration before).trans above.le
        · exact (List.mem_singleton.mp isLast).le
      · have notAbove : (Number.finite greatest).lt (.finite value) ≠ true := fun lt => above (of_decide_eq_true lt)
        rw [if_neg notAbove]
        refine .some (List.mem_append_left _ member) fun duration came => ?_
        rcases List.mem_append.mp came with before | isLast
        · exact bounds duration before
        · rw [List.mem_singleton.mp isLast]
          exact not_lt.mp above

variable {type : Units} {cell : SummaryCell}

/-- One more duration, whatever is drawn for the reservoir. -/
theorem describes_observe {sampleSize : Nat} {durations : List Rat}
    (describes : Describes sampleSize type durations cell) (random value : Rat) :
    Describes sampleSize type (durations ++ [value]) (cell.observe sampleSize random value) where
  key := describes.key
  count := by
    rw [List.length_append, <- describes.count]
    rfl
  sum := by
    rw [doubleSum, List.foldl_append]
    change cell.sum.add _ = (doubleSum durations).add _
    rw [describes.sum]
  max := describes.max.snoc value
  reservoir := by
    have before : cell.reservoir ⊆ durations ++ [value] :=
      List.subset_append_of_subset_left [value] describes.reservoir
    change (if _ then _ else _ : List Rat) ⊆ _
    split
    · exact subset_snoc describes.reservoir value
    · split
      · intro kept member
        rcases List.mem_or_eq_of_mem_set member with old | isValue
        · exact before old
        · rw [isValue]
          exact List.mem_append_right _ (List.mem_singleton_self value)
      · exact before
  filled := by
    have filled := describes.filled
    rw [List.length_append, List.length_singleton]
    change (if _ then _ else _ : List Rat).length = _
    split
    · rw [List.length_append, List.length_singleton]
      omega
    · split
      · rw [List.length_set]
        omega
      · omega

/-- Nothing is left of the interval after a collect. -/
theorem describes_drained {sampleSize : Nat} {durations : List Rat}
    (describes : Describes sampleSize type durations cell) : Describes sampleSize type [] cell.drained := by
  rw [SummaryCell.drained]
  split
  · rename_i noCount
    have isEmpty : durations = [] := List.eq_nil_of_length_eq_zero (describes.count.symm.trans noCount)
    rw [isEmpty] at describes
    exact describes
  · exact ⟨describes.key, rfl, rfl, .none, List.nil_subset [], (Nat.min_zero sampleSize).symm⟩

/-- The summaries are those of all the durations that came, and of those that came since
the last collect. -/
structure TracksSummaries (metrics : EntryMetrics) (all : List Units) (recent : List (Units × Rat)) : Prop where
  found : forall type cell, metrics.summaries.lookup type = some cell ->
    type ∈ Admission.admitted metrics.maxSeriesPerMetric all ∧
      Describes metrics.sampleSize type (durationsOf type recent) cell
  absent : forall type, metrics.summaries.lookup type = none ->
    type ∉ Admission.admitted metrics.maxSeriesPerMetric all
  summarySeries : metrics.summarySeries = (Admission.admitted metrics.maxSeriesPerMetric all).length
  recentCame : recent.map Prod.fst ⊆ all

theorem durationsOf_snoc_self (type : Units) (timed : List (Units × Rat)) (value : Rat) :
    durationsOf type (timed ++ [(type, value)]) = durationsOf type timed ++ [value] := by
  rw [durationsOf, List.filter_append, List.map_append, List.filter_singleton, decide_eq_true rfl]
  rfl

theorem durationsOf_snoc_of_ne {other : Units} (different : other ≠ type) (timed : List (Units × Rat)) (value : Rat) :
    durationsOf other (timed ++ [(type, value)]) = durationsOf other timed := by
  rw [durationsOf, List.filter_append, List.map_append, List.filter_singleton, decide_eq_false (Ne.symm different)]
  exact List.append_nil _

theorem durationsOf_eq_nil {timed : List (Units × Rat)} (absent : type ∉ timed.map Prod.fst) :
    durationsOf type timed = [] := by
  rw [durationsOf, List.map_eq_nil_iff, List.filter_eq_nil_iff]
  intro entry member isType
  exact absent (of_decide_eq_true isType ▸ List.mem_map_of_mem member)

/-- The duration goes into the summary of its type, which starts out empty where there
was none. -/
theorem tracksSummaries_put {all : List Units} {recent : List (Units × Rat)}
    (tracks : TracksSummaries metrics all recent) {random value : Rat} {previous : SummaryCell}
    (sameCap : after.maxSeriesPerMetric = metrics.maxSeriesPerMetric) (sameSize : after.sampleSize = metrics.sampleSize)
    (member : type ∈ Admission.admitted metrics.maxSeriesPerMetric (all ++ [type]))
    (describes : Describes metrics.sampleSize type (durationsOf type recent) previous)
    (summaries : forall other, after.summaries.lookup other =
      if other = type then some (previous.observe metrics.sampleSize random value)
      else metrics.summaries.lookup other)
    (summarySeries : after.summarySeries = (Admission.admitted metrics.maxSeriesPerMetric (all ++ [type])).length) :
    TracksSummaries after (all ++ [type]) (recent ++ [(type, value)]) where
  found other cell isCell := by
    rw [sameCap, sameSize]
    rw [summaries] at isCell
    by_cases same : other = type
    · rw [if_pos same] at isCell
      rw [same, durationsOf_snoc_self, <- Option.some.inj isCell]
      exact ⟨member, describes_observe describes random value⟩
    · rw [if_neg same] at isCell
      rw [durationsOf_snoc_of_ne same, Admission.mem_admitted_snoc_of_ne same]
      exact tracks.found other cell isCell
  absent other isNone := by
    rw [sameCap]
    rw [summaries] at isNone
    by_cases same : other = type
    · rw [if_pos same] at isNone
      cases isNone
    · rw [if_neg same] at isNone
      rw [Admission.mem_admitted_snoc_of_ne same]
      exact tracks.absent other isNone
  summarySeries := by rw [sameCap, summarySeries]
  recentCame := by
    rw [List.map_append]
    exact subset_snoc tracks.recentCame type

theorem lookup_putSummary (metrics : EntryMetrics) (type : Units) (random value : Rat) (other : Units) :
    (metrics.putSummary type random value).summaries.lookup other =
      if other = type then
        some (((metrics.summaries.lookup type).getD (SummaryCell.new type)).observe metrics.sampleSize random value)
      else metrics.summaries.lookup other := by
  change (metrics.summaries.upsert type _ _).lookup other = _
  rw [Grouping.lookup_upsert]
  cases metrics.summaries.lookup type <;> rfl

/-- A summary is found again, made, or refused. -/
theorem tracksSummaries_observe {all : List Units} {recent : List (Units × Rat)}
    (tracks : TracksSummaries metrics all recent) (type : Units) (random value : Rat) :
    TracksSummaries (metrics.observeDuration type random value) (all ++ [type]) (recent ++ [(type, value)]) ∧
      (metrics.observeDuration type random value).dropped =
        metrics.dropped + Admission.refusal metrics.maxSeriesPerMetric all type := by
  have stored := lookup_putSummary metrics type random value
  cases isFound : metrics.summaries.lookup type with
  | some cell =>
      rcases tracks.found type cell isFound with ⟨before, describes⟩
      have member := Admission.mem_admitted_snoc before type
      rw [isFound] at stored
      rw [observeDuration, isFound, Admission.refusal_of_mem member]
      refine ⟨tracksSummaries_put tracks rfl rfl member describes stored ?_, rfl⟩
      rw [Admission.admitted_snoc, Admission.enrol_of_mem before]
      exact tracks.summarySeries
  | none =>
      have before := tracks.absent type isFound
      rw [observeDuration, isFound]
      dsimp only
      by_cases full : metrics.maxSeriesPerMetric ≤ metrics.summarySeries
      · rw [if_pos full]
        rw [tracks.summarySeries] at full
        have unchanged := Admission.admitted_snoc metrics.maxSeriesPerMetric all type
        rw [Admission.enrol_of_full full] at unchanged
        have out : type ∉ Admission.admitted metrics.maxSeriesPerMetric (all ++ [type]) := by
          rw [unchanged]
          exact before
        rw [Admission.refusal_of_not_mem out]
        refine ⟨⟨fun other cell isCell => ?_, fun other isNone => ?_, ?_, ?_⟩, rfl⟩
        · change metrics.summaries.lookup other = some cell at isCell
          have different : other ≠ type := by
            rintro rfl
            rw [isFound] at isCell
            cases isCell
          change other ∈ Admission.admitted metrics.maxSeriesPerMetric _ ∧ _
          rw [durationsOf_snoc_of_ne different, Admission.mem_admitted_snoc_of_ne different]
          exact tracks.found other cell isCell
        · change other ∉ Admission.admitted metrics.maxSeriesPerMetric _
          rw [unchanged]
          exact tracks.absent other isNone
        · exact tracks.summarySeries.trans (congrArg List.length unchanged).symm
        · rw [List.map_append]
          exact subset_snoc tracks.recentCame type
      · rw [if_neg full]
        rw [tracks.summarySeries] at full
        have grown := Admission.admitted_snoc metrics.maxSeriesPerMetric all type
        rw [Admission.enrol_of_new before full] at grown
        have member : type ∈ Admission.admitted metrics.maxSeriesPerMetric (all ++ [type]) := by
          rw [grown]
          exact List.mem_append_right _ (List.mem_singleton_self type)
        have isNew : type ∉ all := Admission.not_mem_of_admitted_snoc member before
        have noDurations : durationsOf type recent = [] :=
          durationsOf_eq_nil fun came => isNew (tracks.recentCame came)
        rw [Admission.refusal_of_mem member]
        rw [isFound] at stored
        refine ⟨tracksSummaries_put tracks rfl rfl member ?_ stored ?_, rfl⟩
        · rw [noDurations]
          exact describes_new metrics.sampleSize type
        · rw [grown, List.length_append, <- tracks.summarySeries]
          rfl

theorem tracksSummaries_drained {all : List Units} {recent : List (Units × Rat)}
    (tracks : TracksSummaries metrics all recent) (sameCap : after.maxSeriesPerMetric = metrics.maxSeriesPerMetric)
    (sameSize : after.sampleSize = metrics.sampleSize)
    (summaries : after.summaries = metrics.summaries.mapValues SummaryCell.drained)
    (summarySeries : after.summarySeries = metrics.summarySeries) : TracksSummaries after all [] where
  found type cell isCell := by
    rw [summaries, Grouping.lookup_mapValues] at isCell
    rcases Option.map_eq_some_iff.mp isCell with ⟨previous, isPrevious, rfl⟩
    rcases tracks.found type previous isPrevious with ⟨member, describes⟩
    rw [sameCap, sameSize]
    exact ⟨member, describes_drained describes⟩
  absent type isNone := by
    rw [summaries, Grouping.lookup_mapValues, Option.map_eq_none_iff] at isNone
    rw [sameCap]
    exact tracks.absent type isNone
  summarySeries := by rw [summarySeries, sameCap, tracks.summarySeries]
  recentCame := List.nil_subset all

/-! ## Runs -/

/-- The series of the recorded entries. -/
def counted (events : List Event) : List (Units × Bool) :=
  events.filterMap fun event =>
    match event with
    | .observe input _random => some (input.type, isErrorEntry input.tags input.content)
    | .collect _now => none

/-- The type and the duration of an entry that has a finite one. -/
def timing (input : RecordInput) : Option (Units × Rat) :=
  match input.durationMs with
  | some (.finite duration) => some (input.type, duration)
  | _ => none

/-- The finite durations of the recorded entries, by type. -/
def timed (events : List Event) : List (Units × Rat) :=
  events.filterMap fun event =>
    match event with
    | .observe input _random => timing input
    | .collect _now => none

/-- The events since the last collect. -/
def interval (events : List Event) : List Event :=
  events.foldl (fun since event =>
    match event with
    | .observe _input _random => since ++ [event]
    | .collect _now => []) []

variable (options : EntryMetricsOptions)

/-- The ceiling of the series of each kind. -/
def ceiling : Nat := positive options.maxSeriesPerMetric DEFAULT_MAX_SERIES_PER_METRIC

def reservoirSize : Nat := positive options.sampleSize DEFAULT_SAMPLE_SIZE

/-- The metrics after a run are told by its events. -/
structure Tracks (metrics : EntryMetrics) (events : List Event) : Prop where
  cap : metrics.maxSeriesPerMetric = ceiling options
  size : metrics.sampleSize = reservoirSize options
  counters : TracksCounters metrics (counted events) (counted (interval events))
  summaries : TracksSummaries metrics ((timed events).map Prod.fst) (timed (interval events))
  dropped : metrics.dropped = Admission.refused (ceiling options) (counted events) +
    Admission.refused (ceiling options) ((timed events).map Prod.fst)

theorem tracks_new : Tracks options (new options) [] where
  cap := rfl
  size := rfl
  counters := ⟨fun _series => rfl, rfl, List.nil_subset []⟩
  summaries := ⟨fun _type _cell found => (by cases found), fun _type _none => List.not_mem_nil, rfl, List.nil_subset []⟩
  dropped := rfl

/-- Counting an entry leaves the summaries alone. -/
theorem count_frame (metrics : EntryMetrics) (type : Units) (failed : Bool) :
    (metrics.count type failed).maxSeriesPerMetric = metrics.maxSeriesPerMetric ∧
      (metrics.count type failed).sampleSize = metrics.sampleSize ∧
      (metrics.count type failed).summaries = metrics.summaries ∧
      (metrics.count type failed).summarySeries = metrics.summarySeries := by
  rw [count]
  split
  · exact ⟨rfl, rfl, rfl, rfl⟩
  · split <;> exact ⟨rfl, rfl, rfl, rfl⟩

/-- A duration leaves the counters alone. -/
theorem observeDuration_frame (metrics : EntryMetrics) (type : Units) (random value : Rat) :
    (metrics.observeDuration type random value).maxSeriesPerMetric = metrics.maxSeriesPerMetric ∧
      (metrics.observeDuration type random value).sampleSize = metrics.sampleSize ∧
      (metrics.observeDuration type random value).counters = metrics.counters ∧
      (metrics.observeDuration type random value).counterSeries = metrics.counterSeries := by
  rw [observeDuration]
  split
  · exact ⟨rfl, rfl, rfl, rfl⟩
  · split <;> exact ⟨rfl, rfl, rfl, rfl⟩

theorem TracksSummaries.frame {all : List Units} {recent : List (Units × Rat)}
    (tracks : TracksSummaries metrics all recent) (sameCap : after.maxSeriesPerMetric = metrics.maxSeriesPerMetric)
    (sameSize : after.sampleSize = metrics.sampleSize) (sameSummaries : after.summaries = metrics.summaries)
    (sameSeries : after.summarySeries = metrics.summarySeries) : TracksSummaries after all recent where
  found := by
    rw [sameSummaries, sameCap, sameSize]
    exact tracks.found
  absent := by
    rw [sameSummaries, sameCap]
    exact tracks.absent
  summarySeries := by rw [sameSeries, sameCap, tracks.summarySeries]
  recentCame := tracks.recentCame

theorem TracksCounters.frame (tracks : TracksCounters metrics all recent)
    (sameCap : after.maxSeriesPerMetric = metrics.maxSeriesPerMetric) (sameCounters : after.counters = metrics.counters)
    (sameSeries : after.counterSeries = metrics.counterSeries) :
    TracksCounters after all recent where
  counter series := by
    rw [sameCap, <- tracks.counter series, EntryMetrics.counter, EntryMetrics.counter, sameCounters]
  counterSeries := by rw [sameSeries, sameCap, tracks.counterSeries]
  recentCame := tracks.recentCame

theorem counted_observe (events : List Event) (input : RecordInput) (random : Rat) :
    counted (events ++ [.observe input random]) = counted events ++ [(input.type, isErrorEntry input.tags input.content)] := by
  rw [counted, List.filterMap_append]
  rfl

theorem interval_observe (events : List Event) (input : RecordInput) (random : Rat) :
    interval (events ++ [.observe input random]) = interval events ++ [.observe input random] := by
  rw [interval, List.foldl_append]
  rfl

theorem timed_observe (events : List Event) (input : RecordInput) (random : Rat) :
    timed (events ++ [.observe input random]) = timed events ++ (timing input).toList := by
  rw [timed, List.filterMap_append]
  refine congrArg (timed events ++ ·) ?_
  cases isTimed : timing input with
  | none => exact List.filterMap_cons_none isTimed
  | some entry => exact List.filterMap_cons_some isTimed

theorem tracks_observe {events : List Event} (tracks : Tracks options metrics events) (input : RecordInput)
    (random : Rat) :
    Tracks options (metrics.observe input random) (events ++ [.observe input random]) := by
  rcases tracksCounters_count tracks.counters (input.type, isErrorEntry input.tags input.content) with
    ⟨counters, dropsCounter⟩
  rcases count_frame metrics input.type (isErrorEntry input.tags input.content) with
    ⟨sameCap, sameSize, sameSummaries, sameSeries⟩
  have summaries := tracks.summaries.frame sameCap sameSize sameSummaries sameSeries
  rw [tracks.cap] at dropsCounter
  rw [observe]
  split
  · rename_i duration isDuration
    have isTimed : timing input = some (input.type, duration) := by rw [timing, isDuration]
    rcases tracksSummaries_observe summaries input.type random duration with ⟨timedSummaries, dropsSummary⟩
    rcases observeDuration_frame (metrics.count input.type (isErrorEntry input.tags input.content)) input.type random
      duration with ⟨timedCap, timedSize, sameCounters, sameCounterSeries⟩
    refine ⟨timedCap.trans (sameCap.trans tracks.cap), timedSize.trans (sameSize.trans tracks.size), ?_, ?_, ?_⟩
    · rw [interval_observe, counted_observe, counted_observe]
      exact counters.frame timedCap sameCounters sameCounterSeries
    · rw [interval_observe, timed_observe, timed_observe, isTimed, List.map_append]
      exact timedSummaries
    · rw [dropsSummary, dropsCounter, tracks.dropped, counted_observe, timed_observe, isTimed, List.map_append, sameCap,
        tracks.cap, Admission.refused_snoc]
      change _ = _ + Admission.refused _ (_ ++ [input.type])
      rw [Admission.refused_snoc]
      omega
  · rename_i notFinite
    have notTimed : timing input = none := by
      rw [timing]
      split
      · rename_i duration isDuration
        exact (notFinite duration isDuration).elim
      · rfl
    refine ⟨sameCap.trans tracks.cap, sameSize.trans tracks.size, ?_, ?_, ?_⟩
    · rw [interval_observe, counted_observe, counted_observe]
      exact counters
    · rw [interval_observe, timed_observe, timed_observe, notTimed, Option.toList_none, List.append_nil, List.append_nil]
      exact summaries
    · rw [dropsCounter, tracks.dropped, counted_observe, timed_observe, notTimed, Option.toList_none, List.append_nil,
        Admission.refused_snoc]
      omega

theorem counted_collect (events : List Event) (now : Number) : counted (events ++ [.collect now]) = counted events := by
  rw [counted, List.filterMap_append]
  exact List.append_nil _

theorem interval_collect (events : List Event) (now : Number) : interval (events ++ [.collect now]) = [] := by
  rw [interval, List.foldl_append]
  rfl

theorem tracks_collect {events : List Event} (tracks : Tracks options metrics events) (now : Number) :
    Tracks options (metrics.collect now).2 (events ++ [.collect now]) := by
  have sameTimed : timed (events ++ [.collect now]) = timed events := by
    rw [timed, List.filterMap_append]
    exact List.append_nil _
  refine ⟨tracks.cap, tracks.size, ?_, ?_, ?_⟩
  · rw [counted_collect, interval_collect]
    exact tracksCounters_drained tracks.counters rfl rfl rfl
  · rw [sameTimed, interval_collect]
    exact tracksSummaries_drained tracks.summaries rfl rfl rfl rfl
  · rw [counted_collect, sameTimed]
    exact tracks.dropped

theorem tracks_run (events : List Event) : Tracks options (run options events).metrics events := by
  induction events using List.reverseRecOn with
  | nil => exact tracks_new options
  | append_singleton events event inductionHypothesis =>
      rw [run, List.foldl_append]
      cases event with
      | observe input random => exact tracks_observe options inductionHypothesis input random
      | collect now => exact tracks_collect options inductionHypothesis now

/-! ## Records -/

theorem record_eq_map {C : Type} {key : C -> Units} {cells : List C} (distinct : (cells.map key).Nodup)
    (ordinary : forall cell, cell ∈ cells -> key cell ≠ units "__proto__") (value : C -> Number) :
    record key value cells = cells.map fun cell => (key cell, value cell) := by
  have names : ((cells.map fun cell => (key cell, cell)).map Prod.fst).Nodup := by
    rw [List.map_map]
    exact distinct
  have assigned := Fields.foldl_assign names (fun source => value source.2) [] fun _source _member => List.not_mem_nil
  rw [List.foldl_map, List.nil_append] at assigned
  rw [record, assigned, List.filter_eq_self.mpr, List.map_map]
  · rfl
  · intro source member
    rcases List.mem_map.mp member with ⟨cell, isCell, rfl⟩
    exact decide_eq_true (ordinary cell isCell)

theorem mem_counterCells {cell : CounterCell} :
    cell ∈ metrics.counterCells <->
      Exists fun series : Units × Bool => metrics.counter series.1 series.2 = some cell := by
  rw [counterCells, Grouping.values, List.mem_flatMap]
  constructor
  · rintro ⟨pair, isPair, isCell⟩
    rcases List.mem_map.mp isPair with ⟨⟨type, _⟩, member, rfl⟩
    have isFound := Grouping.mem_iff_lookup.mp member
    rcases List.mem_append.mp isCell with isOk | isFailed
    · refine ⟨(type, false), ?_⟩
      rw [counter, isFound]
      exact Option.mem_toList.mp isOk
    · refine ⟨(type, true), ?_⟩
      rw [counter, isFound]
      exact Option.mem_toList.mp isFailed
  · rintro ⟨⟨type, failed⟩, isCounter⟩
    rcases Option.bind_eq_some_iff.mp isCounter with ⟨pair, isFound, isCell⟩
    refine ⟨pair, List.mem_map_of_mem (Grouping.mem_iff_lookup.mpr isFound), ?_⟩
    cases failed with
    | false => exact List.mem_append_left _ (Option.mem_toList.mpr isCell)
    | true => exact List.mem_append_right _ (Option.mem_toList.mpr isCell)

theorem key_of_counter (tracks : TracksCounters metrics all recent) {cell : CounterCell}
    (isCounter : metrics.counter series.1 series.2 = some cell) : cell.key = counterKey series.1 series.2 := by
  rw [tracks.counter, expectedCounter] at isCounter
  split at isCounter
  · rw [<- Option.some.inj isCounter]
  · cases isCounter

/-- The counters have distinct keys. -/
theorem nodup_counterCells (tracks : TracksCounters metrics all recent) :
    (metrics.counterCells.map CounterCell.key).Nodup := by
  have keyed : forall type pair, (type, pair) ∈ metrics.counters.groups -> forall failed cell,
      pair.cell failed = some cell -> cell.key = counterKey type failed := by
    intro type pair member failed cell isCell
    refine @key_of_counter _ _ (type, failed) _ tracks cell ?_
    rw [counter, Grouping.mem_iff_lookup.mp member]
    exact isCell
  have ofPair : forall type pair, (type, pair) ∈ metrics.counters.groups -> forall key,
      key ∈ pair.cells.map CounterCell.key -> Exists fun failed => key = counterKey type failed := by
    intro type pair member key isKey
    rcases List.mem_map.mp isKey with ⟨cell, isCell, rfl⟩
    rcases List.mem_append.mp isCell with isOk | isFailed
    · exact ⟨false, keyed type pair member false cell (Option.mem_toList.mp isOk)⟩
    · exact ⟨true, keyed type pair member true cell (Option.mem_toList.mp isFailed)⟩
  rw [counterCells, Grouping.values, List.flatMap_map, List.map_flatMap, List.nodup_flatMap]
  constructor
  · rintro ⟨type, ok, failed⟩ member
    have isKeyed := keyed type _ member
    cases ok with
    | none =>
        cases failed with
        | none => exact List.nodup_nil
        | some failedCell => exact List.nodup_singleton failedCell.key
    | some okCell =>
        cases failed with
        | none => exact List.nodup_singleton okCell.key
        | some failedCell =>
            refine List.nodup_cons.mpr ⟨fun again => ?_, List.nodup_singleton failedCell.key⟩
            have same := (isKeyed false okCell rfl).symm.trans
              ((List.mem_singleton.mp again).trans (isKeyed true failedCell rfl))
            cases (Prod.mk.inj (counterKey_inj same)).2
  · have distinct := List.pairwise_map.mp metrics.counters.distinct
    refine distinct.imp_of_mem fun {first second} isFirst isSecond different => ?_
    intro key inFirst inSecond
    rcases ofPair _ _ isFirst key inFirst with ⟨_, firstKey⟩
    rcases ofPair _ _ isSecond key inSecond with ⟨_, secondKey⟩
    exact different (Prod.mk.inj (counterKey_inj (firstKey.symm.trans secondKey))).1

/-- The counters there are, in the order of their series. -/
theorem perm_counterCells (tracks : TracksCounters metrics all recent) :
    metrics.counterCells.Perm ((Admission.admitted metrics.maxSeriesPerMetric all).map fun series =>
      ⟨counterKey series.1 series.2, all.count series, recent.count series⟩) := by
  refine (List.perm_ext_iff_of_nodup (nodup_counterCells tracks).of_map ?_).mpr fun cell => ?_
  · refine (Admission.nodup_admitted _ all).map fun first second same => ?_
    exact counterKey_inj (CounterCell.mk.inj same).1
  · rw [mem_counterCells, List.mem_map]
    refine exists_congr fun series => ?_
    rw [tracks.counter, expectedCounter]
    by_cases member : series ∈ Admission.admitted metrics.maxSeriesPerMetric all
    · rw [if_pos member, Option.some_inj]
      exact ⟨fun same => ⟨member, same⟩, And.right⟩
    · rw [if_neg member]
      exact ⟨fun none => (by cases none), fun both => (member both.1).elim⟩

/-! ## What is reported -/

/-- The counter among the metrics of a report. -/
def counterMetric (report : List WireCustomMetric) : Option WireCustomMetric :=
  report.find? fun metric => decide (metric.t = .counter)

def summaryMetric (report : List WireCustomMetric) : Option WireCustomMetric :=
  report.find? fun metric => decide (metric.t = .summary)

/-- The cumulative values that a report gives. -/
def values (report : List WireCustomMetric) : NumberRecord := (counterMetric report).elim [] WireCustomMetric.v

/-- The increases that it gives. -/
def increases (report : List WireCustomMetric) : NumberRecord :=
  ((counterMetric report).bind WireCustomMetric.iv).getD []

/-- A finite number, and zero for any other one. -/
def numeric : Number -> Rat
  | .finite value => value
  | _ => 0

/-- The number under a key, zero where there is none. -/
def amount (numbers : NumberRecord) (key : Units) : Rat := (Fields.lookup numbers key).elim 0 numeric

/-- The sum of the numbers of a record. -/
def total (numbers : NumberRecord) : Rat := (numbers.map fun entry => numeric entry.2).sum

theorem counterMetric_collect (metrics : EntryMetrics) (now : Number) :
    counterMetric (metrics.collect now).1 = metrics.collectCounter now := by
  rw [counterMetric, collect, List.find?_append]
  have notCounter : (metrics.collectSummary now).toList.find? (fun metric => decide (metric.t = .counter)) = none := by
    rw [collectSummary]
    split <;> rfl
  rw [notCounter, Option.or_none, collectCounter]
  split <;> rfl

theorem summaryMetric_collect (metrics : EntryMetrics) (now : Number) :
    summaryMetric (metrics.collect now).1 = metrics.collectSummary now := by
  rw [summaryMetric, collect, List.find?_append]
  have notSummary : (metrics.collectCounter now).toList.find? (fun metric => decide (metric.t = .summary)) = none := by
    rw [collectCounter]
    split <;> rfl
  rw [notSummary, Option.none_or, collectSummary]
  split <;> rfl

variable {options}

theorem counterCells_eq_nil (empty : metrics.counters.groups = []) :
    metrics.counterCells = [] := by
  rw [counterCells, Grouping.values, empty]
  rfl

/-- A report gives every counter there is. -/
theorem values_collect (tracks : TracksCounters metrics all recent) (now : Number) :
    values (metrics.collect now).1 = metrics.counterCells.map (fun cell => (cell.key, .finite cell.total)) ∧
      increases (metrics.collect now).1 =
        metrics.counterCells.map (fun cell => (cell.key, .finite cell.sinceCollect)) := by
  have ordinary : forall cell, cell ∈ metrics.counterCells -> cell.key ≠ units "__proto__" := by
    intro cell member
    rcases mem_counterCells.mp member with ⟨series, isCounter⟩
    rw [key_of_counter tracks isCounter]
    exact labelKey_ne _
  have recorded := record_eq_map (nodup_counterCells tracks) ordinary
  rw [values, increases, counterMetric_collect, collectCounter]
  by_cases empty : metrics.counters.groups = []
  · rw [if_pos empty, counterCells_eq_nil empty]
    exact ⟨rfl, rfl⟩
  · rw [if_neg empty]
    exact ⟨recorded _, recorded _⟩

theorem amount_of_mem {numbers : NumberRecord} (distinct : (numbers.map Prod.fst).Nodup) {key : Units} {value : Rat}
    (member : (key, Number.finite value) ∈ numbers) : amount numbers key = value := by
  rw [amount, Fields.lookup_of_mem distinct member]
  rfl

theorem amount_of_absent {numbers : NumberRecord} {key : Units} (absent : key ∉ numbers.map Prod.fst) :
    amount numbers key = 0 := by
  rw [amount, Fields.lookup_eq_none absent]
  rfl

/-- The increase of a series in a report is the number of its entries in the interval. -/
theorem amount_increases (tracks : TracksCounters metrics all recent) (now : Number) (series : Units × Bool) :
    amount (increases (metrics.collect now).1) (counterKey series.1 series.2) =
      if series ∈ Admission.admitted metrics.maxSeriesPerMetric all then recent.count series else 0 := by
  have known := tracks.counter series
  have names : (metrics.counterCells.map fun cell => (cell.key, Number.finite cell.sinceCollect)).map Prod.fst =
      metrics.counterCells.map CounterCell.key := List.map_map
  rw [(values_collect tracks now).2]
  rw [expectedCounter] at known
  split
  · rename_i member
    rw [if_pos member] at known
    have isCell := mem_counterCells.mpr ⟨series, known⟩
    refine amount_of_mem ?_ (List.mem_map_of_mem isCell)
    rw [names]
    exact nodup_counterCells tracks
  · rename_i out
    rw [if_neg out] at known
    rw [Nat.cast_zero]
    refine amount_of_absent ?_
    rw [names]
    intro again
    rcases List.mem_map.mp again with ⟨cell, isCell, isKey⟩
    rcases mem_counterCells.mp isCell with ⟨other, isCounter⟩
    have same : other = series := counterKey_inj ((key_of_counter tracks isCounter).symm.trans isKey)
    rw [<- same, isCounter] at known
    cases known

/-- What is left of a series to report does not change as an entry comes. -/
theorem unreported_snoc (cap : Nat) (came : recent ⊆ all) (last series : Units × Bool) :
    (if series ∈ Admission.admitted cap all then (all.count series : Rat) - recent.count series else 0) =
      if series ∈ Admission.admitted cap (all ++ [last]) then
        ((all ++ [last]).count series : Rat) - (recent ++ [last]).count series
      else 0 := by
  by_cases same : series = last
  · subst same
    rw [List.count_append, List.count_append, List.count_singleton_self]
    by_cases before : series ∈ Admission.admitted cap all
    · rw [if_pos before, if_pos (Admission.mem_admitted_snoc before series), Nat.cast_add, Nat.cast_add,
        add_sub_add_right_eq_sub]
    · rw [if_neg before]
      split
      · rename_i member
        have isNew := Admission.not_mem_of_admitted_snoc member before
        rw [List.count_eq_zero_of_not_mem isNew, List.count_eq_zero_of_not_mem fun inRecent => isNew (came inRecent),
          sub_self]
      · rfl
  · have none : [last].count series = 0 := List.count_eq_zero_of_not_mem fun member =>
      same (List.mem_singleton.mp member)
    simp only [Admission.mem_admitted_snoc_of_ne same, List.count_append, none, Nat.add_zero]

/-- What was reported of a series and what came since the last report are all its
entries. -/
theorem sum_increases_run (events : List Event) (series : Units × Bool) :
    ((run options events).reports.map fun report => amount (increases report) (counterKey series.1 series.2)).sum =
      if series ∈ Admission.admitted (ceiling options) (counted events) then
        ((counted events).count series : Rat) - (counted (interval events)).count series
      else 0 := by
  induction events using List.reverseRecOn with
  | nil => rfl
  | append_singleton events event inductionHypothesis =>
      have tracks := tracks_run options events
      cases event with
      | observe input random =>
          have sameReports : (run options (events ++ [.observe input random])).reports = (run options events).reports := by
            rw [run, List.foldl_append]
            rfl
          rw [sameReports, inductionHypothesis, interval_observe, counted_observe, counted_observe]
          exact unreported_snoc (ceiling options) tracks.counters.recentCame _ series
      | collect now =>
          have moreReports : (run options (events ++ [.collect now])).reports =
              (run options events).reports ++ [((run options events).metrics.collect now).1] := by
            rw [run, List.foldl_append]
            rfl
          rw [moreReports, List.map_append, List.sum_append, inductionHypothesis, List.map_singleton, List.sum_singleton,
            amount_increases tracks.counters, tracks.cap, counted_collect, interval_collect]
          change _ = if _ then ((counted events).count series : Rat) - (0 : Nat) else 0
          split
          · rw [sub_add_cancel, Nat.cast_zero, sub_zero]
          · exact add_zero 0

/-! ## Quantiles -/

theorem ordered_quantiles : HALF ≤ NINETY_FIVE ∧ NINETY_FIVE ≤ NINETY_NINE :=
  ⟨Number.nearest_mono (by norm_num), Number.nearest_mono (by norm_num)⟩

/-- The place of a quantile in as many numbers. -/
def place (length : Nat) (q : Rat) : Nat :=
  (min ((length : Int) - 1) (max 0 (⌈Number.nearest (q * length)⌉ - 1))).toNat

theorem place_lt {length : Nat} (positive : 0 < length) (q : Rat) : place length q < length := by
  rw [place]
  omega

theorem place_mono (length : Nat) {q r : Rat} (atMost : q ≤ r) : place length q ≤ place length r := by
  have scaled : q * length ≤ r * length := mul_le_mul_of_nonneg_right atMost (Nat.cast_nonneg length)
  have ceilings := Int.ceil_mono (Number.nearest_mono scaled)
  rw [place, place]
  omega

theorem quantile_eq {ascending : List Rat} (some : ascending ≠ []) (q : Rat) :
    Exists fun value => quantile ascending q = .finite value ∧ ascending[place ascending.length q]? = .some value := by
  have positive : 0 < ascending.length := List.length_pos_of_ne_nil some
  have inRange := place_lt positive q
  refine ⟨ascending[place ascending.length q], ?_, List.getElem?_eq_getElem inRange⟩
  have notNegative : ¬ min ((ascending.length : Int) - 1) (max 0 (⌈Number.nearest (q * ascending.length)⌉ - 1)) < 0 := by
    omega
  have isPlace : ascending[(min ((ascending.length : Int) - 1)
      (max 0 (⌈Number.nearest (q * ascending.length)⌉ - 1))).toNat]? =
      .some ascending[place ascending.length q] := List.getElem?_eq_getElem inRange
  rw [quantile, if_neg notNegative, isPlace]
  rfl

/-- The later of two places in an ascending list has the greater number. -/
theorem le_of_place {ascending : List Rat} (sorted : ascending.Pairwise (· ≤ ·)) {first second : Nat}
    (atMost : first ≤ second) {low high : Rat} (isLow : ascending[first]? = some low)
    (isHigh : ascending[second]? = some high) : low ≤ high := by
  rcases List.getElem?_eq_some_iff.mp isLow with ⟨firstInRange, rfl⟩
  rcases List.getElem?_eq_some_iff.mp isHigh with ⟨secondInRange, rfl⟩
  rcases Nat.eq_or_lt_of_le atMost with same | before
  · subst same
    exact le_refl _
  · exact List.pairwise_iff_getElem.mp sorted first second firstInRange secondInRange before

/-- The quantiles of a reservoir that is not empty are in it, in their order. -/
theorem quantiles_ordered (some : cell.reservoir ≠ []) :
    Exists fun half => Exists fun ninetyFive => Exists fun ninetyNine =>
      (quantileOf HALF cell = .finite half ∧ quantileOf NINETY_FIVE cell = .finite ninetyFive ∧
        quantileOf NINETY_NINE cell = .finite ninetyNine) ∧
      (half ∈ cell.reservoir ∧ ninetyFive ∈ cell.reservoir ∧ ninetyNine ∈ cell.reservoir) ∧
      half ≤ ninetyFive ∧ ninetyFive ≤ ninetyNine := by
  have perm := List.perm_insertionSort (· ≤ ·) cell.reservoir
  have sorted := List.pairwise_insertionSort (· ≤ ·) cell.reservoir
  have ascending : (cell.reservoir.insertionSort fun left right => left ≤ right) ≠ [] :=
    fun none => some (List.nil_perm.mp (none ▸ perm))
  rcases quantile_eq ascending HALF with ⟨half, isHalf, atHalf⟩
  rcases quantile_eq ascending NINETY_FIVE with ⟨ninetyFive, isNinetyFive, atNinetyFive⟩
  rcases quantile_eq ascending NINETY_NINE with ⟨ninetyNine, isNinetyNine, atNinetyNine⟩
  have inside : forall value, value ∈ cell.reservoir.insertionSort (· ≤ ·) -> value ∈ cell.reservoir :=
    fun value => perm.mem_iff.mp
  refine ⟨half, ninetyFive, ninetyNine, ⟨isHalf, isNinetyFive, isNinetyNine⟩, ⟨?_, ?_, ?_⟩, ?_, ?_⟩
  · exact inside half (List.mem_of_getElem? atHalf)
  · exact inside ninetyFive (List.mem_of_getElem? atNinetyFive)
  · exact inside ninetyNine (List.mem_of_getElem? atNinetyNine)
  · exact le_of_place sorted (place_mono _ ordered_quantiles.1) atHalf atNinetyFive
  · exact le_of_place sorted (place_mono _ ordered_quantiles.2) atNinetyFive atNinetyNine

/-! ## The summaries of a report -/

theorem mem_summaryCells :
    cell ∈ metrics.summaryCells <->
      (Exists fun type => metrics.summaries.lookup type = some cell) ∧ cell.count ≠ 0 := by
  rw [summaryCells, List.mem_filter, decide_eq_true_iff, Grouping.values]
  refine and_congr_left fun _some => ?_
  constructor
  · intro member
    rcases List.mem_map.mp member with ⟨⟨type, _⟩, isGroup, rfl⟩
    exact ⟨type, Grouping.mem_iff_lookup.mp isGroup⟩
  · rintro ⟨type, isFound⟩
    exact List.mem_map_of_mem (f := Prod.snd) (Grouping.mem_iff_lookup.mpr isFound)

theorem nodup_summaryCells {all : List Units} {recent : List (Units × Rat)}
    (tracks : TracksSummaries metrics all recent) : (metrics.summaryCells.map SummaryCell.key).Nodup := by
  have keyed : forall group, group ∈ metrics.summaries.groups -> group.2.key = summaryKey group.1 :=
    fun group member => (tracks.found group.1 group.2 (Grouping.mem_iff_lookup.mp member)).2.key
  rw [summaryCells, Grouping.values]
  refine List.Nodup.sublist (List.filter_sublist.map _) ?_
  rw [List.map_map]
  have names : metrics.summaries.groups.map (SummaryCell.key ∘ Prod.snd) =
      (metrics.summaries.groups.map Prod.fst).map summaryKey := by
    rw [List.map_map]
    exact List.map_congr_left keyed
  rw [names]
  exact metrics.summaries.distinct.map fun _first _second => summaryKey_inj

/-- What a summary says under a key about the durations of an interval.  Its quantiles are
durations when the reservoir has a place. -/
structure Summarises (reservoirSize : Nat) (metric : WireCustomMetric) (key : Units) (durations : List Rat) :
    Prop where
  count : metric.ct.bind (Fields.lookup · key) = some (.finite durations.length)
  sum : metric.sm.bind (Fields.lookup · key) = some (safe (doubleSum durations))
  greatest : Exists fun greatest => greatest ∈ durations ∧ (forall duration, duration ∈ durations -> duration ≤ greatest) ∧
    metric.mx.bind (Fields.lookup · key) = some (.finite greatest) ∧
    (0 < reservoirSize -> Exists fun half => Exists fun ninetyFive => Exists fun ninetyNine =>
      (metric.q50.bind (Fields.lookup · key) = some (.finite half) ∧
        metric.q95.bind (Fields.lookup · key) = some (.finite ninetyFive) ∧
        metric.q99.bind (Fields.lookup · key) = some (.finite ninetyNine)) ∧
      (half ∈ durations ∧ ninetyFive ∈ durations ∧ ninetyNine ∈ durations) ∧
      half ≤ ninetyFive ∧ ninetyFive ≤ ninetyNine ∧ ninetyNine ≤ greatest)

/-- A cell with durations is found in every record that is made of the cells. -/
theorem lookup_summaries {all : List Units} {recent : List (Units × Rat)} (tracks : TracksSummaries metrics all recent)
    (member : cell ∈ metrics.summaryCells) (value : SummaryCell -> Number) :
    Fields.lookup (record SummaryCell.key value metrics.summaryCells) cell.key = some (value cell) := by
  have distinct := nodup_summaryCells tracks
  rw [record_eq_map distinct]
  · refine Fields.lookup_of_mem ?_ (List.mem_map_of_mem member)
    rw [List.map_map]
    exact distinct
  · intro other isOther
    rcases mem_summaryCells.mp isOther with ⟨⟨type, isFound⟩, _⟩
    rw [(tracks.found type other isFound).2.key]
    exact labelKey_ne _

/-- What the cell of a type says in a report. -/
theorem summarises_cell {all : List Units} {recent : List (Units × Rat)} (tracks : TracksSummaries metrics all recent)
    (now : Number) (member : cell ∈ metrics.summaryCells) (isFound : metrics.summaries.lookup type = some cell) :
    Exists fun metric => summaryMetric (metrics.collect now).1 = some metric ∧
      Summarises metrics.sampleSize metric (summaryKey type) (durationsOf type recent) := by
  have describes := (tracks.found type cell isFound).2
  have lookups := lookup_summaries tracks member
  rw [describes.key] at lookups
  have someCells : metrics.summaryCells ≠ [] := List.ne_nil_of_mem member
  rw [summaryMetric_collect, collectSummary, if_neg someCells]
  refine ⟨_, rfl, ?_, ?_, ?_⟩
  · refine (lookups _).trans ?_
    rw [describes.count]
    rfl
  · refine (lookups _).trans ?_
    rw [describes.sum]
  · have isGreatest := describes.max
    have someDurations : durationsOf type recent ≠ [] := by
      intro none
      have noCount := describes.count
      rw [none] at noCount
      exact (mem_summaryCells.mp member).2 noCount
    cases isMax : cell.max with
    | nan =>
        rw [isMax] at isGreatest
        cases isGreatest
    | infinity negative =>
        rw [isMax] at isGreatest
        generalize durationsOf type recent = durations at isGreatest someDurations
        cases isGreatest
        exact (someDurations rfl).elim
    | finite greatest =>
        rw [isMax] at isGreatest
        cases isGreatest with
        | some isDuration bounds =>
            refine ⟨greatest, isDuration, bounds, ?_, fun room => ?_⟩
            · refine (lookups _).trans ?_
              rw [isMax]
              rfl
            · have someReservoir : cell.reservoir ≠ [] := by
                have filled := describes.filled
                have positive := List.length_pos_of_ne_nil someDurations
                intro none
                rw [none, List.length_nil] at filled
                omega
              rcases quantiles_ordered someReservoir with
                ⟨half, ninetyFive, ninetyNine, ⟨isHalf, isNinetyFive, isNinetyNine⟩, ⟨inHalf, inNinetyFive, inNinetyNine⟩,
                  ordered⟩
              have inside := describes.reservoir
              refine ⟨half, ninetyFive, ninetyNine, ⟨?_, ?_, ?_⟩, ⟨inside inHalf, inside inNinetyFive, inside inNinetyNine⟩,
                ordered.1, ordered.2, bounds ninetyNine (inside inNinetyNine)⟩
              · exact (lookups _).trans (congrArg some isHalf)
              · exact (lookups _).trans (congrArg some isNinetyFive)
              · exact (lookups _).trans (congrArg some isNinetyNine)

/-- A type that has a summary and durations in the interval is in the report. -/
theorem summary_complete {all : List Units} {recent : List (Units × Rat)} (tracks : TracksSummaries metrics all recent)
    (now : Number) (member : type ∈ Admission.admitted metrics.maxSeriesPerMetric all)
    (some : durationsOf type recent ≠ []) :
    Exists fun metric => summaryMetric (metrics.collect now).1 = .some metric ∧
      Summarises metrics.sampleSize metric (summaryKey type) (durationsOf type recent) := by
  cases isFound : metrics.summaries.lookup type with
  | none => exact (tracks.absent type isFound member).elim
  | some cell =>
      refine summarises_cell tracks now (mem_summaryCells.mpr ⟨⟨type, isFound⟩, fun noCount => some ?_⟩) isFound
      have describes := (tracks.found type cell isFound).2
      exact List.eq_nil_of_length_eq_zero (describes.count.symm.trans noCount)

/-- A summary of a report is that of a type with durations in the interval. -/
theorem summary_sound {all : List Units} {recent : List (Units × Rat)} (tracks : TracksSummaries metrics all recent)
    (now : Number) {metric : WireCustomMetric} {numbers : NumberRecord}
    (isMetric : summaryMetric (metrics.collect now).1 = some metric) (isCount : metric.ct = some numbers) {key : Units}
    (isKey : key ∈ numbers.map Prod.fst) :
    Exists fun type => key = summaryKey type ∧ durationsOf type recent ≠ [] ∧
      type ∈ Admission.admitted metrics.maxSeriesPerMetric all := by
  rw [summaryMetric_collect, collectSummary] at isMetric
  split at isMetric
  · cases isMetric
  · cases isMetric
    have isRecord := Option.some.inj isCount
    have ordinary : forall cell, cell ∈ metrics.summaryCells -> cell.key ≠ units "__proto__" := by
      intro other isOther
      rcases mem_summaryCells.mp isOther with ⟨⟨type, isFound⟩, _⟩
      rw [(tracks.found type other isFound).2.key]
      exact labelKey_ne _
    rw [<- isRecord, record_eq_map (nodup_summaryCells tracks) ordinary, List.map_map] at isKey
    rcases List.mem_map.mp isKey with ⟨cell, isCell, rfl⟩
    rcases mem_summaryCells.mp isCell with ⟨⟨type, isFound⟩, someCount⟩
    rcases tracks.found type cell isFound with ⟨member, describes⟩
    refine ⟨type, describes.key, fun none => someCount ?_, member⟩
    rw [describes.count, none]
    rfl

/-! ## Conservation -/

theorem length_summaries {all : List Units} {recent : List (Units × Rat)}
    (tracks : TracksSummaries metrics all recent) :
    metrics.summaries.groups.length ≤ metrics.maxSeriesPerMetric := by
  have inside : (metrics.summaries.groups.map Prod.fst).Subperm (Admission.admitted metrics.maxSeriesPerMetric all) := by
    refine List.subperm_of_subset metrics.summaries.distinct fun type isKey => ?_
    rcases List.mem_map.mp isKey with ⟨⟨_, cell⟩, member, rfl⟩
    exact (tracks.found _ cell (Grouping.mem_iff_lookup.mp member)).1
  have atMost := inside.length_le
  rw [List.length_map] at atMost
  exact atMost.trans (Admission.length_admitted_le _ all)

/-- The counters and the refused entries are all entries. -/
theorem total_values (tracks : TracksCounters metrics all recent) (now : Number) :
    total (values (metrics.collect now).1) + Admission.refused metrics.maxSeriesPerMetric all = all.length := by
  have sums : (metrics.counterCells.map CounterCell.total).sum =
      ((Admission.admitted metrics.maxSeriesPerMetric all).map fun series => all.count series).sum := by
    have perm := (perm_counterCells tracks).map CounterCell.total
    rw [List.map_map] at perm
    exact perm.sum_eq
  have isTotal : total (values (metrics.collect now).1) = ((metrics.counterCells.map CounterCell.total).sum : Nat) := by
    rw [(values_collect tracks now).1, total, List.map_map, Nat.cast_list_sum, List.map_map]
    rfl
  rw [isTotal, sums, <- Nat.cast_add, Admission.sum_count_add_refused]

theorem length_counterCells (tracks : TracksCounters metrics all recent) :
    metrics.counterCells.length ≤ metrics.maxSeriesPerMetric := by
  rw [(perm_counterCells tracks).length_eq, List.length_map]
  exact Admission.length_admitted_le _ all

/-- A value in a report is the number of the entries of its series. -/
theorem value_of_mem (tracks : TracksCounters metrics all recent) (now : Number) {key : Units} {value : Number}
    (member : (key, value) ∈ values (metrics.collect now).1) :
    Exists fun series : Units × Bool => key = counterKey series.1 series.2 ∧ value = .finite (all.count series) ∧
      series ∈ Admission.admitted metrics.maxSeriesPerMetric all := by
  rw [(values_collect tracks now).1] at member
  rcases List.mem_map.mp member with ⟨cell, isCell, isEntry⟩
  have inOrder := (perm_counterCells tracks).mem_iff.mp isCell
  rcases List.mem_map.mp inOrder with ⟨series, isAdmitted, rfl⟩
  exact ⟨series, (Prod.mk.inj isEntry).1.symm, (Prod.mk.inj isEntry).2.symm, isAdmitted⟩

/-- At every collect, whatever was recorded and collected before and whatever was drawn:
the value of every counter is the sum of the increases reported so far, and the number of
the entries of its series; the counters and the entries that were refused a counter are all
the entries; what was refused a counter or a summary is told as dropped; every summary is
that of the durations of its type since the last collect; and there are no more series
than may be. -/
theorem metrics_conserve (events : List Event) (now : Number) :
    let session := run options events
    let report := (session.metrics.collect now).1
    let durations := fun type => durationsOf type (timed (interval events))
    (forall key value, (key, value) ∈ values report ->
      value = .finite ((session.reports ++ [report]).map fun reported => amount (increases reported) key).sum ∧
        Exists fun series : Units × Bool => key = counterKey series.1 series.2 ∧
          value = .finite ((counted events).count series)) ∧
    total (values report) + Admission.refused (ceiling options) (counted events) = (counted events).length ∧
    session.metrics.dropped = Admission.refused (ceiling options) (counted events) +
      Admission.refused (ceiling options) ((timed events).map Prod.fst) ∧
    (forall metric numbers key, summaryMetric report = some metric -> metric.ct = some numbers ->
      key ∈ numbers.map Prod.fst -> Exists fun type => key = summaryKey type ∧ durations type ≠ [] ∧
        Summarises (reservoirSize options) metric key (durations type)) ∧
    (forall type, type ∈ Admission.admitted (ceiling options) ((timed events).map Prod.fst) -> durations type ≠ [] ->
      Exists fun metric => summaryMetric report = some metric ∧
        Summarises (reservoirSize options) metric (summaryKey type) (durations type)) ∧
    (values report).length ≤ ceiling options ∧ session.metrics.counterCells.length ≤ ceiling options ∧
      session.metrics.summaries.groups.length ≤ ceiling options := by
  have tracks := tracks_run options events
  have isCap := tracks.cap
  have counters := tracks.counters
  have summaries := tracks.summaries
  intro session report durations
  have lengths := length_counterCells counters
  have isLength : (values report).length = session.metrics.counterCells.length := by
    rw [(values_collect counters now).1, List.length_map]
  refine ⟨fun key value member => ?_, ?_, tracks.dropped, ?_, ?_, ?_, ?_, ?_⟩
  · rcases value_of_mem counters now member with ⟨series, rfl, isCount, isAdmitted⟩
    refine ⟨isCount.trans (congrArg Number.finite ?_), series, rfl, isCount⟩
    have reported := @sum_increases_run options (events ++ [.collect now]) series
    rw [run, List.foldl_append, counted_collect, interval_collect, <- isCap, if_pos isAdmitted] at reported
    refine Eq.trans ?_ reported.symm
    change _ = _ - ((0 : Nat) : Rat)
    rw [Nat.cast_zero, sub_zero]
  · rw [<- isCap]
    exact total_values counters now
  · intro metric numbers key isMetric isCount isKey
    rcases summary_sound summaries now isMetric isCount isKey with ⟨type, rfl, some, isAdmitted⟩
    rcases summary_complete summaries now isAdmitted some with ⟨other, isOther, summarises⟩
    cases isMetric.symm.trans isOther
    rw [tracks.size] at summarises
    exact ⟨type, rfl, some, summarises⟩
  · intro type member some
    rw [<- isCap] at member
    rw [<- tracks.size]
    exact summary_complete summaries now member some
  · rw [isLength, <- isCap]
    exact lengths
  · rw [<- isCap]
    exact lengths
  · rw [<- isCap]
    exact length_summaries summaries

/-- A recorded entry with a duration. -/
def timedEntry (type : Units) (duration : Rat) : Event :=
  .observe { type := type, content := .null, durationMs := some (.finite duration) } 0

/-- A number of the summary of a report. -/
def summaryNumber (report : List WireCustomMetric) (numbers : WireCustomMetric -> Option NumberRecord)
    (key : Units) : Option Number :=
  (summaryMetric report).bind fun metric => (numbers metric).bind (Fields.lookup · key)

/-- The sum of two durations that overflows is told as zero; and a sample size below one
leaves a reservoir without a place, whose quantiles are no durations. -/
theorem sum_not_exact :
    (summaryNumber ((run {} [timedEntry [97] (2 ^ 1023), timedEntry [97] (2 ^ 1023)]).metrics.collect (.finite 0)).1
        WireCustomMetric.sm (summaryKey [97]) ≠
      some (.finite (durationsOf [97]
        (timed (interval [timedEntry [97] (2 ^ 1023), timedEntry [97] (2 ^ 1023)]))).sum)) ∧
    forall duration, duration ∈ durationsOf [97] (timed (interval [timedEntry [97] 5])) ->
      summaryNumber ((run { sampleSize := some (.finite (1 / 2)) } [timedEntry [97] 5]).metrics.collect (.finite 0)).1
        WireCustomMetric.q50 (summaryKey [97]) ≠ some (.finite duration) := by
  refine ⟨by decide +kernel, ?_⟩
  have durations : durationsOf [97] (timed (interval [timedEntry [97] 5])) = [5] := by decide +kernel
  rw [durations]
  intro duration member
  rw [List.mem_singleton.mp member]
  decide +kernel

end EntryMetrics
end Observe
end Telescope
