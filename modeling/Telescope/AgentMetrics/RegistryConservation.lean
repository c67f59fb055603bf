import Telescope.AgentMetrics.LabelKey

namespace Telescope
namespace AgentMetrics

/-!
# What the registry keeps of its points

Every point either lands in the series of its own labels or is tallied as dropped.  So a
counter adds up to the points that landed, and a histogram counts them, however they
came and whatever room there was.
-/

/-! ## Buckets -/

/-- The buckets do not decrease along the bounds, and none exceeds the count. -/
structure HistogramSeries.Ordered (cell : HistogramSeries) : Prop where
  length : cell.buckets.length = AGENT_METRIC_BUCKETS_MS.length
  ascending : cell.buckets.Pairwise fun lower upper => lower ≤ upper
  bounded : forall bucket, bucket ∈ cell.buckets -> bucket ≤ cell.count

theorem mem_zipWith_count {value : Rat} {bounds : List Rat} {buckets : List Nat} {bucket : Nat}
    (member : bucket ∈ List.zipWith (fun bound count => if value ≤ bound then count + 1 else count) bounds buckets) :
    Exists fun bound => Exists fun count => bound ∈ bounds ∧ count ∈ buckets ∧
      bucket = if value ≤ bound then count + 1 else count := by
  induction bounds generalizing buckets with
  | nil => cases member
  | cons bound bounds inductionHypothesis =>
      cases buckets with
      | nil => cases member
      | cons count counts =>
          rcases List.mem_cons.mp member with isHead | later
          · exact ⟨bound, count, List.mem_cons_self, List.mem_cons_self, isHead⟩
          · rcases inductionHypothesis later with ⟨other, there, isBound, isCount, isBucket⟩
            exact ⟨other, there, List.mem_cons_of_mem _ isBound, List.mem_cons_of_mem _ isCount, isBucket⟩

theorem pairwise_zipWith_count (value : Rat) {bounds : List Rat} {buckets : List Nat}
    (ascendingBounds : bounds.Pairwise fun lower upper => lower ≤ upper)
    (ascending : buckets.Pairwise fun lower upper => lower ≤ upper) :
    (List.zipWith (fun bound count => if value ≤ bound then count + 1 else count) bounds buckets).Pairwise
      fun lower upper => lower ≤ upper := by
  induction bounds generalizing buckets with
  | nil => exact List.Pairwise.nil
  | cons bound bounds inductionHypothesis =>
      cases buckets with
      | nil => exact List.Pairwise.nil
      | cons count counts =>
          rw [List.pairwise_cons] at ascendingBounds ascending
          refine List.pairwise_cons.mpr ⟨fun bucket member => ?_, inductionHypothesis ascendingBounds.2 ascending.2⟩
          rcases mem_zipWith_count member with ⟨other, there, isBound, isCount, rfl⟩
          have wider := ascendingBounds.1 other isBound
          have atLeast := ascending.1 there isCount
          change (if value ≤ bound then count + 1 else count) ≤ _
          by_cases under : value ≤ bound
          · rw [if_pos under, if_pos (under.trans wider)]
            exact Nat.succ_le_succ atLeast
          · rw [if_neg under]
            split
            · exact Nat.le_succ_of_le atLeast
            · exact atLeast

theorem bounds_ascending : AGENT_METRIC_BUCKETS_MS.Pairwise fun lower upper => lower ≤ upper := by
  unfold AGENT_METRIC_BUCKETS_MS
  decide +kernel

theorem HistogramSeries.Ordered.new (labels : MetricAttributes) : (HistogramSeries.new labels).Ordered where
  length := List.length_replicate
  ascending := List.pairwise_replicate.mpr (.inr (Nat.le_refl 0))
  bounded := fun _bucket member => (List.eq_of_mem_replicate member).le

theorem HistogramSeries.Ordered.add {cell : HistogramSeries} (ordered : cell.Ordered) (value : Rat) :
    (cell.add value).Ordered where
  length := by
    change (List.zipWith _ _ _).length = _
    rw [List.length_zipWith, ordered.length, Nat.min_self]
  ascending := pairwise_zipWith_count value bounds_ascending ordered.ascending
  bounded := by
    intro bucket member
    change bucket ≤ cell.count + 1
    rcases mem_zipWith_count member with ⟨bound, count, _, isCount, rfl⟩
    have atMost := ordered.bounded count isCount
    split <;> omega

/-! ## The account of the points -/

namespace AgentMetricsRegistry

/-- The point lands in a series. -/
def accepts (maxSeries : Nat) (registry : AgentMetricsRegistry) (point : MetricPoint) : Bool :=
  match point.metric.type with
  | .counter => hasRoom maxSeries (registry.counters point.metric) (labelKey point.attributes)
  | .histogram => hasRoom maxSeries (registry.histograms point.metric) (labelKey point.attributes)

/-- The points that land in a series, in the order in which they come. -/
def keptPoints (maxSeries : Nat) (registry : AgentMetricsRegistry) : List MetricPoint -> List MetricPoint
  | [] => []
  | point :: points =>
      (if registry.accepts maxSeries point then [point] else []) ++
        keptPoints maxSeries (registry.add maxSeries point) points

/-- The labels of the series under a key. -/
def labelsAt (registry : AgentMetricsRegistry) (metric : AgentMetricKey) (key : Units) : Option MetricAttributes :=
  match metric.type with
  | .counter => ((registry.counters metric).lookup key).map CounterSeries.labels
  | .histogram => ((registry.histograms metric).lookup key).map HistogramSeries.labels

/-- The number of series of a metric. -/
def seriesCount (registry : AgentMetricsRegistry) (metric : AgentMetricKey) : Nat :=
  match metric.type with
  | .counter => (registry.counters metric).groups.length
  | .histogram => (registry.histograms metric).groups.length

/-- What a counter adds up to. -/
def counterTotal (registry : AgentMetricsRegistry) (metric : AgentMetricKey) : Rat :=
  (registry.counters metric).total CounterSeries.value

/-- The observation counts of the series of a histogram. -/
def histogramTotal (registry : AgentMetricsRegistry) (metric : AgentMetricKey) : Nat :=
  (registry.histograms metric).total HistogramSeries.count

/-- The points of a metric. -/
def pointsOf (metric : AgentMetricKey) (points : List MetricPoint) : List MetricPoint :=
  points.filter fun point => decide (point.metric = metric)

/-- How the series stand to all points and to those that landed in one. -/
structure Accounts (maxSeries : Nat) (points kept : List MetricPoint) (registry : AgentMetricsRegistry) : Prop where
  tallied : forall metric,
    (pointsOf metric kept).length + registry.dropped metric.name = (pointsOf metric points).length
  summed : forall metric, metric.type = .counter ->
    registry.counterTotal metric = ((pointsOf metric kept).map MetricPoint.value).sum
  counted : forall metric, metric.type = .histogram ->
    registry.histogramTotal metric = (pointsOf metric kept).length
  ordered : forall metric, (registry.histograms metric).Holds fun _key cell => cell.Ordered
  bounded : forall metric, registry.seriesCount metric ≤ maxSeries
  landed : forall point, point ∈ kept ->
    registry.labelsAt point.metric (labelKey point.attributes) = some point.attributes
  made : forall metric key labels, registry.labelsAt metric key = some labels ->
    Exists fun point => point ∈ kept ∧ point.metric = metric ∧ labelKey point.attributes = key ∧
      point.attributes = labels

end AgentMetricsRegistry

theorem AgentMetricKey.name_injective {left right : AgentMetricKey} (same : left.name = right.name) :
    left = right := by
  cases left <;> cases right <;> first | rfl | exact absurd same (by decide)

namespace AgentMetricsRegistry

variable {maxSeries : Nat} {registry : AgentMetricsRegistry} {point : MetricPoint}

/-! ### A point that lands -/

theorem add_counter (isCounter : point.metric.type = .counter) (accepted : registry.accepts maxSeries point = true) :
    registry.add maxSeries point =
      { registry with
        counters := Function.update registry.counters point.metric
          ((registry.counters point.metric).upsert (labelKey point.attributes)
            ((CounterSeries.new point.attributes).add point.value) fun cell => cell.add point.value) } := by
  rw [accepts, isCounter] at accepted
  rw [add, isCounter]
  exact if_pos accepted

theorem add_histogram (isHistogram : point.metric.type = .histogram)
    (accepted : registry.accepts maxSeries point = true) :
    registry.add maxSeries point =
      { registry with
        histograms := Function.update registry.histograms point.metric
          ((registry.histograms point.metric).upsert (labelKey point.attributes)
            ((HistogramSeries.new point.attributes).add point.value) fun cell => cell.add point.value) } := by
  rw [accepts, isHistogram] at accepted
  rw [add, isHistogram]
  exact if_pos accepted

theorem add_dropped (refused : registry.accepts maxSeries point = false) :
    registry.add maxSeries point = registry.drop point.metric.name := by
  rw [accepts] at refused
  rw [add]
  cases kind : point.metric.type with
  | counter =>
      rw [kind] at refused
      exact if_neg (Bool.eq_false_iff.mp refused)
  | histogram =>
      rw [kind] at refused
      exact if_neg (Bool.eq_false_iff.mp refused)

theorem elim_labels {ν : Type} (labels : ν -> MetricAttributes) (found : Option ν) (first : ν) (change : ν -> ν)
    (keeps : forall cell, labels (change cell) = labels cell) :
    labels (found.elim first change) = (found.map labels).getD (labels first) := by
  cases found with
  | none => rfl
  | some cell => exact keeps cell

/-- The series of the point has its labels, unless it had others before. -/
theorem labelsAt_add (accepted : registry.accepts maxSeries point = true) (metric : AgentMetricKey) (key : Units) :
    (registry.add maxSeries point).labelsAt metric key =
      if metric = point.metric ∧ key = labelKey point.attributes then
        some ((registry.labelsAt metric key).getD point.attributes)
      else registry.labelsAt metric key := by
  by_cases same : metric = point.metric
  · subst same
    rw [labelsAt, labelsAt]
    cases kind : point.metric.type with
    | counter =>
        rw [add_counter kind accepted]
        dsimp only
        rw [Function.update_self, Grouping.lookup_upsert]
        by_cases isKey : key = labelKey point.attributes
        · rw [if_pos isKey, if_pos ⟨rfl, isKey⟩, isKey, Option.map_some]
          exact congrArg some (elim_labels CounterSeries.labels _ _ _ fun _ => rfl)
        · rw [if_neg isKey, if_neg fun both => isKey both.2]
    | histogram =>
        rw [add_histogram kind accepted]
        dsimp only
        rw [Function.update_self, Grouping.lookup_upsert]
        by_cases isKey : key = labelKey point.attributes
        · rw [if_pos isKey, if_pos ⟨rfl, isKey⟩, isKey, Option.map_some]
          exact congrArg some (elim_labels HistogramSeries.labels _ _ _ fun _ => rfl)
        · rw [if_neg isKey, if_neg fun both => isKey both.2]
  · rw [if_neg fun both => same both.1, labelsAt, labelsAt]
    cases kind : point.metric.type with
    | counter =>
        rw [add_counter kind accepted]
        dsimp only
        rw [Function.update_of_ne same]
    | histogram =>
        rw [add_histogram kind accepted]
        dsimp only
        rw [Function.update_of_ne same]

/-- There is a series more only where there was room for it. -/
theorem seriesCount_add_le (accepted : registry.accepts maxSeries point = true) {metric : AgentMetricKey}
    (bounded : registry.seriesCount metric ≤ maxSeries) :
    (registry.add maxSeries point).seriesCount metric ≤ maxSeries := by
  have grown : forall {ν : Type} (series : Grouping Units ν) (key : Units) (first : ν) (change : ν -> ν),
      hasRoom maxSeries series key = true -> series.groups.length ≤ maxSeries ->
        (series.upsert key first change).groups.length ≤ maxSeries := by
    intro ν series key first change room atMost
    rw [Grouping.length_upsert]
    rw [hasRoom, Bool.or_eq_true, decide_eq_true_eq] at room
    split
    · exact atMost
    · rename_i absent
      exact room.resolve_left absent
  rw [seriesCount] at bounded ⊢
  by_cases same : metric = point.metric
  · subst same
    rw [accepts] at accepted
    cases kind : point.metric.type with
    | counter =>
        rw [kind] at accepted bounded
        rw [add_counter kind (by rw [accepts, kind]; exact accepted)]
        dsimp only
        rw [Function.update_self]
        exact grown _ _ _ _ accepted bounded
    | histogram =>
        rw [kind] at accepted bounded
        rw [add_histogram kind (by rw [accepts, kind]; exact accepted)]
        dsimp only
        rw [Function.update_self]
        exact grown _ _ _ _ accepted bounded
  · cases kind : point.metric.type with
    | counter =>
        rw [add_counter kind accepted]
        dsimp only
        rw [Function.update_of_ne same]
        exact bounded
    | histogram =>
        rw [add_histogram kind accepted]
        dsimp only
        rw [Function.update_of_ne same]
        exact bounded

theorem counterTotal_add (accepted : registry.accepts maxSeries point = true) {metric : AgentMetricKey}
    (isCounter : metric.type = .counter) :
    (registry.add maxSeries point).counterTotal metric =
      registry.counterTotal metric + if point.metric = metric then point.value else 0 := by
  rw [counterTotal, counterTotal]
  by_cases same : point.metric = metric
  · subst same
    rw [if_pos rfl, add_counter isCounter accepted]
    dsimp only
    rw [Function.update_self]
    exact Grouping.total_upsert _ (zero_add point.value) fun _ => rfl
  · rw [if_neg same, add_zero]
    cases kind : point.metric.type with
    | counter =>
        rw [add_counter kind accepted]
        dsimp only
        rw [Function.update_of_ne (Ne.symm same)]
    | histogram => rw [add_histogram kind accepted]

theorem histogramTotal_add (accepted : registry.accepts maxSeries point = true) {metric : AgentMetricKey}
    (isHistogram : metric.type = .histogram) :
    (registry.add maxSeries point).histogramTotal metric =
      registry.histogramTotal metric + if point.metric = metric then 1 else 0 := by
  rw [histogramTotal, histogramTotal]
  by_cases same : point.metric = metric
  · subst same
    rw [if_pos rfl, add_histogram isHistogram accepted]
    dsimp only
    rw [Function.update_self]
    exact Grouping.total_upsert _ rfl fun _ => rfl
  · rw [if_neg same, add_zero]
    cases kind : point.metric.type with
    | counter => rw [add_counter kind accepted]
    | histogram =>
        rw [add_histogram kind accepted]
        dsimp only
        rw [Function.update_of_ne (Ne.symm same)]

theorem ordered_add (accepted : registry.accepts maxSeries point = true) {metric : AgentMetricKey}
    (ordered : (registry.histograms metric).Holds fun _key cell => cell.Ordered) :
    ((registry.add maxSeries point).histograms metric).Holds fun _key cell => cell.Ordered := by
  cases kind : point.metric.type with
  | counter =>
      rw [add_counter kind accepted]
      exact ordered
  | histogram =>
      rw [add_histogram kind accepted]
      dsimp only
      by_cases same : metric = point.metric
      · subst same
        rw [Function.update_self]
        exact Grouping.holds_upsert ordered ((HistogramSeries.Ordered.new _).add _) fun _ before => before.add _
      · rw [Function.update_of_ne same]
        exact ordered

theorem dropped_add (accepted : registry.accepts maxSeries point = true) :
    (registry.add maxSeries point).dropped = registry.dropped := by
  cases kind : point.metric.type with
  | counter => rw [add_counter kind accepted]
  | histogram => rw [add_histogram kind accepted]

/-! ### One point and all points -/

theorem pointsOf_append (metric : AgentMetricKey) (points : List MetricPoint) (point : MetricPoint) :
    pointsOf metric (points ++ [point]) = pointsOf metric points ++ if point.metric = metric then [point] else [] := by
  rw [pointsOf, List.filter_append, List.filter_singleton, pointsOf]
  by_cases same : point.metric = metric
  · rw [decide_eq_true same, if_pos same]
    rfl
  · rw [decide_eq_false same, if_neg same]
    rfl

variable {points kept : List MetricPoint}

theorem Accounts.land (accounts : Accounts maxSeries points kept registry)
    (accepted : registry.accepts maxSeries point = true) (labelled : point.Labelled)
    (others : forall other, other ∈ kept -> other.Labelled) :
    Accounts maxSeries (points ++ [point]) (kept ++ [point]) (registry.add maxSeries point) where
  tallied metric := by
    have before := accounts.tallied metric
    rw [pointsOf_append, pointsOf_append, List.length_append, List.length_append, dropped_add accepted]
    omega
  summed metric isCounter := by
    rw [counterTotal_add accepted isCounter, accounts.summed metric isCounter, pointsOf_append, List.map_append,
      List.sum_append]
    split
    · rw [List.map_singleton, List.sum_singleton]
    · rfl
  counted metric isHistogram := by
    rw [histogramTotal_add accepted isHistogram, accounts.counted metric isHistogram, pointsOf_append,
      List.length_append]
    split <;> rfl
  ordered metric := ordered_add accepted (accounts.ordered metric)
  bounded metric := seriesCount_add_le accepted (accounts.bounded metric)
  landed other member := by
    rw [labelsAt_add accepted]
    rcases List.mem_append.mp member with isKept | isNew
    · rw [accounts.landed other isKept]
      split <;> rfl
    · cases List.mem_singleton.mp isNew
      rw [if_pos ⟨rfl, rfl⟩]
      cases found : registry.labelsAt point.metric (labelKey point.attributes) with
      | none => rfl
      | some labels =>
          rcases accounts.made _ _ _ found with ⟨earlier, isKept, metric, key, rfl⟩
          exact congrArg some ((others earlier isKept).eq_of_key labelled metric key)
  made metric key labels isLabels := by
    rw [labelsAt_add accepted] at isLabels
    by_cases isPoint : metric = point.metric ∧ key = labelKey point.attributes
    · rw [if_pos isPoint] at isLabels
      cases found : registry.labelsAt metric key with
      | none =>
          rw [found] at isLabels
          exact ⟨point, List.mem_append_right _ (List.mem_singleton_self _), isPoint.1.symm, isPoint.2.symm,
            Option.some.inj isLabels⟩
      | some before =>
          rw [found] at isLabels
          rcases accounts.made metric key before found with ⟨earlier, isKept, sameMetric, sameKey, isBefore⟩
          exact ⟨earlier, List.mem_append_left _ isKept, sameMetric, sameKey,
            isBefore.trans (Option.some.inj isLabels)⟩
    · rw [if_neg isPoint] at isLabels
      rcases accounts.made metric key labels isLabels with ⟨earlier, isKept, rest⟩
      exact ⟨earlier, List.mem_append_left _ isKept, rest⟩

theorem Accounts.refuse (accounts : Accounts maxSeries points kept registry)
    (refused : registry.accepts maxSeries point = false) :
    Accounts maxSeries (points ++ [point]) kept (registry.add maxSeries point) := by
  rw [add_dropped refused]
  refine ⟨fun metric => ?_, accounts.summed, accounts.counted, accounts.ordered, accounts.bounded, accounts.landed,
    accounts.made⟩
  have before := accounts.tallied metric
  rw [pointsOf_append, List.length_append]
  change _ + Function.update registry.dropped point.metric.name _ metric.name = _
  by_cases same : point.metric = metric
  · subst same
    rw [Function.update_self, if_pos rfl, List.length_singleton]
    omega
  · rw [Function.update_of_ne fun sameName => same (AgentMetricKey.name_injective sameName.symm), if_neg same,
      List.length_nil]
    omega

/-- From an account, more points make an account of all. -/
theorem Accounts.run (accounts : Accounts maxSeries points kept registry) {more : List MetricPoint}
    (labelled : forall point, point ∈ more -> point.Labelled) (others : forall other, other ∈ kept -> other.Labelled) :
    Accounts maxSeries (points ++ more) (kept ++ keptPoints maxSeries registry more)
      (more.foldl (add maxSeries) registry) := by
  induction more generalizing points kept registry with
  | nil =>
      rw [keptPoints, List.append_nil, List.append_nil]
      exact accounts
  | cons point more inductionHypothesis =>
      rw [List.forall_mem_cons] at labelled
      rw [List.foldl_cons, keptPoints, ← List.singleton_append, ← List.append_assoc, ← List.append_assoc]
      cases decided : registry.accepts maxSeries point with
      | true =>
          refine inductionHypothesis (accounts.land decided labelled.1 others) labelled.2 fun other member => ?_
          rcases List.mem_append.mp member with isKept | isNew
          · exact others other isKept
          · cases List.mem_singleton.mp isNew
            exact labelled.1
      | false =>
          rw [if_neg Bool.false_ne_true, List.append_nil]
          exact inductionHypothesis (accounts.refuse decided) labelled.2 others

theorem accounts_empty (maxSeries : Nat) : Accounts maxSeries [] [] empty where
  tallied _metric := rfl
  summed _metric _isCounter := rfl
  counted _metric _isHistogram := rfl
  ordered _metric := Grouping.holds_empty _
  bounded metric := by
    rw [seriesCount]
    cases metric.type <;> exact Nat.zero_le _
  landed _point member := (List.not_mem_nil member).elim
  made metric key labels isLabels := by
    rw [labelsAt] at isLabels
    cases kind : metric.type <;> (rw [kind] at isLabels; cases isLabels)

/-- The observations of a process, from its start. -/
def observeAll (maxSeries : Nat) (observations : List AgentObservation) : AgentMetricsRegistry :=
  observations.foldl (observe maxSeries) empty

theorem observeAll_eq (maxSeries : Nat) (observations : List AgentObservation) :
    observeAll maxSeries observations = (observations.flatMap agentMetricPoints).foldl (add maxSeries) empty := by
  rw [observeAll, List.foldl_flatMap]
  rfl

/-- Of all points of the observations, those that landed in a series are what counters
add up and histograms count, under bounds that do not decrease and within the count;
the others are tallied.  A point lands in a series of its own labels only, and there
are no more series than the maximum. -/
theorem registry_conserves (maxSeries : Nat) {observations : List AgentObservation}
    (clean : forall observation, observation ∈ observations -> observation.NulFree) :
    Accounts maxSeries (observations.flatMap agentMetricPoints)
      (keptPoints maxSeries empty (observations.flatMap agentMetricPoints)) (observeAll maxSeries observations) := by
  rw [observeAll_eq]
  refine (accounts_empty maxSeries).run (fun point member => ?_) fun _ member => (List.not_mem_nil member).elim
  rcases List.mem_flatMap.mp member with ⟨observation, isObserved, isPoint⟩
  exact labelled_of_mem (clean observation isObserved) isPoint

/-- A request to a model of the chat feature, without a price. -/
def chatRequest (model : Units) : UsageObservation where
  actorRef := units "user:1"
  feature := units "chat"
  model := model
  provider := units "acme"
  costSource := .none
  platform := true
  costUsd := none
  inputTokens := 0
  outputTokens := 0
  cacheReadTokens := 0
  cacheWriteTokens := 0
  audioSeconds := 0
  characters := 0
  requests := 1
  purpose := none
  runId := none
  threadId := none

def chatRequests : List AgentObservation :=
  [.usage (chatRequest (units "small")), .usage (chatRequest (units "large"))]

theorem registry_conserves_chatRequests :
    Accounts 1 (chatRequests.flatMap agentMetricPoints)
      (keptPoints 1 empty (chatRequests.flatMap agentMetricPoints)) (observeAll 1 chatRequests) := by
  refine registry_conserves 1 ?_
  intro observation member
  rcases List.mem_pair.mp member with rfl | rfl <;>
    exact ⟨by unfold NulFree; decide, by unfold NulFree; decide, by unfold NulFree; decide⟩

end AgentMetricsRegistry

end AgentMetrics
end Telescope
