import Telescope.AgentMetrics.AiUsage

namespace Telescope
namespace AgentMetrics

/-!
# What the AI screen depends on

An entry outside the window adds nothing.  But whether the bridged shape of an event is read
is decided by all entries, so that a typed entry outside the window hides the bridged ones
within.  What is added to the totals is added to one row of every breakdown and to one
bucket.
-/

variable {options : SummarizeAiUsageOptions} {left right entries : List AiEntry} {tally : Tally} {typed : Bool}
  {localeCompare : Units -> Units -> Int}

/-- The same entries, in the same order, are in the window. -/
def SameWindow (options : SummarizeAiUsageOptions) (left right : List AiEntry) : Prop :=
  left.filter options.contains = right.filter options.contains

/-- The entry carries an agent event of either shape. -/
def carriesEvent (entry : AiEntry) : Bool := (agentEventOfEntry entry.type entry.content).isSome

/-- The totals are the sums over some rows. -/
structure RowsAgree (totals : AiTotals) (rows : List AiSpendRow) : Prop where
  calls : totals.calls = (rows.map AiSpendRow.calls).sum
  inputTokens : totals.inputTokens = (rows.map AiSpendRow.inputTokens).sum
  outputTokens : totals.outputTokens = (rows.map AiSpendRow.outputTokens).sum

/-- The totals agree with the buckets, and with every breakdown that shows all its keys. -/
structure Agrees (options : SummarizeAiUsageOptions) (tally : Tally) (spend : AiSpend) : Prop where
  buckets : spend.totals.calls = (spend.buckets.map AiSpendBucket.calls).sum
  byFeature : tally.byFeature.groups.length ≤ options.topRows -> RowsAgree spend.totals spend.byFeature
  byModel : tally.byModel.groups.length ≤ options.topRows -> RowsAgree spend.totals spend.byModel
  byActor : tally.byActor.groups.length ≤ options.topRows -> RowsAgree spend.totals spend.byActor

/-! ## The window -/

theorem addEntry_of_outside {entry : AiEntry} (outside : options.contains entry = false) (typed : Bool) (tally : Tally) :
    tally.addEntry options typed entry = tally := by
  rw [Tally.addEntry, outside]
  rfl

/-- What is outside the window changes nothing but the choice of the shape. -/
theorem foldl_filter_window (options : SummarizeAiUsageOptions) (typed : Bool) (entries : List AiEntry) (tally : Tally) :
    (entries.filter options.contains).foldl (Tally.addEntry options typed) tally =
      entries.foldl (Tally.addEntry options typed) tally := by
  induction entries generalizing tally with
  | nil => rfl
  | cons entry entries inductionHypothesis =>
      rw [List.filter_cons, List.foldl_cons]
      cases inside : options.contains entry with
      | true =>
          rw [if_pos rfl, List.foldl_cons]
          exact inductionHypothesis _
      | false =>
          rw [if_neg Bool.false_ne_true, addEntry_of_outside inside]
          exact inductionHypothesis _

theorem foldl_of_sameWindow (same : SameWindow options left right) (typed : Bool) (tally : Tally) :
    left.foldl (Tally.addEntry options typed) tally = right.foldl (Tally.addEntry options typed) tally := by
  rw [← foldl_filter_window, same, foldl_filter_window]

/-- The entry is counted. -/
def counts (options : SummarizeAiUsageOptions) (typed : Bool) (entry : AiEntry) : Bool :=
  options.contains entry && !(typed && decide (entry.type ≠ AGENT)) && carriesEvent entry

theorem addEntry_of_not_counts {entry : AiEntry} (uncounted : counts options typed entry = false) (tally : Tally) :
    tally.addEntry options typed entry = tally := by
  rw [Tally.addEntry]
  rw [counts, carriesEvent] at uncounted
  cases inside : options.contains entry with
  | false => rfl
  | true =>
      cases skipped : typed && decide (entry.type ≠ AGENT) with
      | true => rfl
      | false =>
          cases event : agentEventOfEntry entry.type entry.content with
          | none => rfl
          | some event =>
              rw [inside, skipped, event] at uncounted
              cases uncounted

/-- A counted entry adds its event. -/
theorem addEntry_of_counts {entry : AiEntry} (counted : counts options typed entry = true) (tally : Tally) :
    Exists fun event => agentEventOfEntry entry.type entry.content = some event ∧
      tally.addEntry options typed entry = tally.addEvent options entry event := by
  rw [counts, Bool.and_eq_true, Bool.and_eq_true, Bool.not_eq_true', carriesEvent] at counted
  rcases Option.isSome_iff_exists.mp counted.2 with ⟨event, isEvent⟩
  refine ⟨event, isEvent, ?_⟩
  rw [Tally.addEntry, counted.1.1, counted.1.2, isEvent]
  rfl

theorem agentEvents_addEvent (entry : AiEntry) (event : AgentEvent) (tally : Tally) :
    (tally.addEvent options entry event).agentEvents = tally.agentEvents + 1 := by
  rw [Tally.addEvent]
  rcases readAgentEvent event.event event.payload with _ | (_ | _) <;> rfl

theorem agentEvents_foldl (options : SummarizeAiUsageOptions) (typed : Bool) (entries : List AiEntry) (tally : Tally) :
    (entries.foldl (Tally.addEntry options typed) tally).agentEvents =
      tally.agentEvents + entries.countP (counts options typed) := by
  induction entries generalizing tally with
  | nil => rfl
  | cons entry entries inductionHypothesis =>
      rw [List.foldl_cons, inductionHypothesis, List.countP_cons]
      cases counted : counts options typed entry with
      | false =>
          rw [addEntry_of_not_counts counted, if_neg Bool.false_ne_true, Nat.add_zero]
      | true =>
          rcases addEntry_of_counts counted tally with ⟨event, _, added⟩
          rw [added, agentEvents_addEvent, if_pos rfl]
          omega

/-- Without an event in the window, the tally stays empty. -/
theorem foldl_of_uncounted (uncounted : forall entry, entry ∈ entries -> counts options typed entry = false)
    (tally : Tally) : entries.foldl (Tally.addEntry options typed) tally = tally := by
  induction entries generalizing tally with
  | nil => rfl
  | cons entry entries inductionHypothesis =>
      rw [List.forall_mem_cons] at uncounted
      rw [List.foldl_cons, addEntry_of_not_counts uncounted.1]
      exact inductionHypothesis uncounted.2 tally

/-! ## Totals and parts -/

/-- The rows of a breakdown add up to the totals. -/
structure MapAgrees (totals : AiTotals) (map : Grouping Units AiSpendRow) : Prop where
  calls : map.total AiSpendRow.calls = totals.calls
  inputTokens : map.total AiSpendRow.inputTokens = totals.inputTokens
  outputTokens : map.total AiSpendRow.outputTokens = totals.outputTokens

variable {map : Grouping Units AiSpendRow}

theorem MapAgrees.add {totals : AiTotals} (agrees : MapAgrees totals map) (key : Units) (u : UsageObservation) :
    MapAgrees (totals.add u) (addTo map key u) where
  calls := (Grouping.total_upsert map (zero_add u.requests) fun _ => rfl).trans
    (congrArg (· + u.requests) agrees.calls)
  inputTokens := (Grouping.total_upsert map (zero_add u.inputTokens) fun _ => rfl).trans
    (congrArg (· + u.inputTokens) agrees.inputTokens)
  outputTokens := (Grouping.total_upsert map (zero_add u.outputTokens) fun _ => rfl).trans
    (congrArg (· + u.outputTokens) agrees.outputTokens)

/-- What the loop keeps of the totals. -/
structure Balanced (options : SummarizeAiUsageOptions) (tally : Tally) : Prop where
  length : tally.buckets.length = options.bucketCount
  buckets : tally.totals.calls = (tally.buckets.map AiSpendBucket.calls).sum
  byFeature : MapAgrees tally.totals tally.byFeature
  byModel : MapAgrees tally.totals tally.byModel
  byActor : MapAgrees tally.totals tally.byActor

variable {buckets : List AiSpendBucket}

theorem sum_modify_bucket (u : UsageObservation) {index : Nat} (inRange : index < buckets.length) :
    ((buckets.modify index fun bucket => bucket.add u).map AiSpendBucket.calls).sum =
      (buckets.map AiSpendBucket.calls).sum + u.requests := by
  induction buckets generalizing index with
  | nil => exact absurd inRange (Nat.not_lt_zero index)
  | cons bucket buckets inductionHypothesis =>
      cases index with
      | zero =>
          rw [List.modify_zero_cons, List.map_cons, List.map_cons, List.sum_cons, List.sum_cons]
          exact add_right_comm _ _ _
      | succ index =>
          rw [List.modify_succ_cons, List.map_cons, List.map_cons, List.sum_cons, List.sum_cons,
            inductionHypothesis (Nat.lt_of_succ_lt_succ inRange), add_assoc]

theorem bucketCount_pos (options : SummarizeAiUsageOptions) : 0 < options.bucketCount := by
  rw [SummarizeAiUsageOptions.bucketCount]
  omega

/-- Every instant of the window falls into a bucket. -/
theorem bucketIndex_lt (options : SummarizeAiUsageOptions) (instant : TimeValue) :
    bucketIndex options instant < options.bucketCount := by
  have positive := bucketCount_pos options
  rw [bucketIndex]
  omega

theorem Balanced.addUsage (balanced : Balanced options tally) (instant : TimeValue) (u : UsageObservation) :
    Balanced options (tally.addUsage options instant u) where
  length := (List.length_modify _ _ _).trans balanced.length
  buckets := by
    have inRange : bucketIndex options instant < tally.buckets.length :=
      balanced.length ▸ bucketIndex_lt options instant
    exact (congrArg (· + u.requests) balanced.buckets).trans (sum_modify_bucket u inRange).symm
  byFeature := balanced.byFeature.add u.feature u
  byModel := balanced.byModel.add u.model u
  byActor := balanced.byActor.add u.actorRef u

theorem Balanced.addEntry (balanced : Balanced options tally) (typed : Bool) (entry : AiEntry) :
    Balanced options (tally.addEntry options typed entry) := by
  cases counted : counts options typed entry with
  | false =>
      rw [addEntry_of_not_counts counted]
      exact balanced
  | true =>
      rcases addEntry_of_counts counted tally with ⟨event, _, added⟩
      rw [added, Tally.addEvent]
      have same : Balanced options { tally with agentEvents := tally.agentEvents + 1 } :=
        ⟨balanced.length, balanced.buckets, balanced.byFeature, balanced.byModel, balanced.byActor⟩
      rcases readAgentEvent event.event event.payload with _ | (u | r)
      · exact same
      · exact same.addUsage entry.createdAt u
      · exact ⟨same.length, same.buckets, same.byFeature, same.byModel, same.byActor⟩

theorem Balanced.foldl (balanced : Balanced options tally) (typed : Bool) (entries : List AiEntry) :
    Balanced options (entries.foldl (Tally.addEntry options typed) tally) := by
  induction entries generalizing tally with
  | nil => exact balanced
  | cons entry entries inductionHypothesis => exact inductionHypothesis (balanced.addEntry typed entry)

theorem mapM_emptyBucket {indices : List Nat} (made : indices.mapM (emptyBucket options) = some buckets) :
    buckets.length = indices.length ∧ (buckets.map AiSpendBucket.calls).sum = 0 := by
  induction indices generalizing buckets with
  | nil =>
      rw [List.mapM_nil] at made
      cases made
      exact ⟨rfl, rfl⟩
  | cons index indices inductionHypothesis =>
      rw [List.mapM_cons] at made
      rcases Option.bind_eq_some_iff.mp made with ⟨bucket, isBucket, rest⟩
      rcases Option.bind_eq_some_iff.mp rest with ⟨others, isOthers, isBuckets⟩
      cases isBuckets
      rcases Option.map_eq_some_iff.mp isBucket with ⟨start, _, rfl⟩
      rcases inductionHypothesis isOthers with ⟨length, empty⟩
      exact ⟨congrArg Nat.succ length, (zero_add _).trans empty⟩

theorem balanced_emptyTally (made : emptyBuckets options = some buckets) :
    Balanced options (emptyTally buckets) := by
  rcases mapM_emptyBucket made with ⟨length, empty⟩
  exact ⟨length.trans List.length_range, empty.symm, ⟨rfl, rfl, rfl⟩, ⟨rfl, rfl, rfl⟩, ⟨rfl, rfl, rfl⟩⟩

/-- A breakdown that shows all its keys adds up to its map. -/
theorem sum_ranked {top : Nat} (shown : map.groups.length ≤ top) {measure : AiSpendRow -> Rat}
    (unrounded : forall row, measure { row with costUsd := round row.costUsd } = measure row) :
    ((ranked localeCompare map top).map measure).sum = map.total measure := by
  have sorted : (sortBy (compareRows localeCompare) map.values).Perm map.values := List.perm_insertionSort _ _
  have all : (sortBy (compareRows localeCompare) map.values).length ≤ top := by
    rw [sorted.length_eq, Grouping.values, List.length_map]
    exact shown
  rw [ranked, List.take_of_length_le all, List.map_map, Grouping.total]
  have same : (measure ∘ fun row : AiSpendRow => { row with costUsd := round row.costUsd }) = measure :=
    funext unrounded
  rw [same]
  exact (sorted.map measure).sum_eq

theorem MapAgrees.rowsAgree {totals : AiTotals} (agrees : MapAgrees totals map) {top : Nat}
    (shown : map.groups.length ≤ top) {shownTotals : AiTotals} (calls : shownTotals.calls = totals.calls)
    (inputTokens : shownTotals.inputTokens = totals.inputTokens)
    (outputTokens : shownTotals.outputTokens = totals.outputTokens) :
    RowsAgree shownTotals (ranked localeCompare map top) where
  calls := (calls.trans agrees.calls.symm).trans (sum_ranked shown fun _ => rfl).symm
  inputTokens := (inputTokens.trans agrees.inputTokens.symm).trans (sum_ranked shown fun _ => rfl).symm
  outputTokens := (outputTokens.trans agrees.outputTokens.symm).trans (sum_ranked shown fun _ => rfl).symm

theorem Balanced.agrees (balanced : Balanced options tally) :
    Agrees options tally (finish localeCompare options tally).spend where
  buckets := by
    refine balanced.buckets.trans ?_
    change _ = ((tally.buckets.map _).map AiSpendBucket.calls).sum
    rw [List.map_map]
    rfl
  byFeature shown := balanced.byFeature.rowsAgree shown rfl rfl rfl
  byModel shown := balanced.byModel.rowsAgree shown rfl rfl rfl
  byActor shown := balanced.byActor.rowsAgree shown rfl rfl rfl

/-- A summary that is made agrees with its parts. -/
def Conserves (localeCompare : Units -> Units -> Int) (options : SummarizeAiUsageOptions) (entries : List AiEntry) :
    Prop :=
  forall tally summary, tallyOf options entries = some tally ->
    summarizeAiUsage localeCompare entries options = some summary -> Agrees options tally summary.spend

theorem conserves (localeCompare : Units -> Units -> Int) (options : SummarizeAiUsageOptions) (entries : List AiEntry) :
    Conserves localeCompare options entries := by
  intro tally summary isTally isSummary
  rw [summarizeAiUsage, isTally] at isSummary
  cases isSummary
  rcases Option.map_eq_some_iff.mp isTally with ⟨buckets, made, rfl⟩
  exact ((balanced_emptyTally made).foldl (hasTyped entries) entries).agrees

/-! ## Two lists -/

/-- The choice of the shape makes no difference between two lists: both have typed entries
or neither has, inside the window or outside; or the window holds no agent event, or has
no buckets. -/
def ShapesAlike (options : SummarizeAiUsageOptions) (left right : List AiEntry) : Prop :=
  hasTyped left = hasTyped right ∨
    (forall entry, entry ∈ left -> options.contains entry = true -> carriesEvent entry = false) ∨
    emptyBuckets options = none

theorem summary_of_shapesAlike (same : SameWindow options left right) (alike : ShapesAlike options left right) :
    summarizeAiUsage localeCompare left options = summarizeAiUsage localeCompare right options := by
  rw [summarizeAiUsage, summarizeAiUsage, tallyOf, tallyOf]
  rcases alike with sameShape | noEvents | noBuckets
  · rw [sameShape]
    refine congrArg _ (congrArg (Option.map · _) (funext fun buckets => ?_))
    exact foldl_of_sameWindow same _ _
  · have quiet : forall typed : Bool, forall entry, entry ∈ left -> counts options typed entry = false := by
      intro typed entry member
      rw [counts]
      cases inside : options.contains entry with
      | false => rfl
      | true => rw [noEvents entry member inside, Bool.and_false]
    refine congrArg _ (congrArg (Option.map · _) (funext fun buckets => ?_))
    rw [← foldl_of_sameWindow same, foldl_of_uncounted (quiet _), foldl_of_uncounted (quiet _)]
  · rw [noBuckets]
    rfl

theorem hasTyped_eq_false_iff : hasTyped entries = false <->
    forall entry, entry ∈ entries -> entry.type = AGENT -> carriesEvent entry = false := by
  rw [hasTyped, List.any_eq_false]
  refine forall_congr' fun entry => forall_congr' fun _ => ?_
  rw [Bool.and_eq_true, decide_eq_true_eq, not_and, Bool.not_eq_true]
  rfl

/-- Where one list reads the bridged shape and the other does not, they count differently. -/
theorem events_differ (same : SameWindow options left right) (typedLeft : hasTyped left = true)
    (untypedRight : hasTyped right = false) {entry : AiEntry} (member : entry ∈ left)
    (inside : options.contains entry = true) (carries : carriesEvent entry = true)
    (made : emptyBuckets options = some buckets) :
    summarizeAiUsage localeCompare left options ≠ summarizeAiUsage localeCompare right options := by
  have moved : forall other, other ∈ left -> options.contains other = true -> other ∈ right := by
    intro other isOther inWindow
    have filtered := List.mem_filter.mpr ⟨isOther, inWindow⟩
    rw [same] at filtered
    exact List.mem_of_mem_filter filtered
  have none : left.countP (counts options true) = 0 := by
    refine List.countP_eq_zero.mpr fun other isOther counted => ?_
    rw [counts, Bool.true_and, Bool.and_eq_true, Bool.and_eq_true, Bool.not_eq_true', decide_eq_false_iff_not,
      not_not] at counted
    have absent := hasTyped_eq_false_iff.mp untypedRight other (moved other isOther counted.1.1) counted.1.2
    exact Bool.false_ne_true (absent.symm.trans counted.2)
  have some : 0 < right.countP (counts options false) := by
    refine List.countP_pos_iff.mpr ⟨entry, moved entry member inside, ?_⟩
    rw [counts, inside, carries]
    rfl
  intro equal
  rw [summarizeAiUsage, summarizeAiUsage, tallyOf, tallyOf, made, typedLeft, untypedRight] at equal
  have events := congrArg (Option.map fun summary : AiUsageSummary => summary.coverage.agentEvents) equal
  have counted : (left.foldl (Tally.addEntry options true) (emptyTally buckets)).agentEvents =
      (right.foldl (Tally.addEntry options false) (emptyTally buckets)).agentEvents := Option.some.inj events
  rw [agentEvents_foldl, agentEvents_foldl, none] at counted
  change 0 + 0 = 0 + _ at counted
  omega

theorem shapesAlike_of_summary (same : SameWindow options left right)
    (equal : summarizeAiUsage localeCompare left options = summarizeAiUsage localeCompare right options) :
    ShapesAlike options left right := by
  by_contra unlike
  rw [ShapesAlike, not_or, not_or] at unlike
  rcases unlike with ⟨shapes, events, buckets⟩
  rcases Option.ne_none_iff_exists'.mp buckets with ⟨made, isMade⟩
  have found : Exists fun entry => entry ∈ left ∧ options.contains entry = true ∧ carriesEvent entry = true := by
    by_contra absent
    refine events fun entry member inside => Bool.eq_false_iff.mpr fun carries => ?_
    exact absent ⟨entry, member, inside, carries⟩
  rcases found with ⟨entry, member, inside, carries⟩
  cases typedLeft : hasTyped left with
  | true =>
      have untypedRight : hasTyped right = false := Bool.eq_false_iff.mpr fun typed => shapes (typedLeft.trans typed.symm)
      exact events_differ same typedLeft untypedRight member inside carries isMade equal
  | false =>
      have typedRight : hasTyped right = true := by
        cases typed : hasTyped right with
        | true => rfl
        | false => exact (shapes (typedLeft.trans typed.symm)).elim
      have moved := List.mem_filter.mpr ⟨member, inside⟩
      rw [same] at moved
      exact events_differ same.symm typedRight typedLeft (List.mem_of_mem_filter moved) inside carries isMade equal.symm

/-- A window of one second with one bucket. -/
def oneSecond : SummarizeAiUsageOptions := ⟨⟨0, inRange_zero⟩, ⟨1000, by decide⟩, some 1, none, none⟩

/-- A ledger row that the bridge recorded in the window. -/
def bridgedUsage : AiEntry :=
  ⟨units "1", none, DIAGNOSTIC,
    .object [(units "lib", .string AGENT), (units "event", .string (units "usage.recorded")),
      (units "payload", .object [])], ⟨500, by decide⟩⟩

/-- A ledger row that the agent's own watcher recorded after the window. -/
def typedUsage : AiEntry :=
  ⟨units "2", none, AGENT, .object [(units "event", .string (units "usage.recorded"))], ⟨5000, by decide⟩⟩

end AgentMetrics
end Telescope
