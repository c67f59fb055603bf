import Telescope.Metrics.Hydration
import Telescope.Pulse.Summary

namespace Telescope
namespace Pulse

open Metrics (LocaleCompare Contents setContent bare)

/-!
# The pulse of entries without content

The first pass reads no content, so that it selects the same entries with and without it.
Every identifier that it selects is that of an entry, and the second pass reads the
contents of these alone.
-/

/-! ## The first pass reads no content -/

section Columns

variable (entries : List (Entry Value))

/-- Every entry is put into the same batch. -/
theorem batches_bare : batches (entries.map bare) = (batches entries).mapValues (List.map bare) := by
  have shown : (batches entries).mapValues (List.map bare) =
      ((Grouping.empty : Grouping Text (List (Entry Value))).mapValues (List.map bare)).gather
        (batchGroups.comap bare) entries :=
    @Grouping.mapValues_gather _ _ _ _ _ (List.map bare) batchGroups (batchGroups.comap bare) (fun _ => rfl) (fun _ => rfl)
      (fun _ _ => List.map_append) .empty entries
  rw [shown, batches, Grouping.gather_map]
  rfl

theorem queryRow_bare (entry : Entry Value) :
    queryRow (bare entry) = (queryRow entry).map fun row => (row.1, bare row.2) := by
  have families : Metrics.withFamily (bare entry) =
      (Metrics.withFamily entry).map fun row => (row.1, bare row.2) := by
    rw [Metrics.withFamily, Metrics.withFamily, Option.map_map]
    rfl
  rw [queryRow, queryRow, families]
  change (if entry.type = Metrics.EntryType.Query then _ else none) = _
  split <;> rfl

theorem queryRows_bare :
    (entries.map bare).filterMap queryRow = (entries.filterMap queryRow).map fun row => (row.1, bare row.2) := by
  rw [List.filterMap_map, List.map_filterMap]
  exact List.filterMap_congr fun entry _ => queryRow_bare entry

/-- What counts of an insight. -/
def NPlusOneInsight.columns (insight : NPlusOneInsight) : Text × Nat := (insight.familyHash, insight.count)

def countGroups : Grouping.Gathering (Text × Entry Value) Text Nat where
  key row := row.1
  first _row := 1
  change count _row := count + 1

theorem columns_detectNPlusOne (threshold : Number) :
    (detectNPlusOne entries threshold).map NPlusOneInsight.columns =
      (Grouping.empty.gather countGroups (entries.filterMap queryRow)).groups.filter fun group =>
        (Number.finite group.2).ge threshold := by
  have counted : (Grouping.empty.gather queryGroups (entries.filterMap queryRow)).mapValues QueryGroup.count =
      (Grouping.empty.mapValues QueryGroup.count).gather countGroups (entries.filterMap queryRow) :=
    @Grouping.mapValues_gather _ _ _ _ _ QueryGroup.count queryGroups countGroups (fun _ => rfl) (fun _ => rfl)
      (fun _ _ => rfl) .empty _
  have same : (Grouping.empty.mapValues QueryGroup.count : Grouping Text Nat) = .empty := rfl
  rw [same] at counted
  rw [detectNPlusOne, List.map_map, <- counted, Grouping.mapValues, List.filter_map]
  rfl

theorem columns_detectNPlusOne_bare (threshold : Number) :
    (detectNPlusOne (entries.map bare) threshold).map NPlusOneInsight.columns =
      (detectNPlusOne entries threshold).map NPlusOneInsight.columns := by
  rw [columns_detectNPlusOne, columns_detectNPlusOne, queryRows_bare, Grouping.gather_map]
  rfl

/-- The statement of an insight makes no difference. -/
theorem foldl_addInsight (batchId : Text) (loopDuration : Text -> Number) (representativeId : Text -> Text)
    (hotspots : Grouping Text NPlusOneAccumulator) (insights : List NPlusOneInsight) :
    insights.foldl (Found.addInsight batchId loopDuration representativeId) hotspots =
      (insights.map NPlusOneInsight.columns).foldl (fun hotspots columns =>
        Found.addInsight batchId loopDuration representativeId hotspots ⟨columns.1, columns.2, []⟩) hotspots := by
  rw [List.foldl_map]
  rfl

theorem addBatch_bare (threshold : Number) (found : Found) (batch : Text × List (Entry Value)) :
    Found.addBatch threshold found (batch.1, batch.2.map bare) = Found.addBatch threshold found batch := by
  rw [Found.addBatch, Found.addBatch]
  dsimp only
  rw [foldl_addInsight, foldl_addInsight _ _ _ _ (detectNPlusOne batch.2 threshold), columns_detectNPlusOne_bare,
    queryRows_bare, Grouping.gather_map, List.filterMap_map]
  rfl

theorem found_bare (threshold : Number) : found threshold (entries.map bare) = found threshold entries := by
  rw [found, found, batches_bare, Grouping.mapValues, List.foldl_map]
  congr 1
  funext found batch
  exact addBatch_bare threshold found batch

/-- The first pass is the same for entries without content. -/
theorem aggregatePulse_bare (locale : LocaleCompare) (windowStart windowEnd : JsDate) (options : PulseOptions) :
    aggregatePulse locale (entries.map bare) windowStart windowEnd options =
      aggregatePulse locale entries windowStart windowEnd options := by
  rw [aggregatePulse, aggregatePulse, nPlusOne, nPlusOne, found_bare]
  simp only [countTypes, slowest, exceptions, durationsByFamily, loadByUser, List.filterMap_map, List.foldl_map]
  rfl

end Columns

/-! ## What is selected -/

theorem mem_of_mem_slice {α : Type*} {stop : Number} {elements : List α} {element : α}
    (member : element ∈ slice stop elements) : element ∈ elements := by
  cases stop with
  | nan => exact (List.not_mem_nil member).elim
  | infinity negative =>
      cases negative with
      | true => exact (List.not_mem_nil member).elim
      | false => exact member
  | finite stop => exact List.mem_of_mem_take member

variable {options : PulseOptions}

theorem mem_of_mem_rank {α : Type*} {comparator : α -> α -> Ordering} {elements : List α} {element : α}
    (member : element ∈ rank options comparator elements) : element ∈ elements :=
  List.mem_mergeSort.mp (mem_of_mem_slice member)

section Selected

variable {entries : List (Entry Value)}

variable {locale : LocaleCompare}

theorem id_of_slowest {candidate : SlowCandidate} (member : candidate ∈ slowest locale options entries) :
    candidate.id ∈ entries.map Entry.id := by
  rcases List.mem_filterMap.mp (mem_of_mem_rank member) with ⟨entry, isEntry, isCandidate⟩
  rcases Option.map_eq_some_iff.mp isCandidate with ⟨durationMs, _, rfl⟩
  exact List.mem_map_of_mem isEntry

theorem id_of_exceptionRow {row : ExceptionRow} (member : row ∈ entries.filterMap exceptionRow) :
    row.id ∈ entries.map Entry.id := by
  rcases List.mem_filterMap.mp member with ⟨entry, isEntry, isRow⟩
  rw [exceptionRow] at isRow
  split at isRow
  · rcases Option.map_eq_some_iff.mp isRow with ⟨familyHash, _, rfl⟩
    exact List.mem_map_of_mem isEntry
  · cases isRow

theorem id_of_exception {group : ExceptionGroupAggregate} (member : group ∈ exceptions locale options entries) :
    group.representativeId ∈ entries.map Entry.id := by
  have keeps : Grouping.Keeps exceptionGroups (fun _ group => group.representativeId ∈ entries.map Entry.id)
      (entries.filterMap exceptionRow) := by
    refine ⟨fun row isRow => id_of_exceptionRow isRow, fun row isRow existing kept => ?_⟩
    rw [exceptionGroups]
    dsimp only
    split
    · exact id_of_exceptionRow isRow
    · exact kept
  rcases List.mem_map.mp (mem_of_mem_rank member) with ⟨found, isFound, rfl⟩
  exact Grouping.holds_gather keeps (Grouping.holds_empty _) found isFound

theorem mem_of_mem_batch {batch : Text × List (Entry Value)} (member : batch ∈ (batches entries).groups)
    {entry : Entry Value} (isEntry : entry ∈ batch.2) : entry ∈ entries := by
  have keeps : Grouping.Keeps batchGroups (fun _ batch => forall entry, entry ∈ batch -> entry ∈ entries) entries := by
    refine ⟨fun first isFirst entry isEntry => ?_, fun next isNext batch kept entry isEntry => ?_⟩
    · rw [List.mem_singleton.mp isEntry]
      exact isFirst
    · rcases List.mem_append.mp isEntry with before | isLast
      · exact kept entry before
      · rw [List.mem_singleton.mp isLast]
        exact isNext
  exact Grouping.holds_gather keeps (Grouping.holds_empty _) batch member entry isEntry

theorem mem_of_queryRow {batch : List (Entry Value)} {row : Text × Entry Value}
    (member : row ∈ batch.filterMap queryRow) : row.2 ∈ batch := by
  rcases List.mem_filterMap.mp member with ⟨entry, isEntry, isRow⟩
  rw [queryRow] at isRow
  split at isRow
  · rcases Option.map_eq_some_iff.mp isRow with ⟨familyHash, _, rfl⟩
    exact isEntry
  · cases isRow

/-- The representatives that were found are entries. -/
structure Found.Represents (ids : List Text) (found : Found) : Prop where
  families : Grouping.Holds (fun _ id => id ∈ ids) found.familyRepresentative
  hotspots : Grouping.Holds (fun _ hotspot => hotspot.representativeId ∈ ids) found.hotspots

/-- An insight is about a family of queries of the batch. -/
theorem family_of_insight {batch : List (Entry Value)} {threshold : Number} {insight : NPlusOneInsight}
    (member : insight ∈ detectNPlusOne batch threshold) :
    insight.familyHash ∈ (batch.filterMap queryRow).map Prod.fst := by
  rcases List.mem_map.mp member with ⟨group, isGroup, rfl⟩
  have key := List.mem_map_of_mem (f := Prod.fst) (List.mem_of_mem_filter isGroup)
  rcases (Grouping.keys_gather queryGroups .empty (batch.filterMap queryRow) group.1).mp key with inEmpty | isKey
  · exact (List.not_mem_nil inEmpty).elim
  · exact isKey

theorem Found.Represents.addBatch {ids : List Text} {found : Found} (represents : found.Represents ids)
    {batch : Text × List (Entry Value)} (inIds : forall entry, entry ∈ batch.2 -> entry.id ∈ ids) (threshold : Number) :
    (Found.addBatch threshold found batch).Represents ids := by
  have families : Grouping.Holds (fun _ id => id ∈ ids)
      (found.familyRepresentative.gather representatives (batch.2.filterMap queryRow)) :=
    Grouping.holds_gather ⟨fun row isRow => inIds row.2 (mem_of_queryRow isRow), fun _ _ _ kept => kept⟩
      represents.families
  refine ⟨families, ?_⟩
  have insights (insight : NPlusOneInsight) (member : insight ∈ detectNPlusOne batch.2 threshold) :
      ((found.familyRepresentative.gather representatives (batch.2.filterMap queryRow)).lookup
        insight.familyHash).getD [] ∈ ids := by
    have key := (Grouping.keys_gather representatives found.familyRepresentative (batch.2.filterMap queryRow)
      insight.familyHash).mpr (.inr (family_of_insight member))
    rcases List.mem_map.mp key with ⟨⟨familyHash, id⟩, isGroup, rfl⟩
    rw [Grouping.mem_iff_lookup.mp isGroup]
    exact families _ isGroup
  exact List.foldlRecOn _ _ represents.hotspots fun hotspots held insight member =>
    Grouping.holds_upsert held (insights insight member) fun _ kept => kept

theorem represents_found (threshold : Number) : (found threshold entries).Represents (entries.map Entry.id) :=
  List.foldlRecOn _ _ ⟨Grouping.holds_empty _, Grouping.holds_empty _⟩ fun _found represents _batch isBatch =>
    represents.addBatch (fun _entry isEntry => List.mem_map_of_mem (mem_of_mem_batch isBatch isEntry)) threshold

theorem id_of_nPlusOne {hotspot : NPlusOneAccumulator} (member : hotspot ∈ nPlusOne locale options entries) :
    hotspot.representativeId ∈ entries.map Entry.id := by
  rcases List.mem_map.mp (mem_of_mem_rank member) with ⟨group, isGroup, rfl⟩
  exact (represents_found options.nPlusOneThreshold).hotspots group isGroup

/-- Every identifier that is selected is that of an entry. -/
theorem id_of_selected {windowStart windowEnd : JsDate} {id : Text}
    (member : id ∈ (aggregatePulse locale entries windowStart windowEnd options).hydrationIds.all) :
    id ∈ entries.map Entry.id := by
  rcases List.mem_append.mp member with selected | ofQuery
  · rcases List.mem_append.mp selected with ofSlow | ofException
    · rcases List.mem_map.mp ofSlow with ⟨candidate, isCandidate, rfl⟩
      exact id_of_slowest isCandidate
    · rcases List.mem_map.mp ofException with ⟨group, isGroup, rfl⟩
      exact id_of_exception isGroup
  · rcases List.mem_map.mp ofQuery with ⟨hotspot, isHotspot, rfl⟩
    exact id_of_nPlusOne isHotspot

end Selected

/-! ## The second pass -/

theorem mapM_congr {α β : Type} {left right : α -> Option β} {elements : List α}
    (same : forall element, element ∈ elements -> left element = right element) :
    elements.mapM left = elements.mapM right := by
  induction elements with
  | nil => rfl
  | cons element elements inductionHypothesis =>
      rw [List.forall_mem_cons] at same
      rw [List.mapM_cons, List.mapM_cons, same.1, inductionHypothesis same.2]

/-- The second pass reads the contents of what was selected, and no others. -/
theorem finalizePulse_congr {aggregates : PulseAggregates} {left right : HydrateContent}
    (same : forall id, id ∈ aggregates.hydrationIds.all -> left id = right id) :
    finalizePulse aggregates left = finalizePulse aggregates right := by
  have slow : aggregates.slowest.map (finalizeSlow left) = aggregates.slowest.map (finalizeSlow right) := by
    refine List.map_congr_left fun candidate member => ?_
    rw [finalizeSlow, finalizeSlow, same candidate.id (List.mem_append_left _ (List.mem_append_left _ (List.mem_map_of_mem member)))]
  have exceptions : aggregates.exceptions.mapM (finalizeException left) =
      aggregates.exceptions.mapM (finalizeException right) := by
    refine mapM_congr fun group member => ?_
    have isRead : group.representativeId ∈ aggregates.hydrationIds.all :=
      List.mem_append_left _ (List.mem_append_right _ (List.mem_map.mpr ⟨group, member, rfl⟩))
    rw [finalizeException, finalizeException, same _ isRead]
  have queries : aggregates.nPlusOne.map (finalizeNPlusOne left) = aggregates.nPlusOne.map (finalizeNPlusOne right) := by
    refine List.map_congr_left fun hotspot member => ?_
    rw [finalizeNPlusOne, finalizeNPlusOne, same hotspot.representativeId (List.mem_append_right _ (List.mem_map_of_mem member))]
  rw [finalizePulse, finalizePulse, slow, exceptions, queries]

/-- The store holds these entries, and answers a query for identifiers with those it has. -/
structure AnswersIds (get : EntryQuery -> Page Value) (stored : List (Entry Value)) : Prop where
  distinct : Entry.DistinctIds stored
  answered : forall ids, ids ≠ [] ->
    (get { ids := some ids, limit := some ids.length }).data.Perm
      (stored.filter fun entry => decide (entry.id ∈ ids))

section Store

variable {get : EntryQuery -> Page Value} {stored : List (Entry Value)}

/-- The content of a stored entry is read if its identifier is selected. -/
theorem hydrate_eq (answers : AnswersIds get stored) {row : Entry Value} (isStored : row ∈ stored)
    {ids : PulseHydrationIds} (isSelected : row.id ∈ ids.all) (named : row.id ≠ []) :
    hydrate get ids row.id = some row.content := by
  have isAsked : row.id ∈ ids.unique := by
    rw [PulseHydrationIds.unique, List.mem_filter, List.mem_eraseDups]
    exact ⟨isSelected, decide_eq_true named⟩
  rw [hydrate]
  split
  · rename_i nobody
    rw [nobody] at isAsked
    exact (List.not_mem_nil isAsked).elim
  · rename_i asked
    have page := answers.answered ids.unique asked
    have inPage : row ∈ (get { ids := some ids.unique, limit := some ids.unique.length }).data :=
      page.mem_iff.mpr (List.mem_filter.mpr ⟨isStored, decide_eq_true isAsked⟩)
    rw [Metrics.foldl_setContent answers.distinct (fun entry member => (List.mem_filter.mp (page.mem_iff.mp member)).1)
      isStored, if_pos (List.mem_map_of_mem inPage)]

/-- Entries of a store that are read without their contents, and of which those that are
shown are read again, have the pulse of the entries with all their contents. -/
theorem hydratedPulse_eq (answers : AnswersIds get stored) {entries : List (Entry Value)}
    (inStore : forall entry, entry ∈ entries -> entry ∈ stored) (locale : LocaleCompare)
    (windowStart windowEnd : JsDate) (options : PulseOptions)
    (named : [] ∉ (aggregatePulse locale entries windowStart windowEnd options).hydrationIds.all) :
    hydratedPulse get locale (entries.map bare) windowStart windowEnd options =
      summarizePulse locale entries windowStart windowEnd options := by
  rw [hydratedPulse, summarizePulse, aggregatePulse_bare]
  refine finalizePulse_congr fun id isSelected => ?_
  rcases List.mem_map.mp (id_of_selected isSelected) with ⟨row, isRow, rfl⟩
  rw [shown, shown, hydrate_eq answers (inStore row isRow) isSelected fun blank => named (blank ▸ isSelected),
    Metrics.foldl_setContent answers.distinct inStore (inStore row isRow), if_pos (List.mem_map_of_mem isRow)]

end Store

theorem answersIds_idsGet {stored : List (Entry Value)} (distinct : Entry.DistinctIds stored) :
    AnswersIds (Metrics.idsGet stored) stored :=
  ⟨distinct, fun _ids _some => List.Perm.refl _⟩

/-- A request that took a second. -/
def pageView (id : Text) : Entry Value where
  id := id
  batchId := []
  type := Metrics.EntryType.Request
  familyHash := none
  content := .object [(units "uri", .string (units "/cart"))]
  tags := []
  sequence := 0
  durationMs := some 1000
  origin := .http
  instanceId := []
  traceId := none
  spanId := none
  createdAt := 0

def defaultOptions : PulseOptions := PulseServiceOptions.options {}

/-- The labels of the slowest entries. -/
def labels (summary : Option PulseSummary) : List Units := summary.elim [] fun summary => summary.slowest.map SlowEntry.label

/-- The pulse of one request, with the label that is read of its content. -/
theorem hydratedPulse_pageView :
    hydratedPulse (Metrics.idsGet [pageView ['a']]) compare ([pageView ['a']].map bare) (some Rollup.epoch)
        (some Rollup.epoch) defaultOptions =
      summarizePulse compare [pageView ['a']] (some Rollup.epoch) (some Rollup.epoch) defaultOptions ∧
      labels (summarizePulse compare [pageView ['a']] (some Rollup.epoch) (some Rollup.epoch) defaultOptions) =
        [units "/cart"] := by
  exact ⟨hydratedPulse_eq (answersIds_idsGet (by decide)) (fun _ member => member) compare (some Rollup.epoch)
    (some Rollup.epoch) defaultOptions (by decide +kernel), by decide +kernel⟩

/-- A request without an identifier is not read again, and keeps its type for a label. -/
theorem blankId_pulse_differs :
    AnswersIds (Metrics.idsGet [pageView []]) [pageView []] ∧
      hydratedPulse (Metrics.idsGet [pageView []]) compare ([pageView []].map bare) (some Rollup.epoch)
          (some Rollup.epoch) defaultOptions ≠
        summarizePulse compare [pageView []] (some Rollup.epoch) (some Rollup.epoch) defaultOptions := by
  refine ⟨answersIds_idsGet (by decide), fun same => ?_⟩
  exact absurd (congrArg labels same) (by decide +kernel)

/-! ## The service over a store -/

section Service

variable {get : EntryQuery -> Page Value} {stored : List (Entry Value)}

/-- What the scan of the window reads with contents. -/
def contentScan (get : EntryQuery -> Page Value) (service : PulseServiceOptions) (windowStart : JsDate) :
    Metrics.WindowReadResult Value :=
  Id.run (Metrics.collectEntriesInWindow (fun query => pure (get query))
    { after := windowStart.map TimeValue.ms, omitContent := false } service.toWindowReadOptions)

/-- The health of a window is the pulse of its entries with all their contents. -/
theorem getHealth_eq (answers : AnswersIds get stored) (omits : Metrics.OmitsContent get)
    (inStore : forall query entry, entry ∈ (get query).data -> query.omitContent = false -> entry ∈ stored)
    (named : forall entry, entry ∈ stored -> entry.id ≠ []) (locale : LocaleCompare) (service : PulseServiceOptions)
    {windowMs : Number} (valid : (windowMs.isFinite && (Number.finite 0).lt windowMs) = true) (windowEnd : TimeValue) :
    getHealth get locale service windowMs windowEnd =
      (summarizePulse locale (contentScan get service (newDate (Number.sub (.finite windowEnd.ms) windowMs))).entries
        (newDate (Number.sub (.finite windowEnd.ms) windowMs)) (some windowEnd) service.options).map fun summary =>
          { summary with
            scanned := (contentScan get service (newDate (Number.sub (.finite windowEnd.ms) windowMs))).scanned
            truncated := (contentScan get service (newDate (Number.sub (.finite windowEnd.ms) windowMs))).truncated } := by
  rw [getHealth, if_pos valid]
  generalize newDate (Number.sub (.finite windowEnd.ms) windowMs) = windowStart
  have read : Id.run (Metrics.collectEntriesInWindow (fun query => pure (get query))
      { after := windowStart.map TimeValue.ms, omitContent := true } service.toWindowReadOptions) =
      { contentScan get service windowStart with entries := (contentScan get service windowStart).entries.map bare } :=
    Metrics.collectLoop_project bare
      (fun cursor limit => omits { after := windowStart.map TimeValue.ms, cursor := cursor, limit := limit })
      _ _ _ none []
  have isStored : forall entry, entry ∈ (contentScan get service windowStart).entries -> entry ∈ stored :=
    Metrics.mem_collectLoop (fun _cursor _limit entry member => inStore _ entry member rfl) _ _ _ none
      fun _ absent => absurd absent List.not_mem_nil
  dsimp only
  rw [read]
  dsimp only
  refine congrArg _ ?_
  rw [hydratedPulse, summarizePulse, aggregatePulse_bare]
  refine finalizePulse_congr fun id isSelected => ?_
  rcases List.mem_map.mp (id_of_selected isSelected) with ⟨row, isRow, rfl⟩
  rw [shown, shown, hydrate_eq answers (isStored row isRow) isSelected (named row (isStored row isRow)),
    Metrics.foldl_setContent answers.distinct isStored (isStored row isRow), if_pos (List.mem_map_of_mem isRow)]

theorem getHealth_eq_pageView :
    (getHealth (Metrics.singleGet (pageView ['a'])) compare {} (.finite 60000) Rollup.epoch).isSome = true := by
  rw [getHealth_eq ⟨by decide, fun ids _ => Metrics.perm_singleGet _ ids⟩ (Metrics.omits_singleGet _)
    (fun _ _ member complete => Metrics.mem_singleGet complete member)
    (fun _ isEntry => List.mem_singleton.mp isEntry ▸ by decide) compare {} (by decide +kernel) Rollup.epoch]
  decide +kernel

end Service

end Pulse
end Telescope
