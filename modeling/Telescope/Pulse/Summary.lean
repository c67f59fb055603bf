import Telescope.Foundation.NumberLine
import Telescope.Metrics.StatsService

namespace Telescope
namespace Pulse

open Metrics (LocaleCompare Contents setContent)

/-!
# The pulse

A window of entries is summarised by its counts, its slowest entries, its exceptions, the
queries that are repeated within a batch, its slow routes and its users.  What is ranked
is read of the columns beside the content; labels, messages and statements are read of the
contents of what is shown.  Sums of durations are rounded.
-/

/-! ## What a summary shows -/

structure SlowEntry where
  id : Text
  type : Text
  durationMs : Rat
  label : Units
  batchId : Text

structure ExceptionGroup where
  familyHash : Text
  class_ : Units
  message : Units
  count : Nat
  lastSeen : Text

structure NPlusOneHotspot where
  familyHash : Text
  sql : Units
  /-- The most repetitions in one batch. -/
  perRequest : Nat
  requests : Nat
  total : Nat
  totalDurationMs : Number
  sampleBatchId : Text

structure SlowRouteHotspot where
  route : Text
  count : Nat
  p99 : Rat
  p50 : Rat

structure UserLoad where
  user : Text
  count : Nat
  totalDurationMs : Number

structure PulseSummary where
  windowStart : Text
  windowEnd : Text
  windowMs : Number
  counts : Metrics.ByType
  slowest : List SlowEntry
  topExceptions : List ExceptionGroup
  nPlusOne : List NPlusOneHotspot
  slowRoutes : List SlowRouteHotspot
  slowOutgoing : List SlowRouteHotspot
  slowJobs : List SlowRouteHotspot
  loadByUser : List UserLoad

structure PulseOptions where
  topN : Number
  nPlusOneThreshold : Number
  slowRouteMinCount : Number
  slowRouteMs : Number

/-! ## Ranking -/

/-- `elements.slice(0, stop)`. -/
def slice {α : Type*} (stop : Number) (elements : List α) : List α :=
  match stop with
  | .nan => []
  | .infinity negative => if negative then [] else elements
  | .finite stop => elements.take (if truncate stop < 0 then elements.length + truncate stop else truncate stop).toNat

/-- `right - left` as a comparator reads it. -/
def descending (left right : Number) : Ordering := compare (Number.sign right left) 0

/-- `left.localeCompare(right)`. -/
def alphabetical (locale : LocaleCompare) (left right : Text) : Ordering :=
  locale (Text.codeUnits left) (Text.codeUnits right)

/-- Sort by a comparator, and keep the first ones. -/
def rank {α : Type*} (options : PulseOptions) (comparator : α -> α -> Ordering) (elements : List α) : List α :=
  slice options.topN (elements.mergeSort fun left right => (comparator left right).isLE)

/-! ## Routes -/

section Columns

variable {C : Type*}

/-- The duration of an entry of the type with its family. -/
def familyDuration (type : Text) (entry : Entry C) : Option (Text × Rat) :=
  if entry.type = type then
    entry.familyHash.bind fun familyHash => entry.durationMs.map fun durationMs => (familyHash, durationMs)
  else none

def durationGroups : Grouping.Gathering (Text × Rat) Text (List Rat) where
  key row := row.1
  first row := [row.2]
  change durations row := durations ++ [row.2]

def durationsByFamily (type : Text) (entries : List (Entry C)) : Grouping Text (List Rat) :=
  Grouping.empty.gather durationGroups (entries.filterMap (familyDuration type))

def toHotspot (family : Text × List Rat) : SlowRouteHotspot :=
  let sorted := Metrics.ascending family.2
  { route := family.1
    count := sorted.length
    p99 := Metrics.percentile sorted 99
    p50 := Metrics.percentile sorted 50 }

/-- The hotspots that are kept, by their 99th percentiles. -/
def rankHotspots (locale : LocaleCompare) (options : PulseOptions) (keeps : SlowRouteHotspot -> Bool)
    (durationsByFamily : Grouping Text (List Rat)) : List SlowRouteHotspot :=
  rank options
    (fun left right => (compare right.p99 left.p99).then ((compare right.count left.count).then
      (alphabetical locale left.route right.route)))
    ((durationsByFamily.groups.map toHotspot).filter keeps)

def toHotspots (locale : LocaleCompare) (durationsByFamily : Grouping Text (List Rat)) (options : PulseOptions) :
    List SlowRouteHotspot :=
  rankHotspots locale options
    (fun hotspot => (Number.finite hotspot.count).ge options.slowRouteMinCount &&
      (Number.finite hotspot.p99).ge options.slowRouteMs)
    durationsByFamily

/-- Jobs are ranked however fast they are. -/
def toJobHotspots (locale : LocaleCompare) (durationsByFamily : Grouping Text (List Rat)) (options : PulseOptions) :
    List SlowRouteHotspot :=
  rankHotspots locale options (fun hotspot => (Number.finite hotspot.count).ge options.slowRouteMinCount) durationsByFamily

/-! ## Users -/

def USER_PREFIX : Text := "user:".toList

def userFromTags (tags : List Text) : Option Text :=
  (tags.find? fun tag => USER_PREFIX.isPrefixOf tag).map fun tag => tag.drop USER_PREFIX.length

/-- The user of a request with its duration, or zero. -/
def userDuration (entry : Entry C) : Option (Text × Number) :=
  if entry.type = Metrics.EntryType.Request then
    (userFromTags entry.tags).map fun user => (user, .finite (entry.durationMs.getD 0))
  else none

structure Load where
  count : Nat
  totalDurationMs : Number

def loadGroups : Grouping.Gathering (Text × Number) Text Load where
  key row := row.1
  first row := ⟨1, row.2⟩
  change load row := ⟨load.count + 1, load.totalDurationMs.add row.2⟩

def loadByUser (locale : LocaleCompare) (options : PulseOptions) (entries : List (Entry C)) : List UserLoad :=
  rank options
    (fun left right => (descending left.totalDurationMs right.totalDurationMs).then
      ((compare right.count left.count).then (alphabetical locale left.user right.user)))
    ((Grouping.empty.gather loadGroups (entries.filterMap userDuration)).groups.map fun group =>
      { user := group.1, count := group.2.count, totalDurationMs := group.2.totalDurationMs })

/-! ## Slow entries -/

structure SlowCandidate where
  id : Text
  type : Text
  durationMs : Rat
  batchId : Text

def slowCandidate (entry : Entry C) : Option SlowCandidate :=
  entry.durationMs.map fun durationMs => ⟨entry.id, entry.type, durationMs, entry.batchId⟩

def slowest (locale : LocaleCompare) (options : PulseOptions) (entries : List (Entry C)) : List SlowCandidate :=
  rank options (fun left right => (compare right.durationMs left.durationMs).then (alphabetical locale left.id right.id))
    (entries.filterMap slowCandidate)

/-! ## Exceptions -/

structure ExceptionAccumulator where
  representativeId : Text
  count : Nat
  lastSeen : Int

structure ExceptionGroupAggregate extends ExceptionAccumulator where
  familyHash : Text

/-- What is read of an exception with a family. -/
structure ExceptionRow where
  familyHash : Text
  id : Text
  createdAt : Int

def exceptionRow (entry : Entry C) : Option ExceptionRow :=
  if entry.type = Metrics.EntryType.Exception then
    entry.familyHash.map fun familyHash => ⟨familyHash, entry.id, entry.createdAt⟩
  else none

/-- The newest exception represents its family. -/
def exceptionGroups : Grouping.Gathering ExceptionRow Text ExceptionAccumulator where
  key row := row.familyHash
  first row := ⟨row.id, 1, row.createdAt⟩
  change existing row :=
    if existing.lastSeen < row.createdAt then ⟨row.id, existing.count + 1, row.createdAt⟩
    else { existing with count := existing.count + 1 }

def exceptions (locale : LocaleCompare) (options : PulseOptions) (entries : List (Entry C)) :
    List ExceptionGroupAggregate :=
  rank options
    (fun left right => (compare right.count left.count).then (alphabetical locale left.familyHash right.familyHash))
    ((Grouping.empty.gather exceptionGroups (entries.filterMap exceptionRow)).groups.map fun group =>
      { group.2 with familyHash := group.1 })

end Columns

/-! ## Repeated queries -/

structure NPlusOneInsight where
  familyHash : Text
  count : Nat
  sql : Units

/-- A query with its family. -/
def queryRow (entry : Entry Value) : Option (Text × Entry Value) :=
  if entry.type = Metrics.EntryType.Query then Metrics.withFamily entry else none

def sqlFromContent (content : Value) : Units := if content.isRecord then (content.getString (units "sql")).getD [] else []

structure QueryGroup where
  count : Nat
  sql : Units

def queryGroups : Grouping.Gathering (Text × Entry Value) Text QueryGroup where
  key row := row.1
  first row := ⟨1, sqlFromContent row.2.content⟩
  change existing _row := { existing with count := existing.count + 1 }

def detectNPlusOne (entries : List (Entry Value)) (threshold : Number) : List NPlusOneInsight :=
  ((Grouping.empty.gather queryGroups (entries.filterMap queryRow)).groups.filter fun group =>
    (Number.finite group.2.count).ge threshold).map fun group => ⟨group.1, group.2.count, group.2.sql⟩

structure NPlusOneAccumulator where
  familyHash : Text
  perRequest : Nat
  requests : Nat
  total : Nat
  totalDurationMs : Number
  sampleBatchId : Text
  representativeId : Text

def batchGroups : Grouping.Gathering (Entry Value) Text (List (Entry Value)) where
  key := Entry.batchId
  first entry := [entry]
  change batch entry := batch ++ [entry]

/-- The entries of every batch. -/
def batches (entries : List (Entry Value)) : Grouping Text (List (Entry Value)) :=
  Grouping.empty.gather batchGroups entries

/-- The first query of every family. -/
def representatives : Grouping.Gathering (Text × Entry Value) Text Text where
  key row := row.1
  first row := row.2.id
  change id _row := id

/-- The durations of the queries of a family, summed up. -/
def loopDurations : Grouping.Gathering (Text × Rat) Text Number where
  key row := row.1
  first row := (Number.finite 0).add (.finite row.2)
  change sum row := sum.add (.finite row.2)

/-- What the loop over the batches has found. -/
structure Found where
  hotspots : Grouping Text NPlusOneAccumulator
  familyRepresentative : Grouping Text Text

def Found.addInsight (batchId : Text) (loopDuration : Text -> Number) (representativeId : Text -> Text)
    (hotspots : Grouping Text NPlusOneAccumulator) (insight : NPlusOneInsight) : Grouping Text NPlusOneAccumulator :=
  hotspots.upsert insight.familyHash
    { familyHash := insight.familyHash
      perRequest := insight.count
      requests := 1
      total := insight.count
      totalDurationMs := loopDuration insight.familyHash
      sampleBatchId := batchId
      representativeId := representativeId insight.familyHash }
    fun existing =>
      { existing with
        requests := existing.requests + 1
        total := existing.total + insight.count
        totalDurationMs := existing.totalDurationMs.add (loopDuration insight.familyHash)
        perRequest := if existing.perRequest < insight.count then insight.count else existing.perRequest
        sampleBatchId := if existing.perRequest < insight.count then batchId else existing.sampleBatchId }

/-- The loop over the batches, for one batch. -/
def Found.addBatch (threshold : Number) (found : Found) (batch : Text × List (Entry Value)) : Found :=
  let familyRepresentative := found.familyRepresentative.gather representatives (batch.2.filterMap queryRow)
  let batchFamilyDuration := Grouping.empty.gather loopDurations (batch.2.filterMap (familyDuration Metrics.EntryType.Query))
  { familyRepresentative := familyRepresentative
    hotspots := (detectNPlusOne batch.2 threshold).foldl
      (Found.addInsight batch.1 (fun familyHash => (batchFamilyDuration.lookup familyHash).getD (.finite 0))
        fun familyHash => (familyRepresentative.lookup familyHash).getD [])
      found.hotspots }

def found (threshold : Number) (entries : List (Entry Value)) : Found :=
  (batches entries).groups.foldl (Found.addBatch threshold) ⟨.empty, .empty⟩

def nPlusOne (locale : LocaleCompare) (options : PulseOptions) (entries : List (Entry Value)) :
    List NPlusOneAccumulator :=
  rank options
    (fun left right => (descending left.totalDurationMs right.totalDurationMs).then
      ((compare right.total left.total).then ((compare right.requests left.requests).then
        (alphabetical locale left.familyHash right.familyHash))))
    (found options.nPlusOneThreshold entries).hotspots.values

/-! ## The first pass -/

structure PulseHydrationIds where
  slowest : List Text
  exceptions : List Text
  nPlusOne : List Text

structure PulseAggregates where
  windowStart : JsDate
  windowEnd : JsDate
  counts : Metrics.ByType
  slowest : List SlowCandidate
  exceptions : List ExceptionGroupAggregate
  nPlusOne : List NPlusOneAccumulator
  slowRoutes : List SlowRouteHotspot
  slowOutgoing : List SlowRouteHotspot
  slowJobs : List SlowRouteHotspot
  loadByUser : List UserLoad

def PulseAggregates.hydrationIds (aggregates : PulseAggregates) : PulseHydrationIds where
  slowest := aggregates.slowest.map SlowCandidate.id
  exceptions := aggregates.exceptions.map fun group => group.representativeId
  nPlusOne := aggregates.nPlusOne.map NPlusOneAccumulator.representativeId

def countTypes {C : Type*} (entries : List (Entry C)) : Metrics.ByType :=
  entries.foldl (fun counts entry => counts.add entry.type 1) fun _ => none

def aggregatePulse (locale : LocaleCompare) (entries : List (Entry Value)) (windowStart windowEnd : JsDate)
    (options : PulseOptions) : PulseAggregates where
  windowStart := windowStart
  windowEnd := windowEnd
  counts := countTypes entries
  slowest := slowest locale options entries
  exceptions := exceptions locale options entries
  nPlusOne := nPlusOne locale options entries
  slowRoutes := toHotspots locale (durationsByFamily Metrics.EntryType.Request entries) options
  slowOutgoing := toHotspots locale (durationsByFamily Metrics.EntryType.HttpClient entries) options
  slowJobs := toJobHotspots locale (durationsByFamily Metrics.EntryType.Job entries) options
  loadByUser := loadByUser locale options entries

/-! ## The second pass -/

def MAX_LABEL_LENGTH : Nat := 500

def truncateLabel (value : Units) : Units :=
  if MAX_LABEL_LENGTH < value.length then value.take MAX_LABEL_LENGTH ++ units "…" else value

def labelFrom (type : Text) (content : Value) : Units :=
  if content.isRecord then
    match content.get (units "uri"), content.get (units "method"), content.get (units "sql"),
      content.get (units "queue"), content.get (units "name") with
    | .string uri, .string method, _, _, _ => method ++ units " " ++ uri
    | .string uri, _, _, _, _ => uri
    | _, _, .string sql, _, _ => sql
    | _, _, _, .string queue, .string name => queue ++ units ":" ++ name
    | _, _, _, _, _ => Text.codeUnits type
  else Text.codeUnits type

/-- What was hydrated, or `undefined`. -/
abbrev HydrateContent := Text -> Value

def finalizeSlow (hydrate : HydrateContent) (candidate : SlowCandidate) : SlowEntry where
  id := candidate.id
  type := candidate.type
  durationMs := candidate.durationMs
  label := truncateLabel (labelFrom candidate.type (hydrate candidate.id))
  batchId := candidate.batchId

/-- None where the newest exception has no valid date. -/
def finalizeException (hydrate : HydrateContent) (group : ExceptionGroupAggregate) : Option ExceptionGroup :=
  let fields := Metrics.exceptionFields (hydrate group.representativeId)
  (toISOString (newDate (.finite group.lastSeen))).map fun lastSeen =>
    { familyHash := group.familyHash
      class_ := fields.class_
      message := fields.message
      count := group.count
      lastSeen := lastSeen }

def finalizeNPlusOne (hydrate : HydrateContent) (hotspot : NPlusOneAccumulator) : NPlusOneHotspot where
  familyHash := hotspot.familyHash
  sql := truncateLabel (sqlFromContent (hydrate hotspot.representativeId))
  perRequest := hotspot.perRequest
  requests := hotspot.requests
  total := hotspot.total
  totalDurationMs := hotspot.totalDurationMs
  sampleBatchId := hotspot.sampleBatchId

/-- None where a date has no text. -/
def finalizePulse (aggregates : PulseAggregates) (hydrate : HydrateContent) : Option PulseSummary := do
  let topExceptions <- aggregates.exceptions.mapM (finalizeException hydrate)
  let windowStart <- toISOString aggregates.windowStart
  let windowEnd <- toISOString aggregates.windowEnd
  pure
    { windowStart := windowStart
      windowEnd := windowEnd
      windowMs := Number.maxZero ((getTime aggregates.windowEnd).sub (getTime aggregates.windowStart))
      counts := aggregates.counts
      slowest := aggregates.slowest.map (finalizeSlow hydrate)
      topExceptions := topExceptions
      nPlusOne := aggregates.nPlusOne.map (finalizeNPlusOne hydrate)
      slowRoutes := aggregates.slowRoutes
      slowOutgoing := aggregates.slowOutgoing
      slowJobs := aggregates.slowJobs
      loadByUser := aggregates.loadByUser }

/-- The content that was set for an identifier, or `undefined`. -/
def shown (contents : Contents) : HydrateContent := fun id => (contents id).getD .undefined

def summarizePulse (locale : LocaleCompare) (entries : List (Entry Value)) (windowStart windowEnd : JsDate)
    (options : PulseOptions) : Option PulseSummary :=
  finalizePulse (aggregatePulse locale entries windowStart windowEnd options)
    (shown (entries.foldl setContent fun _ => none))

/-! ## The service -/

structure PulseServiceOptions extends Metrics.WindowReadOptions where
  topN : Number := .finite 5
  nPlusOneThreshold : Number := .finite 5
  slowRouteMinCount : Number := .finite 1
  slowRouteMs : Number := .finite 1000

def PulseServiceOptions.options (service : PulseServiceOptions) : PulseOptions where
  topN := service.topN
  nPlusOneThreshold := service.nPlusOneThreshold
  slowRouteMinCount := service.slowRouteMinCount
  slowRouteMs := service.slowRouteMs

structure PulseResult extends PulseSummary where
  scanned : Nat
  truncated : Bool

section Service

variable (get : EntryQuery -> Page Value)

def PulseHydrationIds.all (ids : PulseHydrationIds) : List Text := ids.slowest ++ ids.exceptions ++ ids.nPlusOne

/-- The identifiers that are asked for, each once. -/
def PulseHydrationIds.unique (ids : PulseHydrationIds) : List Text :=
  ids.all.eraseDups.filter fun id => decide (id ≠ [])

/-- The contents of what is shown, read at once. -/
def hydrate (ids : PulseHydrationIds) : Contents :=
  if ids.unique = [] then fun _ => none
  else (get { ids := some ids.unique, limit := some ids.unique.length }).data.foldl setContent fun _ => none

/-- Both passes over entries that were read without their contents. -/
def hydratedPulse (locale : LocaleCompare) (entries : List (Entry Value)) (windowStart windowEnd : JsDate)
    (options : PulseOptions) : Option PulseSummary :=
  let aggregates := aggregatePulse locale entries windowStart windowEnd options
  finalizePulse aggregates (shown (hydrate get aggregates.hydrationIds))

/-- The pulse of the window that ends now; none where a `RangeError` is thrown. -/
def getHealth (locale : LocaleCompare) (service : PulseServiceOptions) (windowMs : Number) (windowEnd : TimeValue) :
    Option PulseResult :=
  if windowMs.isFinite && (Number.finite 0).lt windowMs then
    let windowStart := newDate (Number.sub (.finite windowEnd.ms) windowMs)
    let read := Id.run (Metrics.collectEntriesInWindow (fun query => pure (get query))
      { after := windowStart.map TimeValue.ms, omitContent := true } service.toWindowReadOptions)
    (hydratedPulse get locale read.entries windowStart (some windowEnd) service.options).map fun summary =>
      { summary with scanned := read.scanned, truncated := read.truncated }
  else none

end Service
end Pulse
end Telescope
