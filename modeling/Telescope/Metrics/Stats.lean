import Telescope.Metrics.Percentile
import Telescope.Metrics.TimeseriesService

namespace Telescope
namespace Metrics

/-!
# Statistics of a window

Entries of one type are summarised: their number and throughput, the percentiles of
their durations, and what the type adds.  Groups are kept in the order of their first
entry and then sorted by a stable sort.  How the engine compares texts in its locale is
a parameter.
-/

/-- `left.localeCompare(right)`. -/
abbrev LocaleCompare := Units -> Units -> Ordering

/-! ## Contents -/

structure QueryContent where
  sql : Units
  bindings : List Value
  connection : Option Units
  slow : Bool

/-- Only `sql` is required. -/
def asQueryContent (content : Value) : Option QueryContent :=
  match content.get (units "sql") with
  | .string sql =>
      some
        { sql := sql
          bindings := match content.get (units "bindings") with
            | .array bindings => bindings
            | _ => []
          connection := content.getString (units "connection")
          slow := match content.get (units "slow") with
            | .boolean slow => slow
            | _ => false }
  | _ => none

inductive CacheOperation
  | get
  | set
  | delete
  | clear
  deriving DecidableEq

def cacheOperation (value : Value) : Option CacheOperation :=
  match value with
  | .string name =>
      if name = units "get" then some .get
      else if name = units "set" then some .set
      else if name = units "delete" then some .delete
      else if name = units "clear" then some .clear
      else none
  | _ => none

structure CacheContent where
  operation : CacheOperation
  key : Units
  hit : Option Bool
  tier : Option Units
  stale : Option Bool

def asCacheContent (content : Value) : Option CacheContent := do
  let operation <- cacheOperation (content.get (units "operation"))
  let key <- content.getString (units "key")
  let hit <- match content.get (units "hit") with
    | .boolean hit => some (some hit)
    | .null => some none
    | _ => none
  pure
    { operation := operation
      key := key
      hit := hit
      tier := content.getString (units "tier")
      stale := match content.get (units "stale") with
        | .boolean stale => some stale
        | _ => none }

structure ExceptionFields where
  class_ : Units
  message : Units

def exceptionFields (content : Value) : ExceptionFields :=
  ⟨(content.getString (units "class")).getD (units "Error"), (content.getString (units "message")).getD []⟩

def asExceptionContent (content : Value) : Option ExceptionFields :=
  if content.isRecord then some (exceptionFields content) else none

/-- The status code of a request; none where it is null or no number. -/
def requestStatus (content : Value) : Option Number :=
  if content.isRecord then content.getNumber (units "statusCode") else none

/-! ## Latency -/

structure LatencyStats where
  count : Nat
  p50 : Rat
  p95 : Rat
  p99 : Rat
  max : Rat
  slow : Nat

structure LatencyPercentilesOverride where
  p50 : Rat
  p95 : Rat
  p99 : Rat

variable {C : Type*}

def computeLatency (entries : List (Entry C)) (slowMs : Number) : Option LatencyStats :=
  let durations := ascending (entries.filterMap Entry.durationMs)
  if durations = [] then none
  else
    some
      { count := durations.length
        p50 := percentile durations 50
        p95 := percentile durations 95
        p99 := percentile durations 99
        max := durations.getLast?.getD 0
        slow := (entries.filterMap Entry.durationMs).countP fun durationMs =>
          (Number.finite durationMs).ge slowMs }

/-! ## Query families -/

def DEFAULT_TOP_FAMILIES : Nat := 8

def MAX_FAMILY_LABEL_LENGTH : Nat := 60

structure FamilyAccumulator where
  durations : List Rat
  label : Units

structure FamilyLatency where
  familyHash : Text
  label : Units
  count : Nat
  p50 : Rat
  p99 : Rat

def familyLabel (content : Value) : Units :=
  match asQueryContent content with
  | some query => query.sql.take MAX_FAMILY_LABEL_LENGTH
  | none => []

def familyGroups : Grouping.Gathering (Text × Entry Value) Text FamilyAccumulator where
  key row := row.1
  first row := ⟨row.2.durationMs.toList, familyLabel row.2.content⟩
  change existing row := { existing with durations := existing.durations ++ row.2.durationMs.toList }

/-- An entry with its family, if it has one. -/
def withFamily (entry : Entry C) : Option (Text × Entry C) :=
  entry.familyHash.map fun familyHash => (familyHash, entry)

def familyLatency (family : Text × FamilyAccumulator) : FamilyLatency :=
  let durations := ascending family.2.durations
  { familyHash := family.1
    label := family.2.label
    count := durations.length
    p50 := percentile durations 50
    p99 := percentile durations 99 }

def computeFamilies (locale : LocaleCompare) (entries : List (Entry Value)) (topFamilies : Nat) :
    List FamilyLatency :=
  let groups := Grouping.empty.gather familyGroups (entries.filterMap withFamily)
  let families := (groups.groups.map familyLatency).mergeSort fun left right =>
    ((compare right.p99 left.p99).then ((compare right.count left.count).then
      (locale (Text.codeUnits left.familyHash) (Text.codeUnits right.familyHash)))).isLE
  families.take topFamilies

/-! ## Caches -/

def DEFAULT_TOP_KEYS : Nat := 8

structure TierCounts where
  hits : Nat := 0
  misses : Nat := 0

structure CacheStats where
  hits : Nat := 0
  misses : Nat := 0
  sets : Nat := 0
  deletes : Nat := 0
  staleHits : Nat := 0
  keyCounts : Grouping Units Nat := Grouping.empty
  byTier : Grouping Units TierCounts := Grouping.empty

/-- The counts of a tier.  A tier that names what all objects inherit counts there. -/
def CacheStats.countTier (stats : CacheStats) (tier : Option Units) (count : TierCounts -> TierCounts) :
    CacheStats :=
  match tier with
  | none => stats
  | some tier =>
      if tier ∈ (PROTO :: OBJECT_METHODS).map Text.codeUnits then stats
      else { stats with byTier := stats.byTier.upsert tier (count {}) count }

def CacheStats.add (stats : CacheStats) (cache : CacheContent) : CacheStats :=
  let stats := { stats with keyCounts := stats.keyCounts.upsert cache.key 1 (· + 1) }
  match cache.operation, cache.hit with
  | .set, _ => { stats with sets := stats.sets + 1 }
  | .delete, _ => { stats with deletes := stats.deletes + 1 }
  | .clear, _ => { stats with deletes := stats.deletes + 1 }
  | .get, some true =>
      { stats with
        hits := stats.hits + 1
        staleHits := stats.staleHits + (if cache.stale = some true then 1 else 0) }.countTier cache.tier
          fun counts => { counts with hits := counts.hits + 1 }
  | .get, some false =>
      { stats with misses := stats.misses + 1 }.countTier cache.tier
        fun counts => { counts with misses := counts.misses + 1 }
  | .get, none => stats

/-- The counters, the most frequent keys and the share of hits. -/
structure CacheResult where
  stats : CacheStats
  hitRatio : Number
  topKeys : List (Units × Nat)

def computeCache (locale : LocaleCompare) (entries : List (Entry Value)) (topKeys : Nat) : CacheResult :=
  let stats := (entries.filterMap fun entry => asCacheContent entry.content).foldl CacheStats.add {}
  let denominator := stats.hits + stats.misses
  { stats := stats
    hitRatio := if denominator = 0 then .finite 0 else Number.round ((stats.hits : Rat) / denominator)
    topKeys := (stats.keyCounts.groups.mergeSort fun left right =>
      ((compare right.2 left.2).then (locale left.1 right.1)).isLE).take topKeys }

/-! ## Request statuses -/

inductive StatusClass
  | success
  | redirection
  | clientError
  | serverError
  | other
  deriving DecidableEq

/-- The class that a status code is counted in. -/
def statusClass (code : Option Number) : StatusClass :=
  match code with
  | none => .other
  | some code =>
      if code.ge (.finite 200) && code.lt (.finite 300) then .success
      else if code.ge (.finite 300) && code.lt (.finite 400) then .redirection
      else if code.ge (.finite 400) && code.lt (.finite 500) then .clientError
      else if code.ge (.finite 500) && code.lt (.finite 600) then .serverError
      else .other

/-- `2xx`, `3xx`, `4xx`, `5xx` and `other`: how many requests are of a class. -/
abbrev StatusBreakdown := StatusClass -> Nat

def computeStatus (entries : List (Entry Value)) : StatusBreakdown :=
  fun status => entries.countP fun entry => decide (statusClass (requestStatus entry.content) = status)

/-! ## Exceptions -/

def DEFAULT_TOP_EXCEPTIONS : Nat := 8

structure ExceptionAccumulator where
  class_ : Units
  message : Units
  count : Nat
  lastAt : Int
  overTime : List Nat

structure ExceptionGroupStats extends ExceptionAccumulator where
  key : Units

/-- The family of the entry, else what its content says. -/
def exceptionKey (entry : Entry Value) (fields : ExceptionFields) : Units :=
  match entry.familyHash with
  | some familyHash => Text.codeUnits familyHash
  | none => fields.class_ ++ units ": " ++ fields.message

section Window

variable (windowStart windowEnd : TimeValue) (buckets : Rat)

def countBucket (overTime : List Nat) (entry : Entry C) : List Nat :=
  overTime.modify (reportIndex windowStart windowEnd buckets entry.createdAt) (· + 1)

def exceptionGroups : Grouping.Gathering (ExceptionFields × Entry Value) Units ExceptionAccumulator where
  key row := exceptionKey row.2 row.1
  first row :=
    { class_ := row.1.class_
      message := row.1.message
      count := 1
      lastAt := row.2.createdAt
      overTime := countBucket windowStart windowEnd buckets
        (List.replicate (reportCount buckets).toNat 0) row.2 }
  change existing row :=
    { existing with
      count := existing.count + 1
      lastAt := max existing.lastAt row.2.createdAt
      overTime := countBucket windowStart windowEnd buckets existing.overTime row.2 }

/-- An entry with the fields of its content, if that is an object. -/
def withFields (entry : Entry Value) : Option (ExceptionFields × Entry Value) :=
  (asExceptionContent entry.content).map fun fields => (fields, entry)

def computeExceptions (locale : LocaleCompare) (entries : List (Entry Value)) (topExceptions : Nat) :
    List ExceptionGroupStats :=
  let groups := Grouping.empty.gather (exceptionGroups windowStart windowEnd buckets)
    (entries.filterMap withFields)
  let exceptions := (groups.groups.map fun group =>
    ({ group.2 with key := group.1 } : ExceptionGroupStats)).mergeSort fun left right =>
      ((compare right.count left.count).then ((compare right.lastAt left.lastAt).then
        (locale left.key right.key))).isLE
  exceptions.take topExceptions

end Window

/-! ## The summary -/

structure StatsResult where
  type : Text
  windowMs : Number
  total : Nat
  overTime : TimeseriesReport
  latency : Option LatencyStats
  families : Option (List FamilyLatency)
  cache : Option CacheResult
  status : Option StatusBreakdown
  exceptions : Option (List ExceptionGroupStats)
  truncated : Bool

/-- What is given to a summary besides its entries. -/
structure SummarizeStatsInput where
  type : Text
  windowStart : TimeValue
  windowEnd : TimeValue
  windowMs : Number
  buckets : Rat
  slowMs : Number
  truncated : Bool
  topFamilies : Option Nat := none
  topKeys : Option Nat := none
  topExceptions : Option Nat := none
  latencyPercentiles : Option LatencyPercentilesOverride := none

/-- A property that is set only where the list has members. -/
def whereSome {α : Type*} (items : List α) : Option (List α) :=
  match items with
  | [] => none
  | items => some items

def SummarizeStatsInput.latency (input : SummarizeStatsInput) (entries : List (Entry Value)) : Option LatencyStats :=
  (computeLatency entries input.slowMs).map fun latency =>
    match input.latencyPercentiles with
    | none => latency
    | some override => { latency with p50 := override.p50, p95 := override.p95, p99 := override.p99 }

/-- The summary of the entries; none where a date of its report is out of range. -/
def summarizeStats (locale : LocaleCompare) (input : SummarizeStatsInput) (entries : List (Entry Value)) :
    Option StatsResult := do
  let overTime <- bucketTimeseries input.windowStart input.windowEnd input.buckets entries
  pure
    { type := input.type
      windowMs := input.windowMs
      total := entries.length
      overTime := overTime
      latency := input.latency entries
      families :=
        if input.type = EntryType.Query then
          whereSome (computeFamilies locale entries (input.topFamilies.getD DEFAULT_TOP_FAMILIES))
        else none
      cache :=
        if input.type = EntryType.Cache then
          some (computeCache locale entries (input.topKeys.getD DEFAULT_TOP_KEYS))
        else none
      status := if input.type = EntryType.Request then some (computeStatus entries) else none
      exceptions :=
        if input.type = EntryType.Exception then
          whereSome (computeExceptions input.windowStart input.windowEnd input.buckets locale entries
            (input.topExceptions.getD DEFAULT_TOP_EXCEPTIONS))
        else none
      truncated := input.truncated }

end Metrics
end Telescope
