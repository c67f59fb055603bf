import Telescope.Metrics.Stats

namespace Telescope
namespace Metrics

/-!
# The statistics service

The entries of a window are scanned without their content, except for caches; what the
summary reads of a content is then fetched for the entries that need it, by identifier.
-/

def DEFAULT_SLOW_MS : Number := .finite 100

/-- Identifiers of one hydration read. -/
def HYDRATE_CHUNK : Nat := 500

def STATUS_TAG_PREFIX : Text := "status:".toList

/-! ## Status tags -/

/-- A decimal literal without a sign; other texts are no number. -/
def unsignedNumber (text : Text) : Number :=
  let mantissa := text.takeWhile (· ≠ 'e')
  let exponent := (text.dropWhile (· ≠ 'e')).drop 1
  let whole := mantissa.takeWhile (· ≠ '.')
  let fraction := (mantissa.dropWhile (· ≠ '.')).drop 1
  let power := match exponent with
    | '+' :: digits => Decimal.toInt digits
    | digits => Decimal.toInt digits
  match power with
  | some power =>
      if whole ≠ [] ∧ whole.all Char.isDigit ∧ fraction.all Char.isDigit then
        Number.round (Decimal.value (whole ++ fraction) * 10 ^ (power - fraction.length))
      else .nan
  | none => .nan

/-- `-number`. -/
def minus : Number -> Number
  | .finite value => .finite (-value)
  | .infinity negative => .infinity (!negative)
  | .nan => .nan

/-- `Number(raw)`, where it is written as `String` writes numbers; another way of writing a
number makes no difference here. -/
def numberOf (raw : Text) : Number :=
  if raw = "Infinity".toList then .infinity false
  else if raw = "-Infinity".toList then .infinity true
  else
    match raw with
    | '-' :: digits => minus (unsignedNumber digits)
    | digits => unsignedNumber digits

/-- The loop over the tags, with the code found so far. -/
def findStatus : List Text -> Option Number -> Option Number
  | [], found => found
  | tag :: tags, found =>
      if STATUS_TAG_PREFIX.isPrefixOf tag then
        if found.isSome then none
        else
          let raw := tag.drop STATUS_TAG_PREFIX.length
          let value := numberOf raw
          if raw = [] ∨ value.text ≠ Text.codeUnits raw then none
          else findStatus tags (some value)
      else findStatus tags found

/-- The code of the only `status:` tag. -/
def statusFromTags (tags : List Text) : Option Number := findStatus tags none

/-! ## Reading contents -/

section Hydrate

variable (get : EntryQuery -> Page Value)

/-- Contents by identifier. -/
abbrev Contents := Text -> Option Value

def setContent (contents : Contents) (entry : Entry Value) : Contents :=
  Function.update contents entry.id (some entry.content)

/-- `ids.slice(offset, offset + HYDRATE_CHUNK)`, for the offsets of the loop. -/
def idChunks (ids : List Text) : List (List Text) :=
  (List.range ((ids.length + HYDRATE_CHUNK - 1) / HYDRATE_CHUNK)).map fun index =>
    (ids.drop (index * HYDRATE_CHUNK)).take HYDRATE_CHUNK

/-- The contents of some identifiers, read chunk by chunk. -/
def contentFor (ids : List Text) : Contents :=
  (idChunks ids).foldl
    (fun contents chunk =>
      (get { ids := some chunk, limit := some chunk.length }).data.foldl setContent contents)
    fun _ => none

/-! ## Hydration -/

/-- `content ?? null`. -/
def orNull (content : Option Value) : Value :=
  match content with
  | none => .null
  | some .undefined => .null
  | some content => content

def hydrateRequests (entries : List (Entry Value)) : List (Entry Value) :=
  let contents := contentFor get
    ((entries.filter fun entry => (statusFromTags entry.tags).isNone).map Entry.id)
  entries.map fun entry =>
    match statusFromTags entry.tags with
    | some statusCode => { entry with content := .object [(units "statusCode", .number statusCode)] }
    | none => { entry with content := orNull (contents entry.id) }

/-- The first entry of every family. -/
def firstOfFamily (entries : List (Entry Value)) : Grouping Text (Entry Value) :=
  Grouping.empty.gather
    { key := fun row => row.1, first := fun row => row.2, change := fun first _row => first }
    (entries.filterMap withFamily)

/-- The families whose first row has no object for content. -/
def perRowFamilies (contents : Contents) (first : Grouping Text (Entry Value)) : List Text :=
  (first.groups.filter fun group => !((contents group.2.id).elim false Value.isRecord)).map Prod.fst

/-- The content of a query, where it was fetched. -/
def hydrateQueries (entries : List (Entry Value)) : List (Entry Value) :=
  let contents := contentFor get ((firstOfFamily entries).values.map Entry.id)
  entries.map fun entry =>
    match contents entry.id with
    | some content => { entry with content := content }
    | none => entry

def inFamilies (families : List Text) (entry : Entry Value) : Bool :=
  match entry.familyHash with
  | some familyHash => decide (familyHash ∈ families)
  | none => false

def hydrateExceptions (entries : List (Entry Value)) : List (Entry Value) :=
  let first := firstOfFamily entries
  let unkeyed := (entries.filter fun entry => entry.familyHash.isNone).map Entry.id
  let fetched := contentFor get (first.values.map Entry.id ++ unkeyed)
  let perRow := perRowFamilies fetched first
  let extra := contentFor get ((entries.filter (inFamilies perRow)).map Entry.id)
  let contents : Contents := fun id => (extra id).or (fetched id)
  entries.map fun entry =>
    match entry.familyHash with
    | some familyHash =>
        if familyHash ∈ perRow then { entry with content := orNull (contents entry.id) }
        else
          { entry with content := orNull ((first.lookup familyHash).bind fun row => fetched row.id) }
    | none => { entry with content := orNull (contents entry.id) }

/-- Content for the types whose summary reads some. -/
def hydrateForStats (type : Text) (entries : List (Entry Value)) : List (Entry Value) :=
  if type = EntryType.Request then hydrateRequests get entries
  else if type = EntryType.Query then hydrateQueries get entries
  else if type = EntryType.Exception then hydrateExceptions get entries
  else entries

end Hydrate

/-! ## Percentiles from rollups -/

/-- The upper boundary of the cell of a histogram that holds the rank. -/
def histogramCell : List Nat -> Nat -> Nat -> Nat -> Nat
  | [], _index, _cumulative, _rank => Rollup.LATENCY_BOUNDARIES_MS.getLast?.getD 0
  | count :: cells, index, cumulative, rank =>
      if rank ≤ cumulative + count then
        (Rollup.LATENCY_BOUNDARIES_MS[index]?).getD (Rollup.LATENCY_BOUNDARIES_MS.getLast?.getD 0)
      else histogramCell cells (index + 1) (cumulative + count) rank

def estimatePercentileFromHistogram (histogram : List Nat) (hundredths : Nat) : Nat :=
  let cells := Rollup.normalizeHistogram histogram
  let total := cells.sum
  if total = 0 then 0
  else histogramCell cells 0 0 (max 1 ⌈Number.nearest (quantile hundredths * total)⌉).toNat

/-- The percentiles that the rollups of the window estimate, if they have samples. -/
def estimatePercentiles (rollups : Rollup.Rollups) (type : Text) (windowStart windowEnd : TimeValue) :
    Option LatencyPercentilesOverride :=
  let buckets := Rollup.queryRollups rollups [type] (Rollup.floorToBucket windowStart.ms)
    (Rollup.floorToBucket windowEnd.ms)
  let merged := buckets.foldl (fun merged bucket => Rollup.mergeHistograms merged bucket.histogram)
    Rollup.emptyHistogram
  let mergedMax := buckets.foldl (fun mergedMax bucket => max mergedMax bucket.max) 0
  if merged.sum = 0 then none
  else
    some
      { p50 := min (estimatePercentileFromHistogram merged 50) mergedMax
        p95 := min (estimatePercentileFromHistogram merged 95) mergedMax
        p99 := min (estimatePercentileFromHistogram merged 99) mergedMax }

/-! ## The service -/

structure StatsQuery where
  type : Text
  windowMs : Number
  buckets : Option Rat := none

structure StatsServiceOptions extends WindowReadOptions where
  slowMs : Number := DEFAULT_SLOW_MS
  defaultBuckets : Rat := DEFAULT_BUCKETS

/-- What the service gives to a summary besides the entries. -/
def StatsQuery.input (query : StatsQuery) (options : StatsServiceOptions) (windowStart windowEnd : TimeValue)
    (truncated : Bool) (latencyPercentiles : Option LatencyPercentilesOverride) : SummarizeStatsInput where
  type := query.type
  windowStart := windowStart
  windowEnd := windowEnd
  windowMs := query.windowMs
  buckets := (min MAX_BUCKETS (max 1 ⌊query.buckets.getD options.defaultBuckets⌋) : Int)
  slowMs := options.slowMs
  truncated := truncated
  latencyPercentiles := latencyPercentiles

def StatsQuery.baseQuery (query : StatsQuery) (windowStart : TimeValue) : EntryQuery where
  after := some windowStart.ms
  type := some query.type
  omitContent := decide (query.type ≠ EntryType.Cache)

/-- The summary of what a scan has read. -/
def scannedStats (locale : LocaleCompare) (get : EntryQuery -> Page Value) (input : SummarizeStatsInput)
    (scanned : List (Entry Value)) : Option StatsResult :=
  summarizeStats locale input
    (if input.type = EntryType.Cache then scanned else hydrateForStats get input.type scanned)

/-- The answer to a query at the time `windowEnd`; none is an error. -/
def getStats (locale : LocaleCompare) (store : TimeseriesStore Value) (options : StatsServiceOptions)
    (query : StatsQuery) (windowEnd : TimeValue) : Option StatsResult := do
  let windowStart <- TimeseriesQuery.windowStart { windowMs := query.windowMs } windowEnd
  let scan := Id.run (collectEntriesInWindow (fun query => pure (store.get query))
    (query.baseQuery windowStart) options.toWindowReadOptions)
  let latencyPercentiles := store.rollups.bind fun rollups =>
    estimatePercentiles rollups query.type windowStart windowEnd
  scannedStats locale store.get
    (query.input options windowStart windowEnd scan.truncated latencyPercentiles) scan.entries

end Metrics
end Telescope
