import Telescope.AgentMetrics.AgentEvents
import Telescope.Core.Date
import Telescope.Foundation.Grouping
import Mathlib.Data.List.Sort

namespace Telescope
namespace AgentMetrics

/-!
# The AI screen of a window

The entries of a window are added up one after another: into the totals, into the rows of
three breakdowns, into buckets of time and into the rows of calls without a price.  Both
shapes of an agent event are read, unless an entry of the agent's own watcher is there.
Sums are exact.
-/

/-! ## Rows -/

/-- One row of a spend breakdown. -/
structure AiSpendRow where
  key : Units
  costUsd : Rat
  calls : Rat
  unpricedCalls : Rat
  inputTokens : Rat
  outputTokens : Rat

/-- One time bucket of spend. -/
structure AiSpendBucket where
  start : Units
  costUsd : Rat
  platformUsd : Rat
  estimatedUsd : Rat
  calls : Rat

/-- The totals of the spend. -/
structure AiTotals where
  totalUsd : Rat
  platformUsd : Rat
  estimatedUsd : Rat
  calls : Rat
  unpricedCalls : Rat
  inputTokens : Rat
  outputTokens : Rat
  cacheReadTokens : Rat
  cacheWriteTokens : Rat
  audioSeconds : Rat

structure AiSpend where
  totals : AiTotals
  byFeature : List AiSpendRow
  byModel : List AiSpendRow
  byActor : List AiSpendRow
  buckets : List AiSpendBucket

/-- One agent run, as the runs table shows it. -/
structure AiRunRow where
  entryId : Units
  traceId : Option Units
  instant : Units
  status : RunStatus
  agent : Units
  runId : Option Units
  threadId : Option Units
  modelId : Option Units
  durationMs : Option Rat
  ttftMs : Option Rat
  queueMs : Option Rat
  modelMs : Option Rat
  toolsMs : Option Rat
  steps : Option Rat
  modelCalls : Option Rat
  toolCalls : Option Rat
  inputTokens : Option Rat
  outputTokens : Option Rat
  costUsd : Option Rat
  code : Option Units
  stepTimings : List StepTiming

/-- Calls with no cost, grouped. -/
structure AiUnpricedRow where
  feature : Units
  model : Units
  provider : Units
  calls : Rat
  inputTokens : Rat
  outputTokens : Rat
  audioSeconds : Rat
  characters : Rat
  lastAt : Units

structure AiCoverage where
  usageEvents : Nat
  runEvents : Nat
  agentEvents : Nat
  legacyAgentLib : Bool
  runsWithoutTimings : Nat

structure AiUsageSummary where
  windowStart : Units
  windowEnd : Units
  spend : AiSpend
  runs : List AiRunRow
  slowest : List AiRunRow
  mostExpensive : List AiRunRow
  unpriced : List AiUnpricedRow
  coverage : AiCoverage

structure SummarizeAiUsageOptions where
  windowStart : TimeValue
  windowEnd : TimeValue
  buckets : Option Rat
  top : Option Rat
  runsLimit : Option Rat

/-- What the summary reads of an entry. -/
structure AiEntry where
  id : Units
  traceId : Option Units
  type : Units
  content : Value
  createdAt : TimeValue

/-! ## Options -/

namespace SummarizeAiUsageOptions

variable (options : SummarizeAiUsageOptions)

def bucketCount : Nat := (max 1 (min 500 ⌊options.buckets.getD 24⌋)).toNat

def topRows : Nat := (max 1 ⌊options.top.getD 10⌋).toNat

def runRows : Nat := (max 1 ⌊options.runsLimit.getD 50⌋).toNat

def bucketMs : Rat := max 1 ((options.windowEnd.ms - options.windowStart.ms) / options.bucketCount)

/-- The entry is in the window. -/
def contains (entry : AiEntry) : Bool :=
  !(decide (entry.createdAt.ms < options.windowStart.ms) || decide (options.windowEnd.ms < entry.createdAt.ms))

end SummarizeAiUsageOptions

def isoText (time : TimeValue) : Units := Text.codeUnits (isoFields time).text

/-- The empty bucket at a place in the window; `toISOString` can throw. -/
def emptyBucket (options : SummarizeAiUsageOptions) (index : Nat) : Option AiSpendBucket :=
  (newDate (.finite (options.windowStart.ms + index * options.bucketMs))).map fun start => ⟨isoText start, 0, 0, 0, 0⟩

def emptyBuckets (options : SummarizeAiUsageOptions) : Option (List AiSpendBucket) :=
  (List.range options.bucketCount).mapM (emptyBucket options)

/-! ## Adding up -/

def emptyRow (key : Units) : AiSpendRow := ⟨key, 0, 0, 0, 0, 0⟩

/-- The calls that had no cost. -/
def unpricedRequests (u : UsageObservation) : Rat := if u.costUsd.isNone then u.requests else 0

def AiSpendRow.add (row : AiSpendRow) (u : UsageObservation) : AiSpendRow :=
  { row with
    costUsd := row.costUsd + u.costUsd.getD 0
    calls := row.calls + u.requests
    unpricedCalls := row.unpricedCalls + unpricedRequests u
    inputTokens := row.inputTokens + u.inputTokens
    outputTokens := row.outputTokens + u.outputTokens }

def addTo (map : Grouping Units AiSpendRow) (key : Units) (u : UsageObservation) : Grouping Units AiSpendRow :=
  map.upsert key ((emptyRow key).add u) fun row => row.add u

/-- The share of the cost that counts when a condition holds. -/
def share (condition : Bool) (u : UsageObservation) : Rat := if condition then u.costUsd.getD 0 else 0

def AiTotals.add (totals : AiTotals) (u : UsageObservation) : AiTotals where
  totalUsd := totals.totalUsd + u.costUsd.getD 0
  platformUsd := totals.platformUsd + share u.platform u
  estimatedUsd := totals.estimatedUsd + share (decide (u.costSource = .estimate)) u
  calls := totals.calls + u.requests
  unpricedCalls := totals.unpricedCalls + unpricedRequests u
  inputTokens := totals.inputTokens + u.inputTokens
  outputTokens := totals.outputTokens + u.outputTokens
  cacheReadTokens := totals.cacheReadTokens + u.cacheReadTokens
  cacheWriteTokens := totals.cacheWriteTokens + u.cacheWriteTokens
  audioSeconds := totals.audioSeconds + u.audioSeconds

def AiSpendBucket.add (bucket : AiSpendBucket) (u : UsageObservation) : AiSpendBucket :=
  { bucket with
    costUsd := bucket.costUsd + u.costUsd.getD 0
    platformUsd := bucket.platformUsd + share u.platform u
    estimatedUsd := bucket.estimatedUsd + share (decide (u.costSource = .estimate)) u
    calls := bucket.calls + u.requests }

/-- The place of an instant among the buckets. -/
def bucketIndex (options : SummarizeAiUsageOptions) (instant : TimeValue) : Nat :=
  (min ((options.bucketCount : Int) - 1) ⌊((instant.ms - options.windowStart.ms : Int) : Rat) / options.bucketMs⌋).toNat

def unpricedKey (u : UsageObservation) : Units := u.feature ++ 0 :: (u.model ++ 0 :: u.provider)

def emptyUnpriced (u : UsageObservation) (instant : TimeValue) : AiUnpricedRow :=
  ⟨u.feature, u.model, u.provider, 0, 0, 0, 0, 0, isoText instant⟩

def AiUnpricedRow.add (row : AiUnpricedRow) (u : UsageObservation) (instant : TimeValue) : AiUnpricedRow :=
  { row with
    calls := row.calls + u.requests
    inputTokens := row.inputTokens + u.inputTokens
    outputTokens := row.outputTokens + u.outputTokens
    audioSeconds := row.audioSeconds + u.audioSeconds
    characters := row.characters + u.characters
    lastAt := if row.lastAt < isoText instant then isoText instant else row.lastAt }

def toRunRow (entry : AiEntry) (r : RunObservation) : AiRunRow where
  entryId := entry.id
  traceId := entry.traceId
  instant := isoText entry.createdAt
  status := r.status
  agent := r.agent
  runId := r.runId
  threadId := r.threadId
  modelId := r.modelId
  durationMs := r.durationMs
  ttftMs := r.ttftMs
  queueMs := r.queueMs
  modelMs := r.modelMs
  toolsMs := r.toolsMs
  steps := r.steps.orElse fun _ => if 0 < r.stepTimings.length then some (r.stepTimings.length : Rat) else none
  modelCalls := r.modelCalls
  toolCalls := r.toolCalls
  inputTokens := r.inputTokens
  outputTokens := r.outputTokens
  costUsd := r.costUsd
  code := r.code
  stepTimings := r.stepTimings

/-- What the loop over the entries changes. -/
structure Tally where
  totals : AiTotals
  byFeature : Grouping Units AiSpendRow
  byModel : Grouping Units AiSpendRow
  byActor : Grouping Units AiSpendRow
  buckets : List AiSpendBucket
  unpriced : Grouping Units AiUnpricedRow
  runs : List AiRunRow
  usageEvents : Nat
  runEvents : Nat
  agentEvents : Nat
  runsWithoutTimings : Nat

def emptyTally (buckets : List AiSpendBucket) : Tally where
  totals := ⟨0, 0, 0, 0, 0, 0, 0, 0, 0, 0⟩
  byFeature := .empty
  byModel := .empty
  byActor := .empty
  buckets := buckets
  unpriced := .empty
  runs := []
  usageEvents := 0
  runEvents := 0
  agentEvents := 0
  runsWithoutTimings := 0

namespace Tally

variable (options : SummarizeAiUsageOptions)

def addRun (tally : Tally) (entry : AiEntry) (r : RunObservation) : Tally :=
  { tally with
    runEvents := tally.runEvents + 1
    runsWithoutTimings := tally.runsWithoutTimings +
      if r.queueMs.isNone && r.modelMs.isNone && r.toolsMs.isNone then 1 else 0
    runs := tally.runs ++ [toRunRow entry r] }

def addUsage (tally : Tally) (instant : TimeValue) (u : UsageObservation) : Tally :=
  { tally with
    usageEvents := tally.usageEvents + 1
    totals := tally.totals.add u
    byFeature := addTo tally.byFeature u.feature u
    byModel := addTo tally.byModel u.model u
    byActor := addTo tally.byActor u.actorRef u
    buckets := tally.buckets.modify (bucketIndex options instant) fun bucket => bucket.add u
    unpriced := if u.costUsd.isNone then
        tally.unpriced.upsert (unpricedKey u) ((emptyUnpriced u instant).add u instant) fun row => row.add u instant
      else tally.unpriced }

def addEvent (tally : Tally) (entry : AiEntry) (event : AgentEvent) : Tally :=
  let counted := { tally with agentEvents := tally.agentEvents + 1 }
  match readAgentEvent event.event event.payload with
  | none => counted
  | some (.run r) => counted.addRun entry r
  | some (.usage u) => counted.addUsage options entry.createdAt u

/-- One entry of the loop. -/
def addEntry (hasTyped : Bool) (tally : Tally) (entry : AiEntry) : Tally :=
  if !options.contains entry then tally
  else if hasTyped && decide (entry.type ≠ AGENT) then tally
  else match agentEventOfEntry entry.type entry.content with
    | none => tally
    | some event => tally.addEvent options entry event

end Tally

/-! ## The summary -/

/-- `Math.round(value * 1e8) / 1e8`. -/
def round (value : Rat) : Rat := ⌊value * 100000000 + 1 / 2⌋ / 100000000

/-- `Array.prototype.sort` with a comparator: what compares equal keeps its order. -/
def sortBy {α : Type} (compare : α -> α -> Rat) (items : List α) : List α :=
  items.insertionSort fun left right => compare left right ≤ 0

variable (localeCompare : Units -> Units -> Int)

def compareRows (a b : AiSpendRow) : Rat :=
  if b.costUsd - a.costUsd ≠ 0 then b.costUsd - a.costUsd
  else if b.calls - a.calls ≠ 0 then b.calls - a.calls
  else localeCompare a.key b.key

def ranked (map : Grouping Units AiSpendRow) (top : Nat) : List AiSpendRow :=
  ((sortBy (compareRows localeCompare) map.values).take top).map fun row => { row with costUsd := round row.costUsd }

/-- Rows with a positive amount, the largest ones. -/
def largest (amount : AiRunRow -> Option Rat) (keep : Rat -> Bool) (runs : List AiRunRow) : List AiRunRow :=
  (sortBy (fun a b => (amount b).getD 0 - (amount a).getD 0) (runs.filter fun run => (amount run).any keep)).take 5

/-- What is made of the tally. -/
def finish (options : SummarizeAiUsageOptions) (tally : Tally) : AiUsageSummary :=
  let runs := sortBy (fun a b => (localeCompare b.instant a.instant : Rat)) tally.runs
  { windowStart := isoText options.windowStart
    windowEnd := isoText options.windowEnd
    spend :=
      { totals := { tally.totals with
          totalUsd := round tally.totals.totalUsd
          platformUsd := round tally.totals.platformUsd
          estimatedUsd := round tally.totals.estimatedUsd }
        byFeature := ranked localeCompare tally.byFeature options.topRows
        byModel := ranked localeCompare tally.byModel options.topRows
        byActor := ranked localeCompare tally.byActor options.topRows
        buckets := tally.buckets.map fun bucket => { bucket with
          costUsd := round bucket.costUsd
          platformUsd := round bucket.platformUsd
          estimatedUsd := round bucket.estimatedUsd } }
    runs := runs.take options.runRows
    slowest := largest AiRunRow.durationMs (fun _ => true) runs
    mostExpensive := largest AiRunRow.costUsd (fun costUsd => decide (0 < costUsd)) runs
    unpriced := sortBy (fun a b => b.calls - a.calls) tally.unpriced.values
    coverage :=
      { usageEvents := tally.usageEvents
        runEvents := tally.runEvents
        agentEvents := tally.agentEvents
        legacyAgentLib := decide (0 < tally.agentEvents) && decide (tally.usageEvents = 0)
        runsWithoutTimings := tally.runsWithoutTimings } }

/-- Some entry is one of the agent's own watcher. -/
def hasTyped (entries : List AiEntry) : Bool :=
  entries.any fun entry => decide (entry.type = AGENT) && (agentEventOfEntry entry.type entry.content).isSome

/-- The tally of all entries, or `none` when a bucket has no ISO string. -/
def tallyOf (options : SummarizeAiUsageOptions) (entries : List AiEntry) : Option Tally :=
  (emptyBuckets options).map fun buckets =>
    entries.foldl (Tally.addEntry options (hasTyped entries)) (emptyTally buckets)

def summarizeAiUsage (entries : List AiEntry) (options : SummarizeAiUsageOptions) : Option AiUsageSummary :=
  (tallyOf options entries).map (finish localeCompare options)

end AgentMetrics
end Telescope
