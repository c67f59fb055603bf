import Telescope.Alerts.Alerter
import Telescope.Metrics.CollectWindow
import Telescope.Metrics.Percentile

namespace Telescope
namespace Alerts

open Throwing

/-!
# Interval rules

At every tick of the timer the alerter measures its rules one after the other.  A rule
whose value crosses its threshold, and that is not in its cooldown, fires: the instant
is kept under the index of the rule and the payload goes to every channel.  The drop
counter that the last evaluation has read is one field for all rules.

Every request carries the index of the rule it is made for.  The parties do not see
the index; it is there so that their answers can be given rule by rule.
-/

/-! ## Rules -/

inductive AlertMetric
  | requestP95Ms
  | requestP99Ms
  | queryP95Ms
  | queryP99Ms
  | cacheHitRate
  deriving DecidableEq

inductive Comparator
  | gte
  | lte
  deriving DecidableEq

/-- A rule whose window, if any, boot has found to be a duration. -/
inductive AlertRule
  | exceptionRate (window : Window) (threshold : Number)
  | slowRequestRate (window : Window) (thresholdMs count : Number)
  | droppedEntries (threshold : Number)
  | newException (window : Window)
  | everyException (window : Option Window)
  | metricThreshold (metric : AlertMetric) (window : Window) (comparator : Comparator)
      (threshold : Number) (minSamples : Option Number)

/-- The rules that the timer evaluates. -/
def AlertRule.isInterval : AlertRule -> Bool
  | .newException _window => false
  | .everyException _window => false
  | _ => true

def AlertRule.readsDrops : AlertRule -> Bool
  | .droppedEntries _threshold => true
  | _ => false

/-- The payload of an interval rule. -/
structure RatePayload where
  rule : AlertRule
  value : Number
  threshold : Number
  firedAt : Int
  instanceId : Text
  dashboardUrl : Option Text

/-! ## The parties -/

inductive IntervalRequest
  | now
  | get (query : EntryQuery)
  | droppedCount
  | send (payload : RatePayload)

/-- A request on behalf of the rule with this index. -/
structure Labelled where
  rule : Nat
  request : IntervalRequest

abbrev IntervalReply (labelled : Labelled) : Type :=
  match labelled.request with
  | .now => Int
  | .get _query => Except Thrown (Page Value)
  | .droppedCount => Nat
  | .send _payload => Dispatched

structure IntervalDeps where
  channels : List AlertChannel
  dashboardUrl : Option Text
  instanceId : Text
  cooldownMs : Nat
  rules : List AlertRule

/-- The fields of the alerter that evaluations read and write. -/
structure IntervalMemory where
  lastFiredAt : Nat -> Option Int := fun _ => none
  lastDroppedCount : Nat
  warnedChannels : List Text := []
  logged : List Units := []

abbrev IntervalEvaluation := Throwing Labelled IntervalReply IntervalMemory Thrown

/-- A measurement that reads no field of the alerter. -/
abbrev Reading := Throwing Labelled IntervalReply PUnit Thrown

def Reading.lift {α : Type} (reading : Reading α) : IntervalEvaluation α :=
  fun memory => (reading ⟨⟩).bind fun outcome => .done (outcome.1, memory)

variable (rule : Nat)

def askNow : Reading Int := ask (⟨rule, .now⟩ : Labelled)

def storageGet (query : EntryQuery) : Reading (Page Value) := do
  match <- (ask (⟨rule, .get query⟩ : Labelled) : Reading (Except Thrown (Page Value))) with
  | .ok page => pure page
  | .error error => throw error

/-! ## Measuring -/

/-- The entries of a type in the trailing window, without their content. -/
def readWindow (window : Window) (type : Text) : Reading (List (Entry Value)) := do
  let now <- askNow rule
  let result <- Metrics.collectEntriesInWindow (storageGet rule)
    { type := some type, after := some (now - window.ms), omitContent := true }
    { scanCap := some ALERT_SCAN_CAP }
  pure result.entries

def countInWindow (window : Window) (type : Text) : Reading Nat := do
  let entries <- readWindow rule window type
  pure entries.length

def isSlow (thresholdMs : Number) (entry : Entry Value) : Bool :=
  match entry.durationMs with
  | none => false
  | some durationMs => (Number.finite durationMs).ge thresholdMs

def countSlowRequests (window : Window) (thresholdMs : Number) : Reading Nat := do
  let entries <- readWindow rule window "request".toList
  pure (entries.countP (isSlow thresholdMs))

/-- A computed metric and the number of its samples. -/
structure Computed where
  value : Number
  samples : Nat

/-- Whether a cache entry is a `get` that hit, or one that missed. -/
def cacheOutcome (entry : Entry Value) : Option Bool :=
  match entry.content.get (units "operation"), entry.content.get (units "hit") with
  | .string operation, .boolean hit => if operation = units "get" then some hit else none
  | _, _ => none

def AlertMetric.type : AlertMetric -> Text
  | .requestP95Ms => "request".toList
  | .requestP99Ms => "request".toList
  | .queryP95Ms => "query".toList
  | .queryP99Ms => "query".toList
  | .cacheHitRate => "cache".toList

def AlertMetric.hundredths : AlertMetric -> Nat
  | .requestP99Ms => 99
  | .queryP99Ms => 99
  | _ => 95

/-- The metric over its window, or nothing where there are no samples. -/
def computeMetric (metric : AlertMetric) (window : Window) : Reading (Option Computed) := do
  match metric with
  | .cacheHitRate =>
      let now <- askNow rule
      let result <- Metrics.collectEntriesInWindow (storageGet rule)
        { type := some "cache".toList, after := some (now - window.ms) }
        { scanCap := some ALERT_SCAN_CAP }
      let hits := result.entries.countP fun entry => decide (cacheOutcome entry = some true)
      let misses := result.entries.countP fun entry => decide (cacheOutcome entry = some false)
      if hits + misses = 0 then pure none
      else pure (some ⟨Number.round ((hits : Rat) / (hits + misses : Nat)), hits + misses⟩)
  | metric =>
      let entries <- readWindow rule window metric.type
      let durations := Metrics.ascending (entries.filterMap Entry.durationMs)
      if durations = [] then pure none
      else pure (some ⟨.finite (Metrics.percentile durations metric.hundredths), durations.length⟩)

/-- A value that crosses a threshold. -/
structure Crossing where
  value : Number
  threshold : Number

/-- `value >= threshold`. -/
def reaches (value : Number) (threshold : Number) : Option Crossing :=
  if value.ge threshold then some ⟨value, threshold⟩ else none

def measureMetric (metric : AlertMetric) (window : Window) (comparator : Comparator)
    (threshold : Number) (minSamples : Option Number) : Reading (Option Crossing) := do
  match <- computeMetric rule metric window with
  | none => pure none
  | some computed =>
      if (Number.finite computed.samples).lt (minSamples.getD (.finite 1)) then pure none
      else
        match comparator with
        | .gte => pure (reaches computed.value threshold)
        | .lte => pure (if threshold.ge computed.value then some ⟨computed.value, threshold⟩ else none)

/-- The growth of the drop counter since it was read last. -/
def measureDrops (threshold : Number) : IntervalEvaluation (Option Crossing) := do
  let dropped <- (ask (⟨rule, .droppedCount⟩ : Labelled) : IntervalEvaluation Nat)
  let memory <- current
  update fun memory => { memory with lastDroppedCount := dropped }
  pure (reaches (.finite ((dropped : Int) - memory.lastDroppedCount : Int)) threshold)

def measure : AlertRule -> IntervalEvaluation (Option Crossing)
  | .exceptionRate window threshold =>
      Reading.lift do
        let value <- countInWindow rule window "exception".toList
        pure (reaches (.finite value) threshold)
  | .slowRequestRate window thresholdMs count =>
      Reading.lift do
        let value <- countSlowRequests rule window thresholdMs
        pure (reaches (.finite value) count)
  | .metricThreshold metric window comparator threshold minSamples =>
      Reading.lift (measureMetric rule metric window comparator threshold minSamples)
  | .droppedEntries threshold => measureDrops rule threshold
  | .newException _window => pure none
  | .everyException _window => pure none

/-! ## Firing -/

variable (deps : IntervalDeps)

def inCooldown : IntervalEvaluation Bool := do
  let memory <- current
  match memory.lastFiredAt rule with
  | none => pure false
  | some last =>
      let now <- Reading.lift (askNow rule)
      pure (decide (now - last < deps.cooldownMs))

def buildRatePayload (alertRule : AlertRule) (crossing : Crossing) : IntervalEvaluation RatePayload := do
  let now <- Reading.lift (askNow rule)
  pure
    { rule := alertRule
      value := crossing.value
      threshold := crossing.threshold
      firedAt := now
      instanceId := deps.instanceId
      dashboardUrl := deps.dashboardUrl }

/-- Warn once for each channel name. -/
def warnIntervalFailure (channel : AlertChannel) (reason : Thrown) : IntervalEvaluation PUnit := do
  let memory <- current
  if channel.name ∈ memory.warnedChannels then pure ⟨⟩
  else
    update fun memory => { memory with warnedChannels := memory.warnedChannels ++ [channel.name] }
    let message <- computed reason.describe
    update fun memory =>
      { memory with
        logged := memory.logged ++
          [units "Telescope alert channel '" ++ channel.name.codeUnits ++ units "' failed: " ++ message] }

def reportIntervalFailures :
    List AlertChannel -> List (Except Thrown Unit) -> IntervalEvaluation PUnit
  | channel :: channels, result :: results => do
      (match result with
      | .ok () => pure ⟨⟩
      | .error reason => warnIntervalFailure channel reason : IntervalEvaluation PUnit)
      reportIntervalFailures channels results
  | _, _ => pure ⟨⟩

/-- What the dispatch does with the outcomes of the sends. -/
def settleDispatch (sent : Dispatched) : IntervalEvaluation PUnit := do
  update fun memory =>
    { memory with warnedChannels := memory.warnedChannels ++ sent.warnedMeanwhile }
  match sent.results with
  | .error error => throw error
  | .ok results => reportIntervalFailures deps.channels results

def dispatchRate (payload : RatePayload) : IntervalEvaluation PUnit := do
  let sent <- (ask (⟨rule, .send payload⟩ : Labelled) : IntervalEvaluation Dispatched)
  settleDispatch deps sent

/-- One round of the loop of `evaluate`. -/
def evaluateRule (alertRule : AlertRule) : IntervalEvaluation PUnit :=
  if !alertRule.isInterval then pure ⟨⟩
  else do
    match <- measure rule alertRule with
    | none => pure ⟨⟩
    | some crossing =>
        let cooling <- inCooldown rule deps
        if cooling then pure ⟨⟩
        else
          let now <- Reading.lift (askNow rule)
          update fun memory =>
            { memory with lastFiredAt := Function.update memory.lastFiredAt rule (some now) }
          let payload <- buildRatePayload rule deps alertRule crossing
          dispatchRate rule deps payload

/-- The loop over rules with their indices. -/
def evaluateRules : List (AlertRule × Nat) -> IntervalEvaluation PUnit
  | [] => pure ⟨⟩
  | (alertRule, index) :: rules => do
      evaluateRule index deps alertRule
      evaluateRules rules

/-- `evaluate`.  A throw ends the evaluation; the timer logs it. -/
def evaluate : IntervalEvaluation PUnit := evaluateRules deps deps.rules.zipIdx

end Alerts
end Telescope
