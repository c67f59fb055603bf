import Telescope.AgentMetrics.AgentEvents
import Telescope.Foundation.Grouping
import Mathlib.Data.List.Sort

namespace Telescope
namespace AgentMetrics

/-!
# The registry of agent metrics

Every observation contributes some points, each a value of one metric under a set of
labels.  A counter adds the values up, a histogram counts them under its bounds.  The
series of a metric are made on demand, up to a maximum; a point that would need one more
is dropped and tallied.
-/

/-- The keys of the metrics table. -/
inductive AgentMetricKey
  | costUsd
  | tokens
  | audioSeconds
  | requests
  | runDurationMs
  | runQueueMs
  | runModelMs
  | runToolsMs
  | toolDurationMs
  deriving DecidableEq

inductive MetricType
  | counter
  | histogram
  deriving DecidableEq

namespace AgentMetricKey

def name : AgentMetricKey -> String
  | .costUsd => "aviary_ai_cost_usd"
  | .tokens => "aviary_ai_tokens"
  | .audioSeconds => "aviary_ai_audio_seconds"
  | .requests => "aviary_ai_requests"
  | .runDurationMs => "aviary_agent_run_duration_ms"
  | .runQueueMs => "aviary_agent_run_queue_ms"
  | .runModelMs => "aviary_agent_run_model_ms"
  | .runToolsMs => "aviary_agent_run_tools_ms"
  | .toolDurationMs => "aviary_agent_tool_duration_ms"

def type : AgentMetricKey -> MetricType
  | .costUsd => .counter
  | .tokens => .counter
  | .audioSeconds => .counter
  | .requests => .counter
  | _ => .histogram

end AgentMetricKey

/-- Histogram upper bounds in milliseconds. -/
def AGENT_METRIC_BUCKETS_MS : List Rat :=
  [10, 25, 50, 100, 250, 500, 1000, 2500, 5000, 10000, 20000, 30000, 60000, 120000, 300000, 600000]

/-- Attribute values are strings, except `platform`. -/
inductive AttributeValue
  | string (text : Units)
  | boolean (value : Bool)
  deriving DecidableEq

namespace AttributeValue

/-- `String(value)`. -/
def text : AttributeValue -> Units
  | .string text => text
  | .boolean true => units "true"
  | .boolean false => units "false"

def isBoolean : AttributeValue -> Bool
  | .string _text => false
  | .boolean _value => true

end AttributeValue

abbrev MetricAttributes := List (Units × AttributeValue)

structure MetricPoint where
  metric : AgentMetricKey
  value : Rat
  attributes : MetricAttributes

/-! ## The points of an observation -/

def usageAttributes (u : UsageObservation) : MetricAttributes :=
  [(units "feature", .string u.feature), (units "model", .string u.model), (units "provider", .string u.provider),
    (units "cost_source", .string u.costSource.text), (units "platform", .boolean u.platform)]

def tokenAttributes (u : UsageObservation) (direction : Units) : MetricAttributes :=
  [(units "direction", .string direction), (units "feature", .string u.feature), (units "model", .string u.model)]

def usagePoints (u : UsageObservation) : List MetricPoint :=
  [⟨.requests, u.requests, usageAttributes u⟩] ++
    (u.costUsd.map fun costUsd => ⟨.costUsd, costUsd, usageAttributes u⟩).toList ++
    (if 0 < u.audioSeconds then [⟨.audioSeconds, u.audioSeconds, usageAttributes u⟩] else []) ++
    ([(units "in", u.inputTokens), (units "out", u.outputTokens), (units "cache_read", u.cacheReadTokens),
        (units "cache_write", u.cacheWriteTokens)].filter fun tokens => decide (0 < tokens.2)).map
      fun tokens => ⟨.tokens, tokens.2, tokenAttributes u tokens.1⟩

def runAttributes (r : RunObservation) : MetricAttributes :=
  [(units "agent", .string r.agent), (units "status", .string r.status.text)]

def timedPoint (r : RunObservation) (metric : AgentMetricKey) (value : Option Rat) : List MetricPoint :=
  match value with
  | none => []
  | some value => if 0 ≤ value then [⟨metric, value, runAttributes r⟩] else []

def toolPoints (step : StepTiming) : List MetricPoint :=
  (step.tools.filter fun tool => decide (0 ≤ tool.ms)).map fun tool =>
    ⟨.toolDurationMs, tool.ms, [(units "tool", .string tool.toolName)]⟩

def runPoints (r : RunObservation) : List MetricPoint :=
  timedPoint r .runDurationMs r.durationMs ++ timedPoint r .runQueueMs r.queueMs ++
    timedPoint r .runModelMs r.modelMs ++ timedPoint r .runToolsMs r.toolsMs ++ r.stepTimings.flatMap toolPoints

def agentMetricPoints : AgentObservation -> List MetricPoint
  | .usage observation => usagePoints observation
  | .run observation => runPoints observation

/-! ## Series -/

/-- `parts.join(NUL)`. -/
def joinNul : List Units -> Units
  | [] => []
  | [part] => part
  | part :: parts => part ++ 0 :: joinNul parts

def labelPart (field : Units × AttributeValue) : Units := field.1 ++ units "=" ++ field.2.text

def sortedLabels (labels : MetricAttributes) : MetricAttributes :=
  labels.insertionSort fun left right => ¬ right.1 < left.1

def labelKey (labels : MetricAttributes) : Units := joinNul ((sortedLabels labels).map labelPart)

structure CounterSeries where
  labels : MetricAttributes
  value : Rat

structure HistogramSeries where
  labels : MetricAttributes
  sum : Rat
  count : Nat
  buckets : List Nat

def CounterSeries.add (cell : CounterSeries) (value : Rat) : CounterSeries :=
  { cell with value := cell.value + value }

/-- The buckets of a value and more. -/
def countUnder (value : Rat) (buckets : List Nat) : List Nat :=
  List.zipWith (fun bound count => if value ≤ bound then count + 1 else count) AGENT_METRIC_BUCKETS_MS buckets

def HistogramSeries.add (cell : HistogramSeries) (value : Rat) : HistogramSeries where
  labels := cell.labels
  sum := cell.sum + value
  count := cell.count + 1
  buckets := countUnder value cell.buckets

def CounterSeries.new (labels : MetricAttributes) : CounterSeries := ⟨labels, 0⟩

def HistogramSeries.new (labels : MetricAttributes) : HistogramSeries :=
  ⟨labels, 0, 0, List.replicate AGENT_METRIC_BUCKETS_MS.length 0⟩

structure AgentMetricsRegistry where
  counters : AgentMetricKey -> Grouping Units CounterSeries
  histograms : AgentMetricKey -> Grouping Units HistogramSeries
  dropped : String -> Nat

namespace AgentMetricsRegistry

def empty : AgentMetricsRegistry := ⟨fun _ => .empty, fun _ => .empty, fun _ => 0⟩

variable (maxSeries : Nat)

/-- A point has its series, or there is room for one more. -/
def hasRoom {ν : Type} (series : Grouping Units ν) (key : Units) : Bool :=
  (series.lookup key).isSome || decide (series.groups.length < maxSeries)

def drop (registry : AgentMetricsRegistry) (metric : String) : AgentMetricsRegistry :=
  { registry with dropped := Function.update registry.dropped metric (registry.dropped metric + 1) }

def add (registry : AgentMetricsRegistry) (point : MetricPoint) : AgentMetricsRegistry :=
  let key := labelKey point.attributes
  match point.metric.type with
  | .counter =>
      let series := registry.counters point.metric
      if hasRoom maxSeries series key then
        { registry with
          counters := Function.update registry.counters point.metric
            (series.upsert key ((CounterSeries.new point.attributes).add point.value)
              fun cell => cell.add point.value) }
      else registry.drop point.metric.name
  | .histogram =>
      let series := registry.histograms point.metric
      if hasRoom maxSeries series key then
        { registry with
          histograms := Function.update registry.histograms point.metric
            (series.upsert key ((HistogramSeries.new point.attributes).add point.value)
              fun cell => cell.add point.value) }
      else registry.drop point.metric.name

def observe (registry : AgentMetricsRegistry) (observation : AgentObservation) : AgentMetricsRegistry :=
  (agentMetricPoints observation).foldl (add maxSeries) registry

end AgentMetricsRegistry

end AgentMetrics
end Telescope
