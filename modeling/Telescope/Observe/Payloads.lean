import Telescope.Core.Value
import Telescope.Observe.Collect

namespace Telescope
namespace Observe

universe u v w x y

/-!
# Cutting the buffers into payloads

The limits of a request are numbers of the host, which are only checked to be positive.
A slice takes as many records as the limit has whole ones, so that a limit below one
takes none and the loop does not get on.
-/

/-! ## The limits -/

/-- A positive finite value, or the fallback. -/
def positive (value : Option Number) (fallback : Rat) : Rat :=
  match value with
  | some (.finite value) => if 0 < value then value else fallback
  | _ => fallback

theorem positive_pos (value : Option Number) {fallback : Rat} (isPositive : 0 < fallback) :
    0 < positive value fallback := by
  rcases value with _ | (_ | _ | value)
  · exact isPositive
  · exact isPositive
  · exact isPositive
  · rw [positive]
    split
    · assumption
    · exact isPositive

def MIN_RUNTIME_INTERVAL_MS : Rat := 30000

/-- The options of the host that the slicing reads. -/
structure ObserveExporterOptions where
  serviceId : Units
  serviceVersion : Option Units
  included : Include
  maxRecordsPerRequest : Option Number
  maxLogsPerRequest : Option Number
  runtimeIntervalMs : Option Number

structure ResolvedObserveOptions where
  serviceId : Units
  serviceVersion : Option Units
  included : Include
  maxRecordsPerRequest : Rat
  maxLogsPerRequest : Rat
  runtimeIntervalMs : Rat
  maxRecordsPerRequest_pos : 0 < maxRecordsPerRequest
  maxLogsPerRequest_pos : 0 < maxLogsPerRequest

def resolveObserveOptions (options : ObserveExporterOptions) : ResolvedObserveOptions where
  serviceId := options.serviceId
  serviceVersion := options.serviceVersion
  included := options.included
  maxRecordsPerRequest := positive options.maxRecordsPerRequest 1000
  maxLogsPerRequest := positive options.maxLogsPerRequest 250
  runtimeIntervalMs := max MIN_RUNTIME_INTERVAL_MS (positive options.runtimeIntervalMs 60000)
  maxRecordsPerRequest_pos := positive_pos _ (by norm_num)
  maxLogsPerRequest_pos := positive_pos _ (by norm_num)

/-! ## The exporter -/

/-- What was sent. -/
structure SentCounters where
  snapshotsSent : Nat
  jobsSent : Nat
  logsSent : Nat
  runtimeSnapshotsSent : Nat
  customMetricsSent : Nat

/-- What the slicing reads and changes of an exporter. -/
structure Outbox (Log : Type u) (Snapshot : Type v) (Job : Type w) where
  buffers : Sections Log Snapshot Job
  lastRuntimeAt : Rat
  counters : SentCounters

/-- What the clock, the runtime collector and the metrics answer when they are asked. -/
structure Reading (Runtime : Type x) (Custom : Type y) where
  now : Rat
  runtime : Option Runtime
  custom : List Custom

/-- A payload.  Sections without records are left out. -/
structure WireTelemetryBatch (Log : Type u) (Snapshot : Type v) (Job : Type w) (Runtime : Type x)
    (Custom : Type y) where
  serviceId : Units
  serviceVersion : Option Units
  forwardLogs : Option Bool
  snapshots : Option (List Snapshot)
  jobs : Option (List Job)
  runtime : Option Runtime
  custom : Option (List Custom)
  logs : Option (List Log)

variable {Log : Type u} {Snapshot : Type v} {Job : Type w} {Runtime : Type x} {Custom : Type y} {α : Type*}

/-- A bounded append, and whether the value is dropped. -/
def push (target : List α) (value : α) (cap : Rat) : List α × Bool :=
  if cap ≤ target.length then (target, true) else (target ++ [value], false)

/-- `splice(0, limit)` takes the whole part of the limit. -/
def spliced (limit : Rat) (items : List α) : List α × List α :=
  (items.take ⌊limit⌋.toNat, items.drop ⌊limit⌋.toNat)

/-- A section of a payload, left out when it is empty. -/
def present (items : List α) : Option (List α) := if 0 < items.length then some items else none

def envelope (options : ResolvedObserveOptions) : WireTelemetryBatch Log Snapshot Job Runtime Custom where
  serviceId := options.serviceId
  serviceVersion := options.serviceVersion
  forwardLogs := if options.included.logs then some true else none
  snapshots := none
  jobs := none
  runtime := none
  custom := none
  logs := none

/-- A process snapshot, at most once in an interval; and when the last one was taken. -/
def dueRuntime (options : ResolvedObserveOptions) (lastRuntimeAt : Rat) (reading : Reading Runtime Custom) :
    Option Runtime × Rat :=
  if options.included.runtime then
    if reading.now - lastRuntimeAt < options.runtimeIntervalMs then (none, lastRuntimeAt)
    else match reading.runtime with
      | none => (none, lastRuntimeAt)
      | some snapshot => (some snapshot, reading.now)
  else (none, lastRuntimeAt)

def dueCustomMetrics (options : ResolvedObserveOptions) (reading : Reading Runtime Custom) : List Custom :=
  if options.included.metrics then reading.custom else []

namespace Sections

def hasTraffic (buffers : Sections Log Snapshot Job) : Bool :=
  decide (0 < buffers.snapshots.length ∨ 0 < buffers.jobs.length ∨ 0 < buffers.logs.length)

/-- What a payload takes of the buffers, and what stays. -/
def cut (options : ResolvedObserveOptions) (buffers : Sections Log Snapshot Job) :
    Sections Log Snapshot Job × Sections Log Snapshot Job :=
  (⟨(spliced options.maxLogsPerRequest buffers.logs).1, (spliced options.maxRecordsPerRequest buffers.snapshots).1,
      (spliced options.maxRecordsPerRequest buffers.jobs).1⟩,
    ⟨(spliced options.maxLogsPerRequest buffers.logs).2, (spliced options.maxRecordsPerRequest buffers.snapshots).2,
      (spliced options.maxRecordsPerRequest buffers.jobs).2⟩)

end Sections

def SentCounters.count (counters : SentCounters) (taken : Sections Log Snapshot Job) : SentCounters :=
  { counters with
    snapshotsSent := counters.snapshotsSent + taken.snapshots.length
    jobsSent := counters.jobsSent + taken.jobs.length
    logsSent := counters.logsSent + taken.logs.length }

def payload (options : ResolvedObserveOptions) (taken : Sections Log Snapshot Job) :
    WireTelemetryBatch Log Snapshot Job Runtime Custom :=
  { (envelope options : WireTelemetryBatch Log Snapshot Job Runtime Custom) with
    snapshots := present taken.snapshots
    jobs := present taken.jobs
    logs := present taken.logs }

/-- The payloads of the loop, what stays in the buffers, and the counters. -/
abbrev Drained (Log : Type u) (Snapshot : Type v) (Job : Type w) (Runtime : Type x) (Custom : Type y) :=
  List (WireTelemetryBatch Log Snapshot Job Runtime Custom) × Sections Log Snapshot Job × SentCounters

/-- The loop, up to a number of turns; `none` when they do not suffice. -/
def drain (options : ResolvedObserveOptions) : Nat -> Sections Log Snapshot Job -> SentCounters ->
    Option (Drained Log Snapshot Job Runtime Custom)
  | 0, buffers, counters => if buffers.hasTraffic then none else some ([], buffers, counters)
  | turns + 1, buffers, counters =>
      if buffers.hasTraffic then
        (drain options turns (buffers.cut options).2 (counters.count (buffers.cut options).1)).map
          fun drained => (payload options (buffers.cut options).1 :: drained.1, drained.2)
      else some ([], buffers, counters)

/-- Put the runtime snapshot and the metrics on the first payload. -/
def ride (runtime : Option Runtime) (custom : List Custom) :
    List (WireTelemetryBatch Log Snapshot Job Runtime Custom) × SentCounters ->
      List (WireTelemetryBatch Log Snapshot Job Runtime Custom) × SentCounters
  | ([], counters) => ([], counters)
  | (first :: others, counters) =>
      ({ first with
          runtime := if runtime.isSome then runtime else first.runtime
          custom := if 0 < custom.length then some custom else first.custom } :: others,
        { counters with
          runtimeSnapshotsSent := counters.runtimeSnapshotsSent + runtime.toList.length
          customMetricsSent := counters.customMetricsSent + custom.length })

/-- The custom metrics, when they are collected. -/
def collectedCustom (options : ResolvedObserveOptions) (outbox : Outbox Log Snapshot Job)
    (reading : Reading Runtime Custom) : List Custom :=
  if outbox.buffers.hasTraffic || (dueRuntime options outbox.lastRuntimeAt reading).1.isSome then
    dueCustomMetrics options reading
  else []

/-- The payloads and the exporter afterwards, or `none` when the turns of the loop do not
suffice. -/
def buildPayloads (options : ResolvedObserveOptions) (turns : Nat) (outbox : Outbox Log Snapshot Job)
    (reading : Reading Runtime Custom) :
    Option (List (WireTelemetryBatch Log Snapshot Job Runtime Custom) × Outbox Log Snapshot Job) :=
  let runtime := dueRuntime options outbox.lastRuntimeAt reading
  let custom := collectedCustom options outbox reading
  (drain options turns outbox.buffers outbox.counters).map fun drained =>
    let payloads :=
      if drained.1.length = 0 ∧ (runtime.1.isSome ∨ 0 < custom.length) then [envelope options] else drained.1
    let ridden := ride runtime.1 custom (payloads, drained.2.2)
    (ridden.1, ⟨drained.2.1, runtime.2, ridden.2⟩)

end Observe
end Telescope
