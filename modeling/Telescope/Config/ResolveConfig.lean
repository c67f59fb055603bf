import Telescope.Core.Numeral
import Telescope.Core.CapturedEntry
import Telescope.Foundation.NumberLine

namespace Telescope
namespace Config

/-!
# The configuration

What the host passes as options is checked against a schema, which fills in defaults, and
resolved.  Durations are numbers of milliseconds or strings with a unit; the schema lets
every string pass, and a string that is no duration is found when it is resolved.
-/

/-! ## Schemas -/

/-- `z.number()`: neither `NaN` nor infinite. -/
def finite : Value -> Option Rat
  | .number (.finite value) => some value
  | _ => none

def boolean : Value -> Option Bool
  | .boolean value => some value
  | _ => none

def positive (value : Value) : Option Rat := (finite value).filter fun value => decide (0 < value)

def nonnegative (value : Value) : Option Rat := (finite value).filter fun value => decide (0 ≤ value)

/-- `z.number().min(0).max(1)` -/
def RATE (value : Value) : Option Rat := (finite value).filter fun value => decide (0 ≤ value ∧ value ≤ 1)

/-- `z.number().int()`, no less than a bound; integers are safe ones. -/
def integer (least : Int) (value : Value) : Option Int :=
  (finite value).bind fun value =>
    if value.den = 1 ∧ |value.num| < 2 ^ 53 ∧ least ≤ value.num then some value.num else none

def optional {α : Type} (schema : Value -> Option α) : Value -> Option (Option α)
  | .undefined => some none
  | value => (schema value).map some

def withDefault {α : Type} (fallback : α) (schema : Value -> Option α) : Value -> Option α
  | .undefined => some fallback
  | value => schema value

def object : Value -> Option Value
  | .object fields => some (.object fields)
  | .binary name byteLength => some (.binary name byteLength)
  | _ => none

def recordField {α : Type} (schema : Value -> Option α) (field : Units × Value) : Option (Units × α) :=
  (schema field.2).map fun value => (field.1, value)

/-- `z.record(z.string(), schema)`: a plain object, without its `__proto__`. -/
def record {α : Type} (schema : Value -> Option α) : Value -> Option (List (Units × α))
  | .object fields => (fields.filter fun field => decide (field.1 ≠ units "__proto__")).mapM (recordField schema)
  | _ => none

def nonemptyStrings : Value -> Option (List Units)
  | .array elements => (elements.mapM Value.string?).filter fun texts => !texts.isEmpty
  | _ => none

def callable : Value -> Option Value
  | .function => some .function
  | _ => none

inductive Duration
  | number (ms : Rat)
  | text (text : Units)

/-- `z.union([z.number().positive(), z.string()])` -/
def duration (value : Value) : Option Duration :=
  ((positive value).map Duration.number).or (value.string?.map Duration.text)

def samplingRule (value : Value) : Option SamplingRule := do
  let value <- object value
  let rate <- RATE (value.get (units "rate"))
  let keepErrors <- optional boolean (value.get (units "keepErrors"))
  let keepSlowMs <- optional nonnegative (value.get (units "keepSlowMs"))
  return { rate := .finite rate, keepErrors, keepSlowMs := keepSlowMs.map Number.finite }

def perTypeSampling (value : Value) : Option Sampling :=
  ((RATE value).map fun rate => Sampling.rate (.finite rate)).or ((samplingRule value).map Sampling.rule)

inductive ParsedSampling
  | rate (rate : Rat)
  | perType (rules : List (Units × Sampling))

def samplingSchema (value : Value) : Option ParsedSampling :=
  ((RATE value).map ParsedSampling.rate).or ((record perTypeSampling value).map ParsedSampling.perType)

structure RecorderConfig where
  bufferSize : Int
  flushIntervalMs : Int
  flushBatchSize : Int
  retryDelayMs : Int

/-- A missing recorder is one without settings. -/
def recorderSchema (value : Value) : Option RecorderConfig := do
  let value <- withDefault (.object []) object value
  let bufferSize <- withDefault 10000 (integer 1) (value.get (units "bufferSize"))
  let flushIntervalMs <- withDefault 1000 (integer 1) (value.get (units "flushIntervalMs"))
  let flushBatchSize <- withDefault 500 (integer 1) (value.get (units "flushBatchSize"))
  let retryDelayMs <- withDefault 1000 (integer 0) (value.get (units "retryDelayMs"))
  return { bufferSize, flushIntervalMs, flushBatchSize, retryDelayMs }

/-- The settings of the pruner besides its durations. -/
structure PruneSettings where
  keepLast : Option Int
  intervalMs : Int
  batchSize : Int
  maxBatchesPerCycle : Int
  batchPauseMs : Int
  lockTtlMs : Option Int

structure ParsedPrune where
  after : Duration
  perType : Option (List (Units × Duration))
  settings : PruneSettings

def pruneSettings (value : Value) : Option PruneSettings := do
  let keepLast <- optional (integer 0) (value.get (units "keepLast"))
  let intervalMs <- withDefault 60000 (integer 1) (value.get (units "intervalMs"))
  let batchSize <- withDefault 1000 (integer 1) (value.get (units "batchSize"))
  let maxBatchesPerCycle <- withDefault 50 (integer 1) (value.get (units "maxBatchesPerCycle"))
  let batchPauseMs <- withDefault 50 (integer 0) (value.get (units "batchPauseMs"))
  let lockTtlMs <- optional (integer 1) (value.get (units "lockTtlMs"))
  return { keepLast, intervalMs, batchSize, maxBatchesPerCycle, batchPauseMs, lockTtlMs }

def pruneSchema (value : Value) : Option ParsedPrune := do
  let value <- object value
  let after <- duration (value.get (units "after"))
  let perType <- optional (record duration) (value.get (units "perType"))
  let settings <- pruneSettings value
  return { after, perType, settings }

structure ParsedArchive where
  types : List Units
  sink : Value
  batchSize : Int
  maxBatchesPerCycle : Int

def archiveSchema (value : Value) : Option ParsedArchive := do
  let value <- object value
  let types <- nonemptyStrings (value.get (units "types"))
  let sink <- callable (value.get (units "sink"))
  let batchSize <- withDefault 500 (integer 1) (value.get (units "batchSize"))
  let maxBatchesPerCycle <- withDefault 10 (integer 1) (value.get (units "maxBatchesPerCycle"))
  return { types, sink, batchSize, maxBatchesPerCycle }

structure ParsedOptions where
  enabled : Bool
  sampling : Option ParsedSampling
  recorder : RecorderConfig
  prune : Option ParsedPrune
  archive : Option ParsedArchive
  instanceId : Option Units

def optionsSchema (options : Value) : Option ParsedOptions := do
  let options <- object options
  let enabled <- withDefault true boolean (options.get (units "enabled"))
  let sampling <- optional samplingSchema (options.get (units "sampling"))
  let recorder <- recorderSchema (options.get (units "recorder"))
  let prune <- optional pruneSchema (options.get (units "prune"))
  let archive <- optional archiveSchema (options.get (units "archive"))
  let instanceId <- optional Value.string? (options.get (units "instanceId"))
  return { enabled, sampling, recorder, prune, archive, instanceId }

/-! ## Durations -/

inductive ConfigError
  | schema
  | typeError
  | error (message : Units)
  deriving DecidableEq

def DURATION_UNITS : List (Units × Nat) :=
  [(units "ms", 1), (units "s", 1000), (units "m", 60000), (units "h", 3600000), (units "d", 86400000)]

def trim (text : Units) : Units := ((text.dropWhile Units.isSpace).reverse.dropWhile Units.isSpace).reverse

/-- The digits and the unit of a text like `15m`. -/
def matchDuration (text : Units) : Option (Units × Nat) :=
  let digits := text.takeWhile Number.isDigit
  if digits = [] then none
  else (Fields.lookup DURATION_UNITS (text.dropWhile Number.isDigit)).map fun unit => (digits, unit)

def durationToMs : Duration -> Except ConfigError Number
  | .number ms => .ok (.finite ms)
  | .text text =>
      match matchDuration (trim text) with
      | none => .error (.error (units "Invalid duration: " ++ text))
      | some (digits, unit) => .ok ((Number.round (Number.numeral digits)).mul (.finite unit))

/-! ## The resolved configuration -/

structure ResolvedPrune where
  afterMs : Number
  perTypeMs : List (Units × Number)
  keepLast : Option Int
  intervalMs : Int
  batchSize : Int
  maxBatchesPerCycle : Int
  batchPauseMs : Int
  lockTtlMs : Int
  lockEnabled : Bool
  lock : Option Value

structure ResolvedCoreConfig where
  enabled : Bool
  path : Units
  sampling : SamplingConfig
  recorder : RecorderConfig
  instanceId : Units
  prune : Option ResolvedPrune
  archive : Option ParsedArchive

def DEFAULT_TELESCOPE_PATH : Units := units "telescope"

def trimSlashes (text : Units) : Units :=
  ((text.dropWhile fun unit => decide (unit = 47)).reverse.dropWhile fun unit => decide (unit = 47)).reverse

def normalizeTelescopePath : Value -> Except ConfigError Units
  | .undefined => .ok DEFAULT_TELESCOPE_PATH
  | .string path =>
      let trimmed := trimSlashes (trim path)
      .ok (if trimmed = [] then DEFAULT_TELESCOPE_PATH else trimmed)
  | _ => .error .typeError

def normalizeSampling : Option ParsedSampling -> SamplingConfig
  | none => []
  | some (.rate rate) => [(units "default", .rate (.finite rate))]
  | some (.perType rules) => rules

def perTypeEntry (entry : Units × Duration) : Except ConfigError (Units × Number) :=
  (durationToMs entry.2).map fun ms => (entry.1, ms)

/-- A lock that is not a boolean is the host's own. -/
def hostLock : Value -> Option Value
  | .boolean _enabled => none
  | .undefined => none
  | lock => some lock

def resolvePrune (lockOption : Value) (parsed : ParsedPrune) : Except ConfigError ResolvedPrune := do
  let perTypeMs <- (parsed.perType.getD []).mapM perTypeEntry
  let afterMs <- durationToMs parsed.after
  return {
    afterMs
    perTypeMs
    keepLast := parsed.settings.keepLast
    intervalMs := parsed.settings.intervalMs
    batchSize := parsed.settings.batchSize
    maxBatchesPerCycle := parsed.settings.maxBatchesPerCycle
    batchPauseMs := parsed.settings.batchPauseMs
    lockTtlMs := parsed.settings.lockTtlMs.getD (max (parsed.settings.intervalMs * 3) 60000)
    lockEnabled := match lockOption with
      | .boolean enabled => enabled
      | _ => true
    lock := hostLock lockOption }

/-- The lock is read from the options as they are given. -/
def resolveGivenPrune (options : Value) : Option ParsedPrune -> Except ConfigError (Option ResolvedPrune)
  | none => .ok none
  | some prune => (resolvePrune ((options.get (units "prune")).get (units "lock")) prune).map some

/-- `resolveConfig`, on a host of some name. -/
def resolveConfig (hostname : Units) (options : Value) : Except ConfigError ResolvedCoreConfig := do
  let parsed <- (optionsSchema options).elim (.error .schema) .ok
  let path <- normalizeTelescopePath (options.get (units "path"))
  let prune <- resolveGivenPrune options parsed.prune
  return {
    enabled := parsed.enabled
    path
    sampling := normalizeSampling parsed.sampling
    recorder := parsed.recorder
    instanceId := parsed.instanceId.getD hostname
    prune
    archive := parsed.archive }

end Config
end Telescope
