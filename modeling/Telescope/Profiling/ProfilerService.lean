import Telescope.Core.Value
import Telescope.Foundation.Transition

namespace Telescope
namespace Profiling

/-!
# The profiler and the requests around it

A request is selected twice, when the middleware asks and again when the capture begins.
A capture takes a slot and starts a session of the inspector, which answers later; the
listener of the response ends it, and the slot is free when the session has stopped.
-/

structure ResolvedProfilingConfig where
  enabled : Bool
  sampleRate : Rat
  maxConcurrent : Nat
  minDurationMs : Rat

/-- A pending manual capture budget. -/
structure ManualArm where
  count : Nat
  label : Option Units
  deriving DecidableEq

inductive Reason
  | manual
  | sampled
  deriving DecidableEq

/-! ## The profiler of one capture -/

structure CpuProfiler where
  session : Bool
  running : Bool
  deriving DecidableEq

/-- Which call of `start()` waits for the inspector. -/
inductive Starting
  | enabling
  | settingInterval
  | starting
  | settled
  deriving DecidableEq

/-- How far `end` has come. -/
inductive Ending
  | uncalled
  | awaiting
  | stopping
  | settled
  deriving DecidableEq

/-- A handle, its profiler, and whether its session is connected to the inspector. -/
structure Capture where
  reason : Reason
  profiler : CpuProfiler
  connected : Bool
  starting : Starting
  ending : Ending
  deriving DecidableEq

namespace Capture

/-- `start()` up to its first call of the inspector; making or connecting the session can
throw. -/
def start (reason : Reason) (connects : Bool) : Capture where
  reason := reason
  profiler := ⟨connects, false⟩
  connected := connects
  starting := if connects then .enabling else .settled
  ending := .uncalled

/-- The inspector answers a call of `start()`, or fails it. -/
def answered (capture : Capture) (ok : Bool) : Option Capture :=
  match capture.starting with
  | .enabling => some { capture with starting := if ok then .settingInterval else .settled }
  | .settingInterval => some { capture with starting := if ok then .starting else .settled }
  | .starting => some { capture with starting := .settled, profiler := { capture.profiler with running := ok } }
  | .settled => none

/-- `end` is called. -/
def callEnd (capture : Capture) : Capture := { capture with ending := .awaiting }

/-- The capture holds its slot. -/
def holdsSlot (capture : Capture) : Bool := decide (capture.ending ≠ .settled)

/-- `end` goes on after `started`: `stop()` asks the inspector, or there is nothing to stop. -/
def proceed (capture : Capture) : Option Capture :=
  if capture.ending = .awaiting ∧ capture.starting = .settled then
    if capture.profiler.running && capture.profiler.session then some { capture with ending := .stopping }
    else some { capture with ending := .settled }
  else none

/-- The inspector answers `Profiler.stop`, or fails it: the session is disconnected. -/
def stopped (capture : Capture) : Option Capture :=
  if capture.ending = .stopping then
    some { capture with profiler := ⟨false, false⟩, connected := false, ending := .settled }
  else none

end Capture

/-! ## The service -/

structure ProfilerService where
  active : Nat
  manual : List ManualArm
  deriving DecidableEq

def ManualArm.fits (label : Option Units) (arm : ManualArm) : Bool :=
  decide (0 < arm.count) && (arm.label.isNone || (label.isSome && decide (arm.label = label)))

/-- Take one of the budget of the first arm that fits. -/
def consume (label : Option Units) : List ManualArm -> List ManualArm
  | [] => []
  | arm :: arms =>
      if arm.fits label then
        if arm.count - 1 ≤ 0 then arms else { arm with count := arm.count - 1 } :: arms
      else arm :: consume label arms

namespace ProfilerService

variable (config : ResolvedProfilingConfig) (service : ProfilerService)

def arm (count : Rat) (label : Option Units) : ProfilerService :=
  if config.enabled then
    { service with manual := service.manual ++ [⟨(max 1 ⌊count⌋).toNat, label.filter fun text => !text.isEmpty⟩] }
  else service

/-- First arm matching this label. -/
def matchingArm (label : Option Units) : Option ManualArm := service.manual.find? (ManualArm.fits label)

/-- Whether the request should be profiled, by the drawn number. -/
def shouldProfile (label : Option Units) (random : Rat) : Bool :=
  config.enabled &&
    ((service.matchingArm label).isSome || (decide (0 < config.sampleRate) && decide (random < config.sampleRate)))

/-- Begin a capture: its reason, and the service with the slot taken. -/
def begin (label : Option Units) (random : Rat) : Option (Reason × ProfilerService) :=
  if !config.enabled then none
  else if (service.matchingArm label).isNone && (decide (config.sampleRate ≤ 0) || decide (config.sampleRate ≤ random))
    then none
  else if config.maxConcurrent ≤ service.active then none
  else if (service.matchingArm label).isSome then some (.manual, ⟨service.active + 1, consume label service.manual⟩)
  else some (.sampled, ⟨service.active + 1, service.manual⟩)

/-- The slot of a capture is free again. -/
def release : ProfilerService := { service with active := max 0 (service.active - 1) }

end ProfilerService

/-! ## Requests -/

/-- A request: whether its response has listeners, its capture, whether it has ended, and
whether it was accepted for a capture while a slot was free. -/
structure Request where
  route : Units
  finishable : Bool
  profile : Option Capture
  ended : Bool
  acceptedWithSlot : Bool
  deriving DecidableEq

structure ProfileRecord where
  reason : Reason
  label : Units
  durationMs : Rat
  deriving DecidableEq

structure System where
  service : ProfilerService
  requests : List Request
  recorded : List ProfileRecord
  deriving DecidableEq

/-- What is interleaved: arms, requests with their two draws and whether a session could be
connected, answers of the inspector to `start()`, responses that finish (the listener can
throw before it ends the capture) or are closed without, and the two parts of `end`; the
answer to `Profiler.stop` comes with the duration of the profile, unless it fails. -/
inductive Event
  | arm (count : Rat) (label : Option Units)
  | request (route : Units) (finishable : Bool) (gateDraw beginDraw : Rat) (connects : Bool)
  | answered (request : Nat) (ok : Bool)
  | finish (request : Nat) (captured : Bool)
  | close (request : Nat)
  | proceed (request : Nat)
  | stopped (request : Nat) (durationMs : Option Rat)

namespace System

def initial : System := ⟨⟨0, []⟩, [], []⟩

variable (config : ResolvedProfilingConfig) (system : System)

/-- The middleware at a request. -/
def use (route : Units) (finishable : Bool) (gateDraw beginDraw : Rat) (connects : Bool) : System :=
  let accepted := system.service.shouldProfile config (some route) gateDraw
  let acceptedWithSlot := accepted && decide (system.service.active < config.maxConcurrent)
  match if accepted then system.service.begin config (some route) beginDraw else none with
  | none => { system with requests := system.requests ++ [⟨route, finishable, none, false, acceptedWithSlot⟩] }
  | some (reason, service) =>
      { system with
        service := service
        requests := system.requests ++
          [⟨route, finishable, some (Capture.start reason connects), false, acceptedWithSlot⟩] }

/-- The request at a position, if it has not ended. -/
def open? (position : Nat) : Option Request :=
  system.requests[position]?.filter fun request => !request.ended

def put (position : Nat) (request : Request) : System :=
  { system with requests := system.requests.set position request }

/-- The minimal duration is met, and the profile is recorded. -/
def record (request : Request) (capture : Capture) (durationMs : Option Rat) : System :=
  match durationMs with
  | none => system
  | some durationMs =>
      if durationMs < config.minDurationMs then system
      else { system with recorded := system.recorded ++ [⟨capture.reason, request.route, durationMs⟩] }

/-- The slot of a capture that has ended is free again. -/
def settle (capture : Capture) : System :=
  if capture.holdsSlot then system else { system with service := system.service.release }

def step : Event -> Option System
  | .arm count label => some { system with service := system.service.arm config count label }
  | .request route finishable gateDraw beginDraw connects =>
      some (system.use config route finishable gateDraw beginDraw connects)
  | .answered position ok =>
      system.requests[position]?.bind fun request => request.profile.bind fun capture =>
        (capture.answered ok).map fun next => system.put position { request with profile := some next }
  | .finish position captured =>
      (system.open? position).map fun request =>
        system.put position { request with
          ended := true
          profile := if request.finishable && captured then request.profile.map Capture.callEnd else request.profile }
  | .close position =>
      (system.open? position).map fun request => system.put position { request with ended := true }
  | .proceed position =>
      system.requests[position]?.bind fun request => request.profile.bind fun capture =>
        capture.proceed.map fun next => (system.put position { request with profile := some next }).settle next
  | .stopped position durationMs =>
      system.requests[position]?.bind fun request => request.profile.bind fun capture =>
        capture.stopped.map fun next =>
          ((system.put position { request with profile := some next }).record config request capture durationMs).settle
            next

end System

end Profiling
end Telescope
