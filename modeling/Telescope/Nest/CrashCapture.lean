import Telescope.Alerts.Alerter
import Telescope.Foundation.Transition

namespace Telescope
namespace CrashCapture

open Alerts (Thrown)

/-!
# Crashes of the process

The handlers of unhandled rejections and uncaught exceptions record the crash, wait for a
flush up to a budget, and then write the error and end the process. What they are given is
any value at all, and what they read of it may throw; recording and flushing fail as they
like, or never end; and a crash may come while another one is recorded or flushed.
-/

/-! ## Values -/

/-- What a handler finds under a property: an accessor that throws, `undefined` or `null`,
or a value, whose conversion to a text may throw. -/
inductive Property
  | throws (thrown : Thrown)
  | nullish (text : Units)
  | value (text : Except Thrown Units)

/-- The property inside a template. -/
def Property.text : Property -> Except Thrown Units
  | .throws thrown => .error thrown
  | .nullish text => .ok text
  | .value text => text

structure ThrownError where
  stack : Property
  name : Property
  message : Property

/-- `error.stack ?? `${error.name}: ${error.message}`` as a text. -/
def ThrownError.shown (error : ThrownError) : Except Thrown Units :=
  match error.stack with
  | .throws thrown => .error thrown
  | .value text => text
  | .nullish _text => do
      let name <- error.name.text
      let message <- error.message.text
      pure (name ++ units ": " ++ message)

/-- Any value: an error, another value with its text, or one that throws when it is asked
whether it is an error. -/
inductive Raw
  | error (error : ThrownError)
  | other (text : Except Thrown Units)
  | uncheckable (thrown : Thrown)

/-- The text of a value, or a fixed one where it cannot be converted. -/
def describeReason (text : Except Thrown Units) : Units :=
  match text with
  | .ok text => text
  | .error _thrown => units "<unstringifiable rejection reason>"

/-- `new Error(message)`. -/
def newError (message : Units) : ThrownError where
  stack := .value (.ok (units "Error: " ++ message))
  name := .value (.ok (units "Error"))
  message := .value (.ok message)

def toError : Raw -> Except Thrown ThrownError
  | .error error => .ok error
  | .other text => .ok (newError (describeReason text))
  | .uncheckable thrown => .error thrown

/-- What the warning of a failed recording says about the failure. -/
def recordingMessage : Raw -> Except Thrown Units
  | .error error => error.message.text
  | .other text => .ok (describeReason text)
  | .uncheckable thrown => .error thrown

/-! ## The process -/

inductive ProcessCrashKind
  | unhandledRejection
  | uncaughtException

def ProcessCrashKind.text : ProcessCrashKind -> Units
  | .unhandledRejection => units "unhandledRejection"
  | .uncaughtException => units "uncaughtException"

inductive CrashExitMode
  | exit
  | passthrough
  deriving DecidableEq

structure Options where
  exitMode : CrashExitMode
  exitCode : Int
  flushTimeoutMs : Nat

/-- The delay of a timer: one millisecond where the given one is out of its range. -/
def timerDelay (milliseconds : Nat) : Nat :=
  if 1 ≤ milliseconds ∧ milliseconds ≤ 2147483647 then milliseconds else 1

/-- Where the call of `capture` for a crash stands. A call that has thrown is dropped. -/
inductive Stage
  | recording (error : ThrownError)
  | flushing (error : ThrownError) (since : Int)
  | exiting (since : Int)
  | returned
  | dropped (thrown : Thrown)

structure Crash where
  kind : ProcessCrashKind
  stage : Stage

/-- The process runs, was ended by `process.exit`, or ended because nothing kept it alive. -/
inductive Process
  | running
  | exited (code : Int) (time : Int)
  | drained

/-- The process with its crashes in the order of their events; `recording` is the crash
that holds the latch. -/
structure System where
  now : Int
  process : Process := .running
  recording : Option Nat := none
  crashes : List Crash := []
  flushes : List Nat := []
  warned : List Units := []
  written : List Units := []
  escaped : List Thrown := []

/-- `promise.catch(() => undefined)`. -/
def caught : Except Thrown Unit -> Except Thrown Unit
  | .ok _value => .ok ()
  | .error _thrown => .ok ()

namespace System

variable (options : Options)

/-- A promise that nobody awaits settles. -/
def settle (outcome : Except Thrown Unit) (state : System) : System :=
  match outcome with
  | .ok _value => state
  | .error thrown => { state with escaped := state.escaped ++ [thrown] }

def put (id : Nat) (stage : Stage) (state : System) : System :=
  { state with crashes := state.crashes.modify id fun crash => { crash with stage := stage } }

/-- The call of `capture` throws; the handler catches it. -/
def drop (id : Nat) (thrown : Thrown) (state : System) : System :=
  (state.put id (.dropped thrown)).settle (caught (.error thrown))

/-- The exit contract. -/
def finish (id : Nat) (kind : ProcessCrashKind) (error : ThrownError) (since : Int) (state : System) : System :=
  match options.exitMode with
  | .passthrough => (state.put id .returned).settle (caught (.ok ()))
  | .exit =>
      match error.shown with
      | .error thrown => state.drop id thrown
      | .ok text =>
          { state.put id (.exiting since) with
            written := state.written ++ [kind.text ++ units ": " ++ text ++ units "\n"]
            process := .exited options.exitCode state.now }

/-- The flush is started with its timer. A call of `flush` that throws ends the wait. -/
def boundedFlush (id : Nat) (kind : ProcessCrashKind) (error : ThrownError) (started : Except Thrown Unit)
    (state : System) : System :=
  match started with
  | .error _thrown => state.finish options id kind error state.now
  | .ok _promise => { state.put id (.flushing error state.now) with flushes := state.flushes ++ [id] }

/-- A crash arrives, and is recorded unless another one is being recorded. -/
def capture (raw : Raw) (kind : ProcessCrashKind) (started : Except Thrown Unit) (state : System) : System :=
  match toError raw with
  | .error thrown =>
      ({ state with crashes := state.crashes ++ [⟨kind, .dropped thrown⟩] } : System).settle (caught (.error thrown))
  | .ok error =>
      let arrived : System := { state with crashes := state.crashes ++ [⟨kind, .recording error⟩] }
      match state.recording with
      | some _holder => arrived.boundedFlush options state.crashes.length kind error started
      | none => { arrived with recording := some state.crashes.length }

/-- The crash that holds the latch, while it is recorded. -/
def recorder (state : System) : Option (Nat × ProcessCrashKind × ThrownError) :=
  state.recording.bind fun id => (state.crashes[id]?).bind fun crash =>
    match crash.stage with
    | .recording error => some (id, crash.kind, error)
    | _ => none

/-- A crash that awaits its flush or its timer, with the time since when it does. -/
def waiting (id : Nat) (state : System) : Option (ProcessCrashKind × ThrownError × Int) :=
  (state.crashes[id]?).bind fun crash =>
    match crash.stage with
    | .flushing error since => some (crash.kind, error, since)
    | _ => none

/-- The attempt to record ends: the latch is released, and a failure is logged. -/
def recordCrash (outcome : Except Raw Unit) (started : Except Thrown Unit) (state : System) : Option System :=
  state.recorder.map fun (id, kind, error) =>
    let released := { state with recording := none }
    match outcome with
    | .ok _value => released.boundedFlush options id kind error started
    | .error failure =>
        match recordingMessage failure with
        | .error thrown => released.drop id thrown
        | .ok message =>
            let line := units "Failed to record " ++ kind.text ++ units " entry: " ++ message
            ({ released with warned := state.warned ++ [line] } : System).boundedFlush options id kind error started

/-- Time passes, not beyond the end of a timer. -/
def elapse (time : Int) (state : System) : Option System :=
  if state.now ≤ time ∧ forall crash, crash ∈ state.crashes -> (match crash.stage with
      | .flushing _error since => decide (time ≤ since + timerDelay options.flushTimeoutMs)
      | _ => true) = true then
    some { state with now := time }
  else none

/-- A wait ends, where there still is one. -/
def wake (id : Nat) (state : System) : System :=
  match state.waiting id with
  | some (kind, error, since) => state.finish options id kind error since
  | none => state

def flushSettled (id : Nat) (outcome : Except Thrown Unit) (state : System) : Option System :=
  if id ∈ state.flushes then
    some ((({ state with flushes := state.flushes.erase id } : System).settle (caught outcome)).wake options id)
  else none

def budgetElapsed (id : Nat) (state : System) : Option System :=
  (state.waiting id).bind fun (_kind, _error, since) =>
    if since + timerDelay options.flushTimeoutMs ≤ state.now then some (state.wake options id) else none

/-! ## Runs -/

inductive Event
  | capture (raw : Raw) (kind : ProcessCrashKind) (started : Except Thrown Unit)
  | recordCrash (outcome : Except Raw Unit) (started : Except Thrown Unit)
  | elapse (time : Int)
  | flushSettled (id : Nat) (outcome : Except Thrown Unit)
  | budgetElapsed (id : Nat)
  | drained

/-- The event loop is idle only while no crash is being recorded. -/
def whenIdle (state : System) (next : Option System) : Option System :=
  match state.recording with
  | some _holder => none
  | none => next

def happen (state : System) : Event -> Option System
  | .capture raw kind started => some (state.capture options raw kind started)
  | .recordCrash outcome started => state.recordCrash options outcome started
  | .elapse time => state.whenIdle (state.elapse options time)
  | .flushSettled id outcome => state.whenIdle (state.flushSettled options id outcome)
  | .budgetElapsed id => state.whenIdle (state.budgetElapsed options id)
  | .drained => state.whenIdle (some { state with process := .drained })

/-- One step, of a process that runs. -/
def step (state : System) (event : Event) : Option System :=
  match state.process with
  | .running => state.happen options event
  | _ => none

end System

end CrashCapture
end Telescope
