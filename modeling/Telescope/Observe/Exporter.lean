import Telescope.Foundation.Transition
import Telescope.Observe.Collect
import Telescope.Observe.Conservation

namespace Telescope
namespace Observe

universe u v w x

/-!
# The exporter

Flushes fill the assembler, and a timer of the exporter drains it, collects the
batches and sends the payloads one at a time.  A step of the machine runs up to the
next `await`, so what a run interleaves is flushes, ticks, the settling of the send
in flight and `close()`.  The history of the batches and records is kept beside the
exporter.
-/

variable {C : Type u} {Log : Type v} {Snapshot : Type w} {Job : Type x}

structure ExporterOptions (C : Type u) (Log : Type v) (Snapshot : Type w) (Job : Type x) where
  assembler : AssemblerOptions
  included : Include
  caps : Caps
  filter : Entry C -> Bool
  encoders : Encoders (AssembledBatch C) (Entry C) Log Snapshot Job

/-- `include` decides the section, the host `filter` gets the last word. -/
def ExporterOptions.isExportable (options : ExporterOptions C Log Snapshot Job) (entry : Entry C) : Bool :=
  if entry.type = "log".toList ∧ options.included.logs = false then false
  else if entry.type = "request".toList ∧ options.included.requests = false then false
  else if (entry.type = "job".toList ∨ entry.type = "schedule".toList) ∧ options.included.jobs = false then
    false
  else options.filter entry

structure Counters where
  entriesAccepted : Nat
  entriesFiltered : Nat
  batchesEncoded : Nat
  batchesSampledOut : Nat
  recordsDroppedOverCap : Nat

/-- The fields of the exporter.  While a send is in flight, `sending` has the
payloads behind it. -/
structure Exporter (C : Type u) (Log : Type v) (Snapshot : Type w) (Job : Type x) where
  assembler : Assembler C
  buffers : Sections Log Snapshot Job
  sending : Option (List (Sections Log Snapshot Job))
  closed : Bool
  disabled : Bool
  counters : Counters

/-- The promise of `close()`. -/
inductive Closing
  | notCalled
  | pending
  | resolved
  | rejected
  deriving DecidableEq

/-- The exporter and what has become of the accepted entries: the batches sampled
out and encoded, the records dropped over a cap, and the payloads passed to
`transport.send`. -/
structure System (C : Type u) (Log : Type v) (Snapshot : Type w) (Job : Type x) where
  exporter : Exporter C Log Snapshot Job
  closing : Closing
  accepted : List (Entry C)
  sampledOut : List (AssembledBatch C)
  encoded : List (AssembledBatch C)
  dropped : List (Record Log Snapshot Job)
  sent : List (Sections Log Snapshot Job)

/-- How `transport.send` settles.  It rejects only where describing the rejection of
an injected `fetch` throws. -/
inductive Settlement
  | accepted
  | givenUp
  | rejected

/-- The payload's answer says that the credentials are wrong; `authRejected` comes
while the send is still in flight. -/
inductive Event (C : Type u)
  | observeFlush (entries : List (Entry C × Rat))
  | tick (now : Rat) (runtime : Bool)
  | authRejected
  | settle (settlement : Settlement)
  | close (runtime : Bool)

namespace System

variable (options : ExporterOptions C Log Snapshot Job)

def initial : System C Log Snapshot Job :=
  ⟨⟨.empty, .empty, none, false, false, ⟨0, 0, 0, 0, 0⟩⟩, .notCalled, [], [], [], [], []⟩

/-- `observeFlush`, with the readings of the clock for the entries let through. -/
def observeFlush (system : System C Log Snapshot Job) (entries : List (Entry C × Rat)) :
    System C Log Snapshot Job :=
  if system.exporter.closed || system.exporter.disabled then system
  else
    let accepted := entries.filter fun entry => options.isExportable entry.1
    let counters := system.exporter.counters
    { system with
      accepted := system.accepted ++ accepted.map Prod.fst
      exporter := { system.exporter with
        assembler := (system.exporter.assembler.add options.assembler accepted).1
        counters := { counters with
          entriesAccepted := counters.entriesAccepted + accepted.length
          entriesFiltered := counters.entriesFiltered + (entries.length - accepted.length) } } }

/-- The end of a dispatch.  What it sent for `close()` settles that promise. -/
def finish (system : System C Log Snapshot Job) (threw : Bool) : System C Log Snapshot Job :=
  { system with
    exporter := { system.exporter with sending := none }
    closing := if system.closing = .pending then if threw then .rejected else .resolved
      else system.closing }

/-- Send the next payload, or end the dispatch. -/
def sendNext (system : System C Log Snapshot Job) :
    List (Sections Log Snapshot Job) -> System C Log Snapshot Job
  | [] => system.finish false
  | payload :: payloads =>
      { system with
        exporter := { system.exporter with sending := some payloads }
        sent := system.sent ++ [payload] }

/-- `dispatch` up to the first send.  It returns at once while a send is in flight,
and what `collect` throws ends it. -/
def dispatch (system : System C Log Snapshot Job) (batches : List (AssembledBatch C)) (runtime : Bool) :
    System C Log Snapshot Job :=
  if system.exporter.sending.isSome then
    { system with closing := if system.closing = .pending then .resolved else system.closing }
  else
    let collection := collect options.included options.caps options.encoders system.exporter.buffers batches
    let counters := system.exporter.counters
    let collected : System C Log Snapshot Job :=
      { system with
        sampledOut := system.sampledOut ++ collection.sampledOut
        encoded := system.encoded ++ collection.encoded
        dropped := system.dropped ++ collection.dropped
        exporter := { system.exporter with
          buffers := collection.buffers
          counters := { counters with
            batchesEncoded := counters.batchesEncoded + collection.encoded.length
            batchesSampledOut := counters.batchesSampledOut + collection.sampledOut.length
            recordsDroppedOverCap := counters.recordsDroppedOverCap + collection.dropped.length } } }
    if collection.returned then
      ({ collected with exporter := { collected.exporter with buffers := .empty } } :
        System C Log Snapshot Job).sendNext
          (collection.buffers.buildPayloads options.caps (runtime && options.included.runtime))
    else collected.finish true

def tick (system : System C Log Snapshot Job) (now : Rat) (runtime : Bool) : System C Log Snapshot Job :=
  if system.exporter.sending.isSome || system.exporter.closed || system.exporter.disabled then system
  else
    let drained := system.exporter.assembler.drain options.assembler now
    ({ system with exporter := { system.exporter with assembler := drained.1 } } :
      System C Log Snapshot Job).dispatch options drained.2 runtime

/-- `close()` up to its `await`. -/
def close (system : System C Log Snapshot Job) (runtime : Bool) : System C Log Snapshot Job :=
  if system.exporter.closed then system
  else
    let drained := system.exporter.assembler.drainAll
    ({ system with
      closing := .pending
      exporter := { system.exporter with closed := true, assembler := drained.1 } } :
      System C Log Snapshot Job).dispatch options drained.2 runtime

/-- The loop of `dispatch` goes on where the send settles. -/
def settle (system : System C Log Snapshot Job) (payloads : List (Sections Log Snapshot Job)) :
    Settlement -> System C Log Snapshot Job
  | .accepted => system.sendNext payloads
  | .givenUp => if system.exporter.disabled then system.finish false else system.sendNext payloads
  | .rejected => system.finish true

def step (system : System C Log Snapshot Job) : Event C -> Option (System C Log Snapshot Job)
  | .observeFlush entries => some (system.observeFlush options entries)
  | .tick now runtime => some (system.tick options now runtime)
  | .authRejected =>
      system.exporter.sending.map fun _ =>
        { system with exporter := { system.exporter with disabled := true } }
  | .settle settlement => system.exporter.sending.map fun payloads => system.settle payloads settlement
  | .close runtime => some (system.close options runtime)

end System

end Observe
end Telescope
