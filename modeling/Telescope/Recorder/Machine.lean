import Telescope.Foundation.RingBuffer
import Telescope.Foundation.Transition

namespace Telescope
namespace Recorder

universe u v

/-!
# The recorder as a machine

`Recorder` buffers captured entries in a ring of fixed capacity and hands them
to the store in flushes.  `record`, `pause`, `resume` and `flush` are calls of
the host; a flush in flight advances when its pending `store()`, backoff delay,
rollup write or `onFlushStored` hook settles.  Each of these is one event, so a
list of events is one interleaving of the callers with the store.

The code's own fields live in `Recorder`.  What happened to every entry is kept
beside them in `History`, which no transition reads.  Entries are never
inspected here, so their type stays a parameter.
-/

variable {Input : Type u} {α : Type v}

/-- The options this part of the recorder reads.  The ring needs a slot, which
the configuration schema guarantees. -/
structure Options where
  bufferSize : Nat
  bufferSize_pos : 0 < bufferSize
  flushBatchSize : Option Int

inductive DropReason
  | overflow
  | storeFailed
  | recordError
  deriving DecidableEq

/-! ## Capturing one input -/

/-- The sampling rule, the enrichment and the host filter as they answer during
one call of `record`.  `none` is a throw; the Boolean of `enrich` tells whether
redaction clipped the content. -/
structure Seams (Input : Type u) (α : Type v) where
  passesSampling : Input -> Option Bool
  enrich : Input -> Option α × Bool
  filter : Option (α -> Option Bool)

inductive Capture (α : Type v)
  | excluded
  | failed
  | admitted (entry : α)

/-- Sampling, enrichment and filter, in the order of the code.  The Boolean is
the contribution to `truncatedEntryCount`. -/
def Seams.capture (seams : Seams Input α) (input : Input) : Capture α × Bool :=
  match seams.passesSampling input with
  | none => (.failed, false)
  | some false => (.excluded, false)
  | some true =>
      match seams.enrich input with
      | (none, truncated) => (.failed, truncated)
      | (some entry, truncated) =>
          match seams.filter with
          | none => (.admitted entry, truncated)
          | some keeps =>
              match keeps entry with
              | none => (.failed, truncated)
              | some false => (.excluded, truncated)
              | some true => (.admitted entry, truncated)

/-! ## A flush in flight -/

/-- Where `storeWithRetry` stands on the current chunk. -/
inductive Attempt
  | first
  | backoff
  | second
  deriving DecidableEq

/-- Where `storeDrained` stands.  Every form but the last carries the current
chunk and the chunks behind it; `settling` is the stretch between its return
and the `finally` block that clears `flushing`. -/
inductive Progress (α : Type v)
  | storing (attempt : Attempt) (chunk : List α) (rest : List (List α))
  | rollups (chunk : List α) (rest : List (List α))
  | hook (chunk : List α) (rest : List (List α))
  | settling

namespace Progress

/-- Begin the next chunk, or leave the loop. -/
def next : List (List α) -> Progress α
  | [] => .settling
  | chunk :: rest => .storing .first chunk rest

/-- Drained entries whose chunk has been neither stored nor given up. -/
def pending : Progress α -> List α
  | .storing _attempt chunk rest => chunk ++ rest.flatten
  | .rollups _chunk rest => rest.flatten
  | .hook _chunk rest => rest.flatten
  | .settling => []

@[simp] theorem pending_next (rest : List (List α)) :
    (next rest).pending = rest.flatten := by
  cases rest <;> rfl

end Progress

/-- The closure of one call of `storeDrained`. -/
structure Flight (α : Type v) where
  drained : List α
  flushStartedAt : Int
  progress : Progress α

/-- The slices `drained.slice(offset, offset + batchSize)` of the chunked loop.
A positive batch size consumes an entry per round, so the length is fuel enough. -/
def chunkLoop (batchSize : Nat) : Nat -> List α -> List (List α)
  | 0, _ => []
  | _fuel + 1, [] => []
  | fuel + 1, entry :: entries =>
      (entry :: entries).take batchSize ::
        chunkLoop batchSize fuel ((entry :: entries).drop batchSize)

/-- One chunk unless a positive batch size actually bounds the drained count. -/
def chunks (flushBatchSize : Option Int) (drained : List α) : List (List α) :=
  match flushBatchSize with
  | none => [drained]
  | some batchSize =>
      if batchSize ≤ 0 ∨ batchSize ≥ drained.length then [drained]
      else chunkLoop batchSize.toNat drained.length drained

theorem chunkLoop_flatten (batchSize : Nat) (positive : 0 < batchSize) (fuel : Nat)
    (entries : List α) (enough : entries.length ≤ fuel) :
    (chunkLoop batchSize fuel entries).flatten = entries := by
  induction fuel generalizing entries with
  | zero => rw [List.length_eq_zero_iff.mp (Nat.le_zero.mp enough)]; rfl
  | succ fuel inductionHypothesis =>
      cases entries with
      | nil => rfl
      | cons entry entries =>
          have shorter : ((entry :: entries).drop batchSize).length ≤ fuel := by
            rw [List.length_drop]
            simp only [List.length_cons] at enough ⊢
            omega
          rw [chunkLoop, List.flatten_cons, inductionHypothesis _ shorter, List.take_append_drop]

/-- Chunking neither loses nor reorders a drained entry. -/
theorem chunks_flatten (flushBatchSize : Option Int) (drained : List α) :
    (chunks flushBatchSize drained).flatten = drained := by
  cases flushBatchSize with
  | none => exact List.append_nil drained
  | some batchSize =>
      rw [chunks]
      split
      · exact List.append_nil drained
      · rename_i bounding
        exact chunkLoop_flatten _ (by omega) _ _ (Nat.le_refl _)

end Recorder

/-! ## The fields of the recorder -/

structure Recorder (α : Type v) (capacity : Nat) where
  ring : RingBuffer α capacity
  overflowDrops : Nat := 0
  storeFailedDrops : Nat := 0
  recordErrorDrops : Nat := 0
  recordedCount : Nat := 0
  highWaterCount : Nat := 0
  flushCount : Nat := 0
  flushedEntriesCount : Nat := 0
  retriedFlushCount : Nat := 0
  lastFlushDurationMs : Option Int := none
  maxFlushDurationMs : Option Int := none
  totalFlushDurationMs : Int := 0
  truncatedEntryCount : Nat := 0
  flushing : Option (Recorder.Flight α) := none
  paused : Bool := false

namespace Recorder

variable {Input : Type u} {α : Type v} {capacity : Nat}

def droppedCount (recorder : Recorder α capacity) : Nat :=
  recorder.overflowDrops + recorder.storeFailedDrops + recorder.recordErrorDrops

/-- Ring-buffer push with its counters. -/
def push (recorder : Recorder α capacity) (entry : α) : Recorder α capacity :=
  let ring := recorder.ring.push entry
  { recorder with
    ring := ring
    overflowDrops :=
      if recorder.ring.count < capacity then recorder.overflowDrops
      else recorder.overflowDrops + 1
    recordedCount := recorder.recordedCount + 1
    highWaterCount :=
      if ring.count > recorder.highWaterCount then ring.count else recorder.highWaterCount }

/-- The synchronous capture path.  A paused recorder counts an overflow drop and
reads nothing of the input. -/
def record (recorder : Recorder α capacity) (seams : Seams Input α) (input : Input) :
    Recorder α capacity :=
  if recorder.paused then { recorder with overflowDrops := recorder.overflowDrops + 1 }
  else
    let captured := seams.capture input
    let recorder :=
      { recorder with
        truncatedEntryCount := recorder.truncatedEntryCount + captured.2.toNat }
    match captured.1 with
    | .excluded => recorder
    | .failed => { recorder with recordErrorDrops := recorder.recordErrorDrops + 1 }
    | .admitted entry => recorder.push entry

/-- `flush()` up to its first await: join the flush in flight, return on an empty
ring, or drain synchronously and start storing. -/
def flush (flushBatchSize : Option Int) (recorder : Recorder α capacity) (now : Int) :
    Recorder α capacity :=
  match recorder.flushing with
  | some _ => recorder
  | none =>
      if recorder.ring.count = 0 then recorder
      else
        let drained := recorder.ring.drain
        { recorder with
          ring := drained.2
          flushing := some
            { drained := drained.1
              flushStartedAt := now
              progress := Progress.next (chunks flushBatchSize drained.1) } }

def setProgress (recorder : Recorder α capacity) (flight : Flight α)
    (progress : Progress α) : Recorder α capacity :=
  { recorder with flushing := some { flight with progress := progress } }

/-- The `finally` block of a flush: its metrics, then `flushing = null`. -/
def recordFlushMetrics (recorder : Recorder α capacity) (flight : Flight α) (now : Int) :
    Recorder α capacity :=
  let durationMs := now - flight.flushStartedAt
  { recorder with
    flushCount := recorder.flushCount + 1
    flushedEntriesCount := recorder.flushedEntriesCount + flight.drained.length
    lastFlushDurationMs := some durationMs
    totalFlushDurationMs := recorder.totalFlushDurationMs + durationMs
    maxFlushDurationMs :=
      match recorder.maxFlushDurationMs with
      | none => some durationMs
      | some longest => if durationMs > longest then some durationMs else some longest
    flushing := none }

/-! ## What happened to every entry -/

/-- The places of all entries at one instant. -/
structure Snapshot (α : Type v) where
  ring : List α
  evicted : List α
  stored : List α
  storeFailed : List α

/-- One call of `flush()`: the ring it found, the drained batch its promise
stands for, whether that batch was drained by an earlier call, and the places
of the entries at the moment its promise resolved. -/
structure FlushCall (α : Type v) where
  ring : List α
  batch : List α
  joined : Bool
  resolution : Option (Snapshot α)

structure History (α : Type v) where
  pushed : List α := []
  evicted : List α := []
  drained : List α := []
  stored : List α := []
  storeFailed : List α := []
  refused : Nat := 0
  notified : List (Nat × DropReason) := []
  calls : List (FlushCall α) := []

structure System (α : Type v) (capacity : Nat) where
  recorder : Recorder α capacity
  history : History α

namespace System

def snapshot (system : System α capacity) : Snapshot α where
  ring := system.recorder.ring.toList
  evicted := system.history.evicted
  stored := system.history.stored
  storeFailed := system.history.storeFailed

/-- The drained entries that are neither stored nor given up yet. -/
def inFlight (system : System α capacity) : List α :=
  match system.recorder.flushing with
  | none => []
  | some flight => flight.progress.pending

/-- The whole batch of the flush in flight. -/
def batchInFlight (system : System α capacity) : List α :=
  match system.recorder.flushing with
  | none => []
  | some flight => flight.drained

end System

namespace History

/-- `onDrop(count, reason)`. -/
def notifyDrop (history : History α) (count : Nat) (reason : DropReason) : History α :=
  { history with notified := history.notified ++ [(count, reason)] }

def push (history : History α) (ring : RingBuffer α capacity) (entry : α) : History α :=
  let history :=
    { history with
      pushed := history.pushed ++ [entry]
      evicted := history.evicted ++ ring.evictedByPush }
  if ring.count < capacity then history else history.notifyDrop 1 .overflow

def record (history : History α) (recorder : Recorder α capacity) (seams : Seams Input α)
    (input : Input) : History α :=
  if recorder.paused then
    { history with refused := history.refused + 1 }.notifyDrop 1 .overflow
  else
    match (seams.capture input).1 with
    | .excluded => history
    | .failed => history.notifyDrop 1 .recordError
    | .admitted entry => history.push recorder.ring entry

/-- A call joins the flush in flight, resolves at once on an empty ring, or
stands for the batch it drains. -/
def flush (history : History α) (system : System α capacity) : History α :=
  let ring := system.recorder.ring.toList
  match system.recorder.flushing with
  | some flight =>
      { history with
        calls := history.calls ++
          [{ ring := ring, batch := flight.drained, joined := true, resolution := none }] }
  | none =>
      if system.recorder.ring.count = 0 then
        { history with
          calls := history.calls ++
            [{ ring := ring, batch := [], joined := false,
               resolution := some system.snapshot }] }
      else
        { history with
          drained := history.drained ++ ring
          calls := history.calls ++
            [{ ring := ring, batch := ring, joined := false, resolution := none }] }

/-- Every waiting call of `flush()` awaits the one flush in flight. -/
def resolveCalls (history : History α) (snapshot : Snapshot α) : History α :=
  { history with
    calls := history.calls.map fun call =>
      match call.resolution with
      | some _ => call
      | none => { call with resolution := some snapshot } }

end History

/-! ## Transitions -/

inductive Event (Input : Type u) (α : Type v)
  | record (seams : Seams Input α) (input : Input)
  | pause
  | resume
  | flush (now : Int)
  | storeResolved
  | storeRejected
  | delayElapsed
  | rollupsSettled
  | hookSettled
  | flushSettled (now : Int)

/-- The step of the flush in flight when what it awaits settles.  A chunk's
second rejection drops that chunk and goes on with the next one. -/
def advance (system : System α capacity) (flight : Flight α) :
    Event Input α -> Option (System α capacity)
  | .storeResolved =>
      match flight.progress with
      | .storing .first chunk rest | .storing .second chunk rest =>
          some
            { recorder := system.recorder.setProgress flight (.rollups chunk rest)
              history :=
                { system.history with stored := system.history.stored ++ chunk } }
      | _ => none
  | .storeRejected =>
      match flight.progress with
      | .storing .first chunk rest =>
          some
            { system with
              recorder :=
                { system.recorder.setProgress flight (.storing .backoff chunk rest) with
                  retriedFlushCount := system.recorder.retriedFlushCount + 1 } }
      | .storing .second chunk rest =>
          some
            { recorder :=
                { system.recorder.setProgress flight (.next rest) with
                  storeFailedDrops := system.recorder.storeFailedDrops + chunk.length }
              history :=
                { system.history with
                  storeFailed := system.history.storeFailed ++ chunk }.notifyDrop
                    chunk.length .storeFailed }
      | _ => none
  | .delayElapsed =>
      match flight.progress with
      | .storing .backoff chunk rest =>
          some
            { system with
              recorder := system.recorder.setProgress flight (.storing .second chunk rest) }
      | _ => none
  | .rollupsSettled =>
      match flight.progress with
      | .rollups chunk rest =>
          some { system with recorder := system.recorder.setProgress flight (.hook chunk rest) }
      | _ => none
  | .hookSettled =>
      match flight.progress with
      | .hook _chunk rest =>
          some { system with recorder := system.recorder.setProgress flight (.next rest) }
      | _ => none
  | .flushSettled now =>
      match flight.progress with
      | .settling =>
          some
            { recorder := system.recorder.recordFlushMetrics flight now
              history := system.history.resolveCalls system.snapshot }
      | _ => none
  | _ => none

def step (options : Options) (system : System α options.bufferSize) :
    Event Input α -> Option (System α options.bufferSize)
  | .record seams input =>
      some
        { recorder := system.recorder.record seams input
          history := system.history.record system.recorder seams input }
  | .pause => some { system with recorder := { system.recorder with paused := true } }
  | .resume => some { system with recorder := { system.recorder with paused := false } }
  | .flush now =>
      some
        { recorder := system.recorder.flush options.flushBatchSize now
          history := system.history.flush system }
  | event =>
      match system.recorder.flushing with
      | none => none
      | some flight => advance system flight event

def initial (options : Options) : System α options.bufferSize where
  recorder := { ring := RingBuffer.empty options.bufferSize_pos }
  history := {}

/-! ## Everything a flush in flight can do -/

/-- The four effects of `advance`: no entry moves, a chunk is stored, a chunk is
given up, or the flush ends with nothing pending. -/
inductive Advanced (system : System α capacity) (flight : Flight α) : System α capacity -> Prop
  | waits (progress : Progress α) (retried : Nat)
      (pending : progress.pending = flight.progress.pending) :
      Advanced system flight
        { system with
          recorder :=
            { system.recorder.setProgress flight progress with retriedFlushCount := retried } }
  | stores (chunk : List α) (progress : Progress α)
      (pending : flight.progress.pending = chunk ++ progress.pending) :
      Advanced system flight
        { recorder := system.recorder.setProgress flight progress
          history := { system.history with stored := system.history.stored ++ chunk } }
  | givesUp (chunk : List α) (progress : Progress α)
      (pending : flight.progress.pending = chunk ++ progress.pending) :
      Advanced system flight
        { recorder :=
            { system.recorder.setProgress flight progress with
              storeFailedDrops := system.recorder.storeFailedDrops + chunk.length }
          history :=
            { system.history with
              storeFailed := system.history.storeFailed ++ chunk }.notifyDrop
                chunk.length .storeFailed }
  | ends (now : Int) (pending : flight.progress.pending = []) :
      Advanced system flight
        { recorder := system.recorder.recordFlushMetrics flight now
          history := system.history.resolveCalls system.snapshot }

theorem advanced_of_advance {system next : System α capacity} {flight : Flight α}
    {event : Event Input α} (advanced : advance system flight event = some next) :
    Advanced system flight next := by
  cases event with
  | record | pause | resume | flush => cases advanced
  | storeResolved =>
      simp only [advance] at advanced
      split at advanced
      · rename_i chunk rest progress
        cases advanced
        exact .stores chunk _ (by rw [progress]; rfl)
      · rename_i chunk rest progress
        cases advanced
        exact .stores chunk _ (by rw [progress]; rfl)
      · cases advanced
  | storeRejected =>
      simp only [advance] at advanced
      split at advanced
      · rename_i chunk rest progress
        cases advanced
        exact .waits _ _ (by rw [progress]; rfl)
      · rename_i chunk rest progress
        cases advanced
        exact .givesUp chunk _ (by rw [progress, Progress.pending_next]; rfl)
      · cases advanced
  | delayElapsed =>
      simp only [advance] at advanced
      split at advanced
      · rename_i chunk rest progress
        cases advanced
        exact .waits _ _ (by rw [progress]; rfl)
      · cases advanced
  | rollupsSettled =>
      simp only [advance] at advanced
      split at advanced
      · rename_i chunk rest progress
        cases advanced
        exact .waits _ _ (by rw [progress]; rfl)
      · cases advanced
  | hookSettled =>
      simp only [advance] at advanced
      split at advanced
      · rename_i chunk rest progress
        cases advanced
        exact .waits _ _ (by rw [progress, Progress.pending_next]; rfl)
      · cases advanced
  | flushSettled now =>
      simp only [advance] at advanced
      split at advanced
      · rename_i progress
        cases advanced
        exact .ends now (by rw [progress]; rfl)
      · cases advanced

/-- Everything a step can do: one of the four calls, or an advance. -/
theorem step_cases {options : Options} {system next : System α options.bufferSize}
    {event : Event Input α} (stepped : step options system event = some next) :
    (Exists fun seams => Exists fun input =>
      event = .record seams input ∧
        next =
          { recorder := system.recorder.record seams input
            history := system.history.record system.recorder seams input }) ∨
    (Exists fun paused =>
      next = { system with recorder := { system.recorder with paused := paused } }) ∨
    (Exists fun now =>
      event = .flush now ∧
        next =
          { recorder := system.recorder.flush options.flushBatchSize now
            history := system.history.flush system }) ∨
    (Exists fun flight =>
      system.recorder.flushing = some flight ∧ Advanced system flight next) := by
  have advances : forall event : Event Input α,
      (match system.recorder.flushing with
        | none => none
        | some flight => advance system flight event) = some next ->
      Exists fun flight =>
        system.recorder.flushing = some flight ∧ Advanced system flight next := by
    intro event advanced
    cases inFlight : system.recorder.flushing with
    | none => rw [inFlight] at advanced; cases advanced
    | some flight =>
        rw [inFlight] at advanced
        exact ⟨flight, rfl, advanced_of_advance advanced⟩
  cases event with
  | record seams input => exact .inl ⟨seams, input, rfl, (Option.some.inj stepped).symm⟩
  | pause => exact .inr (.inl ⟨true, (Option.some.inj stepped).symm⟩)
  | resume => exact .inr (.inl ⟨false, (Option.some.inj stepped).symm⟩)
  | flush now => exact .inr (.inr (.inl ⟨now, rfl, (Option.some.inj stepped).symm⟩))
  | storeResolved => exact .inr (.inr (.inr (advances .storeResolved stepped)))
  | storeRejected => exact .inr (.inr (.inr (advances .storeRejected stepped)))
  | delayElapsed => exact .inr (.inr (.inr (advances .delayElapsed stepped)))
  | rollupsSettled => exact .inr (.inr (.inr (advances .rollupsSettled stepped)))
  | hookSettled => exact .inr (.inr (.inr (advances .hookSettled stepped)))
  | flushSettled now => exact .inr (.inr (.inr (advances (.flushSettled now) stepped)))

end Recorder
end Telescope
