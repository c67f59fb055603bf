import Telescope.Recorder.FlushCompleteness

namespace Telescope
namespace Recorder

universe u v

/-!
# What reaches the flush hook

A chunk that was stored waits for its rollups and is then handed to the
`onFlushStored` hook.  Stored entries reach the hook in the order in which they were
stored, all but those of the one chunk that still waits.
-/

variable {Input : Type u} {α : Type v} {capacity : Nat}

/-- The stored chunk that waits for its rollups. -/
def Progress.beforeHook : Progress α -> List α
  | .rollups chunk _rest => chunk
  | _ => []

@[simp] theorem Progress.beforeHook_next (rest : List (List α)) : (next rest).beforeHook = [] := by
  cases rest <;> rfl

def System.beforeHook (system : System α capacity) : List α :=
  match system.recorder.flushing with
  | none => []
  | some flight => flight.progress.beforeHook

/-- What a step hands to the hook. -/
def System.handed (system : System α capacity) : Event Input α -> List α
  | .rollupsSettled => system.beforeHook
  | _ => []

theorem System.beforeHook_congr {system next : System α capacity}
    (same : next.recorder.flushing = system.recorder.flushing) : next.beforeHook = system.beforeHook := by
  rw [System.beforeHook, System.beforeHook, same]

theorem System.beforeHook_of_flying {system : System α capacity} {flight : Flight α}
    (flying : system.recorder.flushing = some flight) : system.beforeHook = flight.progress.beforeHook := by
  rw [System.beforeHook, flying]

theorem beforeHook_flush (system : System α capacity) (flushBatchSize : Option Int) (now : Int)
    (history : History α) :
    System.beforeHook ⟨system.recorder.flush flushBatchSize now, history⟩ = system.beforeHook := by
  cases inFlight : system.recorder.flushing with
  | some flight =>
      refine System.beforeHook_congr ?_
      simp only [flush, inFlight]
  | none =>
      by_cases vacant : system.recorder.ring.count = 0
      · refine System.beforeHook_congr ?_
        simp only [flush, inFlight, if_pos vacant]
      · have nothing : system.beforeHook = [] := by rw [System.beforeHook, inFlight]
        simp only [flush, inFlight, if_neg vacant]
        rw [nothing]
        exact Progress.beforeHook_next _

/-- The record of what was stored is kept by calls of `flush()`. -/
theorem stored_flush (system : System α capacity) : (system.history.flush system).stored =
    system.history.stored := by
  unfold History.flush
  dsimp only
  split
  · rfl
  · split <;> rfl

theorem flushing_record (recorder : Recorder α capacity) (seams : Seams Input α) (input : Input) :
    (recorder.record seams input).flushing = recorder.flushing := by
  unfold record
  dsimp only
  split
  · rfl
  · split <;> rfl

theorem stored_record (history : History α) (recorder : Recorder α capacity) (seams : Seams Input α)
    (input : Input) : (history.record recorder seams input).stored = history.stored := by
  unfold History.record
  split
  · rfl
  · split
    · rfl
    · rfl
    · exact (history_push_frame history recorder.ring _).1

/-- A flush in flight goes on: what was stored is what has been handed over and what
waits. -/
theorem stored_advance {system next : System α capacity} {flight : Flight α} {event : Event Input α}
    {handedOver : List α} (flying : system.recorder.flushing = some flight)
    (stored : system.history.stored = handedOver ++ system.beforeHook)
    (advanced : advance system flight event = some next) :
    next.history.stored = (handedOver ++ system.handed event) ++ next.beforeHook := by
  rw [System.beforeHook_of_flying flying] at stored
  cases event with
  | record | pause | resume | flush => cases advanced
  | storeResolved =>
      simp only [advance] at advanced
      split at advanced
      · rename_i chunk rest progress
        cases advanced
        rw [progress] at stored
        change system.history.stored ++ chunk = (handedOver ++ []) ++ chunk
        rw [stored]
        rfl
      · rename_i chunk rest progress
        cases advanced
        rw [progress] at stored
        change system.history.stored ++ chunk = (handedOver ++ []) ++ chunk
        rw [stored]
        rfl
      · cases advanced
  | storeRejected =>
      simp only [advance] at advanced
      split at advanced
      · rename_i chunk rest progress
        cases advanced
        rw [progress] at stored
        change system.history.stored = (handedOver ++ []) ++ []
        rw [stored, List.append_nil]
        rfl
      · rename_i chunk rest progress
        cases advanced
        rw [progress] at stored
        change system.history.stored = (handedOver ++ []) ++ (Progress.next rest).beforeHook
        rw [stored, Progress.beforeHook_next, List.append_nil]
        rfl
      · cases advanced
  | delayElapsed =>
      simp only [advance] at advanced
      split at advanced
      · rename_i chunk rest progress
        cases advanced
        rw [progress] at stored
        change system.history.stored = (handedOver ++ []) ++ []
        rw [stored, List.append_nil]
        rfl
      · cases advanced
  | rollupsSettled =>
      simp only [advance] at advanced
      split at advanced
      · rename_i chunk rest progress
        cases advanced
        rw [System.handed, System.beforeHook_of_flying flying]
        change system.history.stored = (handedOver ++ flight.progress.beforeHook) ++ []
        rw [stored, List.append_nil]
      · cases advanced
  | hookSettled =>
      simp only [advance] at advanced
      split at advanced
      · rename_i chunk rest progress
        cases advanced
        rw [progress] at stored
        change system.history.stored = (handedOver ++ []) ++ (Progress.next rest).beforeHook
        rw [stored, Progress.beforeHook_next, List.append_nil]
        rfl
      · cases advanced
  | flushSettled now =>
      simp only [advance] at advanced
      split at advanced
      · rename_i progress
        cases advanced
        rw [progress] at stored
        change system.history.stored = (handedOver ++ []) ++ []
        rw [stored, List.append_nil]
        rfl
      · cases advanced

/-- Stored entries that have been handed over, and those that wait, after any step. -/
theorem stored_step {options : Options} {system next : System α options.bufferSize}
    {event : Event Input α} {handedOver : List α}
    (stored : system.history.stored = handedOver ++ system.beforeHook)
    (stepped : step options system event = some next) :
    next.history.stored = (handedOver ++ system.handed event) ++ next.beforeHook := by
  have advances : (match system.recorder.flushing with
        | none => none
        | some flight => advance system flight event) = some next ->
      next.history.stored = (handedOver ++ system.handed event) ++ next.beforeHook := by
    intro advanced
    cases inFlight : system.recorder.flushing with
    | none => rw [inFlight] at advanced; cases advanced
    | some flight =>
        rw [inFlight] at advanced
        exact stored_advance inFlight stored advanced
  cases event with
  | record seams input =>
      cases stepped
      change (system.history.record system.recorder seams input).stored = (handedOver ++ []) ++ _
      rw [stored_record, List.append_nil, System.beforeHook_congr (flushing_record ..)]
      exact stored
  | pause | resume =>
      cases stepped
      change system.history.stored = (handedOver ++ []) ++ system.beforeHook
      rw [List.append_nil]
      exact stored
  | flush now =>
      cases stepped
      change (system.history.flush system).stored = (handedOver ++ []) ++ _
      rw [stored_flush, List.append_nil, beforeHook_flush]
      exact stored
  | storeResolved | storeRejected | delayElapsed | rollupsSettled | hookSettled | flushSettled =>
      exact advances stepped

end Recorder
end Telescope
