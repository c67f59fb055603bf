import Telescope.Foundation.Transition
import Telescope.Prune.Pruner

namespace Telescope
namespace Prune

/-!
# The guard around a cycle

A tick of the timer or a request of the dashboard starts a cycle, unless one is in
flight: then a tick is dropped, and a request joins.  A cycle asks the lock first, prunes
unless another process holds it, and gives the lease back.  The lock is the host's own,
so what it is asked may settle in any way, or throw before there is a promise.
-/

/-- How the call of an asynchronous method comes back. -/
inductive Called
  | promised
  | threw (message : Text)
  deriving DecidableEq

/-- What a lock resolves with. -/
inductive LockResult
  | acquired
  | held
  | unavailable (detail : Option Text)
  deriving DecidableEq

/-- Where a cycle waits, or how it ended. -/
inductive Phase
  | acquiring
  | pruning (leased : Bool)
  | releasing (outcome : Except Text Nat)
  | settled (outcome : Except Text Nat)
  | finished (outcome : Except Text Nat)

/-- A cycle that was started, beside how the lock was called and answered and how the
pruning itself ended. -/
structure Cycle where
  trigger : PruneTrigger
  phase : Phase
  acquireCall : Option Called := none
  acquired : Option (Except Text LockResult) := none
  pruned : Option (Except Text Nat) := none
  releaseCall : Option Called := none

namespace Cycle

/-- `runLockedCycle` up to where it first waits.  The call of `acquire` stands outside its
own `catch`, so what it throws rejects the cycle. -/
def runLockedCycle (locked : Bool) (trigger : PruneTrigger) (acquire : Called) : Cycle :=
  if locked then
    match acquire with
    | .promised => { trigger := trigger, phase := .acquiring, acquireCall := some acquire }
    | .threw message => { trigger := trigger, phase := .settled (.error message), acquireCall := some acquire }
  else { trigger := trigger, phase := .pruning false }

/-- `.catch((error) => pruneLockUnavailable(asError(error).message))`. -/
def lockResult : Except Text LockResult -> LockResult
  | .ok result => result
  | .error message => .unavailable (some message)

/-- The lock has answered. -/
def acquireSettled (reply : Except Text LockResult) (cycle : Cycle) : Option Cycle :=
  match cycle.phase with
  | .acquiring =>
      some
        { cycle with
          acquired := some reply
          phase :=
            match lockResult reply with
            | .acquired => .pruning true
            | .held => .settled (.ok 0)
            | .unavailable _ => .pruning false }
  | _ => none

/-- `runCycle` has settled.  With a lease `release` is called then, again outside its own
`catch`. -/
def pruneSettled (outcome : Except Text Nat) (release : Called) (cycle : Cycle) : Option Cycle :=
  match cycle.phase with
  | .pruning false => some { cycle with pruned := some outcome, phase := .settled outcome }
  | .pruning true =>
      some
        { cycle with
          pruned := some outcome
          releaseCall := some release
          phase :=
            match release with
            | .promised => .releasing outcome
            | .threw message => .settled (.error message) }
  | _ => none

/-- The promise of `release` has settled, in either way. -/
def releaseSettled (cycle : Cycle) : Option Cycle :=
  match cycle.phase with
  | .releasing outcome => some { cycle with phase := .settled outcome }
  | _ => none

/-- The `finally` of the guard has run, and the promise of the cycle settles. -/
def finish (cycle : Cycle) : Option Cycle :=
  match cycle.phase with
  | .settled outcome => some { cycle with phase := .finished outcome }
  | _ => none

/-- How the locked cycle has settled. -/
def outcome? (cycle : Cycle) : Option (Except Text Nat) :=
  match cycle.phase with
  | .settled outcome => some outcome
  | .finished outcome => some outcome
  | _ => none

/-- The promise that callers wait for has settled. -/
def Finished (cycle : Cycle) : Prop := Exists fun outcome => cycle.phase = .finished outcome

end Cycle

/-- What a caller is given: the promise of a cycle, or one that is resolved with zero. -/
inductive Answer
  | awaits (id : Nat)
  | dropped
  deriving DecidableEq

/-- The pruner, with all the cycles it has started and the answers it has given. -/
structure Guard where
  inFlight : Option Nat := none
  skippedThisCycle : Nat := 0
  warnedOverlap : Bool := false
  ceilingHitsThisCycle : Nat := 0
  warnedBatchCeiling : Bool := false
  warnedLockUnavailable : Bool := false
  cycles : List Cycle := []
  answers : List Answer := []

namespace Guard

def initial : Guard := {}

/-- A tick or a request.  With a cycle in flight the lock is not asked. -/
def runGuardedCycle (locked : Bool) (guard : Guard) (trigger : PruneTrigger) (acquire : Called) : Guard :=
  match guard.inFlight with
  | some running =>
      match trigger with
      | .manual => { guard with answers := guard.answers ++ [.awaits running] }
      | .scheduled =>
          { guard with
            skippedThisCycle := guard.skippedThisCycle + 1
            warnedOverlap := true
            answers := guard.answers ++ [.dropped] }
  | none =>
      { guard with
        inFlight := some guard.cycles.length
        cycles := guard.cycles ++ [.runLockedCycle locked trigger acquire]
        answers := guard.answers ++ [.awaits guard.cycles.length] }

/-- A cycle goes on. -/
def advance (guard : Guard) (id : Nat) (change : Cycle -> Option Cycle) : Option Guard :=
  (guard.cycles[id]?.bind change).map fun cycle => { guard with cycles := guard.cycles.set id cycle }

/-- The lock's own warning is logged once until it answers again. -/
def noteLock (guard : Guard) (reply : Except Text LockResult) : Guard :=
  match Cycle.lockResult reply with
  | .acquired => { guard with warnedLockUnavailable := false }
  | .held => guard
  | .unavailable _ => { guard with warnedLockUnavailable := true }

/-- The batch ceilings that the cycle has hit. -/
def noteCeilings (guard : Guard) (hits : Nat) : Guard :=
  { guard with
    ceilingHitsThisCycle := guard.ceilingHitsThisCycle + hits
    warnedBatchCeiling := guard.warnedBatchCeiling || decide (0 < hits) }

/-- The `finally` of a guarded cycle. -/
def clear (guard : Guard) : Guard :=
  { guard with
    inFlight := none
    warnedOverlap := guard.warnedOverlap && guard.skippedThisCycle != 0
    warnedBatchCeiling := guard.warnedBatchCeiling && guard.ceilingHitsThisCycle != 0
    skippedThisCycle := 0
    ceilingHitsThisCycle := 0 }

end Guard

/-- What happens: a call, with how `acquire` would come back from it, or a step of one of
the cycles. -/
inductive GuardEvent
  | called (trigger : PruneTrigger) (acquire : Called)
  | acquireSettled (id : Nat) (reply : Except Text LockResult)
  | pruneSettled (id : Nat) (outcome : Except Text Nat) (ceilingHits : Nat) (release : Called)
  | releaseSettled (id : Nat) (reply : Except Text Unit)
  | finallyRuns (id : Nat)

namespace Guard

def step (locked : Bool) (guard : Guard) : GuardEvent -> Option Guard
  | .called trigger acquire => some (guard.runGuardedCycle locked trigger acquire)
  | .acquireSettled id reply => (guard.advance id (Cycle.acquireSettled reply)).map fun next => next.noteLock reply
  | .pruneSettled id outcome ceilingHits release =>
      (guard.advance id (Cycle.pruneSettled outcome release)).map fun next => next.noteCeilings ceilingHits
  | .releaseSettled id _reply => guard.advance id Cycle.releaseSettled
  | .finallyRuns id => (guard.advance id Cycle.finish).map clear

end Guard

/-! ## One cycle -/

namespace Cycle

/-- The cycle was not given up unless another process held the lock, and what was pruned
is what it resolves with. -/
structure Kept (cycle : Cycle) : Prop where
  skipped : forall outcome, cycle.outcome? = some outcome -> cycle.pruned = none ->
    cycle.acquired = some (.ok .held)
  resolves : forall outcome deleted, cycle.outcome? = some outcome -> cycle.pruned = some (.ok deleted) ->
    outcome = .ok deleted

/-- The lock did not throw where that matters: from `acquire`, or from `release` after a
pruning that succeeded. -/
structure Unbroken (cycle : Cycle) : Prop where
  acquire : forall message, cycle.acquireCall ≠ some (.threw message)
  release : forall deleted message, cycle.pruned = some (.ok deleted) -> cycle.releaseCall ≠ some (.threw message)

/-- How a cycle that has settled came to it. -/
inductive Settled (cycle : Cycle) (outcome : Except Text Nat) : Prop
  | skipped (promised : cycle.acquireCall = some .promised) (held : cycle.acquired = some (.ok .held))
      (unpruned : cycle.pruned = none) (uncalled : cycle.releaseCall = none) (zero : outcome = .ok 0)
  | broken (message : Text) (threw : cycle.acquireCall = some (.threw message))
      (unanswered : cycle.acquired = none) (unpruned : cycle.pruned = none) (error : outcome = .error message)
  | pruned (called : cycle.acquireCall = none ∨ cycle.acquireCall = some .promised)
      (isPruned : cycle.pruned = some outcome)
      (released : cycle.releaseCall = none ∨ cycle.releaseCall = some .promised)
  | unreleased (ended : Except Text Nat) (message : Text)
      (called : cycle.acquireCall = none ∨ cycle.acquireCall = some .promised)
      (isPruned : cycle.pruned = some ended) (threw : cycle.releaseCall = some (.threw message))
      (error : outcome = .error message)

/-- What is recorded of a cycle in each phase. -/
def Recorded (cycle : Cycle) : Prop :=
  match cycle.phase with
  | .acquiring => cycle.acquireCall = some .promised ∧ cycle.pruned = none ∧ cycle.releaseCall = none
  | .pruning _ =>
      (cycle.acquireCall = none ∨ cycle.acquireCall = some .promised) ∧ cycle.pruned = none ∧
        cycle.releaseCall = none
  | .releasing outcome =>
      (cycle.acquireCall = none ∨ cycle.acquireCall = some .promised) ∧ cycle.pruned = some outcome ∧
        cycle.releaseCall = some .promised
  | .settled outcome => cycle.Settled outcome
  | .finished outcome => cycle.Settled outcome

variable {cycle next : Cycle}

theorem recorded_runLockedCycle (locked : Bool) (trigger : PruneTrigger) (acquire : Called) :
    (runLockedCycle locked trigger acquire).Recorded := by
  cases locked with
  | false => exact ⟨.inl rfl, rfl, rfl⟩
  | true =>
      cases acquire with
      | promised => exact ⟨rfl, rfl, rfl⟩
      | threw message => exact .broken message rfl rfl rfl rfl

theorem Recorded.acquireSettled (recorded : cycle.Recorded) {reply : Except Text LockResult}
    (stepped : cycle.acquireSettled reply = some next) : next.Recorded := by
  unfold Cycle.acquireSettled at stepped
  split at stepped
  · rename_i acquiring
    rw [Recorded, acquiring] at recorded
    rcases recorded with ⟨promised, unpruned, uncalled⟩
    cases stepped
    cases reply with
    | error message => exact ⟨.inr promised, unpruned, uncalled⟩
    | ok result =>
        cases result with
        | acquired => exact ⟨.inr promised, unpruned, uncalled⟩
        | held => exact .skipped promised rfl unpruned uncalled rfl
        | unavailable detail => exact ⟨.inr promised, unpruned, uncalled⟩
  · cases stepped

theorem Recorded.pruneSettled (recorded : cycle.Recorded) {outcome : Except Text Nat} {release : Called}
    (stepped : cycle.pruneSettled outcome release = some next) : next.Recorded := by
  unfold Cycle.pruneSettled at stepped
  split at stepped
  · rename_i pruning
    rw [Recorded, pruning] at recorded
    rcases recorded with ⟨called, _, uncalled⟩
    cases stepped
    exact .pruned called rfl (.inl uncalled)
  · rename_i pruning
    rw [Recorded, pruning] at recorded
    rcases recorded with ⟨called, _, _⟩
    cases stepped
    cases release with
    | promised => exact ⟨called, rfl, rfl⟩
    | threw message => exact .unreleased outcome message called rfl rfl rfl
  · cases stepped

theorem Recorded.releaseSettled (recorded : cycle.Recorded) (stepped : cycle.releaseSettled = some next) :
    next.Recorded := by
  unfold Cycle.releaseSettled at stepped
  split at stepped
  · rename_i releasing
    rw [Recorded, releasing] at recorded
    rcases recorded with ⟨called, isPruned, promised⟩
    cases stepped
    exact .pruned called isPruned (.inr promised)
  · cases stepped

theorem Settled.of_phase {outcome : Except Text Nat} (settled : cycle.Settled outcome) (phase : Phase) :
    ({ cycle with phase := phase } : Cycle).Settled outcome := by
  cases settled with
  | skipped promised held unpruned uncalled zero => exact .skipped promised held unpruned uncalled zero
  | broken message threw unanswered unpruned error => exact .broken message threw unanswered unpruned error
  | pruned called isPruned released => exact .pruned called isPruned released
  | unreleased ended message called isPruned threw error =>
      exact .unreleased ended message called isPruned threw error

theorem Recorded.finish (recorded : cycle.Recorded) (stepped : cycle.finish = some next) : next.Recorded := by
  unfold Cycle.finish at stepped
  split at stepped
  · rename_i settled
    rw [Recorded, settled] at recorded
    cases stepped
    exact recorded.of_phase _
  · cases stepped

theorem Recorded.settled (recorded : cycle.Recorded) {outcome : Except Text Nat}
    (isOutcome : cycle.outcome? = some outcome) : cycle.Settled outcome := by
  unfold outcome? at isOutcome
  split at isOutcome
  · rename_i phase
    rw [Recorded, phase] at recorded
    exact Option.some.inj isOutcome ▸ recorded
  · rename_i phase
    rw [Recorded, phase] at recorded
    exact Option.some.inj isOutcome ▸ recorded
  · cases isOutcome

theorem not_threw {call : Option Called} {message : Text} (returned : call = none ∨ call = some .promised) :
    call ≠ some (.threw message) := by
  rintro rfl
  rcases returned with ⟨⟨⟩⟩ | ⟨⟨⟩⟩

/-- Where the lock has thrown, the cycle is over. -/
theorem Recorded.over_of_threw (recorded : cycle.Recorded) {message : Text}
    (threw : cycle.acquireCall = some (.threw message) ∨ cycle.releaseCall = some (.threw message)) :
    Exists fun outcome => cycle.outcome? = some outcome := by
  unfold Recorded at recorded
  unfold outcome?
  split at recorded
  · rcases recorded with ⟨promised, _, uncalled⟩
    rcases threw with acquire | release
    · cases promised.symm.trans acquire
    · cases uncalled.symm.trans release
  · rcases recorded with ⟨called, _, uncalled⟩
    rcases threw with acquire | release
    · exact (not_threw called acquire).elim
    · cases uncalled.symm.trans release
  · rcases recorded with ⟨called, _, promised⟩
    rcases threw with acquire | release
    · exact (not_threw called acquire).elim
    · cases promised.symm.trans release
  · rename_i outcome phase
    rw [phase]
    exact ⟨outcome, rfl⟩
  · rename_i outcome phase
    rw [phase]
    exact ⟨outcome, rfl⟩

theorem Kept.unbroken (kept : cycle.Kept) (recorded : cycle.Recorded) : cycle.Unbroken := by
  constructor
  · intro message threw
    rcases recorded.over_of_threw (.inl threw) with ⟨outcome, isOutcome⟩
    cases recorded.settled isOutcome with
    | skipped promised => cases promised.symm.trans threw
    | broken _ _ unanswered unpruned => cases unanswered.symm.trans (kept.skipped outcome isOutcome unpruned)
    | pruned called => exact (not_threw called threw).elim
    | unreleased _ _ called => exact (not_threw called threw).elim
  · intro deleted message isPruned threw
    rcases recorded.over_of_threw (.inr threw) with ⟨outcome, isOutcome⟩
    cases recorded.settled isOutcome with
    | skipped _ _ unpruned => cases unpruned.symm.trans isPruned
    | broken _ _ _ unpruned => cases unpruned.symm.trans isPruned
    | pruned _ _ released => exact (not_threw released threw).elim
    | unreleased _ _ _ _ _ error => cases error.symm.trans (kept.resolves outcome deleted isOutcome isPruned)

theorem Unbroken.kept (unbroken : cycle.Unbroken) (recorded : cycle.Recorded) : cycle.Kept := by
  constructor
  · intro outcome isOutcome unpruned
    cases recorded.settled isOutcome with
    | skipped _ held => exact held
    | broken message threw => exact (unbroken.acquire message threw).elim
    | pruned _ isPruned => cases unpruned.symm.trans isPruned
    | unreleased _ _ _ isPruned => cases unpruned.symm.trans isPruned
  · intro outcome deleted isOutcome isPruned
    cases recorded.settled isOutcome with
    | skipped _ _ unpruned => cases unpruned.symm.trans isPruned
    | broken _ _ _ unpruned => cases unpruned.symm.trans isPruned
    | pruned _ isOutcome => exact Option.some.inj (isOutcome.symm.trans isPruned)
    | unreleased ended message _ isEnded threw =>
        exact (unbroken.release deleted message isPruned threw).elim

/-- A cycle is kept exactly when its lock has not thrown. -/
theorem Recorded.kept_iff (recorded : cycle.Recorded) : cycle.Kept <-> cycle.Unbroken :=
  ⟨fun kept => kept.unbroken recorded, fun unbroken => unbroken.kept recorded⟩

/-- What each step of a cycle does, where the lock returns or throws as said. -/
structure Moves (cycle next : Cycle) (returns : Prop) : Prop where
  recorded : next.Recorded
  unbroken : next.Unbroken <-> cycle.Unbroken ∧ returns
  unfinished : ¬ cycle.Finished

theorem Recorded.moves_acquireSettled (recorded : cycle.Recorded) {reply : Except Text LockResult}
    (stepped : cycle.acquireSettled reply = some next) : cycle.Moves next True ∧ ¬ next.Finished := by
  have kept := recorded.acquireSettled stepped
  unfold Cycle.acquireSettled at stepped
  split at stepped
  · rename_i acquiring
    cases stepped
    refine ⟨⟨kept, ⟨fun unbroken => ⟨⟨unbroken.acquire, unbroken.release⟩, trivial⟩,
      fun both => ⟨both.1.acquire, both.1.release⟩⟩, ?_⟩, ?_⟩
    · rintro ⟨outcome, finished⟩
      cases acquiring.symm.trans finished
    · rintro ⟨outcome, finished⟩
      change (match lockResult reply with
        | .acquired => Phase.pruning true
        | .held => .settled (.ok 0)
        | .unavailable _ => .pruning false) = _ at finished
      split at finished <;> cases finished
  · cases stepped

theorem Recorded.moves_pruneSettled (recorded : cycle.Recorded) {outcome : Except Text Nat} {release : Called}
    (stepped : cycle.pruneSettled outcome release = some next) :
    cycle.Moves next (cycle.phase = .pruning true -> forall deleted, outcome = .ok deleted -> release = .promised) ∧
      ¬ next.Finished := by
  have kept := recorded.pruneSettled stepped
  unfold Cycle.pruneSettled at stepped
  split at stepped
  · rename_i pruning
    rw [Recorded, pruning] at recorded
    rcases recorded with ⟨called, _, uncalled⟩
    cases stepped
    refine ⟨⟨kept, ⟨fun unbroken => ⟨⟨unbroken.acquire, fun _ _ _ => ?_⟩, fun leased => ?_⟩,
      fun both => ⟨both.1.acquire, fun _ _ _ => ?_⟩⟩, ?_⟩, ?_⟩
    · exact not_threw (.inl uncalled)
    · cases pruning.symm.trans leased
    · exact not_threw (.inl uncalled)
    · rintro ⟨other, finished⟩
      cases pruning.symm.trans finished
    · rintro ⟨other, ⟨⟩⟩
  · rename_i pruning
    rw [Recorded, pruning] at recorded
    rcases recorded with ⟨called, _, uncalled⟩
    cases stepped
    refine ⟨⟨kept, ⟨fun unbroken => ⟨⟨unbroken.acquire, fun _ _ _ => ?_⟩, fun _ deleted isOk => ?_⟩,
      fun both => ⟨both.1.acquire, fun deleted message isOk threw => ?_⟩⟩, ?_⟩, ?_⟩
    · exact not_threw (.inl uncalled)
    · cases release with
      | promised => rfl
      | threw message => exact (unbroken.release deleted message (congrArg some isOk) rfl).elim
    · cases (both.2 pruning deleted (Option.some.inj isOk)).symm.trans (Option.some.inj threw)
    · rintro ⟨other, finished⟩
      cases pruning.symm.trans finished
    · rintro ⟨other, finished⟩
      cases release <;> cases finished
  · cases stepped

theorem Recorded.moves_releaseSettled (recorded : cycle.Recorded) (stepped : cycle.releaseSettled = some next) :
    cycle.Moves next True ∧ ¬ next.Finished := by
  have kept := recorded.releaseSettled stepped
  unfold Cycle.releaseSettled at stepped
  split at stepped
  · rename_i releasing
    cases stepped
    refine ⟨⟨kept, ⟨fun unbroken => ⟨⟨unbroken.acquire, unbroken.release⟩, trivial⟩,
      fun both => ⟨both.1.acquire, both.1.release⟩⟩, ?_⟩, ?_⟩
    · rintro ⟨outcome, finished⟩
      cases releasing.symm.trans finished
    · rintro ⟨outcome, ⟨⟩⟩
  · cases stepped

theorem Recorded.moves_finish (recorded : cycle.Recorded) (stepped : cycle.finish = some next) :
    cycle.Moves next True ∧ next.Finished := by
  have kept := recorded.finish stepped
  unfold Cycle.finish at stepped
  split at stepped
  · rename_i outcome settled
    cases stepped
    refine ⟨⟨kept, ⟨fun unbroken => ⟨⟨unbroken.acquire, unbroken.release⟩, trivial⟩,
      fun both => ⟨both.1.acquire, both.1.release⟩⟩, ?_⟩, outcome, rfl⟩
    rintro ⟨other, finished⟩
    cases settled.symm.trans finished
  · cases stepped

end Cycle

/-! ## All cycles -/

namespace Guard

variable {locked : Bool} {guard next : Guard}

theorem advance_eq_some {id : Nat} {change : Cycle -> Option Cycle} :
    guard.advance id change = some next <->
      Exists fun before => Exists fun after => guard.cycles[id]? = some before ∧ change before = some after ∧
        next = { guard with cycles := guard.cycles.set id after } := by
  rw [advance, Option.map_eq_some_iff]
  constructor
  · rintro ⟨after, changed, rfl⟩
    rcases Option.bind_eq_some_iff.mp changed with ⟨before, isBefore, isAfter⟩
    exact ⟨before, after, isBefore, isAfter, rfl⟩
  · rintro ⟨before, after, isBefore, isAfter, rfl⟩
    exact ⟨after, Option.bind_eq_some_iff.mpr ⟨before, isBefore, isAfter⟩, rfl⟩

/-- A cycle whose promise has not settled. -/
def Running (guard : Guard) (id : Nat) : Prop :=
  Exists fun cycle => guard.cycles[id]? = some cycle ∧ ¬ cycle.Finished

/-- The marker names the one running cycle. -/
structure Sound (guard : Guard) : Prop where
  recorded : forall cycle, cycle ∈ guard.cycles -> cycle.Recorded
  marked : forall id, guard.inFlight = some id <-> guard.Running id

/-- The lock returns where it is called and its throwing would matter. -/
def LockReturns (locked : Bool) (guard : Guard) : GuardEvent -> Prop
  | .called _ acquire => locked = true -> guard.inFlight = none -> acquire = .promised
  | .pruneSettled id outcome _ release => forall cycle, guard.cycles[id]? = some cycle ->
      cycle.phase = .pruning true -> forall deleted, outcome = .ok deleted -> release = .promised
  | _ => True

/-- What a step that moves one cycle leaves of the marker and of the others. -/
structure Changed (guard next : Guard) (id : Nat) (before after : Cycle) : Prop where
  isBefore : guard.cycles[id]? = some before
  cycles : next.cycles = guard.cycles.set id after
  marker : (next.inFlight = guard.inFlight ∧ ¬ after.Finished) ∨ (next.inFlight = none ∧ after.Finished)

/-- Everything that a step can do: nothing to the cycles, start one while none is in
flight, or move one. -/
theorem step_cases (sound : guard.Sound) {event : GuardEvent} (stepped : guard.step locked event = some next) :
    (next.inFlight = guard.inFlight ∧ next.cycles = guard.cycles ∧ guard.LockReturns locked event) ∨
    (Exists fun trigger => Exists fun acquire => guard.inFlight = none ∧
      next.inFlight = some guard.cycles.length ∧
      next.cycles = guard.cycles ++ [.runLockedCycle locked trigger acquire] ∧
      (guard.LockReturns locked event <-> (locked = true -> acquire = .promised))) ∨
    (Exists fun id => Exists fun before => Exists fun after => guard.Changed next id before after ∧
      before.Moves after (guard.LockReturns locked event)) := by
  have recorded : forall {id : Nat} {before : Cycle}, guard.cycles[id]? = some before -> before.Recorded :=
    fun isBefore => sound.recorded _ (List.mem_of_getElem? isBefore)
  cases event with
  | called trigger acquire =>
      cases Option.some.inj stepped
      cases isInFlight : guard.inFlight with
      | some running =>
          left
          cases trigger <;> rw [runGuardedCycle, isInFlight] <;>
            exact ⟨rfl, rfl, fun _ none => by cases isInFlight.symm.trans none⟩
      | none =>
          right; left
          refine ⟨trigger, acquire, rfl, ?_⟩
          rw [runGuardedCycle, isInFlight]
          exact ⟨rfl, rfl, fun returns isLocked => returns isLocked isInFlight,
            fun returns isLocked _ => returns isLocked⟩
  | acquireSettled id reply =>
      right; right
      rcases Option.map_eq_some_iff.mp stepped with ⟨middle, advanced, rfl⟩
      rcases advance_eq_some.mp advanced with ⟨before, after, isBefore, isAfter, rfl⟩
      have moved := (recorded isBefore).moves_acquireSettled isAfter
      refine ⟨id, before, after, ⟨isBefore, ?_, .inl ⟨?_, moved.2⟩⟩, moved.1⟩
      · unfold noteLock
        split <;> rfl
      · unfold noteLock
        split <;> rfl
  | pruneSettled id outcome ceilingHits release =>
      right; right
      rcases Option.map_eq_some_iff.mp stepped with ⟨middle, advanced, rfl⟩
      rcases advance_eq_some.mp advanced with ⟨before, after, isBefore, isAfter, rfl⟩
      have moved := (recorded isBefore).moves_pruneSettled isAfter
      have returns : guard.LockReturns locked (.pruneSettled id outcome ceilingHits release) <->
          (before.phase = .pruning true -> forall deleted, outcome = .ok deleted -> release = .promised) :=
        ⟨fun all => all before isBefore, fun own cycle isCycle => Option.some.inj (isBefore.symm.trans isCycle) ▸ own⟩
      exact ⟨id, before, after, ⟨isBefore, rfl, .inl ⟨rfl, moved.2⟩⟩,
        ⟨moved.1.recorded, moved.1.unbroken.trans (and_congr_right fun _ => returns.symm), moved.1.unfinished⟩⟩
  | releaseSettled id reply =>
      right; right
      rcases advance_eq_some.mp stepped with ⟨before, after, isBefore, isAfter, rfl⟩
      have moved := (recorded isBefore).moves_releaseSettled isAfter
      exact ⟨id, before, after, ⟨isBefore, rfl, .inl ⟨rfl, moved.2⟩⟩, moved.1⟩
  | finallyRuns id =>
      right; right
      rcases Option.map_eq_some_iff.mp stepped with ⟨middle, advanced, rfl⟩
      rcases advance_eq_some.mp advanced with ⟨before, after, isBefore, isAfter, rfl⟩
      have moved := (recorded isBefore).moves_finish isAfter
      exact ⟨id, before, after, ⟨isBefore, rfl, .inr ⟨rfl, moved.2⟩⟩, moved.1⟩

theorem running_set {id other : Nat} {before after : Cycle} (isBefore : guard.cycles[id]? = some before)
    (cycles : next.cycles = guard.cycles.set id after) :
    next.Running other <-> (other = id ∧ ¬ after.Finished) ∨ (other ≠ id ∧ guard.Running other) := by
  have inside : id < guard.cycles.length := (List.getElem?_eq_some_iff.mp isBefore).1
  unfold Running
  rw [cycles]
  by_cases same : other = id
  · subst same
    rw [List.getElem?_set_self inside]
    simp only [Option.some.injEq, exists_eq_left', true_and, ne_eq, not_true_eq_false, false_and, or_false]
  · rw [List.getElem?_set_ne (fun isId => same isId.symm)]
    simp only [same, false_and, ne_eq, not_false_eq_true, true_and, false_or]

theorem running_append {started : Cycle} (cycles : next.cycles = guard.cycles ++ [started])
    (unfinished : ¬ started.Finished) {id : Nat} :
    next.Running id <-> guard.Running id ∨ id = guard.cycles.length := by
  unfold Running
  rw [cycles]
  rcases Nat.lt_trichotomy id guard.cycles.length with inside | rfl | outside
  · rw [List.getElem?_append_left inside]
    simp only [inside.ne, or_false]
  · rw [List.getElem?_concat_length, List.getElem?_eq_none le_rfl]
    simp only [Option.some.injEq, exists_eq_left', unfinished, not_false_eq_true, or_true]
  · have none : (guard.cycles ++ [started])[id]? = none := by
      refine List.getElem?_eq_none ?_
      rw [List.length_append, List.length_singleton]
      exact outside
    rw [none, List.getElem?_eq_none outside.le]
    simp only [reduceCtorEq, false_and, exists_false, outside.ne', or_self]

theorem unfinished_runLockedCycle (locked : Bool) (trigger : PruneTrigger) (acquire : Called) :
    ¬ (Cycle.runLockedCycle locked trigger acquire).Finished := by
  rintro ⟨outcome, finished⟩
  cases locked with
  | false => cases finished
  | true => cases acquire <;> cases finished

theorem sound_initial : Sound initial where
  recorded _ member := (List.not_mem_nil member).elim
  marked id := by
    constructor
    · intro marked
      cases marked
    · rintro ⟨cycle, isCycle, _⟩
      cases isCycle

theorem sound_step {event : GuardEvent} (sound : guard.Sound) (stepped : guard.step locked event = some next) :
    next.Sound := by
  rcases step_cases sound stepped with ⟨marker, cycles, _⟩ | ⟨trigger, acquire, idle, marker, cycles, _⟩ |
      ⟨id, before, after, changed, moves⟩
  · refine ⟨fun cycle member => sound.recorded cycle (cycles ▸ member), fun id => ?_⟩
    unfold Running
    rw [marker, cycles]
    exact sound.marked id
  · constructor
    · intro cycle member
      rw [cycles] at member
      rcases List.mem_append.mp member with old | isNew
      · exact sound.recorded cycle old
      · exact List.mem_singleton.mp isNew ▸ Cycle.recorded_runLockedCycle locked trigger acquire
    · intro id
      rw [marker, running_append cycles (unfinished_runLockedCycle locked trigger acquire), ← sound.marked id, idle]
      simp only [Option.some.injEq, reduceCtorEq, false_or, eq_comm]
  · have running : guard.inFlight = some id :=
      (sound.marked id).mpr ⟨before, changed.isBefore, moves.unfinished⟩
    constructor
    · intro cycle member
      rw [changed.cycles] at member
      rcases List.mem_or_eq_of_mem_set member with old | rfl
      · exact sound.recorded cycle old
      · exact moves.recorded
    · intro other
      rw [running_set changed.isBefore changed.cycles, ← sound.marked other, running]
      rcases changed.marker with ⟨marker, unfinished⟩ | ⟨marker, finished⟩
      · rw [marker, running]
        simp only [Option.some.injEq, unfinished, not_false_eq_true, and_true, eq_comm (a := id)]
        tauto
      · rw [marker]
        simp only [reduceCtorEq, finished, not_true_eq_false, and_false, Option.some.injEq, false_or, ne_eq,
          false_iff, not_and]
        exact fun different same => (different same.symm).elim

/-- No lock has thrown in any cycle. -/
def Unbroken (guard : Guard) : Prop := forall cycle, cycle ∈ guard.cycles -> cycle.Unbroken

theorem unbroken_runLockedCycle (locked : Bool) (trigger : PruneTrigger) (acquire : Called) :
    (Cycle.runLockedCycle locked trigger acquire).Unbroken <-> (locked = true -> acquire = .promised) := by
  cases locked with
  | false => exact ⟨fun _ => nofun, fun _ => ⟨nofun, nofun⟩⟩
  | true =>
      cases acquire with
      | promised => exact ⟨fun _ _ => rfl, fun _ => ⟨nofun, nofun⟩⟩
      | threw message =>
          exact ⟨fun unbroken => (unbroken.acquire message rfl).elim, fun returns => by cases returns rfl⟩

theorem unbroken_step {event : GuardEvent} (sound : guard.Sound) (stepped : guard.step locked event = some next) :
    next.Unbroken <-> guard.Unbroken ∧ guard.LockReturns locked event := by
  rcases step_cases sound stepped with ⟨_, cycles, returns⟩ | ⟨trigger, acquire, _, _, cycles, returns⟩ |
      ⟨id, before, after, changed, moves⟩
  · rw [Unbroken, cycles]
    exact ⟨fun all => ⟨all, returns⟩, And.left⟩
  · rw [Unbroken, cycles, List.forall_mem_append, List.forall_mem_singleton, unbroken_runLockedCycle, returns]
    rfl
  · have isMember : before ∈ guard.cycles := List.mem_of_getElem? changed.isBefore
    have inside : id < guard.cycles.length := (List.getElem?_eq_some_iff.mp changed.isBefore).1
    rw [Unbroken, changed.cycles]
    constructor
    · intro all
      have own := moves.unbroken.mp (all after (List.mem_set inside after))
      refine ⟨fun cycle member => ?_, own.2⟩
      rcases List.getElem?_of_mem member with ⟨place, isCycle⟩
      by_cases same : place = id
      · subst same
        cases changed.isBefore.symm.trans isCycle
        exact own.1
      · refine all cycle (List.mem_of_getElem? (i := place) ?_)
        rw [List.getElem?_set_ne (fun isId => same isId.symm)]
        exact isCycle
    · rintro ⟨all, returns⟩ cycle member
      rcases List.mem_or_eq_of_mem_set member with old | rfl
      · exact all cycle old
      · exact moves.unbroken.mpr ⟨all before isMember, returns⟩

/-! ## Runs -/

/-- Retention goes on: no cycle was given up but for a lock held elsewhere, none that
pruned was rejected, and the marker names a running cycle, the only one there is. -/
structure Retains (guard : Guard) : Prop where
  kept : forall cycle, cycle ∈ guard.cycles -> cycle.Kept
  single : forall first second, guard.Running first -> guard.Running second -> first = second
  cleared : forall id, guard.inFlight = some id -> guard.Running id

theorem Sound.retains_iff_unbroken (sound : guard.Sound) : guard.Retains <-> guard.Unbroken := by
  constructor
  · intro retains cycle member
    exact (sound.recorded cycle member).kept_iff.mp (retains.kept cycle member)
  · intro unbroken
    refine ⟨fun cycle member => (sound.recorded cycle member).kept_iff.mpr (unbroken cycle member), ?_,
      fun id => (sound.marked id).mp⟩
    intro first second isFirst isSecond
    exact Option.some.inj (((sound.marked first).mpr isFirst).symm.trans ((sound.marked second).mpr isSecond))

theorem unbroken_initial : initial.Unbroken := fun _ member => (List.not_mem_nil member).elim

theorem unbroken_run {events : List GuardEvent}
    (ran : Transition.runFrom (step locked) initial events = some guard) :
    guard.Sound ∧ (guard.Unbroken <-> Transition.Along (step locked) (LockReturns locked) initial events) := by
  refine ⟨Transition.invariant_of_reachable (fun _ _ _ => sound_step) sound_initial ⟨events, ran⟩, ?_⟩
  have along : guard.Unbroken <-> initial.Unbroken ∧ _ := Transition.final_iff_along
    (fun _ _ _ => sound_step) (fun _ _ _ => unbroken_step) sound_initial ran
  exact along.trans (and_iff_right unbroken_initial)

/-- The lock's methods return promises, whatever becomes of these. -/
def Returns : GuardEvent -> Prop
  | .called _ acquire => acquire = .promised
  | .pruneSettled _ _ _ release => release = .promised
  | _ => True

theorem along_of_returns {events : List GuardEvent} (returns : forall event, event ∈ events -> Returns event) :
    Transition.Along (step locked) (LockReturns locked) initial events := by
  refine (Transition.along_of_forall returns initial).imp fun guard event promised => ?_
  cases event with
  | called trigger acquire => exact fun _ _ => promised
  | pruneSettled id outcome ceilingHits release => exact fun _ _ _ _ _ => promised
  | acquireSettled id reply => trivial
  | releaseSettled id reply => trivial
  | finallyRuns id => trivial

/-- The lock is rejected, the cycle prunes anyway, and a request joins it. -/
def failingOpen : List GuardEvent :=
  [.called .scheduled .promised, .acquireSettled 0 (.error []), .called .manual .promised,
    .pruneSettled 0 (.ok 3) 0 .promised, .finallyRuns 0]

end Guard

/-! ## The lock in the store -/

namespace StorageLease

/-- `StorageLeasePruneLock.acquire`, by what became of `tryAcquireLease`. -/
def acquire : Except Text Bool -> LockResult
  | .ok true => .acquired
  | .ok false => .held
  | .error message => .unavailable (some message)

/-- What can happen under this lock: its methods are asynchronous and catch what the
storage throws, so their promises are returned and never rejected. -/
def Allows : GuardEvent -> Prop
  | .called _ call => call = .promised
  | .acquireSettled _ reply => Exists fun granted => reply = .ok (acquire granted)
  | .pruneSettled _ _ _ release => release = .promised
  | .releaseSettled _ reply => reply = .ok ()
  | .finallyRuns _ => True

/-- Under the lock in the store retention always goes on. -/
theorem retains {locked : Bool} {events : List GuardEvent} {guard : Guard}
    (allowed : forall event, event ∈ events -> Allows event)
    (ran : Transition.runFrom (Guard.step locked) Guard.initial events = some guard) : guard.Retains := by
  have run := Guard.unbroken_run ran
  refine run.1.retains_iff_unbroken.mpr (run.2.mpr (Guard.along_of_returns fun event member => ?_))
  have holds := allowed event member
  cases event with
  | called trigger call => exact holds
  | pruneSettled id outcome ceilingHits release => exact holds
  | acquireSettled id reply => trivial
  | releaseSettled id reply => trivial
  | finallyRuns id => trivial

/-- The table of leases is missing, and the cycle prunes anyway. -/
def missingTable : List GuardEvent :=
  [.called .scheduled .promised, .acquireSettled 0 (.ok (acquire (.error []))), .pruneSettled 0 (.ok 3) 0 .promised]

theorem retains_missingTable :
    Exists fun guard => Transition.runFrom (Guard.step true) Guard.initial missingTable = some guard ∧ guard.Retains := by
  have allowed : forall event, event ∈ missingTable -> Allows event := by
    simp only [missingTable, List.forall_mem_cons, Allows, List.not_mem_nil, false_imp_iff, implies_true, and_true,
      true_and]
    exact ⟨_, rfl⟩
  exact ⟨_, rfl, retains allowed (rfl : Transition.runFrom (Guard.step true) Guard.initial missingTable = some _)⟩

end StorageLease

end Prune
end Telescope
