import Telescope.ClickHouse.FamilyClaim
import Mathlib.Algebra.Order.Ring.Int

namespace Telescope
namespace ClickHouse

universe u

/-!
# One report in a window

The claims that were ever written are a window apart, the row is never older than
any of them and carries the last of their tokens.  A call returns `true` only with
its claim written, and the call of the last claim finds its token when it reads
back.
-/

variable {τ : Type u} [DecidableEq τ] {windowMs : Int}

structure Invariant (windowMs : Int) (system : System τ) : Prop where
  snapshots : Snapshots system
  apart : system.claimed.Pairwise fun earlier later => earlier.2 + windowMs ≤ later.2
  current : system.keeper.row.map SeenRow.claim = system.claimed.getLast?.map Prod.fst
  covered : forall row, system.keeper.row = some row ->
    forall claimed, claimed ∈ system.claimed -> claimed.2 ≤ row.last_seen
  honest : forall claimed, claimed ∈ system.claimed ->
    Exists fun call => system.calls claimed.1 = some call ∧ call.nowMs = claimed.2
  winners : forall claim call, system.calls claim = some call -> call.stage = .returned true ->
    (claim, call.nowMs) ∈ system.claimed
  pending : forall last, system.claimed.getLast? = some last ->
    Exists fun call => system.calls last.1 = some call ∧
      (call.stage = .readingBack ∨ call.stage = .returned true ∨ call.stage = .thrown)

omit [DecidableEq τ] in
theorem initial_invariant : Invariant windowMs (System.initial : System τ) where
  snapshots := fun _ _ _ _ _ running => by cases running
  apart := List.Pairwise.nil
  current := rfl
  covered := fun _ _ _ member => by cases member
  honest := fun _ member => by cases member
  winners := fun _ _ running => by cases running
  pending := fun _ isLast => by cases isLast

variable {system : System τ} {claim : τ} {call : Call τ}

/-- The calls behind a step of one of them. -/
theorem set_calls {other : τ} {found : Call τ} (running : (system.set claim call).calls other = some found) :
    (other = claim ∧ found = call) ∨ (other ≠ claim ∧ system.calls other = some found) := by
  by_cases same : other = claim
  · subst same
    simp only [System.set, Function.update_self] at running
    exact .inl ⟨rfl, (Option.some.inj running).symm⟩
  · simp only [System.set, Function.update_of_ne same] at running
    exact .inr ⟨same, running⟩

theorem set_running {other : τ} {found : Call τ} (different : other ≠ claim)
    (running : system.calls other = some found) :
    (system.set claim call).calls other = some found := by
  simp only [System.set, Function.update_of_ne different]
  exact running

theorem set_self (system : System τ) (claim : τ) (call : Call τ) :
    (system.set claim call).calls claim = some call :=
  Function.update_self ..

/-- The claims keep their calls through a step of a running call. -/
theorem honest_set (kept : Invariant windowMs system) (running : system.calls claim = some call) {attempt : Nat}
    {stage : Stage τ} {claimed : τ × Int} (member : claimed ∈ system.claimed) :
    Exists fun found =>
      (system.set claim { call with attempt := attempt, stage := stage }).calls claimed.1 = some found ∧
        found.nowMs = claimed.2 := by
  rcases kept.honest claimed member with ⟨found, isFound, instant⟩
  by_cases same : claimed.1 = claim
  · rw [same] at isFound ⊢
    cases running.symm.trans isFound
    exact ⟨_, set_self .., instant⟩
  · exact ⟨found, set_running same isFound, instant⟩

/-- Writing the row leaves no snapshot that passes its version check. -/
theorem snapshots_write (kept : Invariant windowMs system) (row : SeenRow τ) (claimed : List (τ × Int))
    (notAltering : forall last found version, call.stage ≠ .altering last found version) :
    Snapshots { system.set claim call with keeper := system.keeper.write row, claimed := claimed } := by
  intro other found last read version running altering
  rcases set_calls running with ⟨_, rfl⟩ | ⟨_, before⟩
  · exact (notAltering last read version altering).elim
  · have older := (kept.snapshots other found last read version before altering).1
    refine ⟨Nat.le_succ_of_le older, fun same => ?_⟩
    rw [same] at older
    exact (Nat.not_succ_le_self _ older).elim

theorem starts_invariant (kept : Invariant windowMs system) (nowMs : Int) (fresh : system.calls claim = none) :
    Invariant windowMs (system.set claim ⟨nowMs, 0, .reading⟩) := by
  have different : forall {other : τ} {call : Call τ}, system.calls other = some call -> other ≠ claim := by
    rintro other call running rfl
    rw [fresh] at running
    cases running
  refine ⟨?_, kept.apart, kept.current, kept.covered, ?_, ?_, ?_⟩
  · intro other call last found version running altering
    rcases set_calls running with ⟨_, rfl⟩ | ⟨_, before⟩
    · cases altering
    · exact kept.snapshots other call last found version before altering
  · intro claimed member
    rcases kept.honest claimed member with ⟨call, running, instant⟩
    exact ⟨call, set_running (different running) running, instant⟩
  · intro other call running won
    rcases set_calls running with ⟨_, rfl⟩ | ⟨_, before⟩
    · cases won
    · exact kept.winners other call before won
  · intro last isLast
    rcases kept.pending last isLast with ⟨call, running, stage⟩
    exact ⟨call, set_running (different running) running, stage⟩

omit [DecidableEq τ] in
/-- The token in the row is that of a claim whose call is known. -/
theorem claimed_of_row (kept : Invariant windowMs system) (running : system.calls claim = some call)
    (won : system.keeper.row.map SeenRow.claim = some claim) :
    (claim, call.nowMs) ∈ system.claimed := by
  rw [kept.current, Option.map_eq_some_iff] at won
  rcases won with ⟨last, isLast, rfl⟩
  have member := List.mem_of_getLast? isLast
  rcases kept.honest last member with ⟨found, isFound, instant⟩
  cases running.symm.trans isFound
  rw [instant]
  exact member

theorem stepped_invariant (positive : 0 < windowMs) {next : System τ} (kept : Invariant windowMs system)
    (stepped : Stepped windowMs system next) :
    Invariant windowMs next := by
  cases stepped with
  | starts claim nowMs fresh => exact starts_invariant kept nowMs fresh
  | moves claim call attempt stage running unsettled alive snapshot won readBack =>
      refine ⟨?_, kept.apart, kept.current, kept.covered, fun _ => honest_set kept running, ?_, ?_⟩
      · intro other found last read version isRunning altering
        rcases set_calls isRunning with ⟨_, rfl⟩ | ⟨_, before⟩
        · rcases snapshot last read version altering with ⟨same, sameVersion⟩
          exact ⟨Nat.le_of_eq sameVersion, fun _ => same⟩
        · exact kept.snapshots other found last read version before altering
      · intro other found isRunning isTrue
        rcases set_calls isRunning with ⟨rfl, rfl⟩ | ⟨_, before⟩
        · have claimed := claimed_of_row kept running (won isTrue)
          exact claimed
        · exact kept.winners other found before isTrue
      · intro last isLast
        rcases kept.pending last isLast with ⟨found, isRunning, waiting⟩
        by_cases same : last.1 = claim
        · rw [same] at isRunning ⊢
          cases running.symm.trans isRunning
          refine ⟨_, set_self .., .inr ?_⟩
          rcases waiting with reading | returned | thrown
          · have isCurrent : system.keeper.row.map SeenRow.claim = some claim :=
              kept.current.trans ((congrArg (Option.map Prod.fst) isLast).trans (congrArg some same))
            rcases readBack reading with returned | thrown
            · exact .inl (returned.trans (congrArg Stage.returned (decide_eq_true isCurrent)))
            · exact .inr thrown
          · exact (unsettled true returned).elim
          · exact (alive thrown).elim
        · exact ⟨found, set_running same isRunning, waiting⟩
  | claims claim call stage running writing overdue claiming =>
      have earlier : forall claimed, claimed ∈ system.claimed -> claimed.2 + windowMs ≤ call.nowMs := by
        intro claimed member
        cases isRow : system.keeper.row with
        | none =>
            have nothing := kept.current
            rw [isRow, Option.map_none, eq_comm, Option.map_eq_none_iff,
              List.getLast?_eq_none_iff] at nothing
            rw [nothing] at member
            cases member
        | some row =>
            have older := kept.covered row isRow claimed member
            have late := overdue row isRow
            omega
      refine ⟨snapshots_write kept _ _ ?_, ?_, ?_, ?_, ?_, ?_, ?_⟩
      · intro last found version altering
        dsimp only at altering
        rw [altering] at claiming
        rcases claiming with reading | returned | thrown
        · cases reading
        · cases returned
        · cases thrown
      · refine List.pairwise_append.mpr ⟨kept.apart, List.pairwise_singleton _ _, ?_⟩
        intro before member after isNew
        cases List.mem_singleton.mp isNew
        exact earlier before member
      · rw [List.getLast?_concat]
        rfl
      · rintro row ⟨⟩ claimed member
        rcases List.mem_append.mp member with before | isNew
        · have late := earlier claimed before
          dsimp only
          omega
        · cases List.mem_singleton.mp isNew
          exact Int.le_refl _
      · intro claimed member
        rcases List.mem_append.mp member with before | isNew
        · exact honest_set kept running before
        · cases List.mem_singleton.mp isNew
          exact ⟨_, set_self .., rfl⟩
      · intro other found isRunning isTrue
        rcases set_calls isRunning with ⟨rfl, rfl⟩ | ⟨_, before⟩
        · exact List.mem_append_right _ (List.mem_singleton_self _)
        · exact List.mem_append_left _ (kept.winners other found before isTrue)
      · intro last isLast
        rw [List.getLast?_concat] at isLast
        cases isLast
        exact ⟨_, set_self .., claiming⟩
  | touches claim call row stage running writing current touching =>
      refine ⟨snapshots_write kept _ _ ?_, kept.apart, ?_, ?_, fun _ => honest_set kept running, ?_, ?_⟩
      · intro last found version altering
        dsimp only at altering
        rw [altering] at touching
        rcases touching with returned | thrown
        · cases returned
        · cases thrown
      · exact (congrArg (Option.map SeenRow.claim) current).symm.trans kept.current
      · rintro _ ⟨⟩ claimed member
        exact le_trans (kept.covered row current claimed member) (le_max_left _ _)
      · intro other found isRunning isTrue
        rcases set_calls isRunning with ⟨rfl, rfl⟩ | ⟨_, before⟩
        · rcases touching with returned | thrown
          · cases returned.symm.trans isTrue
          · cases thrown.symm.trans isTrue
        · exact kept.winners other found before isTrue
      · intro last isLast
        rcases kept.pending last isLast with ⟨found, isRunning, waiting⟩
        by_cases same : last.1 = claim
        · rw [same] at isRunning
          cases running.symm.trans isRunning
          rcases writing with ⟨_, _, _, altering⟩
          rw [altering] at waiting
          rcases waiting with reading | returned | thrown
          · cases reading
          · cases returned
          · cases thrown
        · exact ⟨found, set_running same isRunning, waiting⟩

/-- No step takes the row back. -/
theorem stepped_lastSeen (positive : 0 < windowMs) {next : System τ} (stepped : Stepped windowMs system next)
    {row : SeenRow τ} (isRow : system.keeper.row = some row) :
    Exists fun later => next.keeper.row = some later ∧ row.last_seen ≤ later.last_seen := by
  cases stepped with
  | starts claim nowMs fresh => exact ⟨row, isRow, Int.le_refl _⟩
  | moves claim call attempt stage running unsettled alive snapshot won readBack =>
      exact ⟨row, isRow, Int.le_refl _⟩
  | claims claim call stage running writing overdue claiming =>
      have late := overdue row isRow
      exact ⟨_, rfl, by dsimp only; omega⟩
  | touches claim call found stage running writing current touching =>
      cases isRow.symm.trans current
      exact ⟨_, rfl, le_max_left _ _⟩

theorem step_invariant (positive : 0 < windowMs) (system : System τ) (event : Event τ)
    (next : System τ) (kept : Invariant windowMs system) (stepped : step windowMs system event = some next) :
    Invariant windowMs next :=
  stepped_invariant positive kept (stepped_of_step kept.snapshots stepped)

/-- Along every interleaving of any number of calls the row never goes back, any
two calls that report the family are a window apart, and once all calls have
returned some call has reported it if any claim was written. -/
theorem markSeen_reportsOnce (positive : 0 < windowMs) {events : List (Event τ)} {system : System τ}
    (ran : Transition.runFrom (step windowMs) System.initial events = some system) :
    (forall (further : List (Event τ)) (final : System τ) (row : SeenRow τ),
      system.keeper.row = some row -> Transition.runFrom (step windowMs) system further = some final ->
      Exists fun later => final.keeper.row = some later ∧ row.last_seen ≤ later.last_seen) ∧
    (forall (first second : τ) (one other : Call τ), first ≠ second ->
      system.calls first = some one -> one.stage = .returned true ->
      system.calls second = some other -> other.stage = .returned true ->
      one.nowMs + windowMs ≤ other.nowMs ∨ other.nowMs + windowMs ≤ one.nowMs) ∧
    ((forall claim call, system.calls claim = some call ->
        Exists fun answer => call.stage = .returned answer) ->
      system.claimed ≠ [] ->
      Exists fun claim => Exists fun call =>
        system.calls claim = some call ∧ call.stage = .returned true) := by
  have kept : Invariant windowMs system :=
    Transition.invariant_of_reachable (step_invariant positive) initial_invariant ⟨events, ran⟩
  refine ⟨?_, ?_, ?_⟩
  · intro further final row isRow further_ran
    have preserved : forall (state : System τ) (event : Event τ) (next : System τ),
        (Invariant windowMs state ∧ Exists fun later =>
          state.keeper.row = some later ∧ row.last_seen ≤ later.last_seen) ->
        step windowMs state event = some next ->
        Invariant windowMs next ∧ Exists fun later =>
          next.keeper.row = some later ∧ row.last_seen ≤ later.last_seen := by
      rintro state event next ⟨keptState, later, isLater, notBack⟩ stepped
      have effect := stepped_of_step keptState.snapshots stepped
      rcases stepped_lastSeen positive effect isLater with ⟨latest, isLatest, stillNotBack⟩
      exact ⟨stepped_invariant positive keptState effect, latest, isLatest,
        le_trans notBack stillNotBack⟩
    exact (Transition.invariant_of_reachable preserved ⟨kept, row, isRow, Int.le_refl _⟩
      ⟨further, further_ran⟩).2
  · intro first second one other different isOne oneTrue isOther otherTrue
    have firstClaimed := kept.winners first one isOne oneTrue
    have secondClaimed := kept.winners second other isOther otherTrue
    have : Std.Symm fun earlier later : τ × Int =>
        earlier.2 + windowMs ≤ later.2 ∨ later.2 + windowMs ≤ earlier.2 := ⟨fun _ _ => Or.symm⟩
    have either := (kept.apart.imp fun {earlier later} before =>
      (Or.inl before : earlier.2 + windowMs ≤ later.2 ∨ later.2 + windowMs ≤ earlier.2)).forall
        firstClaimed secondClaimed
    exact either fun same => different (congrArg Prod.fst same)
  · intro allReturned wrote
    have isLast := List.getLast?_eq_some_getLast wrote
    rcases kept.pending _ isLast with ⟨call, running, waiting⟩
    rcases allReturned _ call running with ⟨answer, returned⟩
    refine ⟨_, call, running, ?_⟩
    rcases waiting with reading | isTrue | thrown
    · cases reading.symm.trans returned
    · exact isTrue
    · cases thrown.symm.trans returned

/-- One pod inserts the family, a second one loses the race for the expired row,
and a third one, which won it, reads its token back. -/
def racingPods : List (Event Nat) :=
  [.call 0 100, .proceed 0 true, .proceed 0 true, .call 1 200, .call 2 210, .proceed 1 true,
    .proceed 2 true, .proceed 1 true, .proceed 2 true, .proceed 2 true, .proceed 1 true,
    .proceed 2 true, .proceed 1 true, .proceed 1 true, .proceed 1 true]

theorem markSeen_reportsOnce_racingPods :
    Exists fun system => Exists fun one => Exists fun other =>
      Transition.runFrom (step 60) System.initial racingPods = some system ∧
        system.calls 0 = some one ∧ system.calls 2 = some other ∧
        one.stage = .returned true ∧ other.stage = .returned true ∧
        (one.nowMs + 60 ≤ other.nowMs ∨ other.nowMs + 60 ≤ one.nowMs) :=
  ⟨_, _, _, rfl, rfl, rfl, rfl, rfl,
    (markSeen_reportsOnce (by decide) (show Transition.runFrom (step 60) System.initial racingPods =
      some _ from rfl)).2.1 0 2 _ _ (by decide) rfl rfl rfl rfl⟩

end ClickHouse
end Telescope
