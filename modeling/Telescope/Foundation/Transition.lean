import Mathlib.Data.List.Basic

namespace Telescope
namespace Transition

universe u v

/-!
# Runs of a partial deterministic machine

A machine is given by its step function alone: `step state event` is the state
after `event`, or `none` where the event cannot happen in that state.  All
nondeterminism (who calls next, which call settles first, and how) is carried
by the list of events, so a statement about every list of events is a
statement about every interleaving.

The two induction rules below are the only inductions over runs that a user
needs.  The second one is for machines that keep an invariant only along runs
whose steps all satisfy a condition on the state and the event.
-/

variable {State : Type u} {Event : Type v}

/-- Execute a list of events from a state; `none` as soon as one is disabled. -/
def runFrom (step : State -> Event -> Option State) : State -> List Event -> Option State
  | state, [] => some state
  | state, event :: events => (step state event).bind (fun next => runFrom step next events)

@[simp] theorem runFrom_nil (step : State -> Event -> Option State) (state : State) :
    runFrom step state [] = some state := rfl

theorem runFrom_cons_eq_some {step : State -> Event -> Option State} {state final : State}
    {event : Event} {events : List Event} :
    runFrom step state (event :: events) = some final <->
      Exists fun next => step state event = some next ∧ runFrom step next events = some final := by
  simp only [runFrom, Option.bind_eq_some_iff]

theorem runFrom_append_eq_some {step : State -> Event -> Option State} {state final : State}
    {events more : List Event} :
    runFrom step state (events ++ more) = some final <->
      Exists fun middle => runFrom step state events = some middle ∧
        runFrom step middle more = some final := by
  induction events generalizing state with
  | nil =>
      constructor
      · exact fun ran => ⟨state, rfl, ran⟩
      · rintro ⟨middle, ⟨⟩, ran⟩
        exact ran
  | cons event events inductionHypothesis =>
      rw [List.cons_append, runFrom_cons_eq_some]
      constructor
      · rintro ⟨next, stepped, rest⟩
        rcases inductionHypothesis.mp rest with ⟨middle, before, after⟩
        exact ⟨middle, runFrom_cons_eq_some.mpr ⟨next, stepped, before⟩, after⟩
      · rintro ⟨middle, before, after⟩
        rcases runFrom_cons_eq_some.mp before with ⟨next, stepped, rest⟩
        exact ⟨next, stepped, inductionHypothesis.mpr ⟨middle, rest, after⟩⟩

/-- Every step of the execution from `state` meets the condition. -/
def Along (step : State -> Event -> Option State) (condition : State -> Event -> Prop) :
    State -> List Event -> Prop
  | _, [] => True
  | state, event :: events =>
      condition state event ∧
        forall next, step state event = some next -> Along step condition next events

theorem along_cons {step : State -> Event -> Option State} {condition : State -> Event -> Prop}
    {state next : State} {event : Event} {events : List Event}
    (stepped : step state event = some next) (holds : condition state event)
    (rest : Along step condition next events) : Along step condition state (event :: events) := by
  refine ⟨holds, fun other isOther => ?_⟩
  cases stepped.symm.trans isOther
  exact rest

/-- A condition on the events alone holds along every execution of them. -/
theorem along_of_forall {step : State -> Event -> Option State} {condition : Event -> Prop}
    {events : List Event} (holds : forall event, event ∈ events -> condition event) (state : State) :
    Along step (fun _ event => condition event) state events := by
  induction events generalizing state with
  | nil => trivial
  | cons event events inductionHypothesis =>
      rw [List.forall_mem_cons] at holds
      exact ⟨holds.1, fun next _stepped => inductionHypothesis holds.2 next⟩

theorem Along.imp {step : State -> Event -> Option State} {condition other : State -> Event -> Prop}
    (implies : forall state event, condition state event -> other state event) {state : State}
    {events : List Event} (along : Along step condition state events) : Along step other state events := by
  induction events generalizing state with
  | nil => trivial
  | cons event events inductionHypothesis =>
      exact ⟨implies state event along.1, fun next stepped => inductionHypothesis (along.2 next stepped)⟩

/-- A state reached by some run from the given initial state. -/
def Reachable (step : State -> Event -> Option State) (initial state : State) : Prop :=
  Exists fun events => runFrom step initial events = some state

/-- An invariant kept by the steps that meet a condition holds at the end of
every run all of whose steps meet it. -/
theorem invariant_along {step : State -> Event -> Option State}
    {condition : State -> Event -> Prop} {invariant : State -> Prop}
    (preserved : forall state event next, invariant state -> condition state event ->
      step state event = some next -> invariant next)
    {state final : State} {events : List Event} (holds : invariant state)
    (along : Along step condition state events)
    (ran : runFrom step state events = some final) : invariant final := by
  induction events generalizing state with
  | nil =>
      rw [runFrom_nil] at ran
      exact Option.some.inj ran ▸ holds
  | cons event events inductionHypothesis =>
      rcases runFrom_cons_eq_some.mp ran with ⟨next, stepped, rest⟩
      exact inductionHypothesis (preserved state event next holds along.1 stepped)
        (along.2 next stepped) rest

/-- Under an invariant, a property that a step keeps exactly when it meets a condition
holds at the end of a run exactly when it held at the beginning and every step met it. -/
theorem final_iff_along {step : State -> Event -> Option State} {condition : State -> Event -> Prop}
    {invariant property : State -> Prop}
    (preserved : forall state event next, invariant state -> step state event = some next -> invariant next)
    (stepped : forall state event next, invariant state -> step state event = some next ->
      (property next <-> property state ∧ condition state event))
    {state final : State} {events : List Event} (holds : invariant state)
    (ran : runFrom step state events = some final) :
    property final <-> property state ∧ Along step condition state events := by
  induction events generalizing state with
  | nil =>
      rw [runFrom_nil] at ran
      cases ran
      exact ⟨fun kept => ⟨kept, trivial⟩, And.left⟩
  | cons event events inductionHypothesis =>
      rcases runFrom_cons_eq_some.mp ran with ⟨next, isNext, rest⟩
      rw [inductionHypothesis (preserved state event next holds isNext) rest,
        stepped state event next holds isNext, and_assoc]
      refine and_congr_right fun _ => ⟨fun both => along_cons isNext both.1 both.2, fun along => ?_⟩
      exact ⟨along.1, along.2 next isNext⟩

/-- Where the condition also enables the step, the run goes through to its end. -/
theorem exists_final_along {step : State -> Event -> Option State}
    {condition : State -> Event -> Prop} {invariant : State -> Prop}
    (progress : forall state event, invariant state -> condition state event ->
      Exists fun next => step state event = some next ∧ invariant next)
    {state : State} {events : List Event} (holds : invariant state)
    (along : Along step condition state events) :
    Exists fun final => runFrom step state events = some final ∧ invariant final := by
  induction events generalizing state with
  | nil => exact ⟨state, rfl, holds⟩
  | cons event events inductionHypothesis =>
      rcases progress state event holds along.1 with ⟨next, stepped, kept⟩
      rcases inductionHypothesis kept (along.2 next stepped) with ⟨final, ran, reached⟩
      exact ⟨final, runFrom_cons_eq_some.mpr ⟨next, stepped, ran⟩, reached⟩

/-- An invariant kept by every step holds in every reachable state. -/
theorem invariant_of_reachable {step : State -> Event -> Option State}
    {invariant : State -> Prop}
    (preserved : forall state event next, invariant state ->
      step state event = some next -> invariant next)
    {initial final : State} (holds : invariant initial)
    (reachable : Reachable step initial final) : invariant final := by
  rcases reachable with ⟨events, ran⟩
  have unconditional : Along step (fun _ _ => True) initial events := by
    clear ran holds
    induction events generalizing initial with
    | nil => trivial
    | cons event events inductionHypothesis =>
        exact ⟨trivial, fun next _stepped => inductionHypothesis⟩
  exact invariant_along (fun state event next kept _ => preserved state event next kept)
    holds unconditional ran

end Transition
end Telescope
