import Telescope.Alerts.FlushQueue
import Telescope.Recorder.Hook

namespace Telescope
namespace Nest

open Recorder (Seams)

universe u

/-!
# The service around recorder and alerter

The service flushes the recorder on a timer and hands every stored chunk to the alerter.
When the application shuts down, it stops the timer, waits until the alerter is idle,
lets go of it, flushes the recorder once more and closes the store.
-/

/-- Where `onApplicationShutdown` stands: it awaits the alerter's queue up to a number of
jobs, a call of `flush()`, or `close()`. -/
inductive Stage
  | running
  | idling (jobs : Nat)
  | flushing (call : Nat)
  | closing
  | resolved
  | rejected
  deriving DecidableEq

/-- The service.  The alerter's queue goes on when the service has let go of it. -/
structure Service (options : Recorder.Options) where
  recorder : Recorder.System (Entry Value) options.bufferSize
  alerter : Alerts.System
  attached : Bool
  stage : Stage

/-- What a run interleaves.  The alerter reads the clock when a chunk is handed over. -/
inductive Event (Input : Type u)
  | recorder (event : Recorder.Event Input (Entry Value)) (now : Int)
  | alerterReplied (answers : (request : Alerts.Request) -> Alerts.Reply request)
  | alerterProceeds
  | onApplicationShutdown
  | idleSettled (now : Int)
  | flushSettled
  | closeSettled (fulfilled : Bool)

namespace Service

variable {Input : Type u} {options : Recorder.Options}

def initial (options : Recorder.Options) : Service options :=
  ⟨Recorder.initial options, .initial, true, .running⟩

variable (deps : Alerts.TelescopeAlerterDeps)

/-- `onFlushStored`: the alerter's part of it. -/
def onFlushStored (service : Service options) (entries : List (Entry Value)) (now : Int) : Alerts.System :=
  if service.attached then service.alerter.evaluateFlush deps entries now else service.alerter

/-- The timer calls `flush()`, until the shutdown clears it. -/
def callsFlush : Recorder.Event Input (Entry Value) -> Bool
  | .flush _now => true
  | _ => false

def stepRecorder (service : Service options) (event : Recorder.Event Input (Entry Value)) (now : Int) :
    Option (Service options) :=
  if callsFlush event = true ∧ service.stage ≠ .running then none
  else
    (Recorder.step options service.recorder event).map fun recorder =>
      { service with
        recorder := recorder
        alerter := service.onFlushStored deps (service.recorder.handed event) now }

/-- The promise of `idle()` was that of the last job queued by then. -/
def idlePromise (service : Service options) (jobs : Nat) : Option (Option Alerts.Thrown) :=
  if jobs = 0 then some none
  else (service.alerter.queue.chain.settled[jobs - 1]?).map Prod.snd

def step (service : Service options) : Event Input -> Option (Service options)
  | .recorder event now => service.stepRecorder deps event now
  | .alerterReplied answers =>
      (service.alerter.step deps (.reply answers)).map fun alerter => { service with alerter := alerter }
  | .alerterProceeds =>
      (service.alerter.step deps .proceed).map fun alerter => { service with alerter := alerter }
  | .onApplicationShutdown =>
      match service.stage with
      | .running => some { service with stage := .idling service.alerter.queue.chain.jobs.length }
      | _ => none
  | .idleSettled now =>
      match service.stage with
      | .idling jobs =>
          match service.idlePromise jobs with
          | none => none
          | some (some _thrown) => some { service with stage := .rejected }
          | some none =>
              some
                { service with
                  attached := false
                  recorder :=
                    { recorder := service.recorder.recorder.flush options.flushBatchSize now
                      history := service.recorder.history.flush service.recorder }
                  stage := .flushing service.recorder.history.calls.length }
      | _ => none
  | .flushSettled =>
      match service.stage with
      | .flushing call =>
          if (service.recorder.history.calls[call]?).any fun call => call.resolution.isSome then
            some { service with stage := .closing }
          else none
      | _ => none
  | .closeSettled fulfilled =>
      match service.stage with
      | .closing => some { service with stage := if fulfilled then .resolved else .rejected }
      | _ => none

end Service
end Nest
end Telescope

namespace Telescope
namespace Nest

universe u

/-!
# Every stored exception is evaluated

An exception that is stored before the shutdown begins reaches the alerter, and the
shutdown waits for its evaluation.  One that reaches the flush hook later comes to an
alerter that nobody waits for any more, or to none.
-/

/-- Server exceptions and those of browsers. -/
def isException (entry : Entry Value) : Bool :=
  decide (entry.type = "exception".toList ∨ entry.type = "client_exception".toList)

/-- The exceptions with which the alerter was called. -/
def calledExceptions (alerter : Alerts.System) : List (Entry Value) :=
  alerter.called.flatMap fun call => call.job.exceptions

namespace Service

variable {Input : Type u} {options : Recorder.Options}

/-- Every stored exception was handed to the alerter once, or its chunk still waits for its
rollups; what the alerter did not skip is evaluated in order; and when the shutdown has
resolved, nothing waits and every evaluation has run. -/
structure Complete (service : Service options) : Prop where
  handed : service.recorder.history.stored.filter isException =
    calledExceptions service.alerter ++ service.recorder.beforeHook.filter isException
  evaluated : service.alerter.queue.chain.started ++ service.alerter.queue.chain.waiting =
    service.alerter.queued
  awaited : service.stage = .resolved ->
    service.recorder.beforeHook = [] ∧ service.alerter.queue.chain.unsettled = []

/-- The handlers can read the reply; and exceptions reach the hook before the shutdown
begins, with their family. -/
def InTime (service : Service options) : Event Input -> Prop
  | .recorder event _now =>
      forall entry, entry ∈ service.recorder.handed event -> isException entry = true ->
        service.stage = .running ∧ entry.familyHash.isSome = true
  | .alerterReplied answers => service.alerter.queue.chain.Answers Alerts.Harmless answers
  | _ => True

/-! ## The stages -/

/-- The call of `flush()` has resolved only if no flush is in flight. -/
def Awaited (recorder : Recorder.System (Entry Value) options.bufferSize) (call : Nat) : Prop :=
  forall flushCall, recorder.history.calls[call]? = some flushCall -> flushCall.resolution ≠ none ->
    recorder.recorder.flushing = none

/-- What is known at each stage of the shutdown. -/
def AtStage (service : Service options) : Stage -> Prop
  | .running => service.attached = true
  | .idling jobs => service.alerter.queue.chain.jobs.length = jobs
  | .flushing call => service.alerter.queue.chain.unsettled = [] ∧ Awaited service.recorder call
  | .closing | .resolved =>
      service.alerter.queue.chain.unsettled = [] ∧ service.recorder.recorder.flushing = none
  | .rejected => True

structure Invariant (service : Service options) : Prop where
  alive : service.alerter.queue.chain.Alive Alerts.Harmless
  counted : service.alerter.Counted
  handed : Exists fun handedOver =>
    service.recorder.history.stored = handedOver ++ service.recorder.beforeHook ∧
      handedOver.filter isException = calledExceptions service.alerter
  atStage : service.AtStage service.stage

theorem initial_invariant : (initial options).Invariant :=
  ⟨⟨rfl, fun _ member => (by cases member), rfl, fun _ _ running => (by cases running)⟩,
    Alerts.System.counted_initial, ⟨[], rfl, rfl⟩, rfl⟩

/-! ## Handing over -/

section Handing

variable {deps : Alerts.TelescopeAlerterDeps} {alerter : Alerts.System} {entries : List (Entry Value)}

/-- A flush without exceptions leaves the alerter alone. -/
theorem evaluateFlush_nothing (none : entries.filter Alerts.System.isFlushException = []) (now : Int) :
    alerter.evaluateFlush deps entries now = alerter := by
  unfold Alerts.System.evaluateFlush
  dsimp only
  rw [if_pos none]
  split <;> rfl

/-- The alerter is called with all exceptions of a flush that feed its rules. -/
theorem calledExceptions_evaluateFlush
    (configured : ¬ (deps.newExceptionWindow = none ∧ deps.everyException = none)) (now : Int) :
    calledExceptions (alerter.evaluateFlush deps entries now) =
      calledExceptions alerter ++ entries.filter Alerts.System.isFlushException := by
  unfold Alerts.System.evaluateFlush
  rw [if_neg configured]
  dsimp only
  split
  · rename_i none
    rw [none, List.append_nil]
  · split
    · exact (List.flatMap_append ..).trans (congrArg _ (List.append_nil _))
    · exact (List.flatMap_append ..).trans (congrArg _ (List.append_nil _))

theorem alive_evaluateFlush (alive : alerter.queue.chain.Alive Alerts.Harmless) (now : Int) :
    (alerter.evaluateFlush deps entries now).queue.chain.Alive Alerts.Harmless := by
  have stepped : alerter.step deps (.evaluateFlush entries now) =
      some (alerter.evaluateFlush deps entries now) := rfl
  have harmless : alerter.HarmlessStep (.evaluateFlush entries now) := trivial
  exact Alerts.System.alive_step alive harmless stepped

/-- With their families, exceptions are those that feed the rules. -/
theorem filter_isFlushException
    (families : forall entry, entry ∈ entries -> isException entry = true ->
      entry.familyHash.isSome = true) :
    entries.filter Alerts.System.isFlushException = entries.filter isException := by
  refine List.filter_congr fun entry member => ?_
  cases exception : isException entry with
  | false => exact (congrArg (· && entry.familyHash.isSome) exception).trans (Bool.false_and _)
  | true =>
      refine (congrArg (· && entry.familyHash.isSome) exception).trans ?_
      rw [families entry member exception]
      rfl

end Handing

/-! ## One step -/

variable {event : Recorder.Event Input (Entry Value)}

section Steps

variable {deps : Alerts.TelescopeAlerterDeps} {service next : Service options}

theorem awaited_flush (recorder : Recorder.System (Entry Value) options.bufferSize) (now : Int) :
    Awaited
      { recorder := recorder.recorder.flush options.flushBatchSize now
        history := recorder.history.flush recorder } recorder.history.calls.length := by
  intro flushCall isCall resolved
  unfold Recorder.History.flush at isCall
  dsimp only at isCall
  cases inFlight : recorder.recorder.flushing with
  | some flight =>
      rw [inFlight] at isCall
      simp only [List.getElem?_concat_length, Option.some.injEq] at isCall
      subst isCall
      exact (resolved rfl).elim
  | none =>
      rw [inFlight] at isCall
      by_cases vacant : recorder.recorder.ring.count = 0
      · simp only [Recorder.flush, inFlight, if_pos vacant]
      · simp only [if_neg vacant, List.getElem?_concat_length, Option.some.injEq] at isCall
        subst isCall
        exact (resolved rfl).elim

/-- Without further calls of `flush()`, an awaited call stays awaited, and no flush is in
flight once none is. -/
theorem awaited_step {recorder next : Recorder.System (Entry Value) options.bufferSize}
    (quiet : callsFlush event = false) (stepped : Recorder.step options recorder event = some next) :
    (forall call, Awaited recorder call -> Awaited next call) ∧
      (recorder.recorder.flushing = none -> next.recorder.flushing = none) := by
  rcases Recorder.step_cases stepped with ⟨seams, input, _, rfl⟩ | ⟨paused, rfl⟩ | ⟨now, rfl, _⟩ |
    ⟨flight, flying, advanced⟩
  · have calls : (recorder.history.record recorder.recorder seams input).calls =
        recorder.history.calls := by
      unfold Recorder.History.record
      split
      · rfl
      · split
        · rfl
        · rfl
        · exact (Recorder.history_push_frame recorder.history recorder.recorder.ring _).2.2.2.2
    have flushing := Recorder.flushing_record recorder.recorder seams input
    refine ⟨fun call awaited flushCall isCall resolved => ?_, fun none => flushing.trans none⟩
    rw [calls] at isCall
    exact flushing.trans (awaited flushCall isCall resolved)
  · exact ⟨fun call awaited => awaited, fun none => none⟩
  · cases quiet
  · refine ⟨fun call awaited => ?_, fun none => ?_⟩
    · have pending : forall flushCall, recorder.history.calls[call]? = some flushCall ->
          flushCall.resolution ≠ none -> False := by
        intro flushCall isCall resolved
        rw [awaited flushCall isCall resolved] at flying
        cases flying
      cases advanced with
      | waits | stores | givesUp =>
          exact fun flushCall isCall resolved => (pending flushCall isCall resolved).elim
      | ends => exact fun _ _ _ => rfl
    · rw [none] at flying
      cases flying

/-- The alerter goes on: its jobs stay, and it stays idle. -/
theorem alerter_step {alerter : Alerts.System} {event : Alerts.Event}
    (quiet : forall entries now, event ≠ .evaluateFlush entries now)
    (stepped : service.alerter.step deps event = some alerter) :
    alerter.called = service.alerter.called ∧
      alerter.queue.chain.jobs = service.alerter.queue.chain.jobs ∧
        (service.alerter.queue.chain.unsettled = [] -> alerter.queue.chain.unsettled = []) := by
  cases event with
  | evaluateFlush entries now => exact (quiet entries now rfl).elim
  | reply answers =>
      rcases Option.map_eq_some_iff.mp stepped with ⟨chain, answered, rfl⟩
      refine ⟨rfl, PromiseChain.jobs_answer answered, fun idle => ?_⟩
      exact (PromiseChain.unsettled_answer answered).trans idle
  | proceed =>
      rcases Option.map_eq_some_iff.mp stepped with ⟨⟨chain, settled⟩, advanced, rfl⟩
      have jobs := PromiseChain.jobs_advance advanced
      have unsettled := PromiseChain.unsettled_advance advanced
      have idle : service.alerter.queue.chain.unsettled = [] -> chain.unsettled = [] := by
        intro idle
        rw [idle] at unsettled
        exact (List.append_eq_nil_iff.mp unsettled.symm).2
      cases settled with
      | none => exact ⟨rfl, jobs, idle⟩
      | some job => exact ⟨rfl, jobs, idle⟩

theorem invariant_alerter {alerter : Alerts.System} {event : Alerts.Event}
    (invariant : service.Invariant) (quiet : forall entries now, event ≠ .evaluateFlush entries now)
    (harmless : service.alerter.HarmlessStep event)
    (stepped : service.alerter.step deps event = some alerter) :
    ({ service with alerter := alerter } : Service options).Invariant := by
  rcases alerter_step quiet stepped with ⟨called, jobs, idle⟩
  refine ⟨Alerts.System.alive_step invariant.alive harmless stepped,
    Alerts.System.counted_step invariant.counted stepped, ?_, ?_⟩
  · rcases invariant.handed with ⟨handedOver, stored, isCalled⟩
    refine ⟨handedOver, stored, isCalled.trans ?_⟩
    rw [calledExceptions, calledExceptions, called]
  · have atStage := invariant.atStage
    change AtStage { service with alerter := alerter } service.stage
    cases stage : service.stage with
    | running => rwa [stage] at atStage
    | idling count =>
        rw [stage] at atStage
        exact (congrArg List.length jobs).trans atStage
    | flushing call =>
        rw [stage] at atStage
        exact ⟨idle atStage.1, atStage.2⟩
    | closing | resolved =>
        rw [stage] at atStage
        exact ⟨idle atStage.1, atStage.2⟩
    | rejected => trivial

/-- What a step of the recorder hands over goes to the alerter, in time. -/
theorem invariant_recorder (configured : ¬ (deps.newExceptionWindow = none ∧ deps.everyException = none))
    (invariant : service.Invariant) {now : Int} (inTime : service.InTime (.recorder event now))
    (stepped : service.stepRecorder deps event now = some next) : next.Invariant := by
  unfold stepRecorder at stepped
  split at stepped
  · cases stepped
  · rename_i allowed
    rcases Option.map_eq_some_iff.mp stepped with ⟨recorder, recorded, rfl⟩
    rcases invariant.handed with ⟨handedOver, stored, isCalled⟩
    have feeds := filter_isFlushException fun entry member exception =>
      (inTime entry member exception).2
    have storedNext := Recorder.stored_step stored recorded
    cases exceptions : (service.recorder.handed event).filter isException with
    | nil =>
        rw [exceptions] at feeds
        have same : service.onFlushStored deps (service.recorder.handed event) now = service.alerter := by
          unfold onFlushStored
          split
          · exact evaluateFlush_nothing feeds now
          · rfl
        rw [same]
        refine ⟨invariant.alive, invariant.counted, ⟨_, storedNext, ?_⟩, ?_⟩
        · rw [List.filter_append, exceptions, List.append_nil]
          exact isCalled
        · have atStage := invariant.atStage
          change AtStage { service with recorder := recorder } service.stage
          cases stage : service.stage with
          | running => rwa [stage] at atStage
          | idling jobs => rwa [stage] at atStage
          | rejected => trivial
          | flushing call =>
              rw [stage] at atStage allowed
              have quiet : callsFlush event = false := by
                rw [← Bool.not_eq_true]
                exact fun calls => allowed ⟨calls, Stage.noConfusion⟩
              exact ⟨atStage.1, (awaited_step quiet recorded).1 call atStage.2⟩
          | closing | resolved =>
              rw [stage] at atStage allowed
              have quiet : callsFlush event = false := by
                rw [← Bool.not_eq_true]
                exact fun calls => allowed ⟨calls, by decide⟩
              exact ⟨atStage.1, (awaited_step quiet recorded).2 atStage.2⟩
    | cons entry rest =>
        have member : entry ∈ (service.recorder.handed event).filter isException :=
          exceptions ▸ List.mem_cons_self ..
        rcases List.mem_filter.mp member with ⟨isHanded, exception⟩
        have running := (inTime entry isHanded exception).1
        have attached : service.attached = true := by
          have atStage := invariant.atStage
          rwa [running] at atStage
        have evaluates : service.onFlushStored deps (service.recorder.handed event) now =
            service.alerter.evaluateFlush deps (service.recorder.handed event) now := by
          rw [onFlushStored, if_pos attached]
        rw [evaluates]
        refine ⟨alive_evaluateFlush invariant.alive now,
          Alerts.System.counted_evaluateFlush invariant.counted _ now, ⟨_, storedNext, ?_⟩, ?_⟩
        · rw [calledExceptions_evaluateFlush configured, feeds, List.filter_append, isCalled]
        · change AtStage _ service.stage
          rw [running]
          exact attached

/-- The alerter is idle once the last of its jobs has settled. -/
theorem unsettled_of_idle (service : Service options) {jobs : Nat}
    (count : service.alerter.queue.chain.jobs.length = jobs) {rejected : Option Alerts.Thrown}
    (settled : service.idlePromise jobs = some rejected) :
    service.alerter.queue.chain.unsettled = [] := by
  have enough : jobs ≤ service.alerter.queue.chain.settled.length := by
    unfold idlePromise at settled
    split at settled
    · omega
    · rcases Option.map_eq_some_iff.mp settled with ⟨settlement, found, _⟩
      have inside := (List.getElem?_eq_some_iff.mp found).1
      omega
  rw [PromiseChain.jobs, List.length_append, List.length_map] at count
  exact List.length_eq_zero_iff.mp (by omega)

theorem invariant_step (configured : ¬ (deps.newExceptionWindow = none ∧ deps.everyException = none))
    {event : Event Input} (invariant : service.Invariant) (inTime : service.InTime event)
    (stepped : service.step deps event = some next) : next.Invariant := by
  have atStage := invariant.atStage
  cases event with
  | recorder event now => exact invariant_recorder configured invariant inTime stepped
  | alerterReplied answers =>
      rcases Option.map_eq_some_iff.mp stepped with ⟨alerter, replied, rfl⟩
      have harmless : service.alerter.HarmlessStep (.reply answers) := inTime
      exact invariant_alerter invariant (fun _ _ => Alerts.Event.noConfusion) harmless replied
  | alerterProceeds =>
      rcases Option.map_eq_some_iff.mp stepped with ⟨alerter, proceeded, rfl⟩
      have harmless : service.alerter.HarmlessStep .proceed := trivial
      exact invariant_alerter invariant (fun _ _ => Alerts.Event.noConfusion) harmless proceeded
  | onApplicationShutdown =>
      simp only [step] at stepped
      split at stepped
      · cases stepped
        exact ⟨invariant.alive, invariant.counted, invariant.handed, rfl⟩
      · cases stepped
  | idleSettled now =>
      simp only [step] at stepped
      split at stepped
      · rename_i jobs stage
        rw [stage] at atStage
        split at stepped
        · cases stepped
        · cases stepped
          exact ⟨invariant.alive, invariant.counted, invariant.handed, trivial⟩
        · rename_i settled
          cases stepped
          rcases invariant.handed with ⟨handedOver, stored, isCalled⟩
          refine ⟨invariant.alive, invariant.counted, ⟨handedOver, ?_, isCalled⟩, ?_⟩
          · change (service.recorder.history.flush service.recorder).stored = _
            rw [Recorder.stored_flush, Recorder.beforeHook_flush]
            exact stored
          · exact ⟨unsettled_of_idle service atStage settled, awaited_flush service.recorder now⟩
      · cases stepped
  | flushSettled =>
      simp only [step] at stepped
      split at stepped
      · rename_i call stage
        rw [stage] at atStage
        split at stepped
        · rename_i resolved
          cases stepped
          refine ⟨invariant.alive, invariant.counted, invariant.handed, atStage.1, ?_⟩
          rcases (Option.any_eq_true _ _).mp resolved with ⟨flushCall, isCall, isResolved⟩
          exact atStage.2 flushCall isCall (Option.isSome_iff_ne_none.mp isResolved)
        · cases stepped
      · cases stepped
  | closeSettled fulfilled =>
      simp only [step] at stepped
      split at stepped
      · rename_i stage
        rw [stage] at atStage
        cases stepped
        refine ⟨invariant.alive, invariant.counted, invariant.handed, ?_⟩
        cases fulfilled with
        | true => exact atStage
        | false => trivial
      · cases stepped

end Steps

/-- With an exception rule, in every run in which exceptions reach the hook in time. -/
theorem alerts_complete (deps : Alerts.TelescopeAlerterDeps)
    (configured : ¬ (deps.newExceptionWindow = none ∧ deps.everyException = none))
    (options : Recorder.Options) (events : List (Event Input)) (final : Service options)
    (inTime : Transition.Along (step deps) InTime (initial options) events)
    (ran : Transition.runFrom (step deps) (initial options) events = some final) : final.Complete := by
  have kept : forall (service : Service options) (event : Event Input) (next : Service options),
      service.Invariant -> service.InTime event -> service.step deps event = some next -> next.Invariant :=
    fun _ _ _ invariant inTime stepped => invariant_step configured invariant inTime stepped
  have invariant := Transition.invariant_along kept initial_invariant inTime ran
  rcases invariant.handed with ⟨handedOver, stored, isCalled⟩
  refine ⟨?_, invariant.alive.jobs_eq.symm.trans invariant.counted.jobs, fun resolved => ?_⟩
  · rw [stored, List.filter_append, isCalled]
  · have atStage := invariant.atStage
    rw [resolved] at atStage
    refine ⟨?_, atStage.1⟩
    rw [Recorder.System.beforeHook, atStage.2]

/-! ## Before and after the shutdown -/

def smallOptions : Recorder.Options := ⟨4, by decide, none⟩

/-- An exception is flushed by the timer, and its evaluation ends in a logged error of the
store; then the application shuts down. -/
def orderlyRun : List (Event (Entry Value)) :=
  [.recorder (.record Recorder.admitAll (Alerts.System.plainException ['1'] ['f'])) 0,
    .recorder (.flush 0) 0, .recorder .storeResolved 0, .recorder .rollupsSettled 0,
    .recorder .hookSettled 0, .recorder (.flushSettled 0) 0, .alerterProceeds,
    .alerterReplied (Alerts.System.rejectAll (Alerts.Thrown.typeError (units "gone"))),
    .alerterReplied (Alerts.System.rejectAll (Alerts.Thrown.typeError (units "gone"))),
    .alerterProceeds, .onApplicationShutdown, .idleSettled 0, .flushSettled, .closeSettled true]

theorem inTime_of_nothing {service : Service options} {now : Int} (nothing : service.recorder.handed event = []) :
    service.InTime (.recorder event now) := by
  intro entry member
  rw [nothing] at member
  cases member

theorem inTime_of_harmless {service : Service options}
    {answers : (request : Alerts.Request) -> Alerts.Reply request}
    (harmless : forall request, Alerts.Harmless request (answers request)) :
    service.InTime (.alerterReplied answers : Event Input) := by
  change PromiseChain.Answers Alerts.Harmless service.alerter.queue.chain answers
  unfold PromiseChain.Answers
  split
  · exact harmless _
  · trivial

theorem orderlyRun_complete :
    Exists fun final =>
      Transition.runFrom (step Alerts.System.plainDeps) (initial smallOptions) orderlyRun = some final ∧
        final.stage = .resolved ∧ final.Complete := by
  have harmless := Alerts.System.rejectAll_harmless (Alerts.Thrown.readable_typeError (units "gone"))
  refine ⟨_, rfl, rfl, alerts_complete Alerts.System.plainDeps (fun both => by cases both.1) smallOptions
    orderlyRun _ ?_ rfl⟩
  refine Transition.along_cons rfl (inTime_of_nothing rfl) ?_
  refine Transition.along_cons rfl (inTime_of_nothing rfl) ?_
  refine Transition.along_cons rfl (inTime_of_nothing rfl) ?_
  refine Transition.along_cons rfl ?_ ?_
  · intro entry member _exception
    cases List.mem_singleton.mp member
    exact ⟨rfl, rfl⟩
  · refine Transition.along_cons rfl (inTime_of_nothing rfl) ?_
    refine Transition.along_cons rfl (inTime_of_nothing rfl) ?_
    refine Transition.along_cons rfl trivial ?_
    refine Transition.along_cons rfl (inTime_of_harmless harmless) ?_
    refine Transition.along_cons rfl (inTime_of_harmless harmless) ?_
    refine Transition.along_cons rfl trivial ?_
    refine Transition.along_cons rfl trivial ?_
    refine Transition.along_cons rfl trivial ?_
    refine Transition.along_cons rfl trivial ?_
    exact Transition.along_cons rfl trivial trivial

/-- An exception is in the ring when the application shuts down.  The last flush stores it,
and the shutdown resolves. -/
def lateRun : List (Event (Entry Value)) :=
  [.recorder (.record Recorder.admitAll (Alerts.System.plainException ['1'] ['f'])) 0,
    .onApplicationShutdown, .idleSettled 0, .recorder .storeResolved 0, .recorder .rollupsSettled 0,
    .recorder .hookSettled 0, .recorder (.flushSettled 0) 0, .flushSettled, .closeSettled true]

/-- The alerter never sees it. -/
theorem lateRun_not_complete :
    ¬ forall (deps : Alerts.TelescopeAlerterDeps),
      ¬ (deps.newExceptionWindow = none ∧ deps.everyException = none) ->
      forall (options : Recorder.Options) (events : List (Event (Entry Value))) (final : Service options),
        Transition.runFrom (step deps) (initial options) events = some final -> final.Complete := by
  intro complete
  have ran : (Transition.runFrom (step Alerts.System.plainDeps) (initial smallOptions) lateRun).isSome := rfl
  have completed := complete Alerts.System.plainDeps (fun both => by cases both.1) smallOptions lateRun _
    (Option.some_get ran).symm
  have counts := congrArg List.length completed.handed
  have stored : (((Transition.runFrom (step Alerts.System.plainDeps) (initial smallOptions) lateRun).get
      ran).recorder.history.stored.filter isException).length = 1 := rfl
  rw [stored] at counts
  cases counts

end Service
end Nest
end Telescope
