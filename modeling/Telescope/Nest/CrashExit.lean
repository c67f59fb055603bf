import Mathlib.Data.List.MinMax
import Telescope.Nest.CrashCapture

namespace Telescope
namespace CrashCapture

open Alerts (Thrown)

/-!
# The exit contract

A crash keeps to the contract while it is recorded and while it waits within its budget, and
when the process has ended with the configured code in time. It breaks it when the call of
`capture` throws, and when the process ends by itself before the wait does.
-/

variable {options : Options} {state next : System}

def budget (options : Options) : Nat := max 1 options.flushTimeoutMs

theorem timerDelay_le_budget : timerDelay options.flushTimeoutMs ≤ budget options := by
  rw [timerDelay, budget]
  split
  · exact Nat.le_max_right _ _
  · exact Nat.le_max_left _ _

/-- The process has been ended with the configured code, not after the given time. -/
def Process.ExitsBy (options : Options) (deadline : Int) : Process -> Prop
  | .exited code time => code = options.exitCode ∧ time ≤ deadline
  | _ => False

/-- The contract for one crash. -/
def Crash.Honoured (options : Options) (state : System) (crash : Crash) : Prop :=
  match crash.stage with
  | .recording _error => state.process = .running ∨ state.process.ExitsBy options state.now
  | .flushing _error since =>
      (state.process = .running ∧ state.now ≤ since + budget options) ∨
        state.process.ExitsBy options (since + budget options)
  | .exiting since => state.process.ExitsBy options (since + budget options)
  | .returned => False
  | .dropped _thrown => False

/-- The event loop comes to the end of a timer of a crash, whatever else does not happen. -/
def Timed (options : Options) (state : System) : Prop :=
  Exists fun time => Exists fun id => Exists fun middle =>
    state.elapse options time = some middle ∧ (middle.budgetElapsed options id).isSome

/-- Every crash that has come is on its way to an exit in time, or has reached it, and no
rejected promise has escaped. -/
structure Honoured (options : Options) (state : System) : Prop where
  crashes : forall (id : Nat) (crash : Crash), state.crashes[id]? = some crash -> crash.Honoured options state
  timed : state.process = .running -> state.recording = none -> state.crashes ≠ [] -> Timed options state
  contained : state.escaped = []

/-! ## What has to be readable -/

/-- The text that is written of the error can be read. -/
def ThrownError.Readable (error : ThrownError) : Prop := Exists fun text => error.shown = .ok text

/-- What the warning says of a failed recording can be read. -/
def Raw.Describable (failure : Raw) : Prop := Exists fun text => recordingMessage failure = .ok text

/-- The value can be asked whether it is an error. -/
def Raw.Checkable (raw : Raw) : Prop := Exists fun error => toError raw = .ok error

def Throws (started : Except Thrown Unit) : Prop := Exists fun thrown => started = .error thrown

/-- A step drops no crash: what it has to read of the values can be read, and the process
does not end by itself while a crash waits. -/
def Harmless (state : System) : System.Event -> Prop
  | .capture raw _kind started =>
      raw.Checkable ∧ (state.recording.isSome -> Throws started ->
        forall error, toError raw = .ok error -> error.Readable)
  | .recordCrash outcome started =>
      (forall failure, outcome = .error failure -> failure.Describable) ∧
        (Throws started -> forall id kind error, state.recorder = some (id, kind, error) -> error.Readable)
  | .elapse _time => True
  | .flushSettled id _outcome => forall kind error since, state.waiting id = some (kind, error, since) -> error.Readable
  | .budgetElapsed id => forall kind error since, state.waiting id = some (kind, error, since) -> error.Readable
  | .drained => forall id, state.waiting id = none

/-! ## What always holds -/

/-- The time and the latch of one crash. -/
def Crash.Sound (options : Options) (state : System) (id : Nat) (crash : Crash) : Prop :=
  match state.process, crash.stage with
  | .running, .recording _error => state.recording = some id
  | .running, .flushing _error since => state.now ≤ since + timerDelay options.flushTimeoutMs
  | .running, .exiting _since => False
  | .exited code time, .recording _error => code = options.exitCode ∧ time = state.now
  | .exited code time, .flushing _error since =>
      code = options.exitCode ∧ time ≤ since + timerDelay options.flushTimeoutMs
  | .exited code time, .exiting since =>
      code = options.exitCode ∧ time ≤ since + timerDelay options.flushTimeoutMs
  | _, _ => True

structure Sound (options : Options) (state : System) : Prop where
  crashes : forall (id : Nat) (crash : Crash), state.crashes[id]? = some crash -> crash.Sound options state id
  contained : state.escaped = []

/-- The call for the crash is over without an exit. -/
def Crash.Lost (crash : Crash) : Prop :=
  match crash.stage with
  | .returned => True
  | .dropped _thrown => True
  | _ => False

def NoneLost (state : System) : Prop :=
  forall (id : Nat) (crash : Crash), state.crashes[id]? = some crash -> ¬ crash.Lost

variable {crash : Crash}

theorem Crash.sound_flushing {id : Nat} {error : ThrownError} {since : Int} (running : state.process = .running)
    (isStage : crash.stage = .flushing error since) (within : state.now ≤ since + timerDelay options.flushTimeoutMs) :
    crash.Sound options state id := by
  rw [Crash.Sound, running, isStage]
  exact within

/-- The latch matters only to the crash that holds it. -/
theorem Crash.Sound.latch {changed : System} {id : Nat} (sound : crash.Sound options state id)
    (running : state.process = .running) (stillRunning : changed.process = .running)
    (sameTime : changed.now = state.now) (moved : state.recording = some id -> changed.recording = some id) :
    crash.Sound options changed id := by
  rw [Crash.Sound, running] at sound
  rw [Crash.Sound, stillRunning, sameTime]
  cases isStage : crash.stage with
  | recording error =>
      rw [isStage] at sound
      exact moved sound
  | flushing error since =>
      rw [isStage] at sound
      exact sound
  | exiting since =>
      rw [isStage] at sound
      exact sound
  | returned => trivial
  | dropped thrown => trivial

theorem Crash.honoured_iff_notLost {id : Nat} (sound : crash.Sound options state id)
    (alive : state.process ≠ .drained) : crash.Honoured options state <-> ¬ crash.Lost := by
  have delay := @timerDelay_le_budget options
  rcases crash with ⟨kind, stage⟩
  cases isProcess : state.process with
  | drained => exact absurd isProcess alive
  | running =>
      cases stage with
      | recording error => exact ⟨fun _ => not_false, fun _ => .inl isProcess⟩
      | flushing error since =>
          refine ⟨fun _ => not_false, fun _ => .inl ⟨isProcess, ?_⟩⟩
          rw [Crash.Sound, isProcess] at sound
          dsimp only at sound
          omega
      | exiting since =>
          rw [Crash.Sound, isProcess] at sound
          exact sound.elim
      | returned => exact ⟨False.elim, fun kept => kept trivial⟩
      | dropped thrown => exact ⟨False.elim, fun kept => kept trivial⟩
  | exited code time =>
      rw [Crash.Sound, isProcess] at sound
      cases stage with
      | recording error =>
          refine ⟨fun _ => not_false, fun _ => .inr ?_⟩
          rw [isProcess]
          exact ⟨sound.1, le_of_eq sound.2⟩
      | flushing error since =>
          refine ⟨fun _ => not_false, fun _ => .inr ?_⟩
          rw [isProcess]
          exact ⟨sound.1, sound.2.trans (by omega)⟩
      | exiting since =>
          refine ⟨fun _ => not_false, fun _ => ?_⟩
          rw [Crash.Honoured, isProcess]
          exact ⟨sound.1, sound.2.trans (by omega)⟩
      | returned => exact ⟨False.elim, fun kept => kept trivial⟩
      | dropped thrown => exact ⟨False.elim, fun kept => kept trivial⟩

theorem waiting_eq_some {id : Nat} {kind : ProcessCrashKind} {error : ThrownError} {since : Int} :
    state.waiting id = some (kind, error, since) <->
      state.crashes[id]? = some ⟨kind, .flushing error since⟩ := by
  simp only [System.waiting, Option.bind_eq_some_iff]
  constructor
  · rintro ⟨crash, isCrash, isError⟩
    split at isError
    · rename_i awaited start isStage
      cases isError
      rw [← isStage]
      exact isCrash
    · cases isError
  · exact fun isCrash => ⟨_, isCrash, rfl⟩

/-- While no crash is recorded, one that is not lost waits. -/
theorem Crash.Sound.exists_flushing {id : Nat} (sound : crash.Sound options state id)
    (running : state.process = .running) (free : state.recording = none) (unlost : ¬ crash.Lost) :
    Exists fun error => Exists fun since => crash.stage = .flushing error since ∧
      state.now ≤ since + timerDelay options.flushTimeoutMs := by
  rcases crash with ⟨kind, stage⟩
  rw [Crash.Sound, running] at sound
  cases stage with
  | recording error =>
      rw [free] at sound
      cases sound
  | flushing error since => exact ⟨error, since, rfl, sound⟩
  | exiting since => exact sound.elim
  | returned => exact absurd trivial unlost
  | dropped thrown => exact absurd trivial unlost

/-- The end of the wait of a crash. -/
def Crash.deadline (options : Options) (crash : Crash) : Int :=
  match crash.stage with
  | .flushing _error since => since + timerDelay options.flushTimeoutMs
  | _ => 0

/-- The timer that ends first is reached without passing another one. -/
theorem timed_of_noneLost (sound : Sound options state) (running : state.process = .running)
    (free : state.recording = none) (kept : NoneLost state) (someCrash : state.crashes ≠ []) :
    Timed options state := by
  have waits : forall crash, crash ∈ state.crashes -> Exists fun error => Exists fun since =>
      crash.stage = .flushing error since ∧ state.now ≤ since + timerDelay options.flushTimeoutMs := by
    intro crash member
    rcases List.mem_iff_getElem?.mp member with ⟨id, isCrash⟩
    exact (sound.crashes id crash isCrash).exists_flushing running free (kept id crash isCrash)
  cases isFirst : state.crashes.argmin (Crash.deadline options) with
  | none => exact absurd (List.argmin_eq_none.mp isFirst) someCrash
  | some first =>
      have member := List.argmin_mem isFirst
      rcases waits first member with ⟨error, since, isStage, inTime⟩
      rcases List.mem_iff_getElem?.mp member with ⟨id, isCrash⟩
      have isDeadline : first.deadline options = since + timerDelay options.flushTimeoutMs := by
        rw [Crash.deadline, isStage]
      have inTime : state.now ≤ first.deadline options := by
        rw [isDeadline]
        exact inTime
      have isWaiting : System.waiting id { state with now := first.deadline options } =
          some (first.kind, error, since) := by
        refine waiting_eq_some.mpr ?_
        rw [← isStage]
        exact isCrash
      refine ⟨first.deadline options, id, { state with now := first.deadline options },
        if_pos ⟨inTime, fun crash isOther => ?_⟩, ?_⟩
      · rw [System.budgetElapsed.eq_def, isWaiting, Option.bind_some]
        dsimp only
        rw [if_pos (le_of_eq isDeadline.symm)]
        rfl
      · rcases waits crash isOther with ⟨itsError, itsSince, itsStage, _inTime⟩
        have least := List.le_of_mem_argmin isOther isFirst
        rw [itsStage]
        rw [Crash.deadline.eq_def _ crash, itsStage] at least
        exact decide_eq_true least

theorem Sound.honoured_iff_noneLost (sound : Sound options state) (alive : state.process ≠ .drained) :
    Honoured options state <-> NoneLost state := by
  constructor
  · exact fun honoured id crash isCrash =>
      (Crash.honoured_iff_notLost (sound.crashes id crash isCrash) alive).mp (honoured.crashes id crash isCrash)
  · exact fun kept => ⟨fun id crash isCrash =>
      (Crash.honoured_iff_notLost (sound.crashes id crash isCrash) alive).mpr (kept id crash isCrash),
      fun running free someCrash => timed_of_noneLost sound running free kept someCrash, sound.contained⟩

/-- In a process that ended by itself no crash keeps to the contract. -/
theorem not_honoured_of_drained (drained : state.process = .drained) :
    ¬ crash.Honoured options state := by
  rcases crash with ⟨kind, stage⟩
  rw [Crash.Honoured, drained]
  cases stage with
  | recording error => exact fun kept => kept.elim (fun same => by cases same) id
  | flushing error since => exact fun kept => kept.elim (fun same => by cases same.1) id
  | exiting since => exact id
  | returned => exact id
  | dropped thrown => exact id

/-! ## The end of a call -/

/-- All crashes but one are sound, in a process that runs. -/
structure Ready (options : Options) (id : Nat) (state : System) : Prop where
  running : state.process = .running
  present : id < state.crashes.length
  others : forall (other : Nat) (crash : Crash), other ≠ id -> state.crashes[other]? = some crash ->
    crash.Sound options state other
  contained : state.escaped = []

def OthersKept (id : Nat) (state : System) : Prop :=
  forall (other : Nat) (crash : Crash), other ≠ id -> state.crashes[other]? = some crash -> ¬ crash.Lost

theorem Sound.ready (sound : Sound options state) (running : state.process = .running) {id : Nat}
    (present : id < state.crashes.length) : Ready options id state :=
  ⟨running, present, fun other crash _different isCrash => sound.crashes other crash isCrash, sound.contained⟩

theorem noneLost_iff {id : Nat} (isCrash : state.crashes[id]? = some crash) :
    NoneLost state <-> OthersKept id state ∧ ¬ crash.Lost := by
  constructor
  · exact fun kept => ⟨fun other found _different isFound => kept other found isFound, kept id crash isCrash⟩
  · rintro ⟨others, own⟩ other found isFound
    by_cases same : other = id
    · cases same
      cases isCrash.symm.trans isFound
      exact own
    · exact others other found same isFound

section Put

variable {id : Nat} {stage : Stage}

theorem getElem?_put_ne {other : Nat} (different : other ≠ id) :
    (state.put id stage).crashes[other]? = state.crashes[other]? := by
  rw [System.put, List.getElem?_modify]
  cases state.crashes[other]? with
  | none => rfl
  | some crash => exact congrArg some (if_neg (Ne.symm different))

theorem getElem?_put_self (isCrash : state.crashes[id]? = some crash) :
    (state.put id stage).crashes[id]? = some { crash with stage := stage } := by
  rw [System.put, List.getElem?_modify, isCrash]
  exact congrArg some (if_pos rfl)

/-- After a crash has changed its stage, it and the others are sound. -/
theorem sound_put {changed : System} (isPut : changed.crashes = (state.put id stage).crashes)
    (contained : changed.escaped = [])
    (own : forall crash : Crash, crash.stage = stage -> crash.Sound options changed id)
    (others : forall (other : Nat) (crash : Crash), other ≠ id -> state.crashes[other]? = some crash ->
      crash.Sound options changed other) : Sound options changed := by
  refine ⟨fun other crash isCrash => ?_, contained⟩
  rw [isPut] at isCrash
  by_cases same : other = id
  · cases same
    cases before : state.crashes[id]? with
    | none =>
        rw [System.put, List.getElem?_modify, before] at isCrash
        cases isCrash
    | some found =>
        rw [getElem?_put_self before] at isCrash
        cases isCrash
        exact own _ rfl
  · rw [getElem?_put_ne same] at isCrash
    exact others other crash same isCrash

theorem noneLost_put {changed : System} (isPut : changed.crashes = (state.put id stage).crashes)
    (present : id < state.crashes.length) :
    NoneLost changed <-> OthersKept id state ∧ ¬ (⟨.unhandledRejection, stage⟩ : Crash).Lost := by
  have isCrash := @getElem?_put_self state _ id stage (List.getElem?_eq_getElem present)
  rw [← isPut] at isCrash
  rw [noneLost_iff isCrash]
  refine and_congr_left fun _own => ?_
  refine forall_congr' fun other => forall_congr' fun crash => imp_congr_right fun different => ?_
  rw [isPut, getElem?_put_ne different]

end Put

/-! ### What the functions do -/

/-- What a step comes to: a sound state of a process that did not end by itself, in which
no crash is lost exactly when the condition held. -/
structure Outcome (options : Options) (condition : Prop) (next : System) : Prop where
  sound : Sound options next
  alive : next.process ≠ .drained
  noneLost : NoneLost next <-> condition

theorem Outcome.congr {condition other : Prop} (outcome : Outcome options condition next)
    (same : condition <-> other) : Outcome options other next :=
  ⟨outcome.sound, outcome.alive, outcome.noneLost.trans same⟩

theorem outcome_drop {id : Nat} (ready : Ready options id state) (thrown : Thrown) :
    Outcome options False (state.drop id thrown) := by
  have isPut : (state.drop id thrown).crashes = (state.put id (.dropped thrown)).crashes := rfl
  have isProcess : (state.drop id thrown).process = .running := ready.running
  refine ⟨sound_put isPut ready.contained ?_ ?_, ?_, ?_⟩
  · intro crash isStage
    rw [Crash.Sound, isProcess, isStage]
    trivial
  · intro other crash different isCrash
    have sound := ready.others other crash different isCrash
    rw [Crash.Sound, ready.running] at sound
    rw [Crash.Sound, isProcess]
    exact sound
  · rw [isProcess]
    exact fun same => by cases same
  · rw [noneLost_put isPut ready.present]
    exact ⟨fun both => both.2 trivial, False.elim⟩

variable (mode : options.exitMode = .exit)

include mode

theorem outcome_finish {id : Nat} (ready : Ready options id state) (kind : ProcessCrashKind) (error : ThrownError)
    {since : Int} (within : state.now ≤ since + timerDelay options.flushTimeoutMs) :
    Outcome options (OthersKept id state ∧ error.Readable) (state.finish options id kind error since) := by
  rw [System.finish, mode]
  dsimp only
  cases isShown : error.shown with
  | error thrown =>
      refine (outcome_drop ready thrown).congr ⟨False.elim, fun both => ?_⟩
      rcases both.2 with ⟨text, isText⟩
      cases isShown.symm.trans isText
  | ok text =>
      refine ⟨@sound_put options state id (.exiting since) _ rfl ready.contained ?_ ?_, ?_, ?_⟩
      · intro crash isStage
        rw [Crash.Sound, isStage]
        exact ⟨rfl, within⟩
      · intro other crash different isCrash
        have sound := ready.others other crash different isCrash
        rw [Crash.Sound, ready.running] at sound
        rw [Crash.Sound]
        cases isStage : crash.stage with
        | recording error => exact ⟨rfl, rfl⟩
        | flushing error since =>
            rw [isStage] at sound
            exact ⟨rfl, sound⟩
        | exiting since =>
            rw [isStage] at sound
            exact sound.elim
        | returned => trivial
        | dropped thrown => trivial
      · exact fun same => by cases same
      · refine (@noneLost_put state id (.exiting since) _ rfl ready.present).trans (and_congr_right fun _others => ?_)
        exact ⟨fun _ => ⟨text, isShown⟩, fun _ => not_false⟩

theorem outcome_boundedFlush {id : Nat} (ready : Ready options id state) (kind : ProcessCrashKind)
    (error : ThrownError) (started : Except Thrown Unit) :
    Outcome options (OthersKept id state ∧ (Throws started -> error.Readable))
      (state.boundedFlush options id kind error started) := by
  have within : state.now ≤ state.now + timerDelay options.flushTimeoutMs := by omega
  rw [System.boundedFlush.eq_def]
  split
  · rename_i thrown
    refine (outcome_finish mode ready kind error within).congr (and_congr_right fun _others => ?_)
    exact ⟨fun readable _throws => readable, fun readable => readable ⟨thrown, rfl⟩⟩
  · refine ⟨@sound_put options state id (.flushing error state.now) _ rfl ready.contained ?_ ?_, ?_, ?_⟩
    · exact fun crash isStage => Crash.sound_flushing ready.running isStage within
    · exact ready.others
    · exact ready.running ▸ fun same => by cases same
    · refine (@noneLost_put state id (.flushing error state.now) _ rfl ready.present).trans
        (and_congr_right fun _others => ?_)
      exact ⟨fun _ throws => (by rcases throws with ⟨_, ⟨⟩⟩), fun _ => not_false⟩

omit mode in
theorem getElem?_concat_eq_some {crashes : List Crash} {last : Crash} {id : Nat} :
    (crashes ++ [last])[id]? = some crash <-> crashes[id]? = some crash ∨ (id = crashes.length ∧ last = crash) := by
  rcases lt_trichotomy id crashes.length with before | isLast | after
  · rw [List.getElem?_append_left before]
    exact ⟨Or.inl, fun either => either.elim (fun found => found) fun both => absurd both.1 (ne_of_lt before)⟩
  · rw [isLast, List.getElem?_concat_length, List.getElem?_eq_none (le_refl _), Option.some.injEq]
    exact ⟨fun same => .inr ⟨rfl, same⟩, fun either => either.elim (fun absent => by cases absent) And.right⟩
  · rw [List.getElem?_eq_none (by rw [List.length_append, List.length_singleton]; omega),
      List.getElem?_eq_none (le_of_lt after)]
    exact ⟨fun absent => (by cases absent), fun either =>
      either.elim (fun absent => by cases absent) fun both => absurd both.1 (ne_of_gt after)⟩

section Arrival

variable (kind : ProcessCrashKind) (stage : Stage) {arrived : System}

omit mode in
theorem noneLost_arrived (isArrived : arrived.crashes = state.crashes ++ [⟨kind, stage⟩]) :
    NoneLost arrived <-> NoneLost state ∧ ¬ (⟨kind, stage⟩ : Crash).Lost := by
  rw [NoneLost, isArrived]
  constructor
  · intro kept
    exact ⟨fun id crash isCrash => kept id crash (getElem?_concat_eq_some.mpr (.inl isCrash)),
      kept state.crashes.length _ (getElem?_concat_eq_some.mpr (.inr ⟨rfl, rfl⟩))⟩
  · rintro ⟨kept, own⟩ id crash isCrash
    rcases getElem?_concat_eq_some.mp isCrash with before | ⟨_isLast, rfl⟩
    · exact kept id crash before
    · exact own

omit mode in
theorem othersKept_arrived (isArrived : arrived.crashes = state.crashes ++ [⟨kind, stage⟩]) :
    OthersKept state.crashes.length arrived <-> NoneLost state := by
  rw [OthersKept, isArrived]
  constructor
  · intro kept id crash isCrash
    have before : id < state.crashes.length := (List.getElem?_eq_some_iff.mp isCrash).1
    exact kept id crash (ne_of_lt before) (getElem?_concat_eq_some.mpr (.inl isCrash))
  · intro kept id crash different isCrash
    rcases getElem?_concat_eq_some.mp isCrash with before | last
    · exact kept id crash before
    · exact absurd last.1 different

end Arrival

theorem outcome_capture (sound : Sound options state) (running : state.process = .running) (raw : Raw)
    (kind : ProcessCrashKind) (started : Except Thrown Unit) :
    Outcome options (NoneLost state ∧ Harmless state (.capture raw kind started))
      (state.capture options raw kind started) := by
  have running_ne : state.process ≠ .drained := running ▸ fun same => by cases same
  rw [System.capture]
  cases isError : toError raw with
  | error thrown =>
      refine ⟨⟨fun id crash isCrash => ?_, sound.contained⟩, running_ne, ?_⟩
      · rcases getElem?_concat_eq_some.mp isCrash with before | ⟨_isLast, rfl⟩
        · exact sound.crashes id crash before
        · change Crash.Sound options { state with crashes := _ } id _
          rw [Crash.Sound, running]
          trivial
      · refine (noneLost_arrived kind (.dropped thrown) rfl).trans ⟨fun both => absurd trivial both.2, fun both => ?_⟩
        rcases both.2.1 with ⟨error, isOk⟩
        cases isError.symm.trans isOk
  | ok error =>
      have others : forall other crash, other ≠ state.crashes.length ->
          (state.crashes ++ [(⟨kind, .recording error⟩ : Crash)])[other]? = some crash ->
          state.crashes[other]? = some crash := by
        intro other crash different isCrash
        rcases getElem?_concat_eq_some.mp isCrash with before | last
        · exact before
        · exact absurd last.1 different
      have present : state.crashes.length < (state.crashes ++ [(⟨kind, .recording error⟩ : Crash)]).length := by
        rw [List.length_append, List.length_singleton]
        exact Nat.lt_succ_self _
      dsimp only
      split
      · rename_i holder isHolder
        have ready : Ready options state.crashes.length
            { state with crashes := state.crashes ++ [⟨kind, .recording error⟩] } :=
          ⟨running, present, fun other crash different isCrash =>
            sound.crashes other crash (others other crash different isCrash), sound.contained⟩
        refine (outcome_boundedFlush mode ready kind error started).congr ?_
        rw [@othersKept_arrived state kind (.recording error) _ rfl]
        refine and_congr_right fun _kept => ⟨fun readable => ⟨⟨error, isError⟩, fun _held throws other isOther => ?_⟩,
          fun harmless throws => harmless.2 (by rw [isHolder]; rfl) throws error isError⟩
        cases isError.symm.trans isOther
        exact readable throws
      · rename_i free
        refine ⟨⟨fun id crash isCrash => ?_, sound.contained⟩, running_ne, ?_⟩
        · rcases getElem?_concat_eq_some.mp isCrash with before | ⟨isLast, rfl⟩
          · refine (sound.crashes id crash before).latch running running rfl fun held => ?_
            rw [free] at held
            cases held
          · rw [Crash.Sound, running, isLast]
        · refine (noneLost_arrived kind (.recording error) rfl).trans (and_congr_right fun _kept => ?_)
          refine ⟨fun _ => ⟨⟨error, isError⟩, fun held => ?_⟩, fun _ => not_false⟩
          rw [free] at held
          cases held

omit mode in
theorem recorder_eq_some {id : Nat} {kind : ProcessCrashKind} {error : ThrownError}
    (found : state.recorder = some (id, kind, error)) :
    state.recording = some id ∧ state.crashes[id]? = some ⟨kind, .recording error⟩ := by
  simp only [System.recorder, Option.bind_eq_some_iff] at found
  rcases found with ⟨holder, isHolder, crash, isCrash, isError⟩
  split at isError
  · rename_i held isStage
    cases isError
    rw [← isStage]
    exact ⟨isHolder, isCrash⟩
  · cases isError

theorem outcome_recordCrash (sound : Sound options state) (running : state.process = .running)
    {outcome : Except Raw Unit} {started : Except Thrown Unit}
    (stepped : state.recordCrash options outcome started = some next) :
    Outcome options (NoneLost state ∧ Harmless state (.recordCrash outcome started)) next := by
  rw [System.recordCrash, Option.map_eq_some_iff] at stepped
  rcases stepped with ⟨⟨id, kind, error⟩, isRecorder, ended⟩
  rcases recorder_eq_some isRecorder with ⟨isHolder, isCrash⟩
  have present : id < state.crashes.length := (List.getElem?_eq_some_iff.mp isCrash).1
  have others : forall other (crash : Crash), other ≠ id -> state.crashes[other]? = some crash ->
      crash.Sound options { state with recording := none } other := by
    intro other crash different isOther
    refine (sound.crashes other crash isOther).latch running running rfl fun held => ?_
    exact absurd (Option.some.inj (held.symm.trans isHolder)) different
  have released : Ready options id { state with recording := none } :=
    ⟨running, present, others, sound.contained⟩
  have keptIff : OthersKept id state <-> NoneLost state := by
    rw [noneLost_iff isCrash]
    exact ⟨fun kept => ⟨kept, not_false⟩, And.left⟩
  have readableIff : (Throws started -> error.Readable) <->
      (Throws started -> forall id kind error, state.recorder = some (id, kind, error) -> error.Readable) := by
    refine imp_congr_right fun _throws => ⟨fun readable other itsKind itsError isOther => ?_,
      fun all => all id kind error isRecorder⟩
    cases isRecorder.symm.trans isOther
    exact readable
  cases outcome with
  | ok value =>
      cases ended
      refine (outcome_boundedFlush mode released kind error started).congr (and_congr keptIff ?_)
      exact ⟨fun readable => ⟨fun _failure isFailure => (by cases isFailure), readableIff.mp readable⟩,
        fun harmless => readableIff.mpr harmless.2⟩
  | error failure =>
    dsimp only at ended
    split at ended
    · rename_i thrown isThrown
      cases ended
      refine (outcome_drop released thrown).congr ⟨False.elim, fun both => ?_⟩
      rcases both.2.1 failure rfl with ⟨text, isText⟩
      cases isThrown.symm.trans isText
    · rename_i message isMessage
      cases ended
      have warned := fun lines : List Units => (⟨running, present, others, sound.contained⟩ :
        Ready options id { state with recording := none, warned := lines })
      refine (outcome_boundedFlush mode (warned _) kind error started).congr (and_congr keptIff ?_)
      refine ⟨fun readable => ⟨fun other isFailure => ?_, readableIff.mp readable⟩,
        fun harmless => readableIff.mpr harmless.2⟩
      cases isFailure
      exact ⟨message, isMessage⟩

theorem outcome_wake (sound : Sound options state) (running : state.process = .running) (id : Nat) :
    Outcome options (NoneLost state ∧
        forall kind error since, state.waiting id = some (kind, error, since) -> error.Readable)
      (state.wake options id) := by
  rw [System.wake]
  split
  · rename_i kind error since isWaiting
    have isCrash := waiting_eq_some.mp isWaiting
    have within := sound.crashes id _ isCrash
    rw [Crash.Sound, running] at within
    have ready := sound.ready running (List.getElem?_eq_some_iff.mp isCrash).1
    refine (outcome_finish mode ready kind error within).congr (and_congr ?_ ?_)
    · rw [noneLost_iff isCrash]
      exact ⟨fun kept => ⟨kept, not_false⟩, And.left⟩
    · refine ⟨fun readable itsKind itsError itsSince isOther => ?_, fun all => all kind error since isWaiting⟩
      cases isWaiting.symm.trans isOther
      exact readable
  · rename_i isNone
    refine ⟨sound, running ▸ fun same => (by cases same), ⟨fun kept => ⟨kept, ?_⟩, And.left⟩⟩
    intro kind error since isWaiting
    cases isNone.symm.trans isWaiting

theorem outcome_flushSettled (sound : Sound options state) (running : state.process = .running) {id : Nat}
    {outcome : Except Thrown Unit} (stepped : state.flushSettled options id outcome = some next) :
    Outcome options (NoneLost state ∧ Harmless state (.flushSettled id outcome)) next := by
  rw [System.flushSettled] at stepped
  split at stepped
  · cases stepped
    have handled : forall state : System, state.settle (caught outcome) = state := fun state => by
      cases outcome with
      | ok value => rfl
      | error thrown => rfl
    rw [handled]
    have settled : Sound options { state with flushes := state.flushes.erase id } :=
      ⟨sound.crashes, sound.contained⟩
    exact outcome_wake mode settled running id
  · cases stepped

theorem outcome_budgetElapsed (sound : Sound options state) (running : state.process = .running) {id : Nat}
    (stepped : state.budgetElapsed options id = some next) :
    Outcome options (NoneLost state ∧ Harmless state (.budgetElapsed id)) next := by
  rw [System.budgetElapsed, Option.bind_eq_some_iff] at stepped
  rcases stepped with ⟨⟨kind, error, since⟩, _isWaiting, ended⟩
  dsimp only at ended
  split at ended
  · cases ended
    exact outcome_wake mode sound running id
  · cases ended

omit mode in
theorem outcome_elapse (sound : Sound options state) (running : state.process = .running) {time : Int}
    (stepped : state.elapse options time = some next) :
    Outcome options (NoneLost state ∧ Harmless state (.elapse time)) next := by
  rw [System.elapse] at stepped
  split at stepped
  · rename_i allowed
    cases stepped
    refine ⟨⟨fun id crash isCrash => ?_, sound.contained⟩, running ▸ fun same => (by cases same),
      ⟨fun kept => ⟨kept, trivial⟩, And.left⟩⟩
    have kept := sound.crashes id crash isCrash
    have inTime := allowed.2 crash (List.mem_of_getElem? isCrash)
    rw [Crash.Sound, running] at kept
    rw [Crash.Sound, running]
    cases isStage : crash.stage with
    | recording error =>
        rw [isStage] at kept
        exact kept
    | flushing error since =>
        rw [isStage] at inTime
        exact of_decide_eq_true inTime
    | exiting since =>
        rw [isStage] at kept
        exact kept
    | returned => trivial
    | dropped thrown => trivial
  · cases stepped

/-! ## Every step -/

omit mode in
theorem whenIdle_eq_some {result : Option System} (stepped : state.whenIdle result = some next) :
    state.recording = none ∧ result = some next := by
  rw [System.whenIdle] at stepped
  split at stepped
  · cases stepped
  · rename_i free
    exact ⟨free, stepped⟩

omit mode in
theorem honoured_drained (sound : Sound options state) (running : state.process = .running)
    (free : state.recording = none) :
    Sound options { state with process := .drained } ∧
      (Honoured options { state with process := .drained } <-> Honoured options state ∧ Harmless state .drained) := by
  have alive : state.process ≠ .drained := running ▸ fun same => (by cases same)
  refine ⟨⟨fun _id _crash _isCrash => trivial, sound.contained⟩, ?_⟩
  constructor
  · intro honoured
    have none : state.crashes = [] := by
      refine List.eq_nil_iff_forall_not_mem.mpr fun crash member => ?_
      rcases List.mem_iff_getElem?.mp member with ⟨id, isCrash⟩
      exact not_honoured_of_drained rfl (honoured.crashes id crash isCrash)
    refine ⟨⟨fun id crash isCrash => ?_, fun _running _free someCrash => absurd none someCrash, sound.contained⟩,
      fun id => ?_⟩
    · rw [none] at isCrash
      cases isCrash
    · rw [System.waiting, none]
      rfl
  · rintro ⟨honoured, noWait⟩
    have kept := (sound.honoured_iff_noneLost alive).mp honoured
    refine ⟨fun id crash isCrash => ?_, fun isRunning => (by cases isRunning), sound.contained⟩
    rcases (sound.crashes id crash isCrash).exists_flushing running free (kept id crash isCrash) with
      ⟨error, since, isStage, _inTime⟩
    have waits : state.waiting id = some (crash.kind, error, since) := by
      refine waiting_eq_some.mpr ?_
      rw [← isStage]
      exact isCrash
    rw [noWait id] at waits
    cases waits

theorem honoured_step (event : System.Event) (sound : Sound options state)
    (stepped : state.step options event = some next) :
    Sound options next ∧ (Honoured options next <-> Honoured options state ∧ Harmless state event) := by
  rw [System.step.eq_def] at stepped
  split at stepped
  · rename_i running
    have alive : state.process ≠ .drained := running ▸ fun same => (by cases same)
    have concluded : Outcome options (NoneLost state ∧ Harmless state event) next ->
        Sound options next ∧ (Honoured options next <-> Honoured options state ∧ Harmless state event) := by
      intro outcome
      refine ⟨outcome.sound, ?_⟩
      rw [outcome.sound.honoured_iff_noneLost outcome.alive, sound.honoured_iff_noneLost alive]
      exact outcome.noneLost
    cases event with
    | capture raw kind started =>
        cases stepped
        exact concluded (outcome_capture mode sound running raw kind started)
    | recordCrash outcome started => exact concluded (outcome_recordCrash mode sound running stepped)
    | elapse time => exact concluded (outcome_elapse sound running (whenIdle_eq_some stepped).2)
    | flushSettled id outcome =>
        exact concluded (outcome_flushSettled mode sound running (whenIdle_eq_some stepped).2)
    | budgetElapsed id => exact concluded (outcome_budgetElapsed mode sound running (whenIdle_eq_some stepped).2)
    | drained =>
        rcases whenIdle_eq_some stepped with ⟨free, ended⟩
        cases ended
        exact honoured_drained sound running free
  · cases stepped

/-! ## Every run -/

/-- In `exit` mode a run keeps to the contract exactly when every step is harmless. -/
theorem honoured_iff (start : Int) (events : List System.Event) (final : System)
    (ran : Transition.runFrom (System.step options) { now := start } events = some final) :
    Honoured options final <-> Transition.Along (System.step options) Harmless { now := start } events := by
  have initial : Sound options { now := start } := ⟨fun _id _crash isCrash => (by cases isCrash), rfl⟩
  have begins : Honoured options { now := start } :=
    ⟨fun _id _crash isCrash => (by cases isCrash), fun _running _free someCrash => absurd rfl someCrash, rfl⟩
  have steps := @Transition.final_iff_along _ _ (System.step options) Harmless (Sound options) (Honoured options)
    (fun _state event _next sound stepped => (honoured_step mode event sound stepped).1)
    (fun _state event _next sound stepped => (honoured_step mode event sound stepped).2) _ _ _ initial ran
  rw [steps]
  exact and_iff_right begins

omit mode

def exitOptions : Options where
  exitMode := .exit
  exitCode := 1
  flushTimeoutMs := 2000

/-- A rejection with an error is recorded or not, and its flush never settles. -/
def wedgedFlush (error : ThrownError) (recorded : Except Raw Unit) : List System.Event :=
  [.capture (.error error) .unhandledRejection (.ok ()), .recordCrash recorded (.ok ()), .elapse 2000,
    .budgetElapsed 0]

def lostError : ThrownError := newError (units "lost")

theorem honoured_wedged :
    Exists fun final =>
      Transition.runFrom (System.step exitOptions) { now := 0 } (wedgedFlush lostError (.ok ())) = some final ∧
        Honoured exitOptions final := by
  refine ⟨_, rfl, (honoured_iff rfl 0 (wedgedFlush lostError (.ok ())) _ rfl).mpr ?_⟩
  refine Transition.along_cons rfl ⟨⟨_, rfl⟩, fun held => (by cases held)⟩ ?_
  refine Transition.along_cons rfl ⟨fun _failure isFailure => (by cases isFailure), fun throws => (by rcases throws with ⟨_, ⟨⟩⟩)⟩ ?_
  refine Transition.along_cons rfl trivial (Transition.along_cons rfl ?_ trivial)
  intro kind error since isWaiting
  cases isWaiting
  exact ⟨_, rfl⟩

/-- An error whose `stack` accessor throws, so that it cannot be recorded either. -/
def hostileError : ThrownError where
  stack := .throws (.typeError (units "no stack"))
  name := .value (.ok (units "Error"))
  message := .value (.ok (units "lost"))

theorem hostile_not_honoured :
    ¬ forall options, options.exitMode = .exit -> forall start events final,
      Transition.runFrom (System.step options) { now := start } events = some final -> Honoured options final := by
  intro all
  have honoured := all exitOptions rfl 0 (wedgedFlush hostileError (.error (.error (newError (units "no stack")))))
    _ rfl
  exact honoured.crashes 0 _ rfl

end CrashCapture
end Telescope
