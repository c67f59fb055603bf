import Telescope.Alerts.Handlers
import Telescope.Foundation.PromiseChain

namespace Telescope
namespace Alerts

/-!
# The queue of flush evaluations

`evaluateFlush` queues the exceptions of a flush behind those of the flushes before it
and counts the entries that are waiting.  What a run interleaves is calls of
`evaluateFlush`, replies to the evaluation at work, and the steps of the queue.
-/

/-- The exceptions of one flush, and the instant at which they came. -/
structure FlushJob where
  exceptions : List (Entry Value)
  nowMs : Int

def MAX_PENDING_FLUSH_ENTRIES : Nat := 10000

def BACKLOG_WARNING : Units :=
  units "Telescope exception alerts are falling behind the flushes; " ++
    units "skipping evaluation for some exceptions until they catch up."

abbrev FlushChain := PromiseChain FlushJob Request Reply Memory Thrown

/-- The alerter's queue. -/
structure FlushQueue where
  chain : FlushChain
  pendingFlushEntries : Nat
  warnedFlushBacklog : Bool
  logged : List Units

/-- A flush that came with exceptions, and whether it was skipped over the cap. -/
structure FlushCall where
  job : FlushJob
  skipped : Bool

/-- The queue, and the flushes that came with exceptions. -/
structure System where
  queue : FlushQueue
  called : List FlushCall

inductive Event
  | evaluateFlush (storedEntries : List (Entry Value)) (now : Int)
  | reply (answers : (request : Request) -> Reply request)
  | proceed

namespace System

def initial : System := ⟨⟨{ memory := {} }, 0, false, []⟩, []⟩

/-- The entries that feed the exception rules. -/
def isFlushException (entry : Entry Value) : Bool :=
  decide (entry.type = "exception".toList ∨ entry.type = "client_exception".toList) &&
    entry.familyHash.isSome

variable (deps : TelescopeAlerterDeps)

/-- The work of a job in the queue. -/
def evaluation (job : FlushJob) : Evaluation PUnit := evaluateExceptions deps job.exceptions job.nowMs

/-- `evaluateFlush`.  The promise it returns resolves at once unless the flush is queued. -/
def evaluateFlush (system : System) (storedEntries : List (Entry Value)) (now : Int) : System :=
  if deps.newExceptionWindow = none ∧ deps.everyException = none then system
  else
    let job := FlushJob.mk (storedEntries.filter isFlushException) now
    if job.exceptions = [] then system
    else
      let queue := system.queue
      if MAX_PENDING_FLUSH_ENTRIES < queue.pendingFlushEntries + job.exceptions.length then
        { system with
          called := system.called ++ [⟨job, true⟩]
          queue := { queue with
            warnedFlushBacklog := true
            logged :=
              if queue.warnedFlushBacklog then queue.logged
              else queue.logged ++ [BACKLOG_WARNING] } }
      else
        { system with
          called := system.called ++ [⟨job, false⟩]
          queue := { queue with
            chain := queue.chain.enqueue job
            pendingFlushEntries := queue.pendingFlushEntries + job.exceptions.length } }

/-- The `finally` block of a job whose promise settles. -/
def finish (queue : FlushQueue) : Option FlushJob -> FlushQueue
  | none => queue
  | some job =>
      let pending := queue.pendingFlushEntries - job.exceptions.length
      { queue with
        pendingFlushEntries := pending
        warnedFlushBacklog := if pending = 0 then false else queue.warnedFlushBacklog }

def step (system : System) : Event -> Option System
  | .evaluateFlush storedEntries now => some (system.evaluateFlush deps storedEntries now)
  | .reply answers =>
      (system.queue.chain.answer answers).map fun chain =>
        { system with queue := { system.queue with chain := chain } }
  | .proceed =>
      (system.queue.chain.advance (evaluation deps)).map fun advanced =>
        { system with queue := finish { system.queue with chain := advanced.1 } advanced.2 }

/-! ## The account of the queue -/

/-- Entries in the jobs that have not settled. -/
def countEntries (jobs : List FlushJob) : Nat := (jobs.map fun job => job.exceptions.length).sum

/-- The flushes that were not skipped. -/
def queued (system : System) : List FlushJob :=
  (system.called.filter fun call => !call.skipped).map FlushCall.job

/-- The jobs of the queue are the flushes that were not skipped, and the counter counts
the entries of those that have not settled. -/
structure Counted (system : System) : Prop where
  jobs : system.queue.chain.jobs = system.queued
  pending : system.queue.pendingFlushEntries = countEntries system.queue.chain.unsettled

variable {deps} {system next : System}

theorem counted_initial : initial.Counted := ⟨rfl, rfl⟩

theorem countEntries_append (left right : List FlushJob) :
    countEntries (left ++ right) = countEntries left + countEntries right := by
  rw [countEntries, List.map_append, List.sum_append]
  rfl

/-- Everything `evaluateFlush` can do: nothing, skip a job, or queue it. -/
theorem evaluateFlush_cases (deps : TelescopeAlerterDeps) (system : System)
    (storedEntries : List (Entry Value)) (now : Int) :
    system.evaluateFlush deps storedEntries now = system ∨
    (Exists fun job => Exists fun warned => Exists fun logged =>
      system.evaluateFlush deps storedEntries now =
        { queue := { system.queue with warnedFlushBacklog := warned, logged := logged }
          called := system.called ++ [⟨job, true⟩] }) ∨
    (Exists fun job =>
      system.evaluateFlush deps storedEntries now =
        { system with
          queue := { system.queue with
            chain := system.queue.chain.enqueue job
            pendingFlushEntries := system.queue.pendingFlushEntries + job.exceptions.length }
          called := system.called ++ [⟨job, false⟩] }) := by
  unfold evaluateFlush
  split
  · exact .inl rfl
  · dsimp only
    split
    · exact .inl rfl
    · split
      · exact .inr (.inl ⟨_, _, _, rfl⟩)
      · exact .inr (.inr ⟨_, rfl⟩)

theorem counted_evaluateFlush (counted : system.Counted) (storedEntries : List (Entry Value)) (now : Int) :
    (system.evaluateFlush deps storedEntries now).Counted := by
  rcases evaluateFlush_cases deps system storedEntries now with
    same | ⟨job, warned, logged, skips⟩ | ⟨job, queues⟩
  · rw [same]
    exact counted
  · rw [skips]
    refine ⟨counted.jobs.trans ?_, counted.pending⟩
    rw [queued, queued, List.filter_append]
    exact congrArg (List.map FlushCall.job) (List.append_nil _).symm
  · rw [queues]
    refine ⟨?_, ?_⟩
    · change (system.queue.chain.enqueue job).jobs = queued { system with called := system.called ++ [⟨job, false⟩] }
      rw [PromiseChain.jobs_enqueue, counted.jobs, queued, queued, List.filter_append, List.map_append]
      rfl
    · change system.queue.pendingFlushEntries + job.exceptions.length =
        countEntries (system.queue.chain.enqueue job).unsettled
      rw [PromiseChain.unsettled_enqueue, countEntries_append, counted.pending]
      rfl

theorem counted_finish {chain : FlushChain} {settled : Option FlushJob} (counted : system.Counted)
    (jobs : chain.jobs = system.queue.chain.jobs)
    (unsettled : system.queue.chain.unsettled = settled.toList ++ chain.unsettled) :
    ({ system with queue := finish { system.queue with chain := chain } settled } : System).Counted := by
  have pending := counted.pending
  rw [unsettled, countEntries_append] at pending
  cases settled with
  | none => exact ⟨jobs.trans counted.jobs, pending.trans (Nat.zero_add _)⟩
  | some job =>
      refine ⟨jobs.trans counted.jobs, ?_⟩
      change system.queue.pendingFlushEntries - job.exceptions.length = countEntries chain.unsettled
      rw [pending]
      exact Nat.add_sub_cancel_left ..

theorem counted_step {event : Event} (counted : system.Counted)
    (stepped : system.step deps event = some next) : next.Counted := by
  cases event with
  | evaluateFlush storedEntries now =>
      cases stepped
      exact counted_evaluateFlush counted storedEntries now
  | reply answers =>
      rcases Option.map_eq_some_iff.mp stepped with ⟨chain, answered, rfl⟩
      have unsettled : system.queue.chain.unsettled = (none : Option FlushJob).toList ++ chain.unsettled :=
        (PromiseChain.unsettled_answer answered).symm
      exact counted_finish counted (PromiseChain.jobs_answer answered) unsettled
  | proceed =>
      rcases Option.map_eq_some_iff.mp stepped with ⟨⟨chain, settled⟩, advanced, rfl⟩
      exact counted_finish counted (PromiseChain.jobs_advance advanced)
        (PromiseChain.unsettled_advance advanced)

/-! ## Survival -/

/-- The reply can be read by the handlers it comes to. -/
def HarmlessStep (system : System) : Event -> Prop
  | .reply answers => system.queue.chain.Answers Harmless answers
  | _ => True

theorem alive_step {event : Event} (alive : system.queue.chain.Alive Harmless)
    (harmless : system.HarmlessStep event) (stepped : system.step deps event = some next) :
    next.queue.chain.Alive Harmless := by
  cases event with
  | evaluateFlush storedEntries now =>
      cases stepped
      rcases evaluateFlush_cases deps system storedEntries now with
        same | ⟨job, warned, logged, skips⟩ | ⟨job, queues⟩
      · rwa [same]
      · rw [skips]
        exact alive
      · rw [queues]
        exact PromiseChain.alive_enqueue alive job
  | reply answers =>
      rcases Option.map_eq_some_iff.mp stepped with ⟨chain, answered, rfl⟩
      exact PromiseChain.alive_answer alive harmless answered
  | proceed =>
      rcases Option.map_eq_some_iff.mp stepped with ⟨⟨chain, settled⟩, advanced, rfl⟩
      have never : forall job, Throwing.ThrowsOnly Harmless (fun _ => False) (evaluation deps job) :=
        fun job => evaluateExceptions_settles deps job.exceptions job.nowMs
      have kept := PromiseChain.alive_advance never alive advanced
      cases settled <;> exact kept

/-- One step of the queue on its own. -/
def eventOf (answers : (request : Request) -> Reply request) : PromiseChain.Move -> Event
  | .advance => .proceed
  | .answer => .reply answers

theorem runFrom_moves {answers : (request : Request) -> Reply request} {moves : List PromiseChain.Move}
    {last : FlushChain}
    (ran : Transition.runFrom (PromiseChain.move (evaluation deps) answers) system.queue.chain moves =
      some last) :
    Exists fun final =>
      Transition.runFrom (step deps) system (moves.map (eventOf answers)) = some final ∧
        final.queue.chain = last := by
  induction moves generalizing system with
  | nil => exact ⟨system, rfl, Option.some.inj ran⟩
  | cons move moves inductionHypothesis =>
      rcases Transition.runFrom_cons_eq_some.mp ran with ⟨chain, moved, rest⟩
      have stepped : Exists fun next =>
          system.step deps (eventOf answers move) = some next ∧ next.queue.chain = chain := by
        cases move with
        | advance =>
            rcases Option.map_eq_some_iff.mp moved with ⟨⟨advanced, settled⟩, isAdvanced, rfl⟩
            refine ⟨_, Option.map_eq_some_iff.mpr ⟨_, isAdvanced, rfl⟩, ?_⟩
            cases settled <;> rfl
        | answer => exact ⟨_, Option.map_eq_some_iff.mpr ⟨_, moved, rfl⟩, rfl⟩
      rcases stepped with ⟨next, stepped, rfl⟩
      rcases inductionHypothesis rest with ⟨final, onwards, reached⟩
      exact ⟨final, Transition.runFrom_cons_eq_some.mpr ⟨next, stepped, onwards⟩, reached⟩

variable (deps) in
/-- The queue survives: no promise of it was rejected, the flushes that were not skipped
are evaluated in order, the counter returns to zero, and whatever answers it from here
on, all promises settle. -/
structure Survives (system : System) : Prop where
  neverRejects : forall settlement, settlement ∈ system.queue.chain.settled -> settlement.2 = none
  evaluated : system.queue.chain.started ++ system.queue.chain.waiting = system.queued
  ran : system.queue.chain.started = system.queue.chain.settled.map Prod.fst ++ system.queue.chain.current
  returnsToZero : system.queue.chain.unsettled = [] -> system.queue.pendingFlushEntries = 0
  settles : forall answers : (request : Request) -> Reply request,
    Exists fun moves : List PromiseChain.Move => Exists fun last =>
      Transition.runFrom (step deps) system (moves.map (eventOf answers)) = some last ∧
        last.queue.chain.unsettled = []

/-- As long as the handlers can read what they are handed, the queue survives. -/
theorem flushQueue_survives (deps : TelescopeAlerterDeps) (events : List Event) (final : System)
    (harmless : Transition.Along (step deps) HarmlessStep initial events)
    (ran : Transition.runFrom (step deps) initial events = some final) : final.Survives deps := by
  have aliveAtFirst : initial.queue.chain.Alive Harmless :=
    ⟨rfl, fun _ member => (by cases member), rfl, fun _ _ running => (by cases running)⟩
  have kept : forall (system : System) (event : Event) (next : System),
      (system.queue.chain.Alive Harmless ∧ system.Counted) -> HarmlessStep system event ->
        system.step deps event = some next -> next.queue.chain.Alive Harmless ∧ next.Counted :=
    fun system event next both isHarmless stepped =>
      ⟨alive_step both.1 isHarmless stepped, counted_step both.2 stepped⟩
  rcases Transition.invariant_along kept ⟨aliveAtFirst, counted_initial⟩ harmless ran with ⟨alive, counted⟩
  refine ⟨alive.allFulfilled, alive.jobs_eq.symm.trans counted.jobs, alive.startedInOrder, ?_, ?_⟩
  · intro settled
    rw [counted.pending, settled]
    rfl
  · intro answers
    rcases PromiseChain.exists_moves_settled (evaluation deps) answers final.queue.chain with
      ⟨moves, last, moved, settled⟩
    rcases runFrom_moves moved with ⟨reached, onwards, rfl⟩
    exact ⟨moves, reached, onwards, settled⟩

/-- Servers of which every reply is harmless. -/
def HarmlessEvent : Event -> Prop
  | .reply answers => forall request, Harmless request (answers request)
  | _ => True

theorem harmless_along (deps : TelescopeAlerterDeps) {events : List Event}
    (harmless : forall event, event ∈ events -> HarmlessEvent event) (system : System) :
    Transition.Along (step deps) HarmlessStep system events := by
  induction events generalizing system with
  | nil => trivial
  | cons event events inductionHypothesis =>
      rw [List.forall_mem_cons] at harmless
      refine ⟨?_, fun next _stepped => inductionHypothesis harmless.2 next⟩
      cases event with
      | evaluateFlush | proceed => trivial
      | reply answers =>
          change PromiseChain.Answers Harmless system.queue.chain answers
          unfold PromiseChain.Answers
          split
          · exact harmless.1 _
          · trivial

/-! ## A rejection without a message -/

/-- One rule, and no hooks. -/
def plainDeps : TelescopeAlerterDeps where
  channels := [⟨"slack".toList⟩]
  dashboardUrl := none
  instanceId := ['p']
  cooldownMs := 0
  newExceptionWindow := some ⟨"1h".toList, rfl⟩
  everyException := none
  sharesFamilies := false
  looksUpGeo := false
  diagnoses := false
  maxFamilies := 10

def plainException (id familyHash : Text) : Entry Value where
  id := id
  batchId := ['b']
  type := "exception".toList
  familyHash := some familyHash
  content := .object []
  tags := []
  sequence := 0
  durationMs := none
  origin := .http
  instanceId := ['p']
  traceId := none
  spanId := none
  createdAt := 0

/-- Every request is rejected with one value. -/
def rejectAll (error : Thrown) : (request : Request) -> Reply request
  | .now => 0
  | .markFamilySeen _familyHash _nowMs _windowMs => .error error
  | .get _query => .error error
  | .batch _batchId => .error error
  | .geoLookup _clientIp => .error error
  | .diagnosisFor _familyHash => .error error
  | .send _payload => ⟨[], .error error⟩

/-- Two flushes, the first of which the store fails. -/
def failedRead (error : Thrown) : List Event :=
  [.evaluateFlush [plainException ['1'] ['f']] 0, .proceed, .reply (rejectAll error),
    .reply (rejectAll error), .proceed, .evaluateFlush [plainException ['2'] ['g']] 0, .proceed]

theorem rejectAll_harmless {error : Thrown} (readable : error.Readable) (request : Request) :
    Harmless request (rejectAll error request) := by
  rcases readable with ⟨text, isText⟩
  have handled : error.Handled := by
    intro thrown failed
    rw [isText] at failed
    cases failed
  cases request with
  | now => trivial
  | markFamilySeen | geoLookup =>
      intro other isOther
      cases isOther
      exact handled
  | get | batch | diagnosisFor =>
      intro other isOther
      cases isOther
      exact ⟨text, isText⟩
  | send payload =>
      refine ⟨fun other isOther => ?_, fun results isResults => by cases isResults⟩
      cases isOther
      exact ⟨text, isText⟩

/-- After an error with a message the next flush is evaluated. -/
theorem failedRead_survives :
    Exists fun final =>
      Transition.runFrom (step plainDeps) initial (failedRead (Thrown.typeError (units "gone"))) =
        some final ∧ final.Survives plainDeps := by
  refine ⟨_, rfl, flushQueue_survives plainDeps (failedRead (Thrown.typeError (units "gone"))) _
    (harmless_along plainDeps ?_ initial) rfl⟩
  intro event member
  have replies := rejectAll_harmless (Thrown.readable_typeError (units "gone"))
  rcases event with ⟨storedEntries, now⟩ | answers | _
  · trivial
  · simp only [failedRead, List.mem_cons, List.not_mem_nil, Event.reply.injEq, reduceCtorEq, false_or,
      or_false, or_self] at member
    subst member
    exact replies
  · trivial

/-- The store rejects a read with `undefined`.  The promise of that flush is rejected, and
the next flush is not evaluated. -/
theorem failedRead_not_survives :
    ¬ forall (deps : TelescopeAlerterDeps) (events : List Event) (final : System),
      Transition.runFrom (step deps) initial events = some final -> final.Survives deps := by
  intro survives
  have ran : (Transition.runFrom (step plainDeps) initial (failedRead .undefined)).isSome := rfl
  have survived := survives plainDeps (failedRead .undefined) _ (Option.some_get ran).symm
  have rejected : ((Transition.runFrom (step plainDeps) initial (failedRead .undefined)).get
      ran).queue.chain.settled.map (fun settlement => settlement.2.isNone) = [false, false] := rfl
  have none : false = true := by
    rcases List.map_eq_cons_iff.mp rejected with ⟨settlement, rest, isSettled, isNone, _⟩
    rw [← isNone, survived.neverRejects settlement (isSettled ▸ List.mem_cons_self ..)]
    rfl
  cases none

end System
end Alerts
end Telescope
