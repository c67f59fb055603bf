import Telescope.Foundation.Throwing
import Telescope.Foundation.Transition

namespace Telescope

universe u v w

/-!
# Jobs chained on one promise

Each job waits for the promise of the job before it: `tail = tail.then(work)`.  Where
that promise is fulfilled, the work of the job runs, and its promise settles as the
work does.  Where it is rejected, the work is skipped and the promise is rejected
with the same value, and so are all promises behind it.  If no work ever throws, every
job runs, in order.
-/

/-- The chain: the memory its works share, the job at work, the jobs behind it, and how
the last settled promise was rejected.  Beside it, the jobs whose work was started and
how promises settled. -/
structure PromiseChain (Job : Type w) (Request : Type u) (Reply : Request -> Type w)
    (State Thrown : Type w) where
  memory : State
  running : Option (Job × Program Request Reply (Except Thrown PUnit.{w + 1} × State)) := none
  waiting : List Job := []
  rejected : Option Thrown := none
  started : List Job := []
  settled : List (Job × Option Thrown) := []

namespace PromiseChain

variable {Job : Type w} {Request : Type u} {Reply : Request -> Type w} {State Thrown : Type w}

/-- The value of a failure. -/
def failure {α : Type w} : Except Thrown α -> Option Thrown
  | .ok _value => none
  | .error thrown => some thrown

/-- `tail = tail.then(work)`. -/
def enqueue (chain : PromiseChain Job Request Reply State Thrown) (job : Job) :
    PromiseChain Job Request Reply State Thrown :=
  { chain with waiting := chain.waiting ++ [job] }

/-- The promise of a job settles. -/
def settle (chain : PromiseChain Job Request Reply State Thrown) (job : Job) (rejected : Option Thrown) :
    PromiseChain Job Request Reply State Thrown :=
  { chain with rejected := rejected, settled := chain.settled ++ [(job, rejected)] }

/-- What the chain does by itself: start or skip the next job, or settle the promise of
a job whose work is over.  With it comes the job whose promise settles. -/
def advance (work : Job -> Throwing Request Reply State Thrown PUnit.{w + 1})
    (chain : PromiseChain Job Request Reply State Thrown) :
    Option (PromiseChain Job Request Reply State Thrown × Option Job) :=
  match chain.running with
  | some (job, .done (outcome, memory)) =>
      some (({ chain with memory := memory, running := none }).settle job (failure outcome), some job)
  | some (_job, .ask _request _resume) => none
  | none =>
      match chain.waiting with
      | [] => none
      | job :: rest =>
          match chain.rejected with
          | some thrown => some (({ chain with waiting := rest }).settle job (some thrown), some job)
          | none =>
              some
                ({ chain with
                    running := some (job, work job chain.memory)
                    waiting := rest
                    started := chain.started ++ [job] }, none)

/-- The work at hand is answered. -/
def answer (answers : (request : Request) -> Reply request)
    (chain : PromiseChain Job Request Reply State Thrown) :
    Option (PromiseChain Job Request Reply State Thrown) :=
  match chain.running with
  | some (job, .ask request resume) => some { chain with running := some (job, resume (answers request)) }
  | _ => none

/-- What is awaited is answered as allowed. -/
def Answers (allowed : (request : Request) -> Reply request -> Prop)
    (chain : PromiseChain Job Request Reply State Thrown)
    (answers : (request : Request) -> Reply request) : Prop :=
  match chain.running with
  | some (_job, .ask request _resume) => allowed request (answers request)
  | _ => True

/-! ## Jobs in order -/

/-- The job at work. -/
def current (chain : PromiseChain Job Request Reply State Thrown) : List Job :=
  chain.running.toList.map Prod.fst

/-- Jobs whose promise has not settled. -/
def unsettled (chain : PromiseChain Job Request Reply State Thrown) : List Job :=
  chain.current ++ chain.waiting

/-- All jobs, in the order in which they came. -/
def jobs (chain : PromiseChain Job Request Reply State Thrown) : List Job :=
  chain.settled.map Prod.fst ++ chain.unsettled

variable {work : Job -> Throwing Request Reply State Thrown PUnit.{w + 1}}
  {chain next : PromiseChain Job Request Reply State Thrown}

theorem unsettled_enqueue (job : Job) : (chain.enqueue job).unsettled = chain.unsettled ++ [job] :=
  (List.append_assoc ..).symm

theorem jobs_enqueue (job : Job) : (chain.enqueue job).jobs = chain.jobs ++ [job] := by
  rw [jobs, unsettled_enqueue, ← List.append_assoc]
  rfl

variable {settled : Option Job}

/-- Everything `advance` can do. -/
theorem advance_cases (advanced : chain.advance work = some (next, settled)) :
    (Exists fun job => Exists fun outcome => Exists fun memory =>
      chain.running = some (job, .done (outcome, memory)) ∧ settled = some job ∧
        next = ({ chain with memory := memory, running := none }).settle job (failure outcome)) ∨
    (Exists fun job => Exists fun rest => Exists fun thrown =>
      chain.running = none ∧ chain.waiting = job :: rest ∧ chain.rejected = some thrown ∧
        settled = some job ∧ next = ({ chain with waiting := rest }).settle job (some thrown)) ∨
    (Exists fun job => Exists fun rest =>
      chain.running = none ∧ chain.waiting = job :: rest ∧ chain.rejected = none ∧ settled = none ∧
        next =
          { chain with
            running := some (job, work job chain.memory)
            waiting := rest
            started := chain.started ++ [job] }) := by
  unfold advance at advanced
  split at advanced
  · rename_i job outcome memory running
    cases advanced
    exact .inl ⟨job, outcome, memory, running, rfl, rfl⟩
  · cases advanced
  · rename_i running
    split at advanced
    · cases advanced
    · rename_i job rest waiting
      split at advanced
      · rename_i thrown rejected
        cases advanced
        exact .inr (.inl ⟨job, rest, thrown, running, waiting, rejected, rfl, rfl⟩)
      · rename_i rejected
        cases advanced
        exact .inr (.inr ⟨job, rest, running, waiting, rejected, rfl, rfl⟩)

variable {answers : (request : Request) -> Reply request}

/-- Everything `answer` can do. -/
theorem answer_cases (answered : chain.answer answers = some next) :
    Exists fun job => Exists fun request => Exists fun resume =>
      chain.running = some (job, .ask request resume) ∧
        next = { chain with running := some (job, resume (answers request)) } := by
  unfold answer at answered
  split at answered
  · rename_i job request resume running
    cases answered
    exact ⟨job, request, resume, running, rfl⟩
  · cases answered

/-- The jobs without a settled promise are those after the step and the one that
settles in it. -/
theorem unsettled_advance (advanced : chain.advance work = some (next, settled)) :
    chain.unsettled = settled.toList ++ next.unsettled := by
  rcases advance_cases advanced with ⟨job, outcome, memory, running, rfl, rfl⟩ |
    ⟨job, rest, thrown, running, waiting, _, rfl, rfl⟩ | ⟨job, rest, running, waiting, _, rfl, rfl⟩
  · rw [unsettled, current, running]
    rfl
  · rw [unsettled, current, running, waiting]
    rfl
  · rw [unsettled, current, running, waiting]
    rfl

theorem unsettled_answer (answered : chain.answer answers = some next) : next.unsettled = chain.unsettled := by
  rcases answer_cases answered with ⟨job, request, resume, running, rfl⟩
  rw [unsettled, unsettled, current, current, running]
  rfl

theorem settled_advance (advanced : chain.advance work = some (next, settled)) :
    next.settled.map Prod.fst = chain.settled.map Prod.fst ++ settled.toList := by
  rcases advance_cases advanced with ⟨job, outcome, memory, running, rfl, rfl⟩ |
    ⟨job, rest, thrown, running, waiting, _, rfl, rfl⟩ | ⟨job, rest, running, waiting, _, rfl, rfl⟩
  · exact List.map_append ..
  · exact List.map_append ..
  · exact (List.append_nil _).symm

/-- The chain loses no job and keeps their order. -/
theorem jobs_advance (advanced : chain.advance work = some (next, settled)) :
    next.jobs = chain.jobs := by
  rw [jobs, jobs, settled_advance advanced, unsettled_advance advanced, List.append_assoc]

theorem jobs_answer (answered : chain.answer answers = some next) : next.jobs = chain.jobs := by
  rw [jobs, jobs, unsettled_answer answered]
  rcases answer_cases answered with ⟨job, request, resume, running, rfl⟩
  rfl

/-! ## Chains that survive -/

/-- No promise was rejected, every settled job was started, and the work at hand will
not throw as long as it is answered as allowed. -/
structure Alive (allowed : (request : Request) -> Reply request -> Prop)
    (chain : PromiseChain Job Request Reply State Thrown) : Prop where
  fulfilled : chain.rejected = none
  allFulfilled : forall settlement, settlement ∈ chain.settled -> settlement.2 = none
  startedInOrder : chain.started = chain.settled.map Prod.fst ++ chain.current
  ends : forall job program, chain.running = some (job, program) ->
    Throwing.Ends allowed (fun _ => False) program

variable {allowed : (request : Request) -> Reply request -> Prop}

/-- Every job of a living chain was started, or waits behind those that were. -/
theorem Alive.jobs_eq (alive : chain.Alive allowed) : chain.jobs = chain.started ++ chain.waiting := by
  rw [jobs, unsettled, alive.startedInOrder, List.append_assoc]

theorem alive_enqueue (alive : chain.Alive allowed) (job : Job) : (chain.enqueue job).Alive allowed :=
  ⟨alive.fulfilled, alive.allFulfilled, alive.startedInOrder, alive.ends⟩

theorem alive_advance (never : forall job, Throwing.ThrowsOnly allowed (fun _ => False) (work job))
    (alive : chain.Alive allowed) (advanced : chain.advance work = some (next, settled)) : next.Alive allowed := by
  rcases advance_cases advanced with ⟨job, outcome, memory, running, rfl, rfl⟩ |
    ⟨job, rest, thrown, _, _, rejected, _, _⟩ | ⟨job, rest, running, waiting, _, rfl, rfl⟩
  · have returned : failure outcome = none := by
      cases outcome with
      | ok value => rfl
      | error thrown => exact ((alive.ends job _ running).outcome thrown rfl).elim
    rw [returned]
    refine ⟨rfl, ?_, ?_, fun _ _ none => by cases none⟩
    · intro settlement member
      rcases List.mem_append.mp member with before | new
      · exact alive.allFulfilled settlement before
      · cases List.mem_singleton.mp new
        rfl
    · change chain.started = List.map Prod.fst (chain.settled ++ [(job, none)]) ++ []
      rw [alive.startedInOrder, current, running, List.map_append, List.append_nil]
      rfl
  · rw [alive.fulfilled] at rejected
    cases rejected
  · refine ⟨alive.fulfilled, alive.allFulfilled, ?_, ?_⟩
    · have startedBefore := alive.startedInOrder
      rw [current, running] at startedBefore
      change chain.started ++ [job] = List.map Prod.fst chain.settled ++ [job]
      rw [startedBefore]
      exact congrArg (· ++ [job]) (List.append_nil _)
    · intro other program isRunning
      cases isRunning
      exact (never job).ends chain.memory

theorem alive_answer (alive : chain.Alive allowed) (isAllowed : chain.Answers allowed answers)
    (answered : chain.answer answers = some next) :
    next.Alive allowed := by
  rcases answer_cases answered with ⟨job, request, resume, running, rfl⟩
  refine ⟨alive.fulfilled, alive.allFulfilled, ?_, ?_⟩
  · rw [alive.startedInOrder, current, current, running]
    rfl
  · intro other program isRunning
    cases isRunning
    rw [Answers, running] at isAllowed
    exact (alive.ends job _ running).answered isAllowed

/-! ## Chains that drain -/

/-- What the chain does on its own, in front of one server. -/
inductive Move
  | advance
  | answer

def move (work : Job -> Throwing Request Reply State Thrown PUnit.{w + 1})
    (answers : (request : Request) -> Reply request)
    (chain : PromiseChain Job Request Reply State Thrown) :
    Move -> Option (PromiseChain Job Request Reply State Thrown)
  | .advance => (chain.advance work).map Prod.fst
  | .answer => chain.answer answers

/-- The work at hand comes to its end. -/
theorem exists_moves_of_running (work : Job -> Throwing Request Reply State Thrown PUnit.{w + 1})
    (answers : (request : Request) -> Reply request)
    {chain : PromiseChain Job Request Reply State Thrown} {job : Job}
    {program : Program Request Reply (Except Thrown PUnit.{w + 1} × State)}
    (running : chain.running = some (job, program)) :
    Exists fun moves => Exists fun last =>
      Transition.runFrom (move work answers) chain moves = some last ∧
        last.running = none ∧ last.waiting = chain.waiting := by
  induction program generalizing chain with
  | done ended =>
      rcases ended with ⟨outcome, memory⟩
      have moved : move work answers chain .advance =
          some (({ chain with memory := memory, running := none }).settle job (failure outcome)) := by
        rw [move, advance, running]
        rfl
      exact ⟨[.advance], _, Transition.runFrom_cons_eq_some.mpr ⟨_, moved, rfl⟩, rfl, rfl⟩
  | ask request resume inductionHypothesis =>
      have moved : move work answers chain .answer =
          some { chain with running := some (job, resume (answers request)) } := by
        rw [move, answer, running]
      rcases @inductionHypothesis (answers request)
        { chain with running := some (job, resume (answers request)) } rfl with ⟨moves, last, ran, ended⟩
      exact ⟨.answer :: moves, last, Transition.runFrom_cons_eq_some.mpr ⟨_, moved, ran⟩, ended⟩

/-- Whatever the server, the promises of all jobs settle. -/
theorem exists_moves_settled (work : Job -> Throwing Request Reply State Thrown PUnit.{w + 1})
    (answers : (request : Request) -> Reply request)
    (chain : PromiseChain Job Request Reply State Thrown) :
    Exists fun moves => Exists fun last =>
      Transition.runFrom (move work answers) chain moves = some last ∧ last.unsettled = [] := by
  have idle : forall (waiting : List Job) (chain : PromiseChain Job Request Reply State Thrown),
      chain.running = none -> chain.waiting = waiting ->
      Exists fun moves => Exists fun last =>
        Transition.runFrom (move work answers) chain moves = some last ∧ last.unsettled = [] := by
    intro waiting
    induction waiting with
    | nil =>
        intro chain running none
        refine ⟨[], chain, rfl, ?_⟩
        rw [unsettled, current, running, none]
        rfl
    | cons job rest inductionHypothesis =>
        intro chain running waiting
        cases rejected : chain.rejected with
        | some thrown =>
            have moved : move work answers chain .advance =
                some (({ chain with waiting := rest }).settle job (some thrown)) := by
              rw [move, advance, running, waiting, rejected]
              rfl
            rcases inductionHypothesis (({ chain with waiting := rest }).settle job (some thrown)) running
              rfl with ⟨moves, last, ran, settled⟩
            exact ⟨.advance :: moves, last, Transition.runFrom_cons_eq_some.mpr ⟨_, moved, ran⟩, settled⟩
        | none =>
            let working : PromiseChain Job Request Reply State Thrown :=
              { chain with
                running := some (job, work job chain.memory)
                waiting := rest
                rejected := none
                started := chain.started ++ [job] }
            have moved : move work answers chain .advance = some working := by
              rw [move, advance, running, waiting, rejected]
              rfl
            have atWork : working.running = some (job, work job chain.memory) := rfl
            rcases exists_moves_of_running work answers atWork with ⟨moves, middle, ran, stopped, behind⟩
            rcases inductionHypothesis middle stopped behind with ⟨more, last, onwards, settled⟩
            exact ⟨.advance :: (moves ++ more), last,
              Transition.runFrom_cons_eq_some.mpr
                ⟨_, moved, Transition.runFrom_append_eq_some.mpr ⟨middle, ran, onwards⟩⟩, settled⟩
  cases running : chain.running with
  | none => exact idle chain.waiting chain running rfl
  | some atWork =>
      rcases exists_moves_of_running work answers running with
        ⟨moves, middle, ran, stopped, _⟩
      rcases idle middle.waiting middle stopped rfl with ⟨more, last, onwards, settled⟩
      exact ⟨moves ++ more, last, Transition.runFrom_append_eq_some.mpr ⟨middle, ran, onwards⟩, settled⟩

end PromiseChain
end Telescope
