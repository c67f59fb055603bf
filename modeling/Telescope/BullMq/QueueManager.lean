import Telescope.Core.Numeral
import Telescope.Foundation.OffsetPages

namespace Telescope
namespace BullMq

/-!
# The jobs of a BullMQ queue

The manager lists the jobs of a queue page by page.  It asks the queue for one job more than
the page holds, and there is a next page when that many jobs came.  The queue answers with
nothing in place of a job whose data is gone, and such places are left out before the jobs
are counted.
-/

inductive QueueState
  | waiting
  | active
  | delayed
  | failed
  | completed
  | paused
  deriving DecidableEq

def STATE_TO_BULL : QueueState -> Units
  | .waiting => units "wait"
  | .active => units "active"
  | .delayed => units "delayed"
  | .failed => units "failed"
  | .completed => units "completed"
  | .paused => units "paused"

def DEFAULT_LIMIT : Nat := 50

structure BullJobLike where
  id : Option Units := none
  name : Option Units := none
  opts : Value := .undefined
  attemptsMade : Option Number := none
  timestamp : Option Number := none
  processedOn : Option Number := none
  finishedOn : Option Number := none
  failedReason : Option Units := none
  progress : Value := .undefined

structure QueueJob where
  id : Units
  name : Units
  state : QueueState
  attemptsMade : Number
  maxAttempts : Option Number
  timestamp : Option Number
  processedOn : Option Number
  finishedOn : Option Number
  failedReason : Option Units
  progress : Option Number
  deriving DecidableEq

structure JobPage where
  jobs : List QueueJob
  nextCursor : Option Units
  total : Option Nat

structure PageRequest where
  cursor : Option Units := none
  limit : Option Int := none

/-- A queue, by the answers of its `getJobs`; there is nothing where a job is missing. -/
structure QueueLike where
  name : Units
  getJobs : Units -> Nat -> Nat -> Bool -> List (Option BullJobLike)

structure BullMqQueueManager where
  queues : Units -> Option QueueLike

def readMaxAttempts (opts : Value) : Option Number := if opts.isRecord then opts.getNumber (units "attempts") else none

def toJob (job : BullJobLike) (state : QueueState) : QueueJob where
  id := job.id.getD []
  name := job.name.getD []
  state := state
  attemptsMade := job.attemptsMade.getD (.finite 0)
  maxAttempts := readMaxAttempts job.opts
  timestamp := job.timestamp
  processedOn := job.processedOn
  finishedOn := job.finishedOn
  failedReason := job.failedReason
  progress := job.progress.number?

/-- The page size of a request. -/
def pageLimit (page : PageRequest) : Nat :=
  match page.limit with
  | some limit => if 0 < limit then limit.toNat else DEFAULT_LIMIT
  | none => DEFAULT_LIMIT

/-- An empty cursor counts as none. -/
def pageStart (page : PageRequest) : Nat :=
  match page.cursor with
  | some cursor => if cursor ≠ [] then (max 0 ((Number.parseInt cursor).getD 0)).toNat else 0
  | none => 0

/-- One job more than the limit is fetched, the end being inclusive. -/
def jobPage (target : QueueLike) (state : QueueState) (page : PageRequest) : JobPage :=
  let limit := pageLimit page
  let start := pageStart page
  let raw := target.getJobs (STATE_TO_BULL state) start (start + limit) false
  let bullJobs := raw.reduceOption
  { jobs := (bullJobs.take limit).map fun job => toJob job state
    nextCursor := if limit < bullJobs.length then some (Number.digits (start + limit)) else none
    total := none }

/-- `BullMqQueueManager.listJobs` -/
def listJobs (manager : BullMqQueueManager) (queue : Units) (state : QueueState) (page : PageRequest) :
    Except Units JobPage :=
  match manager.queues queue with
  | none => .error (units "Unknown bullmq queue: " ++ queue)
  | some target => .ok (jobPage target state page)

/-! ## Following the cursor -/

/-- What a page shows, and where it leads. -/
def fetchJobs (manager : BullMqQueueManager) (queue : Units) (state : QueueState) (limit : Int)
    (cursor : Option Units) : List QueueJob × Option (Option Units) :=
  match listJobs manager queue state { cursor, limit := some limit } with
  | .error _message => ([], none)
  | .ok page => (page.jobs, page.nextCursor.map some)

/-- The queue answers with the places of a list that does not change. -/
def Serves (target : QueueLike) (state : QueueState) (places : List (Option BullJobLike)) : Prop :=
  forall start stop, target.getJobs (STATE_TO_BULL state) start stop false = (places.drop start).take (stop + 1 - start)

/-- From the first page on, the pages come to an end and show every job that is there once,
in the order of the list. -/
def ListsAll (manager : BullMqQueueManager) (queue : Units) (state : QueueState) (limit : Int)
    (places : List (Option BullJobLike)) : Prop :=
  Exists fun pages => FollowsCursor (fetchJobs manager queue state limit) none pages ∧
    pages.flatten = places.reduceOption.map fun job => toJob job state

section Paging

variable {manager : BullMqQueueManager} {queue : Units} {target : QueueLike} {state : QueueState}
  {places : List (Option BullJobLike)} {limit : Int}

/-- A page shows a page of the list. -/
theorem fetchJobs_eq (found : manager.queues queue = some target) (serves : Serves target state places)
    (positive : 1 ≤ limit) {cursor : Option Units} {offset : Nat}
    (starts : pageStart { cursor, limit := some limit } = offset) :
    fetchJobs manager queue state limit cursor =
      (((gappedPage places limit.toNat offset).1).map fun job => toJob job state,
        (gappedPage places limit.toNat offset).2.map fun offset => some (Number.digits offset)) := by
  have size : pageLimit { cursor, limit := some limit } = limit.toNat := if_pos (by omega)
  have fetched : offset + limit.toNat + 1 - offset = limit.toNat + 1 := by omega
  rw [fetchJobs, listJobs, found]
  dsimp only
  rw [jobPage, size, starts]
  dsimp only
  rw [serves, fetched, gappedPage]
  dsimp only
  split
  · rfl
  · rfl

theorem pageStart_digits (offset : Nat) (limit : Option Int) :
    pageStart { cursor := some (Number.digits offset), limit } = offset := by
  rw [pageStart]
  dsimp only
  rw [if_pos (Number.digits_ne_nil offset), Number.parseInt_digits, Option.getD_some]
  omega

/-- The pages of the list are shown one after another. -/
theorem follows_shown (found : manager.queues queue = some target) (serves : Serves target state places)
    (positive : 1 ≤ limit) {offset : Nat} {pages : List (List BullJobLike)}
    (follows : FollowsCursor (gappedPage places limit.toNat) offset pages) {cursor : Option Units}
    (starts : pageStart { cursor, limit := some limit } = offset) :
    FollowsCursor (fetchJobs manager queue state limit) cursor (pages.map (List.map fun job => toJob job state)) := by
  induction follows generalizing cursor with
  | last done =>
      have page := fetchJobs_eq found serves positive starts
      rw [done] at page
      have shown := FollowsCursor.last (congrArg Prod.snd page)
      rw [page] at shown
      exact shown
  | more continues _ inductionHypothesis =>
      have page := fetchJobs_eq found serves positive starts
      rw [continues] at page
      have shown := FollowsCursor.more (congrArg Prod.snd page) (inductionHypothesis (pageStart_digits _ _))
      rw [page] at shown
      exact shown

/-- Every job is listed just where no job stands behind the page of the first missing one. -/
theorem listsAll_iff (found : manager.queues queue = some target) (serves : Serves target state places)
    (positive : 1 ≤ limit) : ListsAll manager queue state limit places <-> ReachesAll places limit.toNat := by
  rcases exists_followsCursor (by omega : 0 < limit.toNat) places 0 with ⟨pages, follows, front, all⟩
  rw [List.drop_zero] at front all
  have shown := follows_shown found serves positive follows
    (rfl : pageStart { cursor := none, limit := some limit } = 0)
  have flatten : (pages.map (List.map fun job => toJob job state)).flatten =
      pages.flatten.map fun job => toJob job state := List.map_flatten.symm
  rw [<- all]
  constructor
  · rintro ⟨others, otherFollows, listed⟩
    rw [otherFollows.unique shown, flatten] at listed
    have length := congrArg List.length listed
    rw [List.length_map, List.length_map] at length
    exact front.eq_of_length length
  · intro complete
    exact ⟨_, shown, by rw [flatten, complete]⟩

end Paging

/-! ## A missing job -/

def servingQueue (places : List (Option BullJobLike)) : QueueLike where
  name := units "mail"
  getJobs _type start stop _asc := (places.drop start).take (stop + 1 - start)

def servingManager (places : List (Option BullJobLike)) : BullMqQueueManager := ⟨fun _name => some (servingQueue places)⟩

def sampleJob (id : String) : BullJobLike := { id := some (units id) }

/-- A job is missing at the end. -/
theorem listsAll_gap_at_end :
    ListsAll (servingManager [some (sampleJob "1"), some (sampleJob "2"), none]) (units "mail") .failed 2
      [some (sampleJob "1"), some (sampleJob "2"), none] := by
  refine (listsAll_iff rfl (fun _start _stop => rfl) (by decide)).mpr ?_
  intro gap _isGap place row isRow
  have within := (List.getElem?_eq_some_iff.mp isRow).1
  change place < 3 at within
  change place ≤ ((gap - 1) / 2 + 1) * 2
  omega

/-- The page of a missing job is taken for the last one. -/
theorem gap_not_listed :
    Serves (servingQueue [none, some (sampleJob "1"), some (sampleJob "2")]) .failed
        [none, some (sampleJob "1"), some (sampleJob "2")] ∧
      ¬ ListsAll (servingManager [none, some (sampleJob "1"), some (sampleJob "2")]) (units "mail") .failed 1
        [none, some (sampleJob "1"), some (sampleJob "2")] := by
  refine ⟨fun _start _stop => rfl, ?_⟩
  rintro ⟨pages, follows, listed⟩
  have last : FollowsCursor (fetchJobs (servingManager [none, some (sampleJob "1"), some (sampleJob "2")])
    (units "mail") .failed 1) none _ := .last rfl
  rw [follows.unique last] at listed
  exact absurd listed (by decide)

end BullMq
end Telescope
