import Telescope.Alerts.Alerter
import Telescope.Foundation.Transition

namespace Telescope
namespace Ai

/-!
# What a diagnoser is given

The context of a diagnosis is built of the exception's own content and of the other entries
of its batch: the request it happened in, and the latest queries, without their bindings.
-/

def RECENT_QUERY_LIMIT : Nat := 10

def QUERY_SQL_CHAR_LIMIT : Nat := 2000

structure DiagnoseRequestContext where
  route : Option Units
  method : Option Units
  statusCode : Option Number
  durationMs : Option Rat

structure DiagnoseContext where
  exceptionClass : Units
  message : Units
  stack : Option Units
  request : Option DiagnoseRequestContext
  url : Option Units
  userAgent : Option Units
  recentQueries : List Units
  client : Bool
  occurrenceCount : Nat

def REQUEST : Text := "request".toList
def QUERY : Text := "query".toList
def EXCEPTION : Text := "exception".toList
def CLIENT_EXCEPTION : Text := "client_exception".toList

/-- Clip an over-long statement, and mark the cut. -/
def clipSql (sql : Units) : Units :=
  if sql.length ≤ QUERY_SQL_CHAR_LIMIT then sql else sql.take QUERY_SQL_CHAR_LIMIT ++ units "…"

/-- The statements of the latest queries, the newest last. -/
def collectRecentQueries (batch : List (Entry Value)) : List Units :=
  let queries := (batch.filter fun member => decide (member.type = QUERY)).insertionSort
    fun left right => left.sequence ≤ right.sequence
  let recent := queries.drop (queries.length - RECENT_QUERY_LIMIT)
  recent.filterMap fun query => ((query.content.getString (units "sql")).filter fun sql => !sql.isEmpty).map clipSql

def findSiblingRequest (batch : List (Entry Value)) : Option (Entry Value) :=
  batch.find? fun member => decide (member.type = REQUEST)

/-- `buildDiagnoseContext`, on the batch that was read. -/
def buildDiagnoseContext (batch : List (Entry Value)) (entry : Entry Value) (occurrenceCount : Nat) : DiagnoseContext :=
  if entry.type = CLIENT_EXCEPTION then
    { exceptionClass := (entry.content.getString (units "name")).getD (units "Error")
      message := (entry.content.getString (units "message")).getD []
      stack := entry.content.getString (units "stack")
      request := none
      url := entry.content.getString (units "url")
      userAgent := entry.content.getString (units "userAgent")
      recentQueries := collectRecentQueries batch
      client := true
      occurrenceCount }
  else
    let request := findSiblingRequest batch
    { exceptionClass := (entry.content.getString (units "class")).getD (units "Error")
      message := (entry.content.getString (units "message")).getD []
      stack := entry.content.getString (units "stack")
      request := some
        { route := request.bind fun request => request.content.getString (units "uri")
          method := request.bind fun request => request.content.getString (units "method")
          statusCode := request.bind fun request => request.content.getNumber (units "statusCode")
          durationMs := request.bind Entry.durationMs }
      url := none
      userAgent := none
      recentQueries := collectRecentQueries batch
      client := false
      occurrenceCount }

end Ai
end Telescope

namespace Telescope
namespace Ai

open Alerts (Thrown)

/-!
# Diagnosing exceptions

One coordinator serves the button of the dashboard and the flushes of the recorder. Both
share a cache of the diagnoses by exception family; the automatic diagnoses are entered in
a map while they run. The store and the provider answer when they like, in any order, and
reject with any value.
-/

/-! ## The cache -/

structure CacheEntry where
  familyHash : Text
  markdown : Units
  storedAt : Int

structure CacheOptions where
  maxEntries : Nat
  ttlMs : Int

abbrev DiagnosisCache := List CacheEntry

namespace DiagnosisCache

variable (options : CacheOptions)

/-- The markdown of a family, or none on a miss; an expired entry is deleted. -/
def get (familyHash : Text) (now : Int) (entries : DiagnosisCache) : Option Units × DiagnosisCache :=
  match Recency.get CacheEntry.familyHash entries familyHash with
  | none => (none, entries)
  | some entry =>
      if now - entry.storedAt ≥ options.ttlMs then
        (none, Recency.remove CacheEntry.familyHash entries familyHash)
      else (some entry.markdown, entries)

/-- Store or refresh a diagnosis, and drop the oldest ones over the cap. -/
def set (familyHash : Text) (markdown : Units) (now : Int) (entries : DiagnosisCache) : DiagnosisCache :=
  (Recency.shed (options.maxEntries < ·)
    (Recency.touch CacheEntry.familyHash entries ⟨familyHash, markdown, now⟩)).2

end DiagnosisCache

/-! ## The coordinator -/

inductive Mode
  | auto
  | onDemand
  deriving DecidableEq

structure CoordinatorOptions where
  mode : Mode
  cache : CacheOptions
  maxFamilies : Nat

/-- `AUTO_NEW_FAMILY_WINDOW`, in milliseconds. -/
def newFamilyWindowMs : Nat := Alerts.DEFAULT_EVERY_WINDOW.ms

/-- Who waits for a diagnosis: nobody but the map of the running ones, or a caller of
`diagnose`. -/
inductive Origin
  | automatic (familyHash : Text)
  | manual

/-- What a running diagnosis awaits: the entries of the batch, or the provider. -/
inductive Stage
  | reading
  | asking (context : DiagnoseContext)

/-- A call of `runDiagnosis`, or of `diagnose` past its cache. -/
structure Task where
  id : Nat
  entry : Entry Value
  occurrenceCount : Nat
  origin : Origin
  stage : Stage

/-- The family and the promise that an automatic diagnosis has in the map. -/
def Task.automatic (task : Task) : Option (Text × Nat) :=
  match task.origin with
  | .automatic familyHash => some (familyHash, task.id)
  | .manual => none

/-- The family that a success is stored under. -/
def Task.familyHash (task : Task) : Option Text :=
  match task.origin with
  | .automatic familyHash => some familyHash
  | .manual => task.entry.familyHash

/-- The state, with a record of all diagnoses that came to be stored, and of the promises
of the flush hook that were rejected. -/
structure Coordinator where
  cache : DiagnosisCache := []
  seen : List (Text × Int) := []
  inFlight : List (Text × Nat) := []
  running : List Task := []
  nextTask : Nat := 0
  logged : List Units := []
  diagnosed : List CacheEntry := []
  rejected : List (Nat × Thrown) := []

/-- What a caller of the hook holds: a settled promise, or the one of a running diagnosis. -/
inductive Promised
  | resolved (markdown : Option Units)
  | pending (task : Nat)

/-- An entry of a flush, with the times that the two looks of the hook into the cache read. -/
structure Stored where
  entry : Entry Value
  hasTime : Int
  getTime : Int

namespace Coordinator

variable (options : CoordinatorOptions)

def start (entry : Entry Value) (occurrenceCount : Nat) (origin : Origin) (state : Coordinator) : Coordinator :=
  { state with
    running := state.running ++ [⟨state.nextTask, entry, occurrenceCount, origin, .reading⟩]
    nextTask := state.nextTask + 1 }

def lookup (familyHash : Text) (now : Int) (state : Coordinator) : Option Units × Coordinator :=
  let found := state.cache.get options.cache familyHash now
  (found.1, { state with cache := found.2 })

/-- Diagnose a family unless it is cached or in flight. -/
def onNewFamily (stored : Stored) (occurrenceCount : Nat) (state : Coordinator) : Promised × Coordinator :=
  match stored.entry.familyHash with
  | none => (.resolved none, state)
  | some familyHash =>
      let has := state.lookup options familyHash stored.hasTime
      if has.1.isSome then
        let got := has.2.lookup options familyHash stored.getTime
        (.resolved got.1, got.2)
      else
        match Recency.get Prod.fst has.2.inFlight familyHash with
        | some existing => (.pending existing.2, has.2)
        | none =>
            let started := has.2.start stored.entry occurrenceCount (.automatic familyHash)
            (.pending has.2.nextTask,
              { started with inFlight := Recency.touch Prod.fst started.inFlight (familyHash, has.2.nextTask) })

/-- One entry of a flush: a family that is new to its window is diagnosed. -/
def observeEntry (nowMs : Int) (state : Coordinator) (stored : Stored) : Coordinator :=
  if stored.entry.type ≠ EXCEPTION ∧ stored.entry.type ≠ CLIENT_EXCEPTION then state
  else
    match stored.entry.familyHash with
    | none => state
    | some familyHash =>
        let observed := Alerts.observe options.maxFamilies familyHash nowMs newFamilyWindowMs state.seen
        let state := { state with seen := observed.2 }
        if observed.1 then (state.onNewFamily options stored 1).2 else state

def observeFlush (storedEntries : List Stored) (nowMs : Int) (state : Coordinator) : Coordinator :=
  match options.mode with
  | .onDemand => state
  | .auto => storedEntries.foldl (observeEntry options nowMs) state

/-- A request for a diagnosis: answered from the cache, unless forced. -/
def diagnose (entry : Entry Value) (occurrenceCount : Nat) (force : Bool) (now : Int) (state : Coordinator) :
    Promised × Coordinator :=
  let fresh (state : Coordinator) := (Promised.pending state.nextTask, state.start entry occurrenceCount .manual)
  match entry.familyHash with
  | none => fresh state
  | some familyHash =>
      if force then fresh state
      else
        let cached := state.lookup options familyHash now
        if cached.1.isSome then (.resolved cached.1, cached.2) else fresh cached.2

def peekCached (entry : Entry Value) (now : Int) (state : Coordinator) : Option Units × Coordinator :=
  match entry.familyHash with
  | none => (none, state)
  | some familyHash => state.lookup options familyHash now

/-- What an alert waits for: a cached diagnosis, one in flight, or none. -/
def awaitForAlert (familyHash : Text) (now : Int) (state : Coordinator) : Promised × Coordinator :=
  let cached := state.lookup options familyHash now
  if cached.1.isSome then (.resolved cached.1, cached.2)
  else
    match Recency.get Prod.fst cached.2.inFlight familyHash with
    | none => (.resolved none, cached.2)
    | some pending => (.pending pending.2, cached.2)

/-! ### Answers -/

def task (id : Nat) (state : Coordinator) : Option Task := Recency.get Task.id state.running id

/-- The batch has been read: its context goes to the provider. -/
def batchRead (id : Nat) (batch : List (Entry Value)) (state : Coordinator) : Option Coordinator :=
  (state.task id).bind fun task =>
    match task.stage with
    | .asking _context => none
    | .reading =>
        some { state with
          running := state.running.map fun other =>
            if other.id = id then
              { other with stage := .asking (buildDiagnoseContext batch task.entry task.occurrenceCount) }
            else other }

/-- The task ends; the entry of an automatic one is taken out of the map. -/
def finish (task : Task) (state : Coordinator) : Coordinator :=
  { state with
    running := Recency.remove Task.id state.running task.id
    inFlight :=
      match task.origin with
      | .automatic familyHash => Recency.remove Prod.fst state.inFlight familyHash
      | .manual => state.inFlight }

def store (familyHash : Text) (markdown : Units) (now : Int) (state : Coordinator) : Coordinator :=
  { state with
    cache := state.cache.set options.cache familyHash markdown now
    diagnosed := state.diagnosed ++ [⟨familyHash, markdown, now⟩] }

/-- The provider has answered. -/
def answered (id : Nat) (markdown : Units) (now : Int) (state : Coordinator) : Option Coordinator :=
  (state.task id).bind fun task =>
    match task.stage with
    | .reading => none
    | .asking _context =>
        match task.familyHash with
        | none => some (state.finish task)
        | some familyHash => some ((state.store options familyHash markdown now).finish task)

def failedWarning (familyHash : Text) (message : Units) : Units :=
  units "Telescope AI auto-diagnosis failed for family " ++ units (String.ofList familyHash) ++ units ": " ++ message

/-- The store or the provider has rejected. The handler of an automatic diagnosis logs the
message of the value, and rejects itself where that cannot be read. -/
def failed (id : Nat) (reason : Thrown) (state : Coordinator) : Option Coordinator :=
  (state.task id).map fun task =>
    match task.origin with
    | .manual => state.finish task
    | .automatic familyHash =>
        match reason.message with
        | .ok message =>
            ({ state with logged := state.logged ++ [failedWarning familyHash message] } : Coordinator).finish task
        | .error thrown => ({ state with rejected := state.rejected ++ [(id, thrown)] } : Coordinator).finish task

/-! ### Runs -/

inductive Event
  | observeFlush (storedEntries : List Stored) (nowMs : Int)
  | onNewFamily (stored : Stored) (occurrenceCount : Nat)
  | diagnose (entry : Entry Value) (occurrenceCount : Nat) (force : Bool) (now : Int)
  | peekCached (entry : Entry Value) (now : Int)
  | awaitForAlert (familyHash : Text) (now : Int)
  | batchRead (id : Nat) (batch : List (Entry Value))
  | answered (id : Nat) (markdown : Units) (now : Int)
  | failed (id : Nat) (reason : Thrown)

def step (state : Coordinator) : Event -> Option Coordinator
  | .observeFlush storedEntries nowMs => some (state.observeFlush options storedEntries nowMs)
  | .onNewFamily stored occurrenceCount => some (state.onNewFamily options stored occurrenceCount).2
  | .diagnose entry occurrenceCount force now => some (state.diagnose options entry occurrenceCount force now).2
  | .peekCached entry now => some (state.peekCached options entry now).2
  | .awaitForAlert familyHash now => some (state.awaitForAlert options familyHash now).2
  | .batchRead id batch => state.batchRead id batch
  | .answered id markdown now => state.answered options id markdown now
  | .failed id reason => state.failed id reason

end Coordinator

end Ai
end Telescope
