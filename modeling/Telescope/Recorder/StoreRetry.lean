import Telescope.InMemory.Store
import Telescope.MikroOrm.Store
import Telescope.Recorder.Conservation
import Telescope.Redis.StoreTwice
import Telescope.Sqlite.Store

namespace Telescope
namespace Recorder

universe u v w

/-!
# The retry of an interrupted store

A call of `store()` may persist some or all of its chunk and reject all the
same: the reply of a server is lost, or the process of a database fails behind
the write.  The recorder then sends the same chunk a second time.  What that does
depends on how a provider writes: an upsert repeats without effect, a counter
counts the chunk again, and a plain insert fails on its own rows.
-/

variable {Input : Type u} {State : Type v} {C : Type w}

/-- How a provider answers `store()`: the state after a call that is not cut
short, or nothing where it rejects and leaves no trace; and the states a call may
leave behind that persisted something and rejects. -/
structure StoreBehaviour (State : Type v) (C : Type w) where
  store : State -> List (Entry C) -> Option State
  Interrupted : State -> List (Entry C) -> State -> Prop

namespace StoreBehaviour

variable (behaviour : StoreBehaviour State C)

/-- The second call resolves. -/
def accepts (after : State) (chunk : List (Entry C)) : Bool :=
  (behaviour.store after chunk).isSome

/-- The state the second call leaves. -/
def retried (after : State) (chunk : List (Entry C)) : State :=
  (behaviour.store after chunk).getD after

end StoreBehaviour

/-- What the host may do while a store is awaited. -/
def Event.IsCall {α : Type v} : Event Input α -> Prop
  | .record _ _ => True
  | .pause => True
  | .resume => True
  | .flush _ => True
  | _ => False

/-- `storeWithRetry` on a chunk whose first store is rejected, among calls of the
host. -/
def retryEvents {α : Type v} (during later : List (Event Input α)) (accepted : Bool) :
    List (Event Input α) :=
  .storeRejected :: (during ++ .delayElapsed ::
    (later ++ [if accepted then .storeResolved else .storeRejected]))

/-- An interrupted store and its retry leave what one successful store leaves,
and nothing is counted as dropped. -/
def StoresOnce (Input : Type u) (options : Options) (behaviour : StoreBehaviour State C)
    (state : State) (chunk : List (Entry C)) (system : System (Entry C) options.bufferSize) : Prop :=
  forall after, behaviour.Interrupted state chunk after ->
    behaviour.store state chunk = some (behaviour.retried after chunk) ∧
      forall during later : List (Event Input (Entry C)), (forall call, call ∈ during -> call.IsCall) ->
        (forall call, call ∈ later -> call.IsCall) ->
        Exists fun final =>
          Transition.runFrom (step options) system
              (retryEvents during later (behaviour.accepts after chunk)) = some final ∧
            final.recorder.storeFailedDrops = system.recorder.storeFailedDrops ∧
            final.history.storeFailed = system.history.storeFailed

/-- The flush in flight awaits the first store of a chunk. -/
def Awaits {α : Type v} {capacity : Nat} (system : System α capacity) (chunk : List α) : Prop :=
  Exists fun flight => Exists fun rest =>
    system.recorder.flushing = some flight ∧ flight.progress = .storing .first chunk rest

/-! ## The retry of the recorder -/

section Machine

variable {α : Type v} {options : Options}

/-- A call of the host leaves the flight and its losses alone. -/
structure Undisturbed {capacity : Nat} (system next : System α capacity) : Prop where
  flushing : next.recorder.flushing = system.recorder.flushing
  drops : next.recorder.storeFailedDrops = system.recorder.storeFailedDrops
  failed : next.history.storeFailed = system.history.storeFailed

theorem step_call {system : System α options.bufferSize} {call : Event Input α} (isCall : call.IsCall)
    {flight : Flight α} (flying : system.recorder.flushing = some flight) :
    Exists fun next => step options system call = some next ∧ Undisturbed system next := by
  cases call with
  | record seams input =>
      refine ⟨_, rfl, ?_⟩
      by_cases paused : system.recorder.paused = true
      · simp only [record, History.record, if_pos paused]
        exact ⟨rfl, rfl, rfl⟩
      · simp only [record, History.record, if_neg paused]
        cases captured : (seams.capture input).1 with
        | excluded => exact ⟨rfl, rfl, rfl⟩
        | failed => exact ⟨rfl, rfl, rfl⟩
        | admitted entry =>
            refine ⟨rfl, rfl, ?_⟩
            simp only [History.push]
            split <;> rfl
  | pause => exact ⟨_, rfl, rfl, rfl, rfl⟩
  | resume => exact ⟨_, rfl, rfl, rfl, rfl⟩
  | flush now =>
      refine ⟨_, rfl, ?_⟩
      simp only [flush, History.flush, flying]
      exact ⟨rfl, rfl, rfl⟩
  | storeResolved => exact isCall.elim
  | storeRejected => exact isCall.elim
  | delayElapsed => exact isCall.elim
  | rollupsSettled => exact isCall.elim
  | hookSettled => exact isCall.elim
  | flushSettled now => exact isCall.elim

/-- So do any number of calls, and what follows them may be reached. -/
theorem run_calls {calls : List (Event Input α)} (areCalls : forall call, call ∈ calls -> call.IsCall)
    {system : System α options.bufferSize} {flight : Flight α}
    (flying : system.recorder.flushing = some flight) (events : List (Event Input α)) :
    Exists fun next => Undisturbed system next ∧
      Transition.runFrom (step options) system (calls ++ events) =
        Transition.runFrom (step options) next events := by
  induction calls generalizing system with
  | nil => exact ⟨system, ⟨rfl, rfl, rfl⟩, rfl⟩
  | cons call calls inductionHypothesis =>
      rcases step_call (areCalls call (List.mem_cons_self ..)) flying with ⟨next, stepped, undisturbed⟩
      rcases inductionHypothesis (fun other member => areCalls other (List.mem_cons_of_mem _ member))
        (undisturbed.flushing.trans flying) with ⟨last, further, ran⟩
      refine ⟨last, ⟨further.flushing.trans undisturbed.flushing,
        further.drops.trans undisturbed.drops, further.failed.trans undisturbed.failed⟩, ?_⟩
      rw [List.cons_append, Transition.runFrom, stepped]
      exact ran

/-- The first rejection starts the delay. -/
theorem step_rejected {system : System α options.bufferSize} {chunk : List α}
    (awaits : Awaits system chunk) :
    Exists fun next => Exists fun flight => Exists fun rest =>
      step options system (Event.storeRejected : Event Input α) = some next ∧
        next.recorder.flushing = some flight ∧ flight.progress = .storing .backoff chunk rest ∧
        next.recorder.storeFailedDrops = system.recorder.storeFailedDrops ∧
        next.history.storeFailed = system.history.storeFailed := by
  rcases awaits with ⟨flight, rest, flying, first⟩
  have rejected : step options system (Event.storeRejected : Event Input α) = some
      { system with
        recorder :=
          { system.recorder.setProgress flight (.storing .backoff chunk rest) with
            retriedFlushCount := system.recorder.retriedFlushCount + 1 } } := by
    simp only [step, flying, advance, first]
  exact ⟨_, _, rest, rejected, rfl, rfl, rfl, rfl⟩

/-- The delay ends with the second store. -/
theorem step_delayed {system : System α options.bufferSize} {flight : Flight α} {chunk : List α}
    {rest : List (List α)} (flying : system.recorder.flushing = some flight)
    (waits : flight.progress = .storing .backoff chunk rest) :
    Exists fun next => Exists fun later =>
      step options system (Event.delayElapsed : Event Input α) = some next ∧
        next.recorder.flushing = some later ∧ later.progress = .storing .second chunk rest ∧
        next.recorder.storeFailedDrops = system.recorder.storeFailedDrops ∧
        next.history.storeFailed = system.history.storeFailed := by
  have elapsed : step options system (Event.delayElapsed : Event Input α) = some
      { system with recorder := system.recorder.setProgress flight (.storing .second chunk rest) } := by
    simp only [step, flying, advance, waits]
  exact ⟨_, _, elapsed, rfl, rfl, rfl, rfl⟩

/-- The second store loses nothing, or the whole chunk. -/
theorem step_settled {system : System α options.bufferSize} {flight : Flight α} {chunk : List α}
    {rest : List (List α)} (flying : system.recorder.flushing = some flight)
    (second : flight.progress = .storing .second chunk rest) (accepted : Bool) :
    Exists fun next =>
      step options system (if accepted then (Event.storeResolved : Event Input α) else .storeRejected) =
          some next ∧
        next.recorder.storeFailedDrops =
          system.recorder.storeFailedDrops + (if accepted then 0 else chunk.length) ∧
        next.history.storeFailed =
          system.history.storeFailed ++ (if accepted then [] else chunk) := by
  cases accepted with
  | true =>
      have resolved : step options system (Event.storeResolved : Event Input α) = some
          { recorder := system.recorder.setProgress flight (.rollups chunk rest)
            history := { system.history with stored := system.history.stored ++ chunk } } := by
        simp only [step, flying, advance, second]
      exact ⟨_, resolved, rfl, (List.append_nil _).symm⟩
  | false =>
      have rejected : step options system (Event.storeRejected : Event Input α) = some
          { recorder :=
              { system.recorder.setProgress flight (.next rest) with
                storeFailedDrops := system.recorder.storeFailedDrops + chunk.length }
            history :=
              { system.history with
                storeFailed := system.history.storeFailed ++ chunk }.notifyDrop
                  chunk.length .storeFailed } := by
        simp only [step, flying, advance, second]
      exact ⟨_, rejected, rfl, rfl⟩

/-- The retry of a chunk loses nothing, or all of it. -/
theorem run_retry {system : System α options.bufferSize} {chunk : List α} (awaits : Awaits system chunk)
    {during later : List (Event Input α)} (areDuring : forall call, call ∈ during -> call.IsCall)
    (areLater : forall call, call ∈ later -> call.IsCall) (accepted : Bool) :
    Exists fun final =>
      Transition.runFrom (step options) system (retryEvents during later accepted) = some final ∧
        final.recorder.storeFailedDrops =
          system.recorder.storeFailedDrops + (if accepted then 0 else chunk.length) ∧
        final.history.storeFailed =
          system.history.storeFailed ++ (if accepted then [] else chunk) := by
  rcases @step_rejected Input α options system chunk awaits with
    ⟨delayed, _, rest, rejected, flying, waits, drops, failed⟩
  rcases run_calls areDuring flying (.delayElapsed :: (later ++
    [if accepted then Event.storeResolved else .storeRejected])) with ⟨before, kept, ran⟩
  rcases @step_delayed Input α options before _ chunk rest (kept.flushing.trans flying) waits with
    ⟨retrying, _, elapsed, flyingAgain, second, dropsAgain, failedAgain⟩
  rcases run_calls areLater flyingAgain [if accepted then Event.storeResolved else .storeRejected] with
    ⟨last, keptAgain, ranAgain⟩
  rcases @step_settled Input α options last _ chunk rest (keptAgain.flushing.trans flyingAgain) second
    accepted with ⟨final, settled, lost, lostEntries⟩
  refine ⟨final, ?_, ?_, ?_⟩
  · rw [retryEvents, Transition.runFrom, rejected, Option.bind_some, ran, Transition.runFrom, elapsed,
      Option.bind_some, ranAgain, Transition.runFrom, settled]
    rfl
  · rw [lost, keptAgain.drops, dropsAgain, kept.drops, drops]
  · rw [lostEntries, keptAgain.failed, failedAgain, kept.failed, failed]

end Machine

/-! ## The providers -/

/-- An in-memory store runs to its end and never rejects. -/
def inMemoryBehaviour (locale : Locale) : StoreBehaviour (InMemory.Provider C) C where
  store := fun provider chunk => some (InMemory.store locale provider chunk)
  Interrupted := fun _ _ _ => False

/-- A transaction of upserts, of which any front may have landed. -/
def sqliteBehaviour : StoreBehaviour (EntryTable C) C where
  store := fun table chunk => some (Sqlite.store table chunk)
  Interrupted := fun table chunk after =>
    Exists fun count => after = (chunk.take count).foldl Sqlite.insertOrReplace table

/-- One `MULTI`, which lands whole; an empty chunk sends nothing. -/
def redisBehaviour [JsonContent C] : StoreBehaviour (Redis.Keyspace C) C where
  store := fun keyspace chunk => some (keyspace.store chunk)
  Interrupted := fun keyspace chunk after => chunk ≠ [] ∧ after = keyspace.store chunk

/-- One statement or one transaction, which lands whole; an empty chunk sends
nothing. -/
def mikroOrmBehaviour (batchSize : Nat) : StoreBehaviour (EntryTable C) C where
  store := MikroOrm.store batchSize
  Interrupted := fun table chunk after =>
    chunk ≠ [] ∧ MikroOrm.store batchSize table chunk = some after

/-- Where the second store is accepted, only the state is left to compare. -/
theorem storesOnce_iff_of_accepts {options : Options} {behaviour : StoreBehaviour State C}
    {state : State} {chunk : List (Entry C)} {system : System (Entry C) options.bufferSize}
    (awaits : Awaits system chunk)
    (accepts : forall after, behaviour.Interrupted state chunk after ->
      behaviour.accepts after chunk = true) :
    StoresOnce Input options behaviour state chunk system <->
      forall after, behaviour.Interrupted state chunk after ->
        behaviour.store state chunk = some (behaviour.retried after chunk) := by
  constructor
  · exact fun once after interrupted => (once after interrupted).1
  · intro same after interrupted
    refine ⟨same after interrupted, fun during later areDuring areLater => ?_⟩
    rcases run_retry awaits areDuring areLater true with ⟨final, ran, drops, failed⟩
    rw [accepts after interrupted]
    exact ⟨final, ran, drops, failed.trans (List.append_nil _)⟩

theorem foldl_insertOrReplace {chunk : List (Entry C)} (distinct : Entry.DistinctIds chunk)
    (table : EntryTable C) :
    (chunk.foldl Sqlite.insertOrReplace table).rows =
      (table.rows.filter fun row => !decide (row.id ∈ chunk.map Entry.id)) ++ chunk := by
  induction chunk generalizing table with
  | nil =>
      refine (List.filter_eq_self.mpr fun _ _ => ?_).symm.trans (List.append_nil _).symm
      rfl
  | cons entry chunk inductionHypothesis =>
      rcases List.nodup_cons.mp distinct with ⟨fresh, rest⟩
      rw [List.foldl_cons, inductionHypothesis rest, Sqlite.insertOrReplace, List.filter_append,
        List.filter_filter, List.filter_cons, if_pos (by rw [decide_eq_false fresh]; rfl),
        List.filter_nil, List.append_assoc, List.singleton_append]
      congr 1
      refine List.filter_congr fun row _ => ?_
      rw [← decide_not, ← decide_not, ← decide_not, ← Bool.decide_and]
      refine decide_eq_decide.mpr ?_
      rw [List.map_cons, List.mem_cons, not_or]
      exact and_comm

theorem entryTable_ext {left right : EntryTable C} (same : left.rows = right.rows) : left = right := by
  cases left
  cases right
  cases same
  rfl

/-- An upsert of a chunk of which a front has landed. -/
theorem sqlite_retried {chunk : List (Entry C)} (distinct : Entry.DistinctIds chunk)
    (table : EntryTable C) (count : Nat) :
    Sqlite.store ((chunk.take count).foldl Sqlite.insertOrReplace table) chunk =
      Sqlite.store table chunk := by
  rw [Sqlite.store, Sqlite.store]
  by_cases empty : chunk.length = 0
  · rw [if_pos empty, if_pos empty, List.length_eq_zero_iff.mp empty, List.take_nil]
    rfl
  · rw [if_neg empty, if_neg empty]
    refine entryTable_ext ?_
    rw [foldl_insertOrReplace distinct, foldl_insertOrReplace distinct, foldl_insertOrReplace
      (Entry.distinctIds_sublist (List.take_sublist count chunk) distinct)]
    congr 1
    rw [List.filter_append, List.filter_filter]
    have gone : ((chunk.take count).filter fun row => !decide (row.id ∈ chunk.map Entry.id)) = [] :=
      List.filter_eq_nil_iff.mpr fun row member => by
        rw [decide_eq_true (List.mem_map_of_mem (List.mem_of_mem_take member))]
        decide
    rw [gone, List.append_nil]
    refine List.filter_congr fun row _ => ?_
    rw [← decide_not, ← decide_not, ← Bool.decide_and]
    refine decide_eq_decide.mpr (and_iff_left_of_imp fun outside inside => outside ?_)
    exact (((List.take_sublist count chunk).map Entry.id).subset inside)

/-- An insert appends the rows, or fails on their keys. -/
theorem insertMany_eq_some_iff {table after : EntryTable C} {entries : List (Entry C)} :
    MikroOrm.insertMany table entries = some after <-> after.rows = table.rows ++ entries := by
  rw [MikroOrm.insertMany]
  constructor
  · intro inserted
    split at inserted
    · cases inserted
      rfl
    · cases inserted
  · intro rows
    have distinct := after.distinct
    rw [rows] at distinct
    rw [dif_pos distinct]
    exact congrArg some (entryTable_ext rows.symm)

/-- The slices of a chunk insert the chunk. -/
theorem insertSlices_eq_some_iff {batchSize : Nat} (positive : 0 < batchSize) (fuel : Nat)
    {table after : EntryTable C} {entries : List (Entry C)} (enough : entries.length ≤ fuel) :
    MikroOrm.insertSlices batchSize fuel table entries = some after <->
      after.rows = table.rows ++ entries := by
  have nothing : forall {table : EntryTable C}, some table = some after <->
      after.rows = table.rows ++ [] := by
    intro table
    rw [List.append_nil, Option.some.injEq]
    exact ⟨fun same => congrArg EntryTable.rows same.symm, fun rows => entryTable_ext rows.symm⟩
  induction fuel generalizing table entries with
  | zero =>
      cases List.length_eq_zero_iff.mp (Nat.le_zero.mp enough)
      exact nothing
  | succ fuel inductionHypothesis =>
      cases entries with
      | nil => exact nothing
      | cons entry entries =>
          rw [MikroOrm.insertSlices]
          have parts := List.take_append_drop batchSize (entry :: entries)
          have shorter : ((entry :: entries).drop batchSize).length ≤ fuel := by
            rw [List.length_drop]
            omega
          cases inserted : MikroOrm.insertMany table ((entry :: entries).take batchSize) with
          | none =>
              refine iff_of_false (fun found => by cases found) fun rows => ?_
              have distinct := after.distinct
              rw [rows, ← parts, ← List.append_assoc] at distinct
              have front := Entry.distinctIds_sublist (List.sublist_append_left _ _) distinct
              rw [insertMany_eq_some_iff.mpr (show (⟨_, front⟩ : EntryTable C).rows = _ from rfl)]
                at inserted
              cases inserted
          | some between =>
              dsimp only
              refine (inductionHypothesis shorter).trans ?_
              rw [insertMany_eq_some_iff.mp inserted, List.append_assoc, parts]

theorem mikroOrm_store_eq_some_iff {batchSize : Nat} (positive : 0 < batchSize)
    {table after : EntryTable C} {chunk : List (Entry C)} :
    MikroOrm.store batchSize table chunk = some after <-> after.rows = table.rows ++ chunk := by
  rw [MikroOrm.store]
  by_cases empty : chunk.length = 0
  · rw [if_pos empty, List.length_eq_zero_iff.mp empty, List.append_nil, Option.some.injEq]
    exact ⟨fun same => congrArg EntryTable.rows same.symm, fun rows => entryTable_ext rows.symm⟩
  · rw [if_neg empty]
    by_cases fits : chunk.length ≤ batchSize
    · rw [if_pos fits]
      exact insertMany_eq_some_iff
    · rw [if_neg fits]
      exact insertSlices_eq_some_iff positive _ (Nat.le_refl _)

/-! ## One successful store -/

/-- An interrupted store and its retry are one successful store in memory and in
SQLite; in Redis exactly when no entry of the chunk has a tag; and with MikroORM,
whose second insert fails on the rows of the first, only for the empty chunk. -/
theorem storesOnce_iff [JsonContent C] (Input : Type u) (options : Options) {chunk : List (Entry C)}
    (distinct : Entry.DistinctIds chunk) {system : System (Entry C) options.bufferSize}
    (awaits : Awaits system chunk) :
    (forall (locale : Locale) (provider : InMemory.Provider C),
      StoresOnce Input options (inMemoryBehaviour locale) provider chunk system) ∧
    (forall table : EntryTable C, StoresOnce Input options sqliteBehaviour table chunk system) ∧
    (forall keyspace : Redis.Keyspace C,
      (StoresOnce Input options redisBehaviour keyspace chunk system <->
        forall entry, entry ∈ chunk -> entry.tags = [])) ∧
    (forall (batchSize : Nat) (table : EntryTable C), 0 < batchSize ->
      Entry.DistinctIds (table.rows ++ chunk) ->
      (StoresOnce Input options (mikroOrmBehaviour batchSize) table chunk system <-> chunk = [])) := by
  refine ⟨fun _ _ _ interrupted => interrupted.elim, fun table => ?_, fun keyspace => ?_,
    fun batchSize table positive fresh => ?_⟩
  · refine (storesOnce_iff_of_accepts awaits fun _ _ => rfl).mpr ?_
    rintro after ⟨count, rfl⟩
    exact congrArg some (sqlite_retried distinct table count).symm
  · refine (storesOnce_iff_of_accepts awaits fun _ _ => rfl).trans ?_
    by_cases empty : chunk = []
    · subst empty
      exact iff_of_true (fun _ interrupted => (interrupted.1 rfl).elim) fun _ member => by cases member
    · rw [← Redis.store_store_iff keyspace distinct]
      constructor
      · intro once
        exact (Option.some.inj (once _ ⟨empty, rfl⟩)).symm
      · rintro same after ⟨_, rfl⟩
        exact congrArg some same.symm
  · constructor
    · intro once
      by_contra occupied
      have stored := (mikroOrm_store_eq_some_iff positive).mpr
        (show (⟨_, fresh⟩ : EntryTable C).rows = table.rows ++ chunk from rfl)
      have refused : (mikroOrmBehaviour batchSize).accepts ⟨_, fresh⟩ chunk = false := by
        refine Option.not_isSome_iff_eq_none.mpr ?_ |> Bool.eq_false_iff.mpr
        refine Option.eq_none_iff_forall_ne_some.mpr fun after accepted => ?_
        have twice := after.distinct
        rw [(mikroOrm_store_eq_some_iff positive).mp accepted, Entry.DistinctIds, List.map_append,
          List.map_append] at twice
        rcases List.exists_mem_of_ne_nil chunk occupied with ⟨entry, member⟩
        have isId := List.mem_map_of_mem (f := Entry.id) member
        exact (List.nodup_append.mp twice).2.2 _ (List.mem_append_right _ isId) _ isId rfl
      have no : forall call : Event Input (Entry C), call ∈ [] -> call.IsCall :=
        fun _ member => by cases member
      rcases (once _ ⟨occupied, stored⟩).2 [] [] no no with ⟨final, ran, drops, _⟩
      rcases run_retry awaits no no false with ⟨other, ranToo, lost, _⟩
      rw [refused, ranToo] at ran
      cases ran
      rw [lost] at drops
      have length := List.length_pos_iff.mpr occupied
      simp only [Bool.false_eq_true, if_false] at drops
      omega
    · rintro rfl after ⟨occupied, _⟩
      exact (occupied rfl).elim

/-- A recorder that flushes one entry. -/
def flushOne (entry : Entry Text) : List (Event (Entry Text) (Entry Text)) :=
  [.record admitAll entry, .flush 0]

theorem flushOne_awaits (entry : Entry Text) :
    Exists fun system =>
      Transition.Reachable (@step (Entry Text) (Entry Text) ⟨2, by decide, none⟩)
        (initial ⟨2, by decide, none⟩) system ∧ Awaits system [entry] :=
  ⟨_, ⟨flushOne entry, rfl⟩, _, [], rfl, rfl⟩

theorem storesOnce_untaggedChunk :
    Exists fun system =>
      Transition.Reachable (@step (Entry Text) (Entry Text) ⟨2, by decide, none⟩)
        (initial ⟨2, by decide, none⟩) system ∧
      StoresOnce (Entry Text) ⟨2, by decide, none⟩ redisBehaviour Redis.Keyspace.empty
        [plainEntry ['e'] ['r'] 10] system :=
  ⟨_, ⟨flushOne (plainEntry ['e'] ['r'] 10), rfl⟩,
    ((storesOnce_iff (Entry Text) ⟨2, by decide, none⟩ (by decide) ⟨_, [], rfl, rfl⟩).2.2.1
      Redis.Keyspace.empty).mpr (by decide)⟩

/-- One tagged entry, whose counter the retry counts up a second time. -/
theorem retry_countsTagsTwice :
    ¬ forall (options : Options) (system : System (Entry Text) options.bufferSize)
      (chunk : List (Entry Text)) (keyspace : Redis.Keyspace Text),
      Transition.Reachable (@step (Entry Text) (Entry Text) options) (initial options) system ->
      Entry.DistinctIds chunk -> Awaits system chunk ->
      StoresOnce (Entry Text) options redisBehaviour keyspace chunk system := by
  intro always
  rcases flushOne_awaits { plainEntry ['e'] ['r'] 10 with tags := [['s']] } with
    ⟨system, reachable, awaits⟩
  have once := always ⟨2, by decide, none⟩ system _ Redis.Keyspace.empty reachable (by decide) awaits
  have same := (storesOnce_iff_of_accepts awaits fun _ _ => rfl).mp once _ ⟨by decide, rfl⟩
  have untagged := (Redis.store_store_iff Redis.Keyspace.empty (by decide)).mp (Option.some.inj same).symm
  exact absurd untagged (by decide)

end Recorder
end Telescope
