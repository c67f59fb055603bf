import Telescope.Recorder.Machine

namespace Telescope
namespace Recorder
namespace Reentrancy

universe u v

/-!
# A drop hook that records

`push` moves the head of a full ring, notifies the drop hook, and only then writes
the new entry behind the head it finds.  A hook that calls `record()` therefore
pushes into a ring whose oldest slot is already given up and whose newest one is
not yet written.

The ring is kept here as the three fields of the code, since nothing relates them
in the middle of a push.  A call of `record()` is a tree: the calls its
notification makes the hook place are its children, so every hook with finitely
many calls is such a tree.
-/

variable {Input : Type u} {α : Type v}

/-! ## The fields and what happened to the entries -/

structure Fields (α : Type v) where
  slots : Nat -> Option α
  head : Nat := 0
  count : Nat := 0
  overflowDrops : Nat := 0
  storeFailedDrops : Nat := 0
  recordErrorDrops : Nat := 0
  recordedCount : Nat := 0
  highWaterCount : Nat := 0
  truncatedEntryCount : Nat := 0
  paused : Bool := false

/-- One drained batch with the entries written since the batch before it and the
evictions counted meanwhile.  An element of the batch that is `none` was read from
a vacant slot. -/
structure Flushed (α : Type v) where
  pushed : List α
  evictions : Nat
  batch : List (Option α)

/-- The entries in the order in which `push` wrote them and the evictions it
counted, both since the last drain. -/
structure History (α : Type v) where
  pushed : List α := []
  evictions : Nat := 0
  refused : Nat := 0
  flushes : List (Flushed α) := []

structure System (α : Type v) where
  fields : Fields α
  history : History α

namespace System

def initial : System α := ⟨{ slots := fun _ => none }, {}⟩

/-- The slots that a drain reads, oldest first. -/
def contents (capacity : Nat) (system : System α) : List (Option α) :=
  (List.range system.fields.count).map fun offset =>
    system.fields.slots ((system.fields.head + offset) % capacity)

/-! ## Pushing -/

/-- Move the head over the oldest entry and count the drop. -/
def evict (capacity : Nat) (system : System α) : System α where
  fields :=
    { system.fields with
      head := (system.fields.head + 1) % capacity
      overflowDrops := system.fields.overflowDrops + 1 }
  history := { system.history with evictions := system.history.evictions + 1 }

def grow (system : System α) : System α :=
  { system with fields := { system.fields with count := system.fields.count + 1 } }

/-- Write behind the head and the count as they are now. -/
def write (capacity : Nat) (entry : α) (system : System α) : System α :=
  let tail := (system.fields.head + system.fields.count - 1) % capacity
  { fields :=
      { system.fields with
        slots := Function.update system.fields.slots tail (some entry)
        recordedCount := system.fields.recordedCount + 1
        highWaterCount :=
          if system.fields.count > system.fields.highWaterCount then system.fields.count
          else system.fields.highWaterCount }
    history := { system.history with pushed := system.history.pushed ++ [entry] } }

/-- `push` with the hook as it acts on the recorder. -/
def push (capacity : Nat) (notifyDrop : System α -> System α) (system : System α) (entry : α) :
    System α :=
  if system.fields.count ≥ capacity then (notifyDrop (system.evict capacity)).write capacity entry
  else system.grow.write capacity entry

/-- The drop of a call that finds the recorder paused. -/
def refuse (system : System α) : System α where
  fields := { system.fields with overflowDrops := system.fields.overflowDrops + 1 }
  history := { system.history with refused := system.history.refused + 1 }

def countTruncated (truncated : Bool) (system : System α) : System α :=
  { system with
    fields :=
      { system.fields with
        truncatedEntryCount := system.fields.truncatedEntryCount + truncated.toNat } }

/-- The drop of a call whose sampling, enrichment or filter threw. -/
def countError (system : System α) : System α :=
  { system with
    fields := { system.fields with recordErrorDrops := system.fields.recordErrorDrops + 1 } }

/-- The drop of a batch that the store rejected twice. -/
def countStoreFailed (dropped : Nat) (system : System α) : System α :=
  { system with
    fields :=
      { system.fields with storeFailedDrops := system.fields.storeFailedDrops + dropped } }

/-! ## Draining -/

/-- Read and vacate the first `count` slots behind the head. -/
def drainLoop (capacity head : Nat) (slots : Nat -> Option α) :
    Nat -> List (Option α) × (Nat -> Option α)
  | 0 => ([], slots)
  | count + 1 =>
      let drained := drainLoop capacity head slots count
      let slot := (head + count) % capacity
      (drained.1 ++ [drained.2 slot], Function.update drained.2 slot none)

/-- The synchronous part of `flush()`.  A call that joins a flush in flight drains
nothing and is no event. -/
def flush (capacity : Nat) (system : System α) : System α :=
  if system.fields.count = 0 then system
  else
    let drained :=
      drainLoop capacity system.fields.head system.fields.slots system.fields.count
    { fields := { system.fields with slots := drained.2, head := 0, count := 0 }
      history :=
        { system.history with
          pushed := []
          evictions := 0
          flushes := system.history.flushes ++
            [{ pushed := system.history.pushed
               evictions := system.history.evictions
               batch := drained.1 }] } }

end System

/-! ## Calls and the calls they cause -/

/-- One call of `record()` with the calls that the hook places if this call
notifies it. -/
inductive Call (Input : Type u) (α : Type v)
  | record (seams : Seams Input α) (input : Input) (whenNotified : List (Call Input α))

mutual

/-- `record()` on the fields, the hook's calls included. -/
def Call.run (capacity : Nat) : Call Input α -> System α -> System α
  | .record seams input whenNotified, system =>
      if system.fields.paused then runAll capacity whenNotified system.refuse
      else
        match (seams.capture input).1 with
        | .excluded => system.countTruncated (seams.capture input).2
        | .failed =>
            runAll capacity whenNotified
              (system.countTruncated (seams.capture input).2).countError
        | .admitted entry =>
            (system.countTruncated (seams.capture input).2).push capacity
              (fun evicted => runAll capacity whenNotified evicted) entry

def runAll (capacity : Nat) : List (Call Input α) -> System α -> System α
  | [], system => system
  | call :: calls, system => runAll capacity calls (call.run capacity system)

end

/-- What happens outside a push: a call of the host, a flush, a batch given up
(whose notification may record too), and the overhead guard. -/
inductive Event (Input : Type u) (α : Type v)
  | record (call : Call Input α)
  | flush
  | storeFailed (dropped : Nat) (whenNotified : List (Call Input α))
  | pause
  | resume

def step (capacity : Nat) (system : System α) : Event Input α -> Option (System α)
  | .record call => some (call.run capacity system)
  | .flush => some (system.flush capacity)
  | .storeFailed dropped whenNotified =>
      some (runAll capacity whenNotified (system.countStoreFailed dropped))
  | .pause => some { system with fields := { system.fields with paused := true } }
  | .resume => some { system with fields := { system.fields with paused := false } }

/-- What the ring promises between two outermost calls: it holds the entries written
since the last drain but the counted evictions, which are the oldest, and so did
every batch that was drained. -/
structure Sound (capacity : Nat) (system : System α) : Prop where
  contents : system.contents capacity =
    (system.history.pushed.drop system.history.evictions).map some
  counted : system.history.evictions + system.fields.count = system.history.pushed.length
  bounded : system.fields.count ≤ capacity
  drops : system.fields.overflowDrops = system.history.refused +
    (system.history.flushes.map Flushed.evictions).sum + system.history.evictions
  flushes : forall flushed, flushed ∈ system.history.flushes ->
    flushed.batch = (flushed.pushed.drop flushed.evictions).map some

/-! ## The condition on a call -/

mutual

/-- A call that would push, itself or through the calls of a failure's
notification. -/
def Call.admits : Call Input α -> Bool
  | .record seams input whenNotified =>
      match (seams.capture input).1 with
      | .excluded => false
      | .failed => anyAdmits whenNotified
      | .admitted _ => true

def anyAdmits : List (Call Input α) -> Bool
  | [] => false
  | call :: calls => call.admits || anyAdmits calls

end

mutual

/-- While this call runs, no call that the hook places during an eviction is
admitted. -/
def Call.quiet (capacity : Nat) : Call Input α -> System α -> Prop
  | .record seams input whenNotified, system =>
      system.fields.paused = true ∨
        match (seams.capture input).1 with
        | .excluded => True
        | .failed =>
            quietAll capacity whenNotified
              (system.countTruncated (seams.capture input).2).countError
        | .admitted _ =>
            system.fields.count < capacity ∨ anyAdmits whenNotified = false

def quietAll (capacity : Nat) : List (Call Input α) -> System α -> Prop
  | [], _ => True
  | call :: calls, system =>
      call.quiet capacity system ∧ quietAll capacity calls (call.run capacity system)

end

/-- A ring of one slot, or no admitted call during an eviction. -/
def Undisturbed (capacity : Nat) (system : System α) : Event Input α -> Prop
  | .record call => capacity = 1 ∨ call.quiet capacity system
  | .storeFailed dropped whenNotified =>
      capacity = 1 ∨ quietAll capacity whenNotified (system.countStoreFailed dropped)
  | .flush | .pause | .resume => True

/-! ## What every call keeps -/

variable {capacity : Nat}

mutual

/-- A family of properties that the elementary effects keep is kept by a call and by
all the calls it causes. -/
theorem Call.run_keeps {ι : Type*} (kept : ι -> System α -> Prop)
    (refuse : forall index system, kept index system -> kept index system.refuse)
    (truncated : forall index system flag, kept index system ->
      kept index (system.countTruncated flag))
    (failed : forall index system, kept index system -> kept index system.countError)
    (pushed : forall notifyDrop : System α -> System α,
      (forall index system, kept index system -> kept index (notifyDrop system)) ->
        forall index system entry, kept index system ->
          kept index (system.push capacity notifyDrop entry)) :
    forall (call : Call Input α) (index : ι) (system : System α), kept index system ->
      kept index (call.run capacity system)
  | .record seams input whenNotified, index, system, holds => by
      have nested := runAll_keeps kept refuse truncated failed pushed whenNotified
      rw [Call.run]
      by_cases paused : system.fields.paused = true
      · rw [if_pos paused]
        exact nested index _ (refuse index system holds)
      · rw [if_neg paused]
        have counted := truncated index system (seams.capture input).2 holds
        cases (seams.capture input).1 with
        | excluded => exact counted
        | failed => exact nested index _ (failed index _ counted)
        | admitted entry => exact pushed _ nested index _ entry counted

theorem runAll_keeps {ι : Type*} (kept : ι -> System α -> Prop)
    (refuse : forall index system, kept index system -> kept index system.refuse)
    (truncated : forall index system flag, kept index system ->
      kept index (system.countTruncated flag))
    (failed : forall index system, kept index system -> kept index system.countError)
    (pushed : forall notifyDrop : System α -> System α,
      (forall index system, kept index system -> kept index (notifyDrop system)) ->
        forall index system entry, kept index system ->
          kept index (system.push capacity notifyDrop entry)) :
    forall (calls : List (Call Input α)) (index : ι) (system : System α), kept index system ->
      kept index (runAll capacity calls system)
  | [], _index, _system, holds => holds
  | call :: calls, index, system, holds =>
      runAll_keeps kept refuse truncated failed pushed calls index _
        (Call.run_keeps kept refuse truncated failed pushed call index system holds)

end

/-- Every overflow drop is a refusal or an eviction. -/
def System.Balanced (system : System α) : Prop :=
  system.fields.overflowDrops = system.history.refused +
    (system.history.flushes.map Flushed.evictions).sum + system.history.evictions

variable {system : System α}

theorem balanced_runAll (capacity : Nat) (calls : List (Call Input α)) (balanced : system.Balanced) :
    (runAll capacity calls system).Balanced := by
  refine runAll_keeps (fun (_ : Unit) system => System.Balanced system)
    (fun _ system holds => ?_) (fun _ _ _ holds => holds) (fun _ _ holds => holds)
    (fun notifyDrop nested _ system entry holds => ?_) calls () system balanced
  · change system.fields.overflowDrops + 1 = system.history.refused + 1 +
      (system.history.flushes.map Flushed.evictions).sum + system.history.evictions
    rw [show system.fields.overflowDrops = _ from holds]
    omega
  · rw [System.push]
    split
    · refine nested () (system.evict capacity) ?_
      change system.fields.overflowDrops + 1 = _ + _ + (system.history.evictions + 1)
      rw [show system.fields.overflowDrops = _ from holds]
      rfl
    · exact holds

theorem flushes_runAll (capacity : Nat) (calls : List (Call Input α)) (system : System α) :
    (runAll capacity calls system).history.flushes = system.history.flushes := by
  refine runAll_keeps (fun flushes system => system.history.flushes = flushes)
    (fun _ _ holds => holds) (fun _ _ _ holds => holds) (fun _ _ holds => holds)
    (fun notifyDrop nested flushes system entry holds => ?_) calls _ system rfl
  rw [System.push]
  split
  · exact nested flushes (system.evict capacity) holds
  · exact holds

/-! ## Calls that push nothing -/

/-- The ring and the entries written are as they were. -/
structure Still (before after : System α) : Prop where
  slots : after.fields.slots = before.fields.slots
  head : after.fields.head = before.fields.head
  count : after.fields.count = before.fields.count
  paused : after.fields.paused = before.fields.paused
  pushed : after.history.pushed = before.history.pushed
  evictions : after.history.evictions = before.history.evictions

theorem Still.refl (system : System α) : Still system system :=
  ⟨rfl, rfl, rfl, rfl, rfl, rfl⟩

theorem Still.refuse (system : System α) : Still system system.refuse :=
  ⟨rfl, rfl, rfl, rfl, rfl, rfl⟩

theorem Still.countTruncated (system : System α) (flag : Bool) :
    Still system (system.countTruncated flag) :=
  ⟨rfl, rfl, rfl, rfl, rfl, rfl⟩

theorem Still.countError (system : System α) : Still system system.countError :=
  ⟨rfl, rfl, rfl, rfl, rfl, rfl⟩

theorem Still.trans {first second third : System α} (earlier : Still first second)
    (later : Still second third) : Still first third :=
  ⟨later.slots.trans earlier.slots, later.head.trans earlier.head,
    later.count.trans earlier.count, later.paused.trans earlier.paused,
    later.pushed.trans earlier.pushed, later.evictions.trans earlier.evictions⟩

mutual

/-- A paused recorder pushes nothing, and neither does a call that is not admitted. -/
theorem Call.still (capacity : Nat) : forall (call : Call Input α) (system : System α),
    system.fields.paused = true ∨ call.admits = false -> Still system (call.run capacity system)
  | .record seams input whenNotified, system, idle => by
      rw [Call.run]
      by_cases paused : system.fields.paused = true
      · rw [if_pos paused]
        exact (Still.refuse system).trans
          (runAll_still capacity whenNotified system.refuse (Or.inl paused))
      · rw [if_neg paused]
        have unadmitted := idle.resolve_left paused
        rw [Call.admits] at unadmitted
        cases captured : (seams.capture input).1 with
        | excluded => exact Still.countTruncated system _
        | failed =>
            rw [captured] at unadmitted
            exact ((Still.countTruncated system _).trans (Still.countError _)).trans
              (runAll_still capacity whenNotified _ (Or.inr unadmitted))
        | admitted entry =>
            rw [captured] at unadmitted
            cases unadmitted

theorem runAll_still (capacity : Nat) : forall (calls : List (Call Input α)) (system : System α),
    system.fields.paused = true ∨ anyAdmits calls = false ->
      Still system (runAll capacity calls system)
  | [], system, _idle => Still.refl system
  | call :: calls, system, idle => by
      rw [runAll]
      have first : Still system (call.run capacity system) := Call.still capacity call system
        (idle.imp_right fun unadmitted => (Bool.or_eq_false_iff.mp unadmitted).1)
      refine first.trans (runAll_still capacity calls _ ?_)
      rw [first.paused]
      exact idle.imp_right fun unadmitted => (Bool.or_eq_false_iff.mp unadmitted).2

end

/-! ## A ring that holds what was written -/

/-- The fields are those of a well-formed ring, whose elements are the entries written
since the last drain but the oldest `evictions` of them. -/
structure Held {capacity : Nat} (system : System α) (ring : RingBuffer α capacity) : Prop where
  slots : system.fields.slots = ring.slots
  head : system.fields.head = ring.head
  count : system.fields.count = ring.count
  contents : ring.toList = system.history.pushed.drop system.history.evictions
  counted : system.history.evictions + ring.count = system.history.pushed.length
  idle : ring.count = 0 -> system.history.pushed = []

variable {ring : RingBuffer α capacity}

theorem Held.of_still {before after : System α} (held : Held before ring) (still : Still before after) :
    Held after ring where
  slots := still.slots.trans held.slots
  head := still.head.trans held.head
  count := still.count.trans held.count
  contents := by rw [still.pushed, still.evictions, held.contents]
  counted := by rw [still.pushed, still.evictions, held.counted]
  idle := fun vacant => still.pushed.trans (held.idle vacant)

/-- Writing into a ring with room. -/
theorem Held.grow (held : Held system ring) (room : ring.count < capacity) (entry : α) :
    Held (system.grow.write capacity entry) (ring.pushVacant room entry) where
  slots := by
    change Function.update system.fields.slots
      ((system.fields.head + (system.fields.count + 1) - 1) % capacity) (some entry) = _
    rw [held.slots, held.head, held.count, ← Nat.add_assoc, Nat.add_sub_cancel]
    rfl
  head := held.head
  count := congrArg (· + 1) held.count
  contents := by
    have bound : system.history.evictions ≤ system.history.pushed.length :=
      Nat.le.intro held.counted
    change _ = (system.history.pushed ++ [entry]).drop system.history.evictions
    rw [RingBuffer.pushVacant_toList, held.contents, List.drop_append_of_le_length bound]
  counted := by
    have counted := held.counted
    change system.history.evictions + (ring.count + 1) = (system.history.pushed ++ [entry]).length
    rw [List.length_append, List.length_singleton]
    omega
  idle := fun vacant => absurd vacant (Nat.succ_ne_zero ring.count)

/-- Writing into a full ring when nothing was written between the eviction and the
write. -/
theorem Held.evict {resumed : System α} (held : Held system ring) (full : ring.count = capacity)
    (still : Still (system.evict capacity) resumed) (entry : α) :
    Held (resumed.write capacity entry) (ring.pushEvicting full entry) where
  slots := by
    have positive := Nat.zero_lt_of_lt ring.head_lt
    change Function.update resumed.fields.slots
      ((resumed.fields.head + resumed.fields.count - 1) % capacity) (some entry) = _
    rw [still.slots, still.head, still.count]
    change Function.update system.fields.slots
      (((system.fields.head + 1) % capacity + system.fields.count - 1) % capacity) (some entry) = _
    rw [held.slots, held.head, held.count, Nat.add_sub_assoc (by omega)]
    rfl
  head := still.head.trans (congrArg (fun head => (head + 1) % capacity) held.head)
  count := still.count.trans held.count
  contents := by
    have positive := Nat.zero_lt_of_lt ring.head_lt
    have counted := held.counted
    change _ = (resumed.history.pushed ++ [entry]).drop resumed.history.evictions
    rw [still.pushed, still.evictions]
    change _ = (system.history.pushed ++ [entry]).drop (system.history.evictions + 1)
    rw [RingBuffer.pushEvicting_toList, held.contents, List.tail_drop,
      List.drop_append_of_le_length (by omega)]
  counted := by
    have counted := held.counted
    change resumed.history.evictions + ring.count = (resumed.history.pushed ++ [entry]).length
    rw [still.pushed, still.evictions, List.length_append, List.length_singleton]
    change system.history.evictions + 1 + ring.count = system.history.pushed.length + 1
    omega
  idle := fun vacant => absurd vacant (by
    have positive := Nat.zero_lt_of_lt ring.head_lt
    change ring.count ≠ 0
    omega)

/-- Some well-formed ring holds what was written. -/
def Whole (capacity : Nat) (system : System α) : Prop :=
  Exists fun ring : RingBuffer α capacity => Held system ring

theorem Whole.of_still {before after : System α} (whole : Whole capacity before) (still : Still before after) :
    Whole capacity after := by
  rcases whole with ⟨ring, held⟩
  exact ⟨ring, held.of_still still⟩

mutual

/-- A call keeps the ring whole as long as no call is admitted during an eviction. -/
theorem Call.whole (capacity : Nat) : forall (call : Call Input α) (system : System α),
    Whole capacity system -> call.quiet capacity system -> Whole capacity (call.run capacity system)
  | .record seams input whenNotified, system, whole, quiet => by
      by_cases paused : system.fields.paused = true
      · exact whole.of_still (Call.still capacity _ system (Or.inl paused))
      · rw [Call.run, if_neg paused]
        rw [Call.quiet] at quiet
        have unpaused := quiet.resolve_left paused
        have truncated := whole.of_still (Still.countTruncated system (seams.capture input).2)
        cases captured : (seams.capture input).1 with
        | excluded => exact truncated
        | failed =>
            rw [captured] at unpaused
            exact runAll_whole capacity whenNotified _ (truncated.of_still (Still.countError _)) unpaused
        | admitted entry =>
            rw [captured] at unpaused
            rcases truncated with ⟨ring, held⟩
            change Whole capacity (System.push capacity _ _ entry)
            rw [System.push]
            by_cases full : (system.countTruncated (seams.capture input).2).fields.count ≥ capacity
            · rw [if_pos full]
              rw [held.count] at full
              have unadmitted := unpaused.resolve_left (by
                rw [show system.fields.count = ring.count from held.count]
                omega)
              exact ⟨_, held.evict (Nat.le_antisymm ring.count_le full)
                (runAll_still capacity whenNotified _ (Or.inr unadmitted)) entry⟩
            · rw [if_neg full]
              rw [held.count] at full
              exact ⟨_, held.grow (Nat.lt_of_not_ge full) entry⟩

theorem runAll_whole (capacity : Nat) : forall (calls : List (Call Input α)) (system : System α),
    Whole capacity system -> quietAll capacity calls system ->
      Whole capacity (runAll capacity calls system)
  | [], _system, whole, _quiet => whole
  | call :: calls, system, whole, quiet =>
      runAll_whole capacity calls _ (Call.whole capacity call system whole quiet.1) quiet.2

end

/-! ## A ring of one slot -/

/-- The invariant of a ring of one slot, also in the middle of pushes: the slot holds
the entry written last, and `ahead` evictions were counted whose entry is not yet
written. -/
structure Single (ahead : Nat) (system : System α) : Prop where
  head : system.fields.head = 0
  vacant : forall slot, slot ≠ 0 -> system.fields.slots slot = none
  newest : system.fields.slots 0 = system.history.pushed.getLast?
  bounded : system.fields.count ≤ 1
  counted : system.history.evictions + system.fields.count = system.history.pushed.length + ahead
  idle : system.fields.count = 0 -> system.history.pushed = [] ∧ ahead = 0

theorem Single.write {ahead : Nat} (single : Single (ahead + 1) system) (entry : α) :
    Single ahead (system.write 1 entry) where
  head := single.head
  vacant := by
    intro slot different
    change Function.update system.fields.slots
      ((system.fields.head + system.fields.count - 1) % 1) (some entry) slot = none
    rw [Nat.mod_one, Function.update_of_ne different]
    exact single.vacant slot different
  newest := by
    change Function.update system.fields.slots
      ((system.fields.head + system.fields.count - 1) % 1) (some entry) 0 =
        (system.history.pushed ++ [entry]).getLast?
    rw [Nat.mod_one, Function.update_self, List.getLast?_append_of_ne_nil _ (List.cons_ne_nil _ _)]
    rfl
  bounded := single.bounded
  counted := by
    have counted := single.counted
    change system.history.evictions + system.fields.count =
      (system.history.pushed ++ [entry]).length + ahead
    rw [List.length_append, List.length_singleton]
    omega
  idle := fun vacant => absurd (single.idle vacant).2 (Nat.succ_ne_zero ahead)

theorem Single.evict {ahead : Nat} (single : Single ahead system) (full : system.fields.count ≥ 1) :
    Single (ahead + 1) (system.evict 1) where
  head := Nat.mod_one _
  vacant := single.vacant
  newest := single.newest
  bounded := single.bounded
  counted := by
    have counted := single.counted
    change system.history.evictions + 1 + system.fields.count = _ + (ahead + 1)
    change _ = system.history.pushed.length + (ahead + 1)
    omega
  idle := fun vacant => absurd vacant (Nat.ne_of_gt full)

theorem Single.grow {ahead : Nat} (single : Single ahead system) (room : ¬system.fields.count ≥ 1) :
    Single (ahead + 1) system.grow where
  head := single.head
  vacant := single.vacant
  newest := single.newest
  bounded := by
    change system.fields.count + 1 ≤ 1
    omega
  counted := by
    have counted := single.counted
    change system.history.evictions + (system.fields.count + 1) =
      system.history.pushed.length + (ahead + 1)
    omega
  idle := fun vacant => absurd vacant (Nat.succ_ne_zero _)

/-- However the calls nest, the one slot holds the entry written last. -/
theorem single_runAll (calls : List (Call Input α)) {ahead : Nat} (single : Single ahead system) :
    Single ahead (runAll 1 calls system) := by
  refine runAll_keeps Single
    (fun _ _ holds => ⟨holds.head, holds.vacant, holds.newest, holds.bounded, holds.counted, holds.idle⟩)
    (fun _ _ _ holds => ⟨holds.head, holds.vacant, holds.newest, holds.bounded, holds.counted, holds.idle⟩)
    (fun _ _ holds => ⟨holds.head, holds.vacant, holds.newest, holds.bounded, holds.counted, holds.idle⟩)
    (fun notifyDrop nested ahead system entry holds => ?_) calls ahead system single
  rw [System.push]
  split
  · rename_i full
    exact (nested (ahead + 1) _ (holds.evict full)).write entry
  · rename_i room
    exact (holds.grow room).write entry

theorem single_of_whole (whole : Whole 1 system) : Single 0 system := by
  rcases whole with ⟨ring, held⟩
  have atZero : ring.head = 0 := Nat.lt_one_iff.mp ring.head_lt
  have bound := ring.count_le
  have outside (slot : Nat) (different : slot ≠ 0) : ring.slots slot = none := by
    refine ring.vacant slot fun offset _bound same => different ?_
    rw [← same, Nat.mod_one]
  refine ⟨held.head.trans atZero, ?_, ?_, ?_, ?_, ?_⟩
  · intro slot different
    rw [held.slots, outside slot different]
  · rw [held.slots]
    rcases Nat.le_one_iff_eq_zero_or_eq_one.mp bound with vacant | filled
    · rw [held.idle vacant]
      exact ring.vacant 0 fun offset isBelow => absurd isBelow (by omega)
    · have contents := held.contents
      have counted := held.counted
      rcases List.eq_nil_or_concat' system.history.pushed with nothing | ⟨older, newest, isLast⟩
      · rw [nothing, List.length_nil] at counted
        omega
      · rw [isLast, List.length_append, List.length_singleton] at counted
        have position : system.history.evictions = older.length := by omega
        rw [RingBuffer.toList, filled, ringWindow_succ, Nat.mod_one, isLast, position,
          List.drop_left] at contents
        rw [isLast, List.getLast?_append_of_ne_nil _ (List.cons_ne_nil _ _)]
        exact Option.toList_eq_singleton_iff.mp contents
  · rw [held.count]
    exact bound
  · rw [held.count]
    exact held.counted
  · rw [held.count]
    exact fun vacant => ⟨held.idle vacant, rfl⟩

theorem whole_of_single (single : Single 0 system) : Whole 1 system := by
  have bound := single.bounded
  have counted := single.counted
  have occupied (offset : Nat) (below : offset < system.fields.count) :
      (system.fields.slots ((system.fields.head + offset) % 1)).isSome := by
    rw [Nat.mod_one, single.newest, List.getLast?_isSome]
    intro nothing
    rw [nothing, List.length_nil] at counted
    omega
  refine ⟨{ slots := system.fields.slots
            head := system.fields.head
            count := system.fields.count
            head_lt := by rw [single.head]; exact Nat.one_pos
            count_le := bound
            occupied := occupied
            vacant := ?_ }, rfl, rfl, rfl, ?_, counted, fun vacant => (single.idle vacant).1⟩
  · intro slot outside
    by_cases zero : slot = 0
    · rcases Nat.le_one_iff_eq_zero_or_eq_one.mp bound with vacant | filled
      · rw [zero, single.newest, (single.idle vacant).1]
        rfl
      · exact absurd (Nat.mod_one _) (zero ▸ outside 0 (by omega))
    · exact single.vacant slot zero
  · change ringWindow 1 system.fields.head system.fields.slots system.fields.count = _
    rcases Nat.le_one_iff_eq_zero_or_eq_one.mp bound with vacant | filled
    · rw [vacant, (single.idle vacant).1, List.drop_nil]
      rfl
    · rw [filled] at counted ⊢
      rw [ringWindow_succ, Nat.mod_one, single.newest]
      rcases List.eq_nil_or_concat' system.history.pushed with nothing | ⟨older, newest, isLast⟩
      · rw [nothing, List.length_nil] at counted
        omega
      · rw [isLast, List.length_append, List.length_singleton] at counted
        have position : system.history.evictions = older.length := by omega
        rw [isLast, position, List.drop_left,
          List.getLast?_append_of_ne_nil _ (List.cons_ne_nil _ _)]
        rfl

/-! ## Draining -/

namespace System

theorem drainLoop_slots (capacity head : Nat) (slots : Nat -> Option α) (count : Nat) :
    (drainLoop capacity head slots count).2 = (RingBuffer.drainSlots capacity head slots count).2 := by
  induction count with
  | zero => rfl
  | succ count inductionHypothesis =>
      simp only [drainLoop, RingBuffer.drainSlots, inductionHypothesis]

theorem drainLoop_batch (capacity head : Nat) (slots : Nat -> Option α) (count : Nat)
    (bound : count ≤ capacity) :
    (drainLoop capacity head slots count).1 =
      (List.range count).map fun offset => slots ((head + offset) % capacity) := by
  induction count with
  | zero => rfl
  | succ count inductionHypothesis =>
      have untouched : (drainLoop capacity head slots count).2 ((head + count) % capacity) =
          slots ((head + count) % capacity) := by
        rw [drainLoop_slots, RingBuffer.drainSlots_slot, if_neg]
        rintro ⟨offset, earlier, same⟩
        exact earlier.ne (ring_offset_injective (by omega) (by omega) same)
      simp only [drainLoop]
      rw [untouched, inductionHypothesis (by omega), List.range_succ, List.map_append,
        List.map_singleton]

end System

theorem Held.contents_eq (held : Held system ring) : system.contents capacity =
      (system.history.pushed.drop system.history.evictions).map some := by
  rw [← held.contents, RingBuffer.toList,
    ringWindow_map_some capacity ring.head ring.slots ring.count ring.occupied, System.contents,
    held.slots, held.head, held.count]

/-- A drain takes what the ring holds and leaves it empty. -/
theorem Held.flush (held : Held system ring) : Whole capacity (system.flush capacity) := by
  rw [System.flush]
  split
  · exact ⟨ring, held⟩
  · refine ⟨ring.drain.2, ?_, rfl, rfl, ?_, rfl, fun _ => rfl⟩
    · change (System.drainLoop capacity system.fields.head system.fields.slots
        system.fields.count).2 = _
      rw [System.drainLoop_slots, held.slots, held.head, held.count]
      rfl
    · exact ring.drain_snd_toList

/-! ## Runs -/

/-- The invariant of runs: a whole ring, every overflow drop accounted for, and every
drained batch the one the ring held. -/
structure Kept (capacity : Nat) (system : System α) : Prop where
  whole : Whole capacity system
  balanced : system.Balanced
  flushes : forall flushed, flushed ∈ system.history.flushes ->
    flushed.batch = (flushed.pushed.drop flushed.evictions).map some

theorem Kept.sound (kept : Kept capacity system) :
    Sound capacity system := by
  rcases kept.whole with ⟨ring, held⟩
  exact ⟨held.contents_eq, held.count ▸ held.counted, held.count ▸ ring.count_le, kept.balanced,
    kept.flushes⟩

theorem Kept.initial (positive : 0 < capacity) :
    Kept capacity (System.initial : System α) :=
  ⟨⟨RingBuffer.empty positive, rfl, rfl, rfl, rfl, rfl, fun _ => rfl⟩, rfl,
    fun _ member => absurd member List.not_mem_nil⟩

/-- Calls keep the invariant in a ring of one slot and where they are quiet. -/
theorem Kept.runAll (kept : Kept capacity system) (calls : List (Call Input α))
    (undisturbed : capacity = 1 ∨ quietAll capacity calls system) :
    Kept capacity (runAll capacity calls system) := by
  refine ⟨?_, balanced_runAll capacity calls kept.balanced, ?_⟩
  · rcases undisturbed with rfl | quiet
    · exact whole_of_single (single_runAll calls (single_of_whole kept.whole))
    · exact runAll_whole capacity calls system kept.whole quiet
  · rw [flushes_runAll]
    exact kept.flushes

theorem Kept.flush (kept : Kept capacity system) :
    Kept capacity (system.flush capacity) := by
  rcases kept.whole with ⟨ring, held⟩
  refine ⟨held.flush, ?_, ?_⟩
  · have balanced := kept.balanced
    rw [System.flush]
    split
    · exact balanced
    · change system.fields.overflowDrops = system.history.refused +
        ((system.history.flushes ++ [_]).map Flushed.evictions).sum + 0
      rw [List.map_append, List.sum_append, List.map_singleton, List.sum_singleton, Nat.add_zero,
        ← Nat.add_assoc]
      exact balanced
  · rw [System.flush]
    split
    · exact kept.flushes
    · intro flushed member
      rcases List.mem_append.mp member with earlier | last
      · exact kept.flushes flushed earlier
      · rw [List.mem_singleton.mp last]
        change (System.drainLoop capacity _ _ _).1 = _
        rw [System.drainLoop_batch _ _ _ _ (held.count ▸ ring.count_le)]
        exact held.contents_eq

theorem Kept.step {next : System α} {event : Event Input α} (kept : Kept capacity system)
    (undisturbed : Undisturbed capacity system event) (stepped : step capacity system event = some next) :
    Kept capacity next := by
  cases event with
  | record call =>
      cases stepped
      exact kept.runAll [call] (undisturbed.imp_right fun quiet => ⟨quiet, trivial⟩)
  | flush =>
      cases stepped
      exact kept.flush
  | storeFailed dropped whenNotified =>
      cases stepped
      have counted : Kept capacity (system.countStoreFailed dropped) :=
        ⟨kept.whole.of_still ⟨rfl, rfl, rfl, rfl, rfl, rfl⟩, kept.balanced, kept.flushes⟩
      exact counted.runAll whenNotified undisturbed
  | pause | resume =>
      cases stepped
      rcases kept.whole with ⟨ring, held⟩
      exact ⟨⟨ring, held.slots, held.head, held.count, held.contents, held.counted, held.idle⟩,
        kept.balanced, kept.flushes⟩

/-- In a run whose steps are undisturbed (a ring of one slot, or no admitted call that
the hook places during an eviction) the ring promises hold in every state reached:
every entry written is held or drained in order but the counted evictions, which are
the oldest. -/
theorem sound_of_undisturbed (capacity : Nat) (positive : 0 < capacity)
    (events : List (Event Input α)) (final : System α)
    (undisturbed : Transition.Along (step capacity) (Undisturbed capacity) System.initial events)
    (ran : Transition.runFrom (step capacity) System.initial events = some final) :
    Sound capacity final :=
  (Transition.invariant_along (fun _ _ _ => Kept.step) (Kept.initial positive) undisturbed ran).sound

/-! ## A disturbed push -/

/-- Every input passes and is its own entry. -/
def passing : Seams Nat Nat where
  passesSampling := fun _ => some true
  enrich := fun input => (some input, false)
  filter := none

/-- Two entries fill the ring; the hook records during the eviction for the third. -/
def recordDuringEviction : List (Event Nat Nat) :=
  [.record (.record passing 0 []), .record (.record passing 1 []),
    .record (.record passing 2 [.record passing 3 []])]

/-- The entry that the hook recorded is overwritten and the one that was evicted first
is back in the ring. -/
theorem recordDuringEviction_not_sound :
    ¬ forall (capacity : Nat), 0 < capacity -> forall (events : List (Event Nat Nat))
      (final : System Nat), Transition.runFrom (step capacity) System.initial events = some final ->
        Sound capacity final := by
  intro sound
  have disturbed := (sound 2 (by decide) recordDuringEviction _ rfl).contents
  exact absurd disturbed (by decide)

/-- Three entries through a ring of two slots, with a hook whose call is sampled out. -/
def excluding : Seams Nat Nat := { passing with passesSampling := fun _ => some false }

theorem sound_of_undisturbed_three : Sound 2
    (System.flush 2 ((Call.record passing 2 [.record excluding 3 []]).run 2
      ((Call.record passing 1 []).run 2 ((Call.record passing 0 []).run 2 System.initial)))) :=
  sound_of_undisturbed 2 (by decide)
    [.record (.record passing 0 []), .record (.record passing 1 []),
      .record (.record passing 2 [.record excluding 3 []]), .flush] _
    ⟨Or.inr (Or.inr (Or.inl (by decide))), fun _ stepped => by
      cases stepped
      refine ⟨Or.inr (Or.inr (Or.inl (by decide))), fun _ stepped => ?_⟩
      cases stepped
      refine ⟨Or.inr (Or.inr (Or.inr (by decide))), fun _ stepped => ?_⟩
      cases stepped
      exact ⟨trivial, fun _ _ => trivial⟩⟩ rfl

end Reentrancy
end Recorder
end Telescope
