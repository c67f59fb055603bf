import Telescope.Observe.CloseLoss
import Mathlib.Data.Set.Finite.Lattice

namespace Telescope
namespace Observe

universe u v w x

/-!
# The exporter in an outage

While a send is in flight no tick drains the assembler.  The open batches stay
below their ceiling, but what the ceiling sheds waits in `evicted` for the next
drain, so everything accepted during the outage is held.  Only exporters that let
through the entries of finitely many batches, or never send, stay bounded.
-/

variable {C : Type u} {Log : Type v} {Snapshot : Type w} {Job : Type x}

namespace Event

/-- The entries a flush delivers. -/
def delivered : Event C -> List (Entry C)
  | .observeFlush entries => entries.map Prod.fst
  | .tick _ _ => []
  | .authRejected => []
  | .settle _ => []
  | .close _ => []

/-- What the event reads of the clock. -/
def readings : Event C -> List Rat
  | .observeFlush entries => entries.map Prod.snd
  | .tick now _ => [now]
  | .authRejected => []
  | .settle _ => []
  | .close _ => []

/-- The events of an outage: flushes, and ticks that find the send in flight. -/
def InOutage : Event C -> Prop
  | .observeFlush _ => True
  | .tick _ _ => True
  | .authRejected => False
  | .settle _ => False
  | .close _ => False

end Event

/-- A run delivers batches of at most so many entries, at a clock that does not go
back. -/
structure Orderly (size : Nat) (events : List (Event C)) : Prop where
  sized : forall batchId, ((events.flatMap Event.delivered).filter
    fun entry => decide (entry.batchId = batchId)).length ≤ size
  clocked : (events.flatMap Event.readings).Pairwise (· ≤ ·)

namespace System

variable (options : ExporterOptions C Log Snapshot Job)

/-- The open batches, the shed batches and the pending records. -/
def held (system : System C Log Snapshot Job) : Nat :=
  system.exporter.assembler.held.length + system.exporter.buffers.size

/-- However long a send stays in flight, what is held depends on the options and the
size of the batches alone. -/
def StaysBounded (size : Nat) : Prop :=
  Exists fun bound : Nat => forall (before outage : List (Event C))
    (start final : System C Log Snapshot Job),
    Transition.runFrom (step options) initial before = some start ->
    start.exporter.sending.isSome = true ->
    (forall event, event ∈ outage -> event.InOutage) ->
    Transition.runFrom (step options) start outage = some final ->
    Orderly size (before ++ outage) -> final.held ≤ bound

/-- The batches of which some entry can be accepted. -/
def acceptedIds : Set Text := fun batchId => Exists fun entry : Entry C =>
  entry.batchId = batchId ∧ options.isExportable entry = true ∧ (isRoot entry).isSome = true

/-- Some orderly run has a send in flight before `close()`. -/
def CanSend (size : Nat) : Prop :=
  Exists fun before : List (Event C) => Exists fun start : System C Log Snapshot Job =>
    Transition.runFrom (step options) initial before = some start ∧ Orderly size before ∧
      start.exporter.sending.isSome = true ∧ start.exporter.closed = false ∧
      start.exporter.disabled = false

end System

variable {size : Nat}

theorem Orderly.sublist {events fewer : List (Event C)} (orderly : Orderly size events)
    (sublist : fewer.Sublist events) : Orderly size fewer where
  sized batchId :=
    le_trans ((sublist.flatMap Event.delivered).filter _).length_le (orderly.sized batchId)
  clocked := orderly.clocked.sublist (sublist.flatMap Event.readings)

/-- Elements under few keys, few under each, are few. -/
theorem length_le_of_keys {α β : Type*} [DecidableEq β] {key : α -> β} {keys : List β} {elements : List α}
    (known : forall element, element ∈ elements -> key element ∈ keys)
    (sized : forall wanted, (elements.filter fun element => decide (key element = wanted)).length ≤ size) :
    elements.length ≤ keys.length * size := by
  induction keys generalizing elements with
  | nil =>
      rw [List.eq_nil_iff_forall_not_mem.mpr fun element member => List.not_mem_nil (known element member)]
      exact Nat.zero_le _
  | cons first keys inductionHypothesis =>
      have parts := @List.length_eq_length_filter_add _ elements fun element => decide (key element = first)
      have others := @inductionHypothesis (elements.filter fun element => !decide (key element = first)) ?_ ?_
      · have here := sized first
        rw [List.length_cons, Nat.succ_mul]
        omega
      · intro element member
        rw [List.mem_filter, Bool.not_eq_true', decide_eq_false_iff_not] at member
        exact (List.mem_cons.mp (known element member.1)).resolve_left member.2
      · exact fun wanted => le_trans (List.filter_sublist.filter _).length_le (sized wanted)

/-! ## The pending records stay within their caps -/

def Sections.Within (caps : Caps) (sections : Sections Log Snapshot Job) : Prop :=
  sections.logs.length ≤ caps.maxLogsPerRequest * 4 ∧
    sections.snapshots.length ≤ caps.maxRecordsPerRequest * 4 ∧
    sections.jobs.length ≤ caps.maxRecordsPerRequest * 4

theorem Sections.Within.push {caps : Caps} {sections : Sections Log Snapshot Job}
    (within : sections.Within caps) (record : Record Log Snapshot Job) :
    (sections.push caps record).1.Within caps := by
  cases record with
  | log record =>
      rw [Sections.push]
      split
      · exact within
      · refine ⟨?_, within.2.1, within.2.2⟩
        rw [List.length_append, List.length_singleton]
        omega
  | snapshot record =>
      rw [Sections.push]
      split
      · exact within
      · refine ⟨within.1, ?_, within.2.2⟩
        rw [List.length_append, List.length_singleton]
        omega
  | job record =>
      rw [Sections.push]
      split
      · exact within
      · refine ⟨within.1, within.2.1, ?_⟩
        rw [List.length_append, List.length_singleton]
        omega

theorem Sections.Within.pushAll {caps : Caps} {sections : Sections Log Snapshot Job}
    (within : sections.Within caps) (records : List (Record Log Snapshot Job)) :
    (sections.pushAll caps records).1.Within caps := by
  induction records generalizing sections with
  | nil => exact within
  | cons record records inductionHypothesis => exact inductionHypothesis (within.push record)

theorem Sections.Within.collect {Batch Member : Type*} {included : Include} {caps : Caps}
    {encoders : Encoders Batch Member Log Snapshot Job} {buffers : Sections Log Snapshot Job}
    (within : buffers.Within caps) (batches : List Batch) :
    (Observe.collect included caps encoders buffers batches).buffers.Within caps := by
  induction batches generalizing buffers with
  | nil => exact within
  | cons batch batches inductionHypothesis =>
      rw [Observe.collect]
      split
      · dsimp only
        split
        · exact inductionHypothesis (within.pushAll _)
        · exact within.pushAll _
      · exact inductionHypothesis within

namespace System

variable {options : ExporterOptions C Log Snapshot Job} {system next : System C Log Snapshot Job}

theorem sendNext_buffers (payloads : List (Sections Log Snapshot Job)) :
    (system.sendNext payloads).exporter.buffers = system.exporter.buffers ∧
      (system.sendNext payloads).exporter.assembler = system.exporter.assembler := by
  cases payloads <;> exact ⟨rfl, rfl⟩

theorem settle_buffers (payloads : List (Sections Log Snapshot Job)) (settlement : Settlement) :
    (system.settle payloads settlement).exporter.buffers = system.exporter.buffers ∧
      (system.settle payloads settlement).exporter.assembler = system.exporter.assembler := by
  cases settlement with
  | accepted => exact sendNext_buffers payloads
  | givenUp =>
      rw [System.settle]
      split
      · exact ⟨rfl, rfl⟩
      · exact sendNext_buffers payloads
  | rejected => exact ⟨rfl, rfl⟩

theorem dispatch_buffers (within : system.exporter.buffers.Within options.caps)
    (batches : List (AssembledBatch C)) (runtime : Bool) :
    (system.dispatch options batches runtime).exporter.buffers.Within options.caps ∧
      (system.dispatch options batches runtime).exporter.assembler = system.exporter.assembler := by
  rw [System.dispatch]
  split
  · exact ⟨within, rfl⟩
  · dsimp only
    split
    · rw [(sendNext_buffers _).1, (sendNext_buffers _).2]
      exact ⟨⟨Nat.zero_le _, Nat.zero_le _, Nat.zero_le _⟩, rfl⟩
    · exact ⟨within.collect batches, rfl⟩

/-! ## What is held -/

/-- The assembler holds accepted entries, and none once the exporter is closed. -/
structure Stored (options : ExporterOptions C Log Snapshot Job) (delivered : List (Entry C))
    (system : System C Log Snapshot Job) : Prop where
  distinct : system.exporter.assembler.DistinctIds
  held : system.exporter.assembler.held.Subperm delivered
  accepted : forall entry, entry ∈ system.exporter.assembler.held ->
    options.isExportable entry = true ∧ (isRoot entry).isSome = true
  within : system.exporter.buffers.Within options.caps
  closed : system.exporter.closed = true -> system.exporter.assembler.held = []

theorem acceptAll_forall {assembler filled : Assembler C} {entries : List (Entry C × Rat)}
    {returned : Bool} {property : Entry C -> Prop}
    (accepted : assembler.acceptAll entries = (filled, returned)) (distinct : assembler.DistinctIds)
    (before : forall entry, entry ∈ assembler.held -> property entry)
    (new : forall entry, entry ∈ entries -> (isRoot entry.1).isSome = true -> property entry.1) :
    forall entry, entry ∈ filled.held -> property entry := by
  induction entries generalizing assembler with
  | nil =>
      cases accepted
      exact before
  | cons first entries inductionHypothesis =>
      rcases first with ⟨entry, now⟩
      rw [List.forall_mem_cons] at new
      have isSome := Assembler.accept_isSome assembler entry now
      rw [Assembler.acceptAll] at accepted
      cases isAccepted : assembler.accept entry now with
      | none =>
          rw [isAccepted] at accepted
          cases accepted
          exact before
      | some middle =>
          rw [isAccepted] at accepted isSome
          refine inductionHypothesis accepted (Assembler.accept_distinct isAccepted distinct) ?_ new.2
          intro other member
          rcases List.mem_cons.mp ((Assembler.accept_held isAccepted distinct).mem_iff.mp member) with
            rfl | earlier
          · exact new.1 isSome.symm
          · exact before other earlier

theorem add_forall {assembler filled : Assembler C} {entries : List (Entry C × Rat)}
    {returned : Bool} {property : Entry C -> Prop} {assemblerOptions : AssemblerOptions}
    (added : assembler.add assemblerOptions entries = (filled, returned))
    (distinct : assembler.DistinctIds)
    (before : forall entry, entry ∈ assembler.held -> property entry)
    (new : forall entry, entry ∈ entries -> (isRoot entry.1).isSome = true -> property entry.1) :
    forall entry, entry ∈ filled.held -> property entry := by
  rw [Assembler.add] at added
  rcases isAccepted : assembler.acceptAll entries with ⟨accepted, ended⟩
  rw [isAccepted] at added
  have all := acceptAll_forall isAccepted distinct before new
  cases ended with
  | false =>
      cases added
      exact all
  | true =>
      cases added
      exact fun entry member =>
        all entry ((Assembler.enforceCeiling_held assemblerOptions accepted).mem_iff.mp member)

variable {delivered : List (Entry C)}

theorem Stored.observeFlush (stored : Stored options delivered system) (entries : List (Entry C × Rat)) :
    Stored options (delivered ++ entries.map Prod.fst) (system.observeFlush options entries) := by
  have more : delivered.Subperm (delivered ++ entries.map Prod.fst) :=
    (List.sublist_append_left _ _).subperm
  rw [System.observeFlush]
  split
  · exact ⟨stored.distinct, stored.held.trans more, stored.accepted, stored.within, stored.closed⟩
  · rename_i opened
    rw [Bool.or_eq_true, not_or] at opened
    dsimp only
    rcases isAdded : system.exporter.assembler.add options.assembler
      (entries.filter fun entry => options.isExportable entry.1) with ⟨assembler, returned⟩
    rcases Assembler.add_held isAdded stored.distinct with ⟨added, lost, parts, isHeld, _⟩
    have few : added.Sublist (entries.map Prod.fst) := by
      refine (List.sublist_append_left added lost).trans ?_
      rw [← parts]
      exact List.filter_sublist.map _
    refine ⟨Assembler.add_distinct isAdded stored.distinct, ?_, ?_, stored.within,
      fun closed => (opened.1 closed).elim⟩
    · exact isHeld.subperm.trans (stored.held.append few.subperm)
    · exact add_forall isAdded stored.distinct stored.accepted fun entry member isSome =>
        ⟨(List.mem_filter.mp member).2, isSome⟩

/-- A dispatch leaves the assembler as the drain left it. -/
theorem Stored.dispatch (stored : Stored options delivered system) (batches : List (AssembledBatch C))
    (runtime : Bool) :
    Stored options delivered (system.dispatch options batches runtime) := by
  rcases dispatch_buffers stored.within batches runtime with ⟨within, same⟩
  rcases @dispatch_frame _ _ _ _ options system batches runtime with ⟨_, closed, _⟩
  refine ⟨?_, ?_, ?_, within, ?_⟩
  · rw [same]
    exact stored.distinct
  · rw [same]
    exact stored.held
  · rw [same]
    exact stored.accepted
  · rw [same, closed]
    exact stored.closed

theorem Stored.step {event : Event C} (stored : Stored options delivered system)
    (stepped : step options system event = some next) :
    Stored options (delivered ++ event.delivered) next := by
  cases event with
  | observeFlush entries =>
      cases stepped
      exact stored.observeFlush entries
  | tick now runtime =>
      cases stepped
      rw [Event.delivered, List.append_nil, System.tick]
      split
      · exact stored
      · refine Stored.dispatch ?_ _ runtime
        have moved := Assembler.drain_held options.assembler now system.exporter.assembler
        have kept : (system.exporter.assembler.drain options.assembler now).1.held.Subperm
            system.exporter.assembler.held :=
          (List.sublist_append_left _ _).subperm.trans moved.subperm
        refine ⟨stored.distinct.sublist (List.filter_sublist.map _), kept.trans stored.held, ?_,
          stored.within, fun closed => ?_⟩
        · exact fun entry member => stored.accepted entry (kept.subset member)
        · have none := kept
          rw [stored.closed closed] at none
          exact List.subperm_nil.mp none
  | authRejected =>
      rcases Option.map_eq_some_iff.mp stepped with ⟨_, _, rfl⟩
      rw [Event.delivered, List.append_nil]
      exact ⟨stored.distinct, stored.held, stored.accepted, stored.within, stored.closed⟩
  | settle settlement =>
      rcases Option.map_eq_some_iff.mp stepped with ⟨payloads, _, rfl⟩
      rcases @settle_buffers _ _ _ _ system payloads settlement with ⟨buffers, same⟩
      rcases @settle_frame _ _ _ _ system payloads settlement with ⟨_, closed, _⟩
      rw [Event.delivered, List.append_nil]
      refine ⟨?_, ?_, ?_, ?_, ?_⟩
      · rw [same]
        exact stored.distinct
      · rw [same]
        exact stored.held
      · rw [same]
        exact stored.accepted
      · rw [buffers]
        exact stored.within
      · rw [same, closed]
        exact stored.closed
  | close runtime =>
      cases stepped
      rw [Event.delivered, List.append_nil, System.close]
      split
      · exact stored
      · refine Stored.dispatch ?_ _ runtime
        exact ⟨List.nodup_nil, List.nil_subperm, fun _ member => (List.not_mem_nil member).elim,
          stored.within, fun _ => rfl⟩

theorem Stored.run {events : List (Event C)} (stored : Stored options delivered system)
    (ran : Transition.runFrom (System.step options) system events = some next) :
    Stored options (delivered ++ events.flatMap Event.delivered) next := by
  induction events generalizing system delivered with
  | nil =>
      cases ran
      rw [List.flatMap_nil, List.append_nil]
      exact stored
  | cons event events inductionHypothesis =>
      rcases Transition.runFrom_cons_eq_some.mp ran with ⟨middle, stepped, rest⟩
      rw [List.flatMap_cons, ← List.append_assoc]
      exact inductionHypothesis (stored.step stepped) rest

theorem initial_stored (options : ExporterOptions C Log Snapshot Job) :
    Stored options [] (initial : System C Log Snapshot Job) :=
  ⟨List.nodup_nil, List.Subperm.refl _, fun _ member => (List.not_mem_nil member).elim,
    ⟨Nat.zero_le _, Nat.zero_le _, Nat.zero_le _⟩, fun _ => rfl⟩

/-! ## Bounded exporters -/

/-- The most records the buffers take. -/
def capacity (options : ExporterOptions C Log Snapshot Job) : Nat :=
  options.caps.maxLogsPerRequest * 4 + options.caps.maxRecordsPerRequest * 8

theorem size_le_capacity (stored : Stored options delivered system) :
    system.exporter.buffers.size ≤ capacity options := by
  have within := stored.within
  rw [Sections.size, capacity]
  rw [Sections.Within] at within
  omega

/-- Where no open exporter ever sends, a send in flight is one of `close()`. -/
theorem closed_of_sending {events : List (Event C)} (never : ¬ CanSend options size)
    (ran : Transition.runFrom (step options) initial events = some system) (orderly : Orderly size events)
    (sending : system.exporter.sending.isSome = true) :
    system.exporter.closed = true := by
  induction events using List.reverseRecOn generalizing system with
  | nil =>
      cases ran
      cases sending
  | append_singleton events event inductionHypothesis =>
      rcases Transition.runFrom_append_eq_some.mp ran with ⟨middle, before, last⟩
      rcases Transition.runFrom_cons_eq_some.mp last with ⟨next, stepped, ⟨⟩⟩
      have earlier := inductionHypothesis before (orderly.sublist (List.sublist_append_left _ _))
      have permanent := (step_permanent stepped).2
      by_contra opened
      have notEarlier : ¬ middle.exporter.sending.isSome = true := fun wasSending =>
        opened (permanent (earlier wasSending)).1
      rw [Bool.not_eq_true] at opened
      cases event with
      | observeFlush entries =>
          cases stepped
          refine notEarlier ?_
          rw [System.observeFlush] at sending
          split at sending <;> exact sending
      | tick now runtime =>
          cases stepped
          rw [System.tick] at sending opened ran
          split at sending
          · exact notEarlier sending
          · rename_i proceeds
            rw [if_neg proceeds] at opened ran
            rw [Bool.or_eq_true, Bool.or_eq_true, not_or, not_or, Bool.not_eq_true] at proceeds
            rcases @dispatch_frame _ _ _ _ options _ (middle.exporter.assembler.drain options.assembler now).2
              runtime with ⟨disabled, _, _⟩
            exact never ⟨_, _, ran, orderly, sending, opened,
              disabled.trans (Bool.not_eq_true _ ▸ proceeds.2)⟩
      | authRejected =>
          rcases Option.map_eq_some_iff.mp stepped with ⟨payloads, isSending, rfl⟩
          exact notEarlier (isSending ▸ rfl)
      | settle settlement =>
          rcases Option.map_eq_some_iff.mp stepped with ⟨payloads, isSending, rfl⟩
          exact notEarlier (isSending ▸ rfl)
      | close runtime =>
          cases stepped
          rw [System.close] at opened
          split at opened
          · rename_i closed
            exact Bool.false_ne_true (opened.symm.trans closed)
          · exact Bool.false_ne_true (opened.symm.trans (@dispatch_frame _ _ _ _ options _ _ runtime).2.1)

theorem staysBounded_of_finite (finite : (acceptedIds options).Finite) :
    StaysBounded options size := by
  refine ⟨finite.toFinset.toList.length * size + capacity options, ?_⟩
  intro before outage start final ran _ _ outageRan orderly
  have stored := (initial_stored options).run (Transition.runFrom_append_eq_some.mpr ⟨start, ran, outageRan⟩)
  refine Nat.add_le_add (@length_le_of_keys _ _ _ _ Entry.batchId _ _ ?_ ?_) (size_le_capacity stored)
  · intro entry member
    rw [Finset.mem_toList, Set.Finite.mem_toFinset]
    exact ⟨entry, rfl, stored.accepted entry member⟩
  · exact fun batchId => le_trans (stored.held.filter _).length_le (orderly.sized batchId)

theorem staysBounded_of_never (never : ¬ CanSend options size) :
    StaysBounded options size := by
  refine ⟨capacity options, ?_⟩
  intro before outage start final ran sending _ outageRan orderly
  have stored := (initial_stored options).run (Transition.runFrom_append_eq_some.mpr ⟨start, ran, outageRan⟩)
  have closed := closed_of_sending never ran (orderly.sublist (List.sublist_append_left _ _)) sending
  have stillClosed : final.exporter.closed = true :=
    Transition.invariant_of_reachable
      (fun _ _ _ closed stepped => ((step_permanent stepped).2 closed).1) closed ⟨outage, outageRan⟩
  rw [held, stored.closed stillClosed, List.length_nil, Nat.zero_add]
  exact size_le_capacity stored

/-! ## Unbounded exporters -/

theorem exists_entries {ids : List Text} (accepted : forall batchId, batchId ∈ ids ->
    batchId ∈ acceptedIds options) : Exists fun entries : List (Entry C) =>
      entries.map Entry.batchId = ids ∧ forall entry, entry ∈ entries ->
        options.isExportable entry = true ∧ (isRoot entry).isSome = true := by
  induction ids with
  | nil => exact ⟨[], rfl, fun _ member => (List.not_mem_nil member).elim⟩
  | cons batchId ids inductionHypothesis =>
      rw [List.forall_mem_cons] at accepted
      rcases accepted.1 with ⟨entry, rfl, isAccepted⟩
      rcases inductionHypothesis accepted.2 with ⟨entries, areIds, areAccepted⟩
      exact ⟨entry :: entries, congrArg (entry.batchId :: ·) areIds,
        List.forall_mem_cons.mpr ⟨isAccepted, areAccepted⟩⟩

/-- A flush of one entry for each of some new batches keeps a run orderly. -/
theorem Orderly.flush {before : List (Event C)} {entries : List (Entry C)} {now : Rat} (orderly : Orderly size before)
    (positive : 0 < size) (distinct : (entries.map Entry.batchId).Nodup)
    (fresh : forall entry, entry ∈ entries -> forall other, other ∈ before.flatMap Event.delivered ->
      other.batchId ≠ entry.batchId)
    (latest : forall reading, reading ∈ before.flatMap Event.readings -> reading ≤ now) :
    Orderly size (before ++ [.observeFlush (entries.map fun entry => (entry, now))]) := by
  constructor
  · intro batchId
    rw [List.flatMap_append, List.flatMap_singleton, Event.delivered, List.map_map, List.filter_append,
      List.length_append]
    change _ + ((entries.map id).filter _).length ≤ size
    rw [List.map_id]
    by_cases isNew : Exists fun entry => entry ∈ entries ∧ entry.batchId = batchId
    · rcases isNew with ⟨entry, member, rfl⟩
      have noneBefore : ((before.flatMap Event.delivered).filter
          fun other => decide (other.batchId = entry.batchId)) = [] :=
        List.filter_eq_nil_iff.mpr fun other isOther => by
          rw [decide_eq_true_eq]
          exact fresh entry member other isOther
      have one : (entries.filter fun other => decide (other.batchId = entry.batchId)).length ≤ 1 := by
        have few : ((entries.filter fun other => decide (other.batchId = entry.batchId)).map
            Entry.batchId).Nodup := distinct.sublist (List.filter_sublist.map _)
        have same : forall other, other ∈ (entries.filter fun other =>
            decide (other.batchId = entry.batchId)).map Entry.batchId -> other = entry.batchId := by
          intro other isOther
          rcases List.mem_map.mp isOther with ⟨kept, isKept, rfl⟩
          exact of_decide_eq_true (List.mem_filter.mp isKept).2
        have once := List.nodup_iff_count_le_one.mp few entry.batchId
        rwa [List.count_eq_length.mpr fun other isOther => (same other isOther).symm, List.length_map] at once
      rw [noneBefore, List.length_nil, Nat.zero_add]
      exact le_trans one positive
    · have noneNew : (entries.filter fun entry => decide (entry.batchId = batchId)) = [] :=
        List.filter_eq_nil_iff.mpr fun entry member => by
          rw [decide_eq_true_eq]
          exact fun same => isNew ⟨entry, member, same⟩
      rw [noneNew, List.length_nil, Nat.add_zero]
      exact orderly.sized batchId
  · rw [List.flatMap_append, List.flatMap_singleton, Event.readings, List.map_map]
    refine List.pairwise_append.mpr ⟨orderly.clocked, ?_, ?_⟩
    · refine List.pairwise_map.mpr (List.pairwise_of_forall fun _ _ => le_refl now)
    · intro reading member last isLast
      rcases List.mem_map.mp isLast with ⟨_, _, rfl⟩
      exact latest reading member

/-- An open exporter holds whatever it accepts while a send is in flight. -/
theorem length_le_held (stored : Stored options delivered system) (opened : system.exporter.closed = false)
    (enabled : system.exporter.disabled = false) {entries : List (Entry C)} (now : Rat)
    (accepted : forall entry, entry ∈ entries ->
      options.isExportable entry = true ∧ (isRoot entry).isSome = true) :
    entries.length ≤
      (system.observeFlush options (entries.map fun entry => (entry, now))).held := by
  have proceeds : ¬ (system.exporter.closed || system.exporter.disabled) = true := by
    rw [opened, enabled]
    exact Bool.false_ne_true
  have all : ((entries.map fun entry => (entry, now)).filter fun entry => options.isExportable entry.1) =
      entries.map fun entry => (entry, now) := by
    refine List.filter_eq_self.mpr fun entry member => ?_
    rcases List.mem_map.mp member with ⟨original, isOriginal, rfl⟩
    exact (accepted original isOriginal).1
  rw [System.observeFlush, if_neg proceeds]
  dsimp only
  rw [all]
  rcases isAdded : system.exporter.assembler.add options.assembler
    (entries.map fun entry => (entry, now)) with ⟨assembler, returned⟩
  rcases Assembler.add_held isAdded stored.distinct with ⟨added, lost, parts, isHeld, isLost, isReturned⟩
  have noneLost : lost = [] := isLost.mpr (isReturned.mpr fun entry member => by
    rcases List.mem_map.mp member with ⟨original, isOriginal, rfl⟩
    exact (accepted original isOriginal).2)
  have lengths := congrArg List.length parts
  rw [noneLost, List.append_nil, List.length_map, List.length_map] at lengths
  have isLength := isHeld.length_eq
  rw [List.length_append] at isLength
  rw [held]
  dsimp only
  omega

theorem not_staysBounded (positive : 0 < size) (infinite : (acceptedIds options).Infinite)
    (canSend : CanSend options size) : ¬ StaysBounded options size := by
  rintro ⟨bound, bounded⟩
  rcases canSend with ⟨before, start, ran, orderly, sending, opened, enabled⟩
  have seen : {batchId | batchId ∈ (before.flatMap Event.delivered).map Entry.batchId}.Finite :=
    List.finite_toSet _
  rcases (infinite.sdiff seen).exists_subset_card_eq (bound + 1) with ⟨ids, isNew, isLength⟩
  rcases @exists_entries _ _ _ _ options ids.toList fun batchId member =>
    (isNew (Finset.mem_toList.mp member)).1 with ⟨entries, areIds, accepted⟩
  rcases (List.finite_toSet (before.flatMap Event.readings)).bddAbove with ⟨now, latest⟩
  have fresh : forall entry, entry ∈ entries -> forall other, other ∈ before.flatMap Event.delivered ->
      other.batchId ≠ entry.batchId := by
    intro entry member other isOther same
    have isId : entry.batchId ∈ ids.toList := areIds ▸ List.mem_map_of_mem member
    exact (isNew (Finset.mem_toList.mp isId)).2 (same ▸ List.mem_map_of_mem isOther)
  have distinct : (entries.map Entry.batchId).Nodup := areIds ▸ ids.nodup_toList
  have flushed := @Orderly.flush _ _ _ _ now orderly positive distinct fresh fun reading member => latest member
  have few := bounded before [.observeFlush (entries.map fun entry => (entry, now))] start _ ran sending
    (fun event member => by
      cases List.mem_singleton.mp member
      exact trivial) rfl flushed
  have many := length_le_held ((initial_stored options).run ran) opened enabled now accepted
  have count : entries.length = bound + 1 := by
    rw [← @List.length_map _ _ entries Entry.batchId, areIds, Finset.length_toList, isLength]
  omega

/-- What the exporter holds in an outage is bounded only where it accepts the entries
of finitely many batches, or has no send in flight before it is closed. -/
theorem staysBounded_iff {size : Nat} (positive : 0 < size) :
    StaysBounded options size <-> (acceptedIds options).Finite ∨ ¬ CanSend options size := by
  constructor
  · intro bounded
    by_contra neither
    rw [not_or, not_not] at neither
    exact not_staysBounded positive neither.1 neither.2 bounded
  · rintro (finite | never)
    · exact staysBounded_of_finite finite
    · exact staysBounded_of_never never

theorem plainExporter_accepts : (acceptedIds plainExporter).Infinite :=
  Set.infinite_univ.mono fun batchId _ => ⟨requestOf batchId, rfl, rfl, rfl⟩

theorem plainExporter_canSend : CanSend plainExporter 1 := by
  refine ⟨[.observeFlush [(requestOf ['a'], 0)], .tick 5000 false], _, rfl, ⟨fun batchId => ?_, ?_⟩, ?_⟩
  · exact List.length_filter_le _ [requestOf ['a']]
  · exact by decide
  · exact by decide +kernel

theorem staysBounded_iff_plainExporter :
    0 < 1 ∧ (StaysBounded plainExporter 1 <->
      (acceptedIds plainExporter).Finite ∨ ¬ CanSend plainExporter 1) :=
  ⟨Nat.one_pos, staysBounded_iff Nat.one_pos⟩

/-- With one request in flight, requests of ever new batches pile up. -/
theorem plainExporter_not_staysBounded : ¬ StaysBounded plainExporter 1 :=
  not_staysBounded Nat.one_pos plainExporter_accepts plainExporter_canSend

end System

end Observe
end Telescope
