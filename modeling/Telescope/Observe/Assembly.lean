import Telescope.Foundation.Transition
import Telescope.Observe.Conservation
import Mathlib.Algebra.Order.Ring.Rat
import Mathlib.Data.Nat.Cast.Order.Ring

namespace Telescope
namespace Observe

universe u

/-!
# Batch assembly over runs

A run is any list of calls at readings of a clock that never goes back.  Every
entry stays in one place and under its own batch, and a batch leaves the open set
when it is ripe, when it is the one touched least recently above the ceiling, or at
shutdown.  An entry whose type is the name of an inherited property makes `add`
throw and takes the entries behind it along.
-/

variable {C : Type u}

inductive Call (C : Type u)
  | add (entries : List (Entry C × Rat))
  | drain (now : Rat)
  | drainAll

/-- What the call reads of the clock. -/
def Call.readings : Call C -> List Rat
  | .add entries => entries.map Prod.snd
  | .drain now => [now]
  | .drainAll => []

/-- No entry has the type of an inherited property. -/
def Call.Ordinary : Call C -> Prop
  | .add entries => forall entry, entry ∈ entries -> (isRoot entry.1).isSome = true
  | .drain _ => True
  | .drainAll => True

instance : (call : Call C) -> Decidable call.Ordinary
  | .add entries =>
      inferInstanceAs (Decidable (forall entry, entry ∈ entries -> (isRoot entry.1).isSome = true))
  | .drain _ => inferInstanceAs (Decidable True)
  | .drainAll => inferInstanceAs (Decidable True)

/-- The assembler, what was passed to `add` at which readings, and what was
returned by the drains. -/
structure History (C : Type u) where
  assembler : Assembler C
  added : List (Entry C × Rat)
  emitted : List (AssembledBatch C)
  clock : Rat

namespace History

def initial (clock : Rat) : History C := ⟨.empty, [], [], clock⟩

/-- The call is made at readings that do not go back. -/
def step (options : AssemblerOptions) (history : History C) (call : Call C) : Option (History C) :=
  if (history.clock :: call.readings).Pairwise (· ≤ ·) then
    let clock := call.readings.getLastD history.clock
    some <| match call with
      | .add entries =>
          ⟨(history.assembler.add options entries).1, history.added ++ entries, history.emitted, clock⟩
      | .drain now =>
          let drained := history.assembler.drain options now
          ⟨drained.1, history.added, history.emitted ++ drained.2, clock⟩
      | .drainAll =>
          let drained := history.assembler.drainAll
          ⟨drained.1, history.added, history.emitted ++ drained.2, clock⟩
  else none

/-- The entries in an open, a shed or an emitted batch. -/
def placed (history : History C) : List (Entry C) :=
  history.assembler.held ++ history.emitted.flatMap AssembledBatch.entries

end History

/-! ## What holds in every state -/

structure OpenBatch.Sound (batch : OpenBatch C) : Prop where
  own : forall entry, entry ∈ batch.entries -> entry.batchId = batch.batchId
  root : forall root, batch.root = some root -> isRoot root = some true

structure AssembledBatch.Sound (batch : AssembledBatch C) : Prop where
  own : forall entry, entry ∈ batch.entries -> entry.batchId = batch.batchId
  root : forall root, batch.root = some root -> isRoot root = some true
  ordered : batch.children.Pairwise CaptureOrder

/-- The batch was last touched for one of its entries, and for no entry of its
identifier later. -/
def LastTouched (added : List (Entry C × Rat)) (batch : OpenBatch C) : Prop :=
  (Exists fun entry => entry ∈ batch.entries ∧ (entry, batch.lastTouchedAt) ∈ added) ∧
    forall touch, touch ∈ added -> touch.1.batchId = batch.batchId -> touch.2 ≤ batch.lastTouchedAt

/-- The batches are sound, and the open ones stand in the order of touches. -/
structure Kept (added : List (Entry C × Rat)) (assembler : Assembler C) : Prop where
  distinct : assembler.DistinctIds
  opened : forall batch, batch ∈ assembler.openBatches -> batch.Sound
  shed : forall batch, batch ∈ assembler.evicted -> batch.Sound
  touched : forall batch, batch ∈ assembler.openBatches -> LastTouched added batch
  recency : assembler.openBatches.Pairwise fun left right => left.lastTouchedAt ≤ right.lastTouchedAt

/-- Every entry passed to `add` is in one place, and the batches are as they should
be. -/
structure Assembled (options : AssemblerOptions) (history : History C) : Prop where
  conserved : (history.added.map Prod.fst).Perm history.placed
  kept : Kept history.added history.assembler
  emitted : forall batch, batch ∈ history.emitted -> batch.Sound
  ceiling : (history.assembler.openBatches.length : Rat) ≤ options.maxOpenBatches

/-- How batches leave the open set between two states.  During `add` none does
before the ceiling is enforced, and then the one touched least recently, as long as
too many are open. -/
def Exits (options : AssemblerOptions) (before : Assembler C) : Call C -> Assembler C -> Prop
  | .add entries, after => Exists fun filled => Exists fun shed =>
      before.acceptAll entries = (filled, true) ∧ filled.openBatches = shed ++ after.openBatches ∧
        (forall batch, batch ∈ before.openBatches -> Exists fun grown => grown ∈ filled.openBatches ∧
          grown.batchId = batch.batchId ∧ batch.entries ⊆ grown.entries) ∧
        forall front oldest rest, shed = front ++ oldest :: rest ->
          options.maxOpenBatches < (oldest :: (rest ++ after.openBatches)).length ∧
            forall other, other ∈ rest ++ after.openBatches -> oldest.lastTouchedAt ≤ other.lastTouchedAt
  | .drain now, after => forall batch, batch ∈ before.openBatches ->
      batch ∈ after.openBatches ∨ options.batchGraceMs ≤ now - batch.lastTouchedAt
  | .drainAll, _ => True

private instance : Std.Total (@CaptureOrder C) where
  total left right := by
    rw [CaptureOrder, CaptureOrder]
    omega

private instance : IsTrans (Entry C) CaptureOrder where
  trans first second third left right := by
    rw [CaptureOrder] at left right ⊢
    omega

theorem OpenBatch.Sound.assembled {batch : OpenBatch C} (sound : batch.Sound) : (assemble batch).Sound where
  own entry member := sound.own entry (mem_assemble_entries.mp member)
  root := sound.root
  ordered := List.pairwise_insertionSort CaptureOrder batch.children

variable {options : AssemblerOptions} {added : List (Entry C × Rat)} {assembler next : Assembler C}

/-! ## Accepting -/

theorem LastTouched.reading_le {batch : OpenBatch C} {now : Rat} (touched : LastTouched added batch)
    (latest : forall touch, touch ∈ added -> touch.2 ≤ now) : batch.lastTouchedAt ≤ now := by
  rcases touched.1 with ⟨entry, _, member⟩
  exact latest _ member

theorem Kept.accept {entry : Entry C} {now : Rat} (kept : Kept added assembler)
    (accepted : assembler.accept entry now = some next)
    (latest : forall touch, touch ∈ added -> touch.2 ≤ now) : Kept (added ++ [(entry, now)]) next := by
  rcases Assembler.grows_of_accept accepted with ⟨grown, grows, isNext, sameEvicted⟩
  have batchSound : (assembler.batchOf entry).Sound := by
    rcases Assembler.batchOf_cases assembler entry with found | ⟨_, fresh⟩
    · exact kept.opened _ (Recency.mem_of_get found)
    · rw [fresh]
      exact ⟨fun _ member => (List.not_mem_nil member).elim, fun _ isRoot => by cases isRoot⟩
  have grownSound : grown.Sound := by
    constructor
    · intro other member
      rw [grows.batchId]
      rcases grows.mem_entries.mp member with rfl | before
      · rfl
      · exact (batchSound.own other before).trans (Assembler.batchOf_batchId assembler entry)
    · intro root isRoot
      rcases grows.root with same | ⟨isEntry, candidate⟩
      · exact batchSound.root root (same ▸ isRoot)
      · cases isEntry.symm.trans isRoot
        exact candidate
  have grownTouched : LastTouched (added ++ [(entry, now)]) grown := by
    rw [LastTouched, grows.touched]
    refine ⟨⟨entry, grows.mem_entries.mpr (.inl rfl), List.mem_append_right _ (List.mem_singleton_self _)⟩,
      fun touch member _ => ?_⟩
    rcases List.mem_append.mp member with before | isLast
    · exact latest touch before
    · exact le_of_eq (congrArg Prod.snd (List.mem_singleton.mp isLast))
  have members : forall batch, batch ∈ next.openBatches ->
      batch ∈ assembler.openBatches ∧ batch.batchId ≠ entry.batchId ∨ batch = grown := by
    intro batch member
    rw [isNext] at member
    rw [← grows.batchId]
    exact Recency.mem_touch member
  refine ⟨Assembler.accept_distinct accepted kept.distinct, ?_, sameEvicted ▸ kept.shed, ?_, ?_⟩
  · intro batch member
    rcases members batch member with before | rfl
    · exact kept.opened batch before.1
    · exact grownSound
  · intro batch member
    rcases members batch member with ⟨before, different⟩ | rfl
    · rcases kept.touched batch before with ⟨⟨other, isOther, touchedAt⟩, last⟩
      refine ⟨⟨other, isOther, List.mem_append_left _ touchedAt⟩, fun touch isTouch same => ?_⟩
      rcases List.mem_append.mp isTouch with earlier | isLast
      · exact last touch earlier same
      · cases List.mem_singleton.mp isLast
        exact (different same.symm).elim
    · exact grownTouched
  · rw [isNext]
    refine Recency.pairwise_touch kept.recency fun other member => ?_
    rw [grows.touched]
    exact (kept.touched other member).reading_le latest

theorem Kept.acceptAll {assembler next : Assembler C} {added entries : List (Entry C × Rat)}
    (kept : Kept added assembler) (accepted : assembler.acceptAll entries = (next, true))
    (latest : forall touch, touch ∈ added -> forall entry, entry ∈ entries -> touch.2 ≤ entry.2)
    (clock : (entries.map Prod.snd).Pairwise (· ≤ ·)) : Kept (added ++ entries) next := by
  induction entries generalizing assembler added with
  | nil =>
      cases accepted
      rw [List.append_nil]
      exact kept
  | cons first entries inductionHypothesis =>
      rcases first with ⟨entry, now⟩
      rw [List.map_cons, List.pairwise_cons] at clock
      rw [Assembler.acceptAll] at accepted
      cases isAccepted : assembler.accept entry now with
      | none =>
          rw [isAccepted] at accepted
          cases accepted
      | some middle =>
          rw [isAccepted] at accepted
          have keptMiddle := kept.accept isAccepted fun touch member =>
            latest touch member (entry, now) List.mem_cons_self
          have rest := inductionHypothesis keptMiddle accepted ?_ clock.2
          · rwa [List.append_assoc] at rest
          · intro touch member other isOther
            rcases List.mem_append.mp member with before | isLast
            · exact latest touch before other (List.mem_cons_of_mem _ isOther)
            · cases List.mem_singleton.mp isLast
              exact clock.1 other.2 (List.mem_map_of_mem isOther)

/-- Accepting grows batches and takes none away. -/
theorem acceptAll_grows {assembler next : Assembler C} {entries : List (Entry C × Rat)} {returned : Bool}
    (distinct : assembler.DistinctIds) (accepted : assembler.acceptAll entries = (next, returned)) :
    forall batch, batch ∈ assembler.openBatches -> Exists fun grown => grown ∈ next.openBatches ∧
      grown.batchId = batch.batchId ∧ batch.entries ⊆ grown.entries := by
  induction entries generalizing assembler with
  | nil =>
      cases accepted
      exact fun batch member => ⟨batch, member, rfl, List.Subset.refl _⟩
  | cons first entries inductionHypothesis =>
      rcases first with ⟨entry, now⟩
      rw [Assembler.acceptAll] at accepted
      cases isAccepted : assembler.accept entry now with
      | none =>
          rw [isAccepted] at accepted
          cases accepted
          exact fun batch member => ⟨batch, member, rfl, List.Subset.refl _⟩
      | some middle =>
          rw [isAccepted] at accepted
          rcases Assembler.grows_of_accept isAccepted with ⟨grown, grows, isMiddle, _⟩
          have rest := inductionHypothesis (Assembler.accept_distinct isAccepted distinct) accepted
          intro batch member
          have inMiddle : Exists fun larger => larger ∈ middle.openBatches ∧
              larger.batchId = batch.batchId ∧ batch.entries ⊆ larger.entries := by
            rw [isMiddle]
            by_cases same : batch.batchId = entry.batchId
            · refine ⟨grown, List.mem_append_right _ (List.mem_singleton_self _),
                grows.batchId.trans same.symm, fun other isOther => grows.mem_entries.mpr (.inr ?_)⟩
              rcases Assembler.batchOf_cases assembler entry with found | ⟨absent, _⟩
              · have isBatch := List.inj_on_of_nodup_map distinct member (Recency.mem_of_get found)
                  (same.trans (Recency.key_of_get found).symm)
                exact isBatch ▸ isOther
              · exact (Recency.ne_of_get_eq_none absent member same).elim
            · refine ⟨batch, List.mem_append_left _ (Recency.mem_remove.mpr ⟨member, ?_⟩), rfl,
                List.Subset.refl _⟩
              rw [grows.batchId]
              exact same
          rcases inMiddle with ⟨larger, isLarger, sameId, more⟩
          rcases rest larger isLarger with ⟨final, isFinal, finalId, evenMore⟩
          exact ⟨final, isFinal, finalId.trans sameId, List.Subset.trans more evenMore⟩

/-! ## One call -/

theorem Kept.enforceCeiling (kept : Kept added assembler) (options : AssemblerOptions) :
    Kept added (assembler.enforceCeiling options) := by
  have parts := Recency.shed_append (fun size : Nat => options.maxOpenBatches < size)
    assembler.openBatches
  have remaining : (assembler.enforceCeiling options).openBatches.Sublist assembler.openBatches := by
    conv_rhs => rw [← parts]
    exact List.sublist_append_right _ _
  refine ⟨kept.distinct.sublist (remaining.map _), ?_, ?_, ?_, kept.recency.sublist remaining⟩
  · exact fun batch member => kept.opened batch (remaining.subset member)
  · intro batch member
    rcases List.mem_append.mp member with before | isShed
    · exact kept.shed batch before
    · rcases List.mem_map.mp isShed with ⟨oldest, isOldest, rfl⟩
      exact (kept.opened oldest (parts ▸ List.mem_append_left _ isOldest)).assembled
  · exact fun batch member => kept.touched batch (remaining.subset member)

theorem Kept.sublist (kept : Kept added assembler) {remaining : List (OpenBatch C)}
    (sublist : remaining.Sublist assembler.openBatches) (duplicateRoots : Nat) :
    Kept added ⟨remaining, [], 0, duplicateRoots⟩ :=
  ⟨kept.distinct.sublist (sublist.map _), fun batch member => kept.opened batch (sublist.subset member),
    fun _ member => (List.not_mem_nil member).elim,
    fun batch member => kept.touched batch (sublist.subset member), kept.recency.sublist sublist⟩

theorem Kept.drained {batch : AssembledBatch C} (kept : Kept added assembler)
    {ready : List (OpenBatch C)} (sublist : ready.Sublist assembler.openBatches)
    (member : batch ∈ assembler.evicted ++ ready.map assemble) : batch.Sound := by
  rcases List.mem_append.mp member with isShed | isReady
  · exact kept.shed batch isShed
  · rcases List.mem_map.mp isReady with ⟨opened, isOpened, rfl⟩
    exact (kept.opened opened (sublist.subset isOpened)).assembled

theorem add_of_ordinary {entries : List (Entry C × Rat)} (distinct : assembler.DistinctIds)
    (ordinary : (Call.add entries).Ordinary) : Exists fun filled =>
      assembler.acceptAll entries = (filled, true) ∧
        assembler.add options entries = (filled.enforceCeiling options, true) := by
  rcases isAccepted : assembler.acceptAll entries with ⟨filled, returned⟩
  rcases Assembler.acceptAll_held isAccepted distinct with ⟨_, _, _, _, _, isReturned⟩
  cases isReturned.mpr ordinary
  refine ⟨filled, rfl, ?_⟩
  rw [Assembler.add, isAccepted]
  rfl

theorem enforceCeiling_ceiling (options : AssemblerOptions) (assembler : Assembler C) :
    ((assembler.enforceCeiling options).openBatches.length : Rat) ≤ options.maxOpenBatches := by
  refine not_lt.mp (Recency.not_exceeds_kept (fun size : Nat => options.maxOpenBatches < size) ?_ _)
  exact not_lt.mpr (le_of_lt options.maxOpenBatches_positive)

namespace History

variable {history final : History C} {call : Call C}

/-- What a call makes of the history. -/
inductive Stepped (options : AssemblerOptions) (history : History C) : Call C -> History C -> Prop
  | add {entries : List (Entry C × Rat)} {assembler : Assembler C} {returned : Bool} {clock : Rat}
      (added : history.assembler.add options entries = (assembler, returned)) :
      Stepped options history (.add entries)
        ⟨assembler, history.added ++ entries, history.emitted, clock⟩
  | drain {now clock : Rat} :
      Stepped options history (.drain now)
        ⟨(history.assembler.drain options now).1, history.added,
          history.emitted ++ (history.assembler.drain options now).2, clock⟩
  | drainAll {clock : Rat} :
      Stepped options history .drainAll
        ⟨history.assembler.drainAll.1, history.added, history.emitted ++ history.assembler.drainAll.2,
          clock⟩

theorem stepped_of_step {next : History C} (stepped : step options history call = some next) :
    Stepped options history call next ∧ (history.clock :: call.readings).Pairwise (· ≤ ·) ∧
      next.clock = call.readings.getLastD history.clock := by
  rw [step] at stepped
  split at stepped
  · rename_i clock
    cases call with
    | add entries =>
        cases stepped
        exact ⟨.add rfl, clock, rfl⟩
    | drain now =>
        cases stepped
        exact ⟨.drain, clock, rfl⟩
    | drainAll =>
        cases stepped
        exact ⟨.drainAll, clock, rfl⟩
  · cases stepped

/-- Only a call of `add` that throws loses entries. -/
theorem Stepped.placed {next : History C} (stepped : Stepped options history call next)
    (distinct : history.assembler.DistinctIds) :
    Exists fun accepted => Exists fun lost =>
      next.added.map Prod.fst = history.added.map Prod.fst ++ (accepted ++ lost) ∧
        next.placed.Perm (history.placed ++ accepted) ∧ (lost = [] <-> call.Ordinary) := by
  cases stepped with
  | add added =>
      rcases Assembler.add_held added distinct with ⟨accepted, lost, parts, isHeld, isLost, isReturned⟩
      refine ⟨accepted, lost, ?_, ?_, isLost.trans isReturned⟩
      · rw [List.map_append, parts]
      · rw [History.placed, History.placed]
        refine (isHeld.append_right _).trans ?_
        rw [List.append_assoc, List.append_assoc]
        exact List.perm_append_comm.append_left _
  | @drain now clock =>
      refine ⟨[], [], (List.append_nil _).symm, ?_, iff_of_true rfl trivial⟩
      rw [History.placed, History.placed, List.append_nil, List.flatMap_append]
      refine List.Perm.trans ?_ ((Assembler.drain_held options now history.assembler).append_right _)
      rw [List.append_assoc]
      exact List.perm_append_comm.append_left _
  | drainAll =>
      refine ⟨[], [], (List.append_nil _).symm, ?_, iff_of_true rfl trivial⟩
      rw [History.placed, History.placed, List.append_nil, List.flatMap_append]
      change (([] : List (Entry C)) ++ _).Perm _
      rw [List.nil_append]
      exact List.perm_append_comm.trans ((Assembler.drainAll_held history.assembler).append_right _)

theorem Stepped.distinct {next : History C} (stepped : Stepped options history call next)
    (distinct : history.assembler.DistinctIds) : next.assembler.DistinctIds := by
  cases stepped with
  | add added => exact Assembler.add_distinct added distinct
  | drain => exact distinct.sublist (List.filter_sublist.map _)
  | drainAll => exact List.nodup_nil

/-- All readings so far are behind the clock. -/
def Clocked (history : History C) : Prop := forall touch, touch ∈ history.added -> touch.2 ≤ history.clock

theorem le_getLastD {readings : List Rat} {clock reading : Rat}
    (ordered : (clock :: readings).Pairwise (· ≤ ·)) (member : reading ∈ clock :: readings) :
    reading ≤ readings.getLastD clock := by
  induction readings generalizing clock reading with
  | nil => exact le_of_eq (List.mem_singleton.mp member)
  | cons first readings inductionHypothesis =>
      rw [List.pairwise_cons] at ordered
      rw [List.getLastD_cons]
      rcases List.mem_cons.mp member with rfl | later
      · exact le_trans (ordered.1 first List.mem_cons_self)
          (inductionHypothesis ordered.2 List.mem_cons_self)
      · exact inductionHypothesis ordered.2 later

theorem clocked_step {next : History C} (clocked : history.Clocked)
    (stepped : step options history call = some next) : next.Clocked := by
  rcases stepped_of_step stepped with ⟨effect, ordered, isClock⟩
  have later : history.clock ≤ next.clock := isClock ▸ le_getLastD ordered List.mem_cons_self
  cases effect with
  | add =>
      intro touch member
      rcases List.mem_append.mp member with before | isNew
      · exact le_trans (clocked touch before) later
      · rw [isClock]
        exact le_getLastD ordered (List.mem_cons_of_mem _ (List.mem_map_of_mem isNew))
  | drain => exact fun touch member => le_trans (clocked touch member) later
  | drainAll => exact fun touch member => le_trans (clocked touch member) later

/-- An ordinary call keeps everything as it should be. -/
theorem assembled_step {next : History C} (assembled : Assembled options history)
    (clocked : history.Clocked) (ordinary : call.Ordinary)
    (stepped : step options history call = some next) : Assembled options next := by
  rcases stepped_of_step stepped with ⟨effect, ordered, _⟩
  rcases effect.placed assembled.kept.distinct with ⟨accepted, lost, parts, isPlaced, isLost⟩
  have conserved : (next.added.map Prod.fst).Perm next.placed := by
    rw [parts, isLost.mpr ordinary, List.append_nil]
    exact (assembled.conserved.append_right _).trans isPlaced.symm
  cases effect with
  | @add entries assembler returned clock added =>
      rcases @add_of_ordinary C options history.assembler entries assembled.kept.distinct ordinary with
        ⟨filled, isFilled, isAdded⟩
      cases isAdded.symm.trans added
      have latest : forall touch, touch ∈ history.added -> forall entry, entry ∈ entries ->
          touch.2 ≤ entry.2 := fun touch member entry isEntry =>
        le_trans (clocked touch member) ((List.pairwise_cons.mp ordered).1 _ (List.mem_map_of_mem isEntry))
      exact ⟨conserved,
        (assembled.kept.acceptAll isFilled latest (List.pairwise_cons.mp ordered).2).enforceCeiling options,
        assembled.emitted, enforceCeiling_ceiling options filled⟩
  | drain =>
      refine ⟨conserved, assembled.kept.sublist List.filter_sublist _, ?_, ?_⟩
      · intro batch member
        rcases List.mem_append.mp member with before | isNew
        · exact assembled.emitted batch before
        · exact assembled.kept.drained List.filter_sublist isNew
      · exact le_trans (Nat.cast_le.mpr (List.length_filter_le _ _)) assembled.ceiling
  | drainAll =>
      refine ⟨conserved, assembled.kept.sublist (List.nil_sublist _) _, ?_, ?_⟩
      · intro batch member
        rcases List.mem_append.mp member with before | isNew
        · exact assembled.emitted batch before
        · exact assembled.kept.drained (List.Sublist.refl _) isNew
      · exact le_trans (Nat.cast_le.mpr (Nat.zero_le _)) assembled.ceiling

theorem exits_step {next : History C} (assembled : Assembled options history)
    (clocked : history.Clocked) (ordinary : call.Ordinary)
    (stepped : step options history call = some next) :
    Exits options history.assembler call next.assembler := by
  rcases stepped_of_step stepped with ⟨effect, ordered, _⟩
  cases effect with
  | @add entries assembler returned clock added =>
      rcases @add_of_ordinary C options history.assembler entries assembled.kept.distinct ordinary with
        ⟨filled, isFilled, isAdded⟩
      cases isAdded.symm.trans added
      have latest : forall touch, touch ∈ history.added -> forall entry, entry ∈ entries ->
          touch.2 ≤ entry.2 := fun touch member entry isEntry =>
        le_trans (clocked touch member) ((List.pairwise_cons.mp ordered).1 _ (List.mem_map_of_mem isEntry))
      have kept := assembled.kept.acceptAll isFilled latest (List.pairwise_cons.mp ordered).2
      have parts := Recency.shed_append (fun size : Nat => options.maxOpenBatches < size)
        filled.openBatches
      refine ⟨filled, _, isFilled, parts.symm, acceptAll_grows assembled.kept.distinct isFilled, ?_⟩
      intro front oldest rest isShed
      refine ⟨Recency.exceeds_of_shed _ isShed, fun other member => ?_⟩
      have recency := kept.recency
      rw [← parts, isShed, List.append_assoc, List.cons_append] at recency
      exact (List.pairwise_cons.mp (List.pairwise_append.mp recency).2.1).1 other member
  | @drain now clock =>
      intro batch member
      by_cases ripe : Assembler.Ripe options now batch
      · exact .inr ripe
      · refine .inl (List.mem_filter.mpr ⟨member, ?_⟩)
        rw [Bool.not_eq_true', decide_eq_false_iff_not]
        exact ripe
  | drainAll => trivial

/-! ## Runs -/

theorem initial_assembled (options : AssemblerOptions) (clock : Rat) :
    Assembled options (initial clock : History C) where
  conserved := List.Perm.refl _
  kept := ⟨List.nodup_nil, fun _ member => (List.not_mem_nil member).elim,
    fun _ member => (List.not_mem_nil member).elim, fun _ member => (List.not_mem_nil member).elim,
    List.Pairwise.nil⟩
  emitted _ member := (List.not_mem_nil member).elim
  ceiling := le_of_lt options.maxOpenBatches_positive

theorem run_lost {calls : List (Call C)} {lost : List (Entry C)}
    (conserved : (history.added.map Prod.fst).Perm (history.placed ++ lost))
    (distinct : history.assembler.DistinctIds)
    (ran : Transition.runFrom (step options) history calls = some final) :
    Exists fun more => (final.added.map Prod.fst).Perm (final.placed ++ (lost ++ more)) ∧
      (more = [] <-> forall call, call ∈ calls -> call.Ordinary) := by
  induction calls generalizing history lost with
  | nil =>
      cases ran
      refine ⟨[], ?_, iff_of_true rfl fun _ member => (List.not_mem_nil member).elim⟩
      rw [List.append_nil]
      exact conserved
  | cons call calls inductionHypothesis =>
      rcases Transition.runFrom_cons_eq_some.mp ran with ⟨next, stepped, rest⟩
      have effect := (stepped_of_step stepped).1
      rcases effect.placed distinct with ⟨accepted, missing, parts, isPlaced, isLost⟩
      have nextConserved : (next.added.map Prod.fst).Perm (next.placed ++ (lost ++ missing)) := by
        rw [parts]
        refine (conserved.append_right _).trans ?_
        refine List.Perm.trans ?_ (isPlaced.symm.append_right _)
        rw [List.append_assoc, List.append_assoc]
        refine List.Perm.append_left _ ?_
        rw [← List.append_assoc, ← List.append_assoc]
        exact List.perm_append_comm.append_right _
      rcases inductionHypothesis nextConserved (effect.distinct distinct) rest with
        ⟨more, isConserved, isMore⟩
      rw [List.append_assoc] at isConserved
      refine ⟨missing ++ more, isConserved, ?_⟩
      rw [List.append_eq_nil_iff, isLost, isMore, List.forall_mem_cons]

/-- At the end of any run everything is as it should be, if and only if no call of
`add` was given an entry whose type is the name of an inherited property; and then
batches leave the open set with the next such call only as they should. -/
theorem assembled_iff {start : Rat} {calls : List (Call C)}
    (ran : Transition.runFrom (step options) (initial start) calls = some history) :
    (Assembled options history <-> forall call, call ∈ calls -> call.Ordinary) ∧
      ((forall call, call ∈ calls -> call.Ordinary) ->
        forall (call : Call C) (next : History C), call.Ordinary ->
          step options history call = some next ->
          Exits options history.assembler call next.assembler) := by
  have preserved : forall (history : History C) (call : Call C) (next : History C),
      Assembled options history ∧ history.Clocked -> call.Ordinary ->
        step options history call = some next -> Assembled options next ∧ next.Clocked :=
    fun _ _ _ holds isOrdinary stepped =>
      ⟨assembled_step holds.1 holds.2 isOrdinary stepped, clocked_step holds.2 stepped⟩
  have reached : (forall call, call ∈ calls -> call.Ordinary) ->
      Assembled options history ∧ history.Clocked := fun ordinary =>
    Transition.invariant_along preserved
      ⟨initial_assembled options start, fun _ member => (List.not_mem_nil member).elim⟩
      (Transition.along_of_forall ordinary _) ran
  refine ⟨⟨fun assembled => ?_, fun ordinary => (reached ordinary).1⟩, ?_⟩
  · rcases @run_lost C options (initial start) history calls [] (List.Perm.refl _) List.nodup_nil ran with
      ⟨lost, conserved, isLost⟩
    have lengths := (assembled.conserved.symm.trans conserved).length_eq
    rw [List.nil_append, List.length_append] at lengths
    exact isLost.mp (List.length_eq_zero_iff.mp (by omega))
  · intro ordinary call next isOrdinary stepped
    exact exits_step (reached ordinary).1 (reached ordinary).2 isOrdinary stepped

theorem lingerMs_pos : (0 : Rat) < 5000 := by decide

def oneBatch : AssemblerOptions := ⟨5000, 1, lingerMs_pos, by decide⟩

def plainOf (batchId type : Text) (sequence : Int) : Entry Text :=
  { plainEntry ['e'] type 10 with batchId := batchId, sequence := sequence }

/-- Two batches under a ceiling of one: the second sheds the first, whose late child
then sheds the second and is shipped by the last drain. -/
def straddling : List (Call Text) :=
  [.add [(plainOf ['a'] "query".toList 1, 0), (plainOf ['a'] "request".toList 2, 1)],
    .add [(plainOf ['b'] "job".toList 1, 2)], .drain 3, .add [(plainOf ['a'] "log".toList 3, 4)],
    .drain 5004]

theorem assembled_iff_straddling :
    Exists fun history => Transition.runFrom (step oneBatch) (initial 0) straddling = some history ∧
      Assembled oneBatch history ∧ forall (call : Call Text) (next : History Text), call.Ordinary ->
        step oneBatch history call = some next ->
        Exits oneBatch history.assembler call next.assembler := by
  have runs : (Transition.runFrom (step oneBatch) (initial 0) straddling).isSome = true := by decide
  have ordinary : forall call, call ∈ straddling -> call.Ordinary := by decide
  rcases Option.isSome_iff_exists.mp runs with ⟨history, ran⟩
  exact ⟨history, ran, (assembled_iff ran).1.mpr ordinary, (assembled_iff ran).2 ordinary⟩

/-- An entry of the type `constructor` makes `add` throw: neither it nor the entry
behind it is in any batch. -/
theorem not_assembled_constructor :
    Exists fun history => Transition.runFrom (step oneBatch) (initial 0)
        [.add [(plainOf ['a'] "constructor".toList 1, 0), (plainOf ['b'] "query".toList 1, 0)]] =
          some history ∧
      history.added.map Prod.fst =
        [plainOf ['a'] "constructor".toList 1, plainOf ['b'] "query".toList 1] ∧
      history.placed = [] ∧ ¬ Assembled oneBatch history := by
  refine ⟨_, rfl, rfl, rfl, fun assembled => ?_⟩
  exact absurd assembled.conserved.length_eq (by decide)

end History

end Observe
end Telescope
