import Mathlib.Algebra.Order.Ring.Unbundled.Rat
import Mathlib.Data.List.Perm.Basic
import Telescope.Core.Entry
import Telescope.Foundation.Recency

namespace Telescope
namespace Observe

universe u

/-!
# Regrouping the entry stream into batches

Flushes deliver the entries of one batch piecemeal.  The assembler holds a batch
open until no entry of it has arrived for the grace period, and sheds the batches
touched least recently when too many are open.  What it reads of the clock is
passed in, one reading for each call of `options.clock()`.
-/

variable {C : Type u}

/-- The resolved options: `positive` lets no others through. -/
structure AssemblerOptions where
  batchGraceMs : Rat
  maxOpenBatches : Rat
  batchGraceMs_positive : 0 < batchGraceMs
  maxOpenBatches_positive : 0 < maxOpenBatches

structure OpenBatch (C : Type u) where
  batchId : Text
  origin : BatchOrigin
  root : Option (Entry C)
  children : List (Entry C)
  lastTouchedAt : Rat

structure AssembledBatch (C : Type u) where
  batchId : Text
  origin : BatchOrigin
  root : Option (Entry C)
  children : List (Entry C)

def OpenBatch.entries (batch : OpenBatch C) : List (Entry C) := batch.root.toList ++ batch.children

def AssembledBatch.entries (batch : AssembledBatch C) : List (Entry C) :=
  batch.root.toList ++ batch.children

/-! ## Roots -/

/-- What an object literal inherits: functions, and a prototype without `includes`. -/
def inheritedKeys : List Text :=
  ["constructor".toList, "hasOwnProperty".toList, "isPrototypeOf".toList,
    "propertyIsEnumerable".toList, "toLocaleString".toList, "toString".toList, "valueOf".toList,
    "__defineGetter__".toList, "__defineSetter__".toList, "__lookupGetter__".toList,
    "__lookupSetter__".toList, "__proto__".toList]

/-- `ROOT_ORIGINS[entry.type]?.includes(entry.origin) ?? false`, which throws where
the type is the name of an inherited property. -/
def isRoot (entry : Entry C) : Option Bool :=
  if entry.type = "request".toList then some (decide (entry.origin = .http))
  else if entry.type = "job".toList then some (decide (entry.origin = .queue ∨ entry.origin = .schedule))
  else if entry.type ∈ inheritedKeys then none
  else some false

/-- The capture order within a batch. -/
def CaptureOrder (left right : Entry C) : Prop :=
  left.sequence < right.sequence ∨ left.sequence = right.sequence ∧ left.createdAt ≤ right.createdAt

instance (left right : Entry C) : Decidable (CaptureOrder left right) :=
  inferInstanceAs (Decidable (_ ∨ _))

def assemble (batch : OpenBatch C) : AssembledBatch C where
  batchId := batch.batchId
  origin := batch.origin
  root := batch.root
  children := batch.children.insertionSort CaptureOrder

/-! ## The assembler -/

structure Assembler (C : Type u) where
  openBatches : List (OpenBatch C)
  evicted : List (AssembledBatch C)
  evictedSinceLastDrain : Nat
  duplicateRoots : Nat

namespace Assembler

def empty : Assembler C := ⟨[], [], 0, 0⟩

/-- The batch an entry goes to. -/
def batchOf (assembler : Assembler C) (entry : Entry C) : OpenBatch C :=
  (Recency.get OpenBatch.batchId assembler.openBatches entry.batchId).getD
    ⟨entry.batchId, entry.origin, none, [], 0⟩

/-- `accept`, at a reading of the clock; `none` when it throws. -/
def accept (assembler : Assembler C) (entry : Entry C) (now : Rat) : Option (Assembler C) :=
  let batch := assembler.batchOf entry
  (isRoot entry).map fun candidate =>
    let filled : OpenBatch C :=
      if candidate = true ∧ batch.root = none then { batch with root := some entry }
      else { batch with children := batch.children ++ [entry] }
    { assembler with
      duplicateRoots := assembler.duplicateRoots +
        if candidate = true ∧ batch.root ≠ none then 1 else 0
      openBatches :=
        Recency.touch OpenBatch.batchId assembler.openBatches { filled with lastTouchedAt := now } }

def enforceCeiling (options : AssemblerOptions) (assembler : Assembler C) : Assembler C :=
  let ceiling := Recency.shed (fun size : Nat => options.maxOpenBatches < size) assembler.openBatches
  { assembler with
    openBatches := ceiling.2
    evicted := assembler.evicted ++ ceiling.1.map assemble
    evictedSinceLastDrain := assembler.evictedSinceLastDrain + ceiling.1.length }

/-- The loop of `add`, and whether it runs to its end. -/
def acceptAll (assembler : Assembler C) : List (Entry C × Rat) -> Assembler C × Bool
  | [] => (assembler, true)
  | (entry, now) :: entries =>
      match assembler.accept entry now with
      | none => (assembler, false)
      | some next => next.acceptAll entries

/-- `add`, and whether it returns. -/
def add (options : AssemblerOptions) (assembler : Assembler C) (entries : List (Entry C × Rat)) :
    Assembler C × Bool :=
  let accepted := assembler.acceptAll entries
  if accepted.2 then (accepted.1.enforceCeiling options, true) else accepted

def takeEvicted (assembler : Assembler C) : Assembler C × List (AssembledBatch C) :=
  ({ assembler with evicted := [], evictedSinceLastDrain := 0 }, assembler.evicted)

/-- Nothing of the batch has arrived for the grace period. -/
def Ripe (options : AssemblerOptions) (now : Rat) (batch : OpenBatch C) : Prop :=
  options.batchGraceMs ≤ now - batch.lastTouchedAt

instance (options : AssemblerOptions) (now : Rat) (batch : OpenBatch C) :
    Decidable (Ripe options now batch) := inferInstanceAs (Decidable (_ ≤ _))

def drain (options : AssemblerOptions) (now : Rat) (assembler : Assembler C) :
    Assembler C × List (AssembledBatch C) :=
  let taken := assembler.takeEvicted
  ({ taken.1 with openBatches := taken.1.openBatches.filter fun batch => !decide (Ripe options now batch) },
    taken.2 ++ (taken.1.openBatches.filter fun batch => decide (Ripe options now batch)).map assemble)

def drainAll (assembler : Assembler C) : Assembler C × List (AssembledBatch C) :=
  let taken := assembler.takeEvicted
  ({ taken.1 with openBatches := [] }, taken.2 ++ taken.1.openBatches.map assemble)

end Assembler

end Observe
end Telescope

namespace Telescope
namespace Observe

universe u

/-!
# The assembler conserves entries

Each operation moves entries between the open batches, the shed ones and the
batches it returns.  An entry goes in under its own batch and comes out with it.
-/

variable {C : Type u}

theorem assemble_entries (batch : OpenBatch C) : (assemble batch).entries.Perm batch.entries :=
  List.Perm.append_left _ (List.perm_insertionSort CaptureOrder batch.children)

theorem mem_assemble_entries {batch : OpenBatch C} {entry : Entry C} :
    entry ∈ (assemble batch).entries <-> entry ∈ batch.entries := (assemble_entries batch).mem_iff

theorem flatMap_assemble (batches : List (OpenBatch C)) :
    ((batches.map assemble).flatMap AssembledBatch.entries).Perm (batches.flatMap OpenBatch.entries) := by
  rw [List.flatMap_map]
  exact List.Perm.flatMap_left batches fun batch _ => assemble_entries batch

namespace Assembler

/-- The entries the assembler holds. -/
def held (assembler : Assembler C) : List (Entry C) :=
  assembler.openBatches.flatMap OpenBatch.entries ++ assembler.evicted.flatMap AssembledBatch.entries

variable {options : AssemblerOptions} {assembler next : Assembler C} {entry : Entry C} {now : Rat}

def DistinctIds (assembler : Assembler C) : Prop := (assembler.openBatches.map OpenBatch.batchId).Nodup

/-! ## Accepting an entry -/

theorem batchOf_cases (assembler : Assembler C) (entry : Entry C) :
    (Recency.get OpenBatch.batchId assembler.openBatches entry.batchId = some (assembler.batchOf entry)) ∨
      Recency.get OpenBatch.batchId assembler.openBatches entry.batchId = none ∧
        assembler.batchOf entry = ⟨entry.batchId, entry.origin, none, [], 0⟩ := by
  rw [batchOf]
  cases Recency.get OpenBatch.batchId assembler.openBatches entry.batchId with
  | none => exact .inr ⟨rfl, rfl⟩
  | some batch => exact .inl rfl

theorem batchOf_batchId (assembler : Assembler C) (entry : Entry C) :
    (assembler.batchOf entry).batchId = entry.batchId := by
  rcases batchOf_cases assembler entry with found | ⟨_, fresh⟩
  · exact Recency.key_of_get found
  · rw [fresh]

/-- What accepting an entry makes of its batch. -/
structure Grows (entry : Entry C) (now : Rat) (batch grown : OpenBatch C) : Prop where
  batchId : grown.batchId = entry.batchId
  touched : grown.lastTouchedAt = now
  entries : grown.entries.Perm (entry :: batch.entries)
  root : grown.root = batch.root ∨ grown.root = some entry ∧ isRoot entry = some true

theorem Grows.mem_entries {batch grown : OpenBatch C} (grows : Grows entry now batch grown)
    {other : Entry C} : other ∈ grown.entries <-> other = entry ∨ other ∈ batch.entries :=
  grows.entries.mem_iff.trans List.mem_cons

theorem grows_of_accept (accepted : assembler.accept entry now = some next) :
    Exists fun grown => Grows entry now (assembler.batchOf entry) grown ∧
      next.openBatches = Recency.touch OpenBatch.batchId assembler.openBatches grown ∧
      next.evicted = assembler.evicted := by
  rw [accept] at accepted
  rcases Option.map_eq_some_iff.mp accepted with ⟨candidate, isCandidate, rfl⟩
  refine ⟨_, ?_, rfl, rfl⟩
  by_cases becomesRoot : candidate = true ∧ (assembler.batchOf entry).root = none
  · rw [if_pos becomesRoot]
    refine ⟨batchOf_batchId assembler entry, rfl, ?_, .inr ⟨rfl, becomesRoot.1 ▸ isCandidate⟩⟩
    rw [OpenBatch.entries, OpenBatch.entries, becomesRoot.2]
    exact List.Perm.refl _
  · rw [if_neg becomesRoot]
    refine ⟨batchOf_batchId assembler entry, rfl, ?_, .inl rfl⟩
    rw [OpenBatch.entries, OpenBatch.entries, ← List.append_assoc]
    exact List.perm_append_singleton _ _

theorem accept_isSome (assembler : Assembler C) (entry : Entry C) (now : Rat) :
    (assembler.accept entry now).isSome = (isRoot entry).isSome := Option.isSome_map

theorem accept_distinct (accepted : assembler.accept entry now = some next)
    (distinct : assembler.DistinctIds) : next.DistinctIds := by
  rcases grows_of_accept accepted with ⟨grown, _, isNext, _⟩
  rw [DistinctIds, isNext]
  exact Recency.nodup_touch distinct

theorem accept_held (accepted : assembler.accept entry now = some next)
    (distinct : assembler.DistinctIds) : next.held.Perm (entry :: assembler.held) := by
  rcases grows_of_accept accepted with ⟨grown, grows, isNext, sameEvicted⟩
  rw [held, held, isNext, sameEvicted, ← List.cons_append]
  refine List.Perm.append_right _ ?_
  rw [Recency.touch, grows.batchId, List.flatMap_append, List.flatMap_singleton]
  refine List.perm_append_comm.trans ((grows.entries.append_right _).trans ?_)
  rw [List.cons_append]
  refine List.Perm.cons entry ?_
  rcases batchOf_cases assembler entry with found | ⟨absent, fresh⟩
  · exact ((Recency.perm_remove distinct found).flatMap_right OpenBatch.entries).symm
  · rw [fresh, Recency.remove_of_absent fun other member =>
      Recency.ne_of_get_eq_none absent member]
    exact List.Perm.refl _

variable {entries : List (Entry C × Rat)}

theorem acceptAll_distinct {assembler next : Assembler C} {returned : Bool}
    (accepted : assembler.acceptAll entries = (next, returned)) (distinct : assembler.DistinctIds) :
    next.DistinctIds := by
  induction entries generalizing assembler with
  | nil =>
      cases accepted
      exact distinct
  | cons first entries inductionHypothesis =>
      rcases first with ⟨entry, now⟩
      rw [acceptAll] at accepted
      cases isAccepted : assembler.accept entry now with
      | none =>
          rw [isAccepted] at accepted
          cases accepted
          exact distinct
      | some middle =>
          rw [isAccepted] at accepted
          exact inductionHypothesis accepted (accept_distinct isAccepted distinct)

/-- The loop puts the entries in front of the one that makes it throw into the
assembler. -/
theorem acceptAll_held {assembler next : Assembler C} {returned : Bool}
    (accepted : assembler.acceptAll entries = (next, returned)) (distinct : assembler.DistinctIds) :
    Exists fun added => Exists fun lost => entries.map Prod.fst = added ++ lost ∧
      next.held.Perm (assembler.held ++ added) ∧ (lost = [] <-> returned = true) ∧
        (returned = true <-> forall entry, entry ∈ entries -> (isRoot entry.1).isSome = true) := by
  induction entries generalizing assembler with
  | nil =>
      cases accepted
      refine ⟨[], [], rfl, ?_, iff_of_true rfl rfl, iff_of_true rfl fun _ member => by cases member⟩
      rw [List.append_nil]
  | cons first entries inductionHypothesis =>
      rcases first with ⟨entry, now⟩
      have isSome := accept_isSome assembler entry now
      rw [acceptAll] at accepted
      cases isAccepted : assembler.accept entry now with
      | none =>
          rw [isAccepted] at accepted isSome
          cases accepted
          refine ⟨[], entry :: entries.map Prod.fst, rfl, ?_, iff_of_false (List.cons_ne_nil _ _)
            Bool.false_ne_true, iff_of_false Bool.false_ne_true fun all => ?_⟩
          · rw [List.append_nil]
          · exact Bool.false_ne_true (isSome.trans (all _ List.mem_cons_self))
      | some middle =>
          rw [isAccepted] at accepted isSome
          rcases inductionHypothesis accepted (accept_distinct isAccepted distinct) with
            ⟨added, lost, parts, rest, isLost, isReturned⟩
          refine ⟨entry :: added, lost, congrArg (entry :: ·) parts, ?_, isLost, ?_⟩
          · have moved := rest.trans ((accept_held isAccepted distinct).append_right added)
            exact moved.trans List.perm_middle.symm
          · rw [isReturned, List.forall_mem_cons]
            exact (and_iff_right isSome.symm).symm

/-! ## Shedding and draining -/

theorem enforceCeiling_held (options : AssemblerOptions) (assembler : Assembler C) :
    (assembler.enforceCeiling options).held.Perm assembler.held := by
  have parts := Recency.shed_append (fun size : Nat => options.maxOpenBatches < size)
    assembler.openBatches
  conv_rhs => rw [held, ← parts]
  rw [held, enforceCeiling]
  dsimp only
  rw [List.flatMap_append, List.flatMap_append]
  have shed := flatMap_assemble
    (Recency.shed (fun size : Nat => options.maxOpenBatches < size) assembler.openBatches).1
  refine List.perm_append_comm.trans ?_
  rw [List.append_assoc]
  refine List.perm_append_comm.trans ?_
  rw [List.append_assoc]
  refine (shed.append_right _).trans ?_
  rw [List.append_assoc]

theorem add_held {next : Assembler C} {returned : Bool} (added : assembler.add options entries = (next, returned))
    (distinct : assembler.DistinctIds) :
    Exists fun accepted => Exists fun lost => entries.map Prod.fst = accepted ++ lost ∧
      next.held.Perm (assembler.held ++ accepted) ∧ (lost = [] <-> returned = true) ∧
        (returned = true <-> forall entry, entry ∈ entries -> (isRoot entry.1).isSome = true) := by
  rw [add] at added
  rcases isAccepted : assembler.acceptAll entries with ⟨filled, ended⟩
  rw [isAccepted] at added
  rcases acceptAll_held isAccepted distinct with ⟨accepted, lost, parts, isHeld, rest⟩
  cases ended with
  | false =>
      cases added
      exact ⟨accepted, lost, parts, isHeld, rest⟩
  | true =>
      cases added
      exact ⟨accepted, lost, parts, (enforceCeiling_held options filled).trans isHeld, rest⟩

theorem add_distinct {next : Assembler C} {returned : Bool} (added : assembler.add options entries = (next, returned))
    (distinct : assembler.DistinctIds) :
    next.DistinctIds := by
  rw [add] at added
  rcases isAccepted : assembler.acceptAll entries with ⟨filled, ended⟩
  rw [isAccepted] at added
  have isDistinct := acceptAll_distinct isAccepted distinct
  cases ended with
  | false =>
      cases added
      exact isDistinct
  | true =>
      cases added
      refine isDistinct.sublist (List.Sublist.map _ ?_)
      conv_rhs => rw [← Recency.shed_append (fun size : Nat => options.maxOpenBatches < size)
        filled.openBatches]
      exact List.sublist_append_right _ _

theorem drain_held (options : AssemblerOptions) (now : Rat) (assembler : Assembler C) :
    ((assembler.drain options now).1.held ++
      (assembler.drain options now).2.flatMap AssembledBatch.entries).Perm assembler.held := by
  have parts := (List.filter_append_perm (fun batch => decide (Ripe options now batch))
    assembler.openBatches).flatMap_right OpenBatch.entries
  have ripe := flatMap_assemble
    (assembler.openBatches.filter fun batch => decide (Ripe options now batch))
  rw [List.flatMap_append] at parts
  rw [held, held, drain, takeEvicted]
  dsimp only
  rw [List.flatMap_nil, List.append_nil, List.flatMap_append]
  refine List.perm_append_comm.trans ?_
  rw [List.append_assoc]
  refine List.perm_append_comm.trans (List.Perm.append_right _ ?_)
  exact (ripe.append_right _).trans parts

theorem drainAll_held (assembler : Assembler C) :
    (assembler.drainAll.2.flatMap AssembledBatch.entries).Perm assembler.held := by
  rw [held, drainAll, takeEvicted]
  dsimp only
  rw [List.flatMap_append]
  exact List.perm_append_comm.trans ((flatMap_assemble _).append_right _)

end Assembler

end Observe
end Telescope
