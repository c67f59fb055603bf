import Telescope.Core.StorageProvider
import Telescope.Foundation.Program

namespace Telescope
namespace Prune

/-!
# The pruner

A prune cycle is a program: it waits for the storage provider and for the
archive sink, and whatever happens meanwhile happens to the world it shares with
them.  Rejected promises are replies that carry the message of their error.  The
pruner remembers where the export of each archived type stopped, and its recent
runs.
-/

variable {C : Type}

/-- What the pruner awaits. -/
inductive Request (C : Type)
  | get (query : EntryQuery)
  | sink (entries : List (Entry C))
  | pruneScopedBatch (input : BoundedPruneScope)
  | pruneScoped (input : PruneScope)
  | prune (olderThan : Int) (keepLast : Option Int)

/-- What each resolves with, or the message it is rejected with. -/
@[reducible] def Reply : Request C -> Type
  | .get _ => Except Text (Page C)
  | .sink _ => Except Text Unit
  | .pruneScopedBatch _ => Except Text BoundedPruneResult
  | .pruneScoped _ => Except Text Nat
  | .prune _ _ => Except Text Nat

/-- A program of the pruner. -/
abbrev Step (C : Type) (α : Type) := Program (Request C) Reply α

namespace Storage

def get (query : EntryQuery) : Step C (Except Text (Page C)) := .ask (.get query) .done

def pruneScopedBatch (input : BoundedPruneScope) : Step C (Except Text BoundedPruneResult) :=
  .ask (.pruneScopedBatch input) .done

def pruneScoped (input : PruneScope) : Step C (Except Text Nat) :=
  .ask (.pruneScoped input) .done

def prune (olderThan : Int) (keepLast : Option Int) : Step C (Except Text Nat) :=
  .ask (.prune olderThan keepLast) .done

end Storage

def sink (entries : List (Entry C)) : Step C (Except Text Unit) := .ask (.sink entries) .done

/-- The optional methods a provider implements. -/
structure Capabilities where
  pruneScoped : Bool
  pruneScopedBatch : Bool

/-- The provider can delete by type. -/
def Capabilities.ByType (capabilities : Capabilities) : Prop :=
  capabilities.pruneScoped = true ∨ capabilities.pruneScopedBatch = true

instance (capabilities : Capabilities) : Decidable capabilities.ByType :=
  inferInstanceAs (Decidable (_ ∨ _))

/-- The resolved `prune` options; `perTypeMs` lists the overrides in key order. -/
structure PruneOptions where
  afterMs : Int
  perTypeMs : List (Text × Int)
  keepLast : Option Int
  batchSize : Nat
  maxBatchesPerCycle : Nat
  batchSize_pos : 0 < batchSize
  maxBatchesPerCycle_pos : 0 < maxBatchesPerCycle

/-- The resolved `archive` options. -/
structure ArchiveOptions where
  types : List Text
  batchSize : Nat
  maxBatchesPerCycle : Nat
  batchSize_pos : 0 < batchSize
  maxBatchesPerCycle_pos : 0 < maxBatchesPerCycle

structure Config where
  prune : PruneOptions
  archive : Option ArchiveOptions

/-- `config.archive?.types`, none without an archive. -/
def Config.archivedTypes (config : Config) : List Text :=
  (config.archive.map ArchiveOptions.types).getD []

inductive PruneTrigger
  | scheduled
  | manual
  deriving DecidableEq

structure PruneRun where
  atMs : Int
  trigger : PruneTrigger
  deletedTotal : Nat
  deletedByType : List (Text × Nat)
  archivedTotal : Option Nat
  error : Option Text

/-- Where a capped or failed export goes on, and under which cutoff. -/
structure Resume where
  before : Int
  cursor : Text

/-- What the pruner keeps between cycles, and the batch ceilings it has hit in the
current one. -/
structure Memory where
  archiveResume : Text -> Option Resume
  ceilingHitsThisCycle : Nat
  runs : List PruneRun
  lastScheduledRunAtMs : Option Int

namespace Memory

def initial : Memory where
  archiveResume := fun _ => none
  ceilingHitsThisCycle := 0
  runs := []
  lastScheduledRunAtMs := none

/-- `archiveResume.set`. -/
def resumeAt (memory : Memory) (type : Text) (resume : Resume) : Memory :=
  { memory with archiveResume := Function.update memory.archiveResume type (some resume) }

/-- `archiveResume.delete`. -/
def forget (memory : Memory) (type : Text) : Memory :=
  { memory with archiveResume := Function.update memory.archiveResume type none }

/-- `ceilingHitsThisCycle += 1` where a delete stopped at the ceiling. -/
def countCeiling (memory : Memory) (ceilingHit : Bool) : Memory :=
  if ceilingHit then { memory with ceilingHitsThisCycle := memory.ceilingHitsThisCycle + 1 }
  else memory

@[simp] theorem archiveResume_countCeiling (memory : Memory) (ceilingHit : Bool) :
    (memory.countCeiling ceilingHit).archiveResume = memory.archiveResume := by
  cases ceilingHit <;> rfl

theorem archiveResume_resumeAt (memory : Memory) (type : Text) (resume : Resume) (other : Text) :
    (memory.resumeAt type resume).archiveResume other =
      if other = type then some resume else memory.archiveResume other :=
  Function.update_apply ..

theorem archiveResume_forget (memory : Memory) (type other : Text) :
    (memory.forget type).archiveResume other =
      if other = type then none else memory.archiveResume other :=
  Function.update_apply ..

end Memory

def MAX_PRUNE_RUNS : Nat := 100

/-- Newest first, capped. -/
def recordRun (memory : Memory) (run : PruneRun) : Memory :=
  { memory with runs := (run :: memory.runs).take MAX_PRUNE_RUNS }

/-! ## The export -/

/-- How the export of a type ends in one cycle. -/
inductive ArchiveEnd
  | drained
  | capped (cursor : Text)
  | failed (cursor : Option Text)

/-- The query of one page of an export. -/
def archiveQuery (archive : ArchiveOptions) (type : Text) (before : Int) (cursor : Option Text) :
    EntryQuery :=
  { type := some type, before := some before, limit := some archive.batchSize, cursor := cursor }

/-- The loop of `archiveScope` for as many batches as the cycle has left, with
the number of entries handed over.  The cap is checked after a batch that has a
next one, so a loop that starts within the cap leaves through the body. -/
def archiveLoop (archive : ArchiveOptions) (type : Text) (before : Int) :
    Nat -> Option Text -> Nat -> Step C (ArchiveEnd × Nat)
  | 0, _, archived => return (.drained, archived)
  | batches + 1, cursor, archived => do
      match ← Storage.get (archiveQuery archive type before cursor) with
      | .error _ => return (.failed cursor, archived)
      | .ok page =>
          if page.data.isEmpty then return (.drained, archived)
          else
            match ← sink page.data with
            | .error _ => return (.failed cursor, archived)
            | .ok _ =>
                let archived := archived + page.data.length
                match page.nextCursor with
                | none => return (.drained, archived)
                | some next =>
                    if batches = 0 then return (.capped next, archived)
                    else archiveLoop archive type before batches (some next) archived

structure ArchiveResult where
  proceed : Bool
  archived : Nat
  before : Option Int := none

/-- What the end of an export leaves to remember and says about the delete. -/
def settleArchive (memory : Memory) (type : Text) (before : Int) (resumed : Bool) :
    ArchiveEnd × Nat -> Memory × ArchiveResult
  | (.drained, archived) =>
      (memory.forget type,
        { proceed := true
          archived := archived
          before := if resumed then some before else none })
  | (.capped cursor, archived) =>
      (memory.resumeAt type ⟨before, cursor⟩, { proceed := false, archived := archived })
  | (.failed (some cursor), archived) =>
      (memory.resumeAt type ⟨before, cursor⟩, { proceed := false, archived := archived })
  | (.failed none, archived) => (memory, { proceed := false, archived := archived })

def archiveScope (config : Config) (memory : Memory) (scope : PruneScope)
    (archivableType : Option Text) : Step C (Memory × ArchiveResult) :=
  match config.archive, archivableType with
  | some archive, some type =>
      if type ∈ archive.types then do
        let resume := memory.archiveResume type
        let before := (resume.map Resume.before).getD scope.before
        let ending ← archiveLoop archive type before archive.maxBatchesPerCycle
          (resume.map Resume.cursor) 0
        return settleArchive memory type before resume.isSome ending
      else return (memory, { proceed := true, archived := 0 })
  | _, _ => return (memory, { proceed := true, archived := 0 })

/-! ## The delete -/

/-- The count of a delete, and whether it stopped at the batch ceiling. -/
structure DeleteResult where
  deleted : Nat
  ceilingHit : Bool := false

/-- At most `maxBatchesPerCycle` bounded deletes, until one reports the end. -/
def deleteBatches (bounded : BoundedPruneScope) : Nat -> Nat -> Step C (Except Text DeleteResult)
  | 0, deletedTotal => return .ok { deleted := deletedTotal, ceilingHit := true }
  | batches + 1, deletedTotal => do
      match ← Storage.pruneScopedBatch bounded with
      | .error message => return .error message
      | .ok result =>
          let deletedTotal := deletedTotal + result.deleted
          if result.hasMore then deleteBatches bounded batches deletedTotal
          else return .ok { deleted := deletedTotal }

def deleteScopeInBatches (prune : PruneOptions) (scope : PruneScope) :
    Step C (Except Text DeleteResult) :=
  deleteBatches
    { before := scope.before
      type := scope.type
      excludeTypes := scope.excludeTypes
      limit := prune.batchSize }
    prune.maxBatchesPerCycle 0

/-- Bounded batches, else one scoped delete, else the global one, and that only
for the scope without a type. -/
def deleteScope (prune : PruneOptions) (capabilities : Capabilities) (scope : PruneScope)
    (fallbackOlderThan : Int) (fallbackKeepLast : Option Int) : Step C (Except Text DeleteResult) :=
  if capabilities.pruneScopedBatch && scope.keepLast.isNone then deleteScopeInBatches prune scope
  else if capabilities.pruneScoped then do
    let deleted ← Storage.pruneScoped scope
    return deleted.map fun deleted => { deleted := deleted }
  else if scope.type.isNone then do
    let deleted ← Storage.prune fallbackOlderThan fallbackKeepLast
    return deleted.map fun deleted => { deleted := deleted }
  else return .ok { deleted := 0 }

structure PruneStepResult where
  deleted : Nat
  archived : Nat
  error : Option Text := none

/-- A resumed export finished under an earlier cutoff, and the delete uses that. -/
def effectiveScope (scope : PruneScope) (before : Option Int) : PruneScope :=
  match before with
  | some before => { scope with before := before }
  | none => scope

@[simp] theorem effectiveScope_before (scope : PruneScope) (before : Option Int) :
    (effectiveScope scope before).before = before.getD scope.before := by
  cases before <;> rfl

@[simp] theorem effectiveScope_type (scope : PruneScope) (before : Option Int) :
    (effectiveScope scope before).type = scope.type := by
  cases before <;> rfl

@[simp] theorem effectiveScope_excludeTypes (scope : PruneScope) (before : Option Int) :
    (effectiveScope scope before).excludeTypes = scope.excludeTypes := by
  cases before <;> rfl

@[simp] theorem effectiveScope_keepLast (scope : PruneScope) (before : Option Int) :
    (effectiveScope scope before).keepLast = scope.keepLast := by
  cases before <;> rfl

/-- Errors do not propagate: the counts of a step that fails are zero. -/
def pruneArchivedThenDelete (config : Config) (capabilities : Capabilities) (memory : Memory)
    (fallbackOlderThan : Int) (fallbackKeepLast : Option Int) (scope : PruneScope)
    (archivableType : Option Text) : Step C (Memory × PruneStepResult) := do
  let (memory, outcome) ← archiveScope config memory scope archivableType
  if !outcome.proceed then return (memory, { deleted := 0, archived := outcome.archived })
  else
    let effective := effectiveScope scope outcome.before
    match ← deleteScope config.prune capabilities effective fallbackOlderThan fallbackKeepLast with
    | .ok result =>
        return (memory.countCeiling result.ceilingHit,
          { deleted := result.deleted, archived := outcome.archived })
    | .error message => return (memory, { deleted := 0, archived := 0, error := some message })

/-! ## The cycle -/

/-- The types that get a scope of their own: the overridden ones, then the
archived ones, each once. -/
def individualTypes (config : Config) : List Text :=
  (config.prune.perTypeMs.map Prod.fst ++ config.archivedTypes).eraseDups

/-- The running totals of a cycle. -/
structure Totals where
  deletedTotal : Nat := 0
  deletedByType : List (Text × Nat) := []
  archivedTotal : Nat := 0
  error : Option Text := none

/-- `deletedByType[type] = (deletedByType[type] ?? 0) + deleted`. -/
def addDeleted (type : Text) (deleted : Nat) : List (Text × Nat) -> List (Text × Nat)
  | [] => [(type, deleted)]
  | (other, count) :: counts =>
      if other = type then (other, count + deleted) :: counts
      else (other, count) :: addDeleted type deleted counts

def Totals.add (totals : Totals) (step : PruneStepResult) (type : Option Text) : Totals where
  deletedTotal := totals.deletedTotal + step.deleted
  deletedByType :=
    match type with
    | some type =>
        if step.deleted > 0 then addDeleted type step.deleted totals.deletedByType
        else totals.deletedByType
    | none => totals.deletedByType
  archivedTotal := totals.archivedTotal + step.archived
  error := totals.error.or step.error

/-- The cutoff of a type's own scope. -/
def typeCutoff (prune : PruneOptions) (startedAtMs : Int) (type : Text) : Int :=
  startedAtMs - (prune.perTypeMs.lookup type).getD prune.afterMs

/-- The scope of one individually handled type. -/
def typeScope (prune : PruneOptions) (startedAtMs : Int) (type : Text) : PruneScope where
  before := typeCutoff prune startedAtMs type
  type := some type
  keepLast := prune.keepLast

/-- The scope of everything else. -/
def bulkScope (config : Config) (startedAtMs : Int) : PruneScope where
  before := startedAtMs - config.prune.afterMs
  excludeTypes := if individualTypes config = [] then none else some (individualTypes config)
  keepLast := config.prune.keepLast

/-- One scope per individually handled type. -/
def pruneTypes (config : Config) (capabilities : Capabilities) (startedAtMs : Int) :
    List Text -> Memory -> Totals -> Step C (Memory × Totals)
  | [], memory, totals => return (memory, totals)
  | type :: types, memory, totals => do
      let cutoff := typeCutoff config.prune startedAtMs type
      let (memory, step) ← pruneArchivedThenDelete config capabilities memory cutoff
        config.prune.keepLast (typeScope config.prune startedAtMs type) (some type)
      pruneTypes config capabilities startedAtMs types memory (totals.add step (some type))

/-- The record of a cycle. -/
def runOf (startedAtMs : Int) (trigger : PruneTrigger) (totals : Totals) : PruneRun where
  atMs := startedAtMs
  trigger := trigger
  deletedTotal := totals.deletedTotal
  deletedByType := totals.deletedByType
  archivedTotal := if totals.archivedTotal > 0 then some totals.archivedTotal else none
  error := totals.error

/-- One cycle: the bulk delete, then the types with a scope of their own. -/
def runCycle (config : Config) (capabilities : Capabilities) (startedAtMs : Int)
    (trigger : PruneTrigger) (memory : Memory) : Step C (Memory × Nat) := do
  let globalCutoff := startedAtMs - config.prune.afterMs
  let (memory, bulk) ← pruneArchivedThenDelete config capabilities memory globalCutoff
    config.prune.keepLast (bulkScope config startedAtMs) none
  let (memory, totals) ← pruneTypes config capabilities startedAtMs (individualTypes config) memory
    (({} : Totals).add bulk none)
  let memory :=
    match trigger with
    | .scheduled => { memory with lastScheduledRunAtMs := some startedAtMs }
    | .manual => memory
  return (recordRun memory (runOf startedAtMs trigger totals), totals.deletedTotal)

/-- The cycle as the guard runs it: afterwards the ceiling count starts over. -/
def runGuardedCycle (config : Config) (capabilities : Capabilities) (startedAtMs : Int)
    (trigger : PruneTrigger) (memory : Memory) : Step C (Memory × Nat) := do
  let (memory, deletedTotal) ← runCycle config capabilities startedAtMs trigger memory
  return ({ memory with ceilingHitsThisCycle := 0 }, deletedTotal)

/-- The programs a pruner starts: a cycle at any time, for any reason. -/
def Starts (config : Config) (capabilities : Capabilities) (memory : Memory)
    (program : Step C (Memory × Nat)) : Prop :=
  Exists fun startedAtMs => Exists fun trigger =>
    program = runGuardedCycle config capabilities startedAtMs trigger memory

end Prune
end Telescope
