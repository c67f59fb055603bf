import Mathlib.Algebra.GroupWithZero.Nat
import Telescope.Foundation.Program
import Telescope.Parquet.ColdStore

namespace Telescope
namespace Parquet

/-!
# Compaction

Compaction merges the small files of closed hours.  It is a program that lists,
reads, writes and removes files, while other compactions and archive writes do
the same to the location they share.  File keys are random, so no key is ever
used twice: here a file is known by its place among all that were ever written.
Sizes and the bytes of files are the Parquet writer's.
-/

variable {C : Type}

/-! ## Files -/

/-- A file as it is stored, by row groups. -/
structure StoredFile (C : Type) where
  partition : Partition
  rowGroups : List (List (Entry C))
  size : Nat

/-- All rows of the file. -/
def StoredFile.rows (file : StoredFile C) : List (Entry C) := file.rowGroups.flatten

/-- An object of a listing, under the partition that its key names. -/
structure StoredObject where
  key : Nat
  partition : Partition
  size : Nat
  deriving DecidableEq

/-- Rows of a file, from one place up to another. -/
structure RowGroupRef where
  key : Nat
  rowStart : Nat
  rowEnd : Nat

/-- The row groups of a file from a row on. -/
def rowGroupRefs (key : Nat) : Nat -> List (List (Entry C)) -> List RowGroupRef
  | _, [] => []
  | rowStart, group :: groups =>
      ⟨key, rowStart, rowStart + group.length⟩ :: rowGroupRefs key (rowStart + group.length) groups

/-- What the file writer is set to, and what it makes of entries: the content goes
through JSON, and row groups take up bytes. -/
structure Encoding (C : Type) where
  rowGroupSize : Nat
  rowGroupSize_pos : 0 < rowGroupSize
  readBack : C -> C
  bytes : List (List (Entry C)) -> Nat
  size : List (List (Entry C)) -> Nat

structure ParquetFileBuilder (C : Type) where
  rowGroups : List (List (Entry C)) := []
  pending : List (Entry C) := []
  rows : Nat := 0

namespace ParquetFileBuilder

variable (encoding : Encoding C)

def flushGroup (builder : ParquetFileBuilder C) (entries : List (Entry C)) : ParquetFileBuilder C :=
  { builder with rowGroups := builder.rowGroups ++ [entries.map (asRow encoding.readBack)] }

/-- Flush full row groups while there are any; every one takes a row or more. -/
def flushFull : Nat -> ParquetFileBuilder C -> ParquetFileBuilder C
  | 0, builder => builder
  | fuel + 1, builder =>
      if builder.pending.length < encoding.rowGroupSize then builder
      else
        flushFull fuel
          (flushGroup encoding { builder with pending := builder.pending.drop encoding.rowGroupSize }
            (builder.pending.take encoding.rowGroupSize))

def append (builder : ParquetFileBuilder C) (entries : List (Entry C)) : ParquetFileBuilder C :=
  let pending := builder.pending ++ entries
  flushFull encoding pending.length
    { builder with pending := pending, rows := builder.rows + entries.length }

/-- The row groups of the finished file. -/
def finish (builder : ParquetFileBuilder C) : List (List (Entry C)) :=
  if builder.pending.isEmpty then builder.rowGroups
  else (flushGroup encoding builder builder.pending).rowGroups

end ParquetFileBuilder

def encodeFile (encoding : Encoding C) (sorted : List (Entry C)) : List (List (Entry C)) :=
  (ParquetFileBuilder.append encoding {} sorted).finish encoding

/-! ## Requests -/

/-- What a compaction and a write await. -/
inductive ColdRequest (C : Type)
  | listTypes
  | listDays (type : Text)
  | listDay (type : Text) (day : Int)
  | rowGroups (file : StoredObject)
  | readRowGroup (group : RowGroupRef)
  | write (partition : Partition) (rowGroups : List (List (Entry C)))
  | remove (key : Nat) (others : List Nat)

/-- What each resolves with, if it does.  Removals run side by side, and the reply
names the key whose removal has ended, and says whether it is gone for certain. -/
@[reducible] def ColdReply : ColdRequest C -> Type
  | .listTypes => Option (List Text)
  | .listDays _ => Option (List Int)
  | .listDay _ _ => Option (List StoredObject)
  | .rowGroups _ => Option (List RowGroupRef)
  | .readRowGroup _ => Option (List (Entry C))
  | .write _ _ => Bool
  | .remove _ _ => Nat × Bool

/-- A program over the location. -/
abbrev ColdStep (C : Type) (α : Type) := Program (ColdRequest C) ColdReply α

def listTypes : ColdStep C (Option (List Text)) := .ask .listTypes .done

def listDays (type : Text) : ColdStep C (Option (List Int)) := .ask (.listDays type) .done

def listDay (type : Text) (day : Int) : ColdStep C (Option (List StoredObject)) :=
  .ask (.listDay type day) .done

def rowGroups (file : StoredObject) : ColdStep C (Option (List RowGroupRef)) :=
  .ask (.rowGroups file) .done

def readRowGroup (group : RowGroupRef) : ColdStep C (Option (List (Entry C))) :=
  .ask (.readRowGroup group) .done

def writeFile (partition : Partition) (rowGroups : List (List (Entry C))) : ColdStep C Bool :=
  .ask (.write partition rowGroups) .done

def remove (key : Nat) (others : List Nat) : ColdStep C (Nat × Bool) := .ask (.remove key others) .done

/-- Day starts, newest first. -/
def days (type : Text) : ColdStep C (Option (List Int)) := do
  let listing ← listDays type
  return listing.map (List.insertionSort fun left right => right ≤ left)

/-- A listing by hours, newest first. -/
def groupByHour (objects : List StoredObject) : List (Int × List StoredObject) :=
  (newestDown (objects.map fun object => object.partition.hourStart)).map fun hourStart =>
    (hourStart, objects.filter fun object => decide (object.partition.hourStart = hourStart))

def hours (type : Text) (day : Int) : ColdStep C (Option (List (Int × List StoredObject))) := do
  let listing ← listDay type (floorDay day)
  return listing.map groupByHour

/-! ## The merge -/

structure Cursor (C : Type) where
  groups : List RowGroupRef
  rows : List (Entry C) := []

/-- One cursor for each file. -/
def openCursors : List StoredObject -> ColdStep C (Option (List (Cursor C)))
  | [] => return some []
  | file :: files => do
      match ← rowGroups file with
      | none => return none
      | some groups =>
          let rest ← openCursors files
          return rest.map ({ groups := groups } :: ·)

/-- Read on until there is a row, or no more row groups. -/
def next : List RowGroupRef -> List (Entry C) -> ColdStep C (Option (Cursor C))
  | groups, entry :: rows => return some { groups := groups, rows := entry :: rows }
  | [], [] => return some { groups := [] }
  | group :: groups, [] => do
      match ← readRowGroup group with
      | none => return none
      | some rows => next groups (sortOldestFirst rows)

def nextAll : List (Cursor C) -> ColdStep C (Option (List (Cursor C)))
  | [] => return some []
  | cursor :: cursors => do
      match ← next cursor.groups cursor.rows with
      | none => return none
      | some cursor =>
          let rest ← nextAll cursors
          return rest.map (cursor :: ·)

/-- The first cursor whose head is older than the best one before it; `index` counts
the cursors before. -/
def pickFrom (index : Nat) (best : Option (Nat × Entry C)) :
    List (Cursor C) -> Option (Nat × Entry C)
  | [] => best
  | cursor :: cursors =>
      match cursor.rows, best with
      | [], best => pickFrom (index + 1) best cursors
      | head :: _, none => pickFrom (index + 1) (some (index, head)) cursors
      | head :: _, some (place, bestEntry) =>
          if bestEntry.Newer head then pickFrom (index + 1) (some (index, head)) cursors
          else pickFrom (index + 1) (some (place, bestEntry)) cursors

def pick (cursors : List (Cursor C)) : Option (Nat × Entry C) := pickFrom 0 none cursors

/-- `rows.shift()` of the cursor at a place. -/
def shift (cursors : List (Cursor C)) (place : Nat) : List (Cursor C) :=
  cursors.modify place fun cursor => { cursor with rows := cursor.rows.tail }

/-- What the merge has made: finished files, the one it builds, the rows for its
next row group, and where the last row stands. -/
structure Merged (C : Type) where
  outputs : List (List (List (Entry C))) := []
  builder : ParquetFileBuilder C := {}
  last : Option Position := none
  chunk : List (Entry C) := []

namespace Merged

variable (encoding : Encoding C) (targetBytes : Nat)

/-- Append a full chunk, and cut the file at its target size. -/
def flushChunk (merged : Merged C) : Merged C :=
  if merged.chunk.length < encoding.rowGroupSize then merged
  else
    let builder := merged.builder.append encoding merged.chunk
    if encoding.bytes builder.rowGroups < targetBytes then
      { merged with builder := builder, chunk := [] }
    else
      { merged with
        outputs := merged.outputs ++ [builder.finish encoding]
        builder := {}
        chunk := [] }

/-- Take a row, unless it stands where the last one did. -/
def push (merged : Merged C) (entry : Entry C) : Merged C :=
  if merged.last = some entry.position then merged
  else
    flushChunk encoding targetBytes
      { merged with last := some entry.position, chunk := merged.chunk ++ [entry] }

/-- The files that are to be written. -/
def close (merged : Merged C) : List (List (List (Entry C))) :=
  let builder := if merged.chunk.isEmpty then merged.builder else merged.builder.append encoding merged.chunk
  if 0 < builder.rows then merged.outputs ++ [builder.finish encoding] else merged.outputs

end Merged

/-- The loop over the rows; each round takes one. -/
def mergeLoop (encoding : Encoding C) (targetBytes : Nat) :
    Nat -> List (Cursor C) -> Merged C -> ColdStep C (Option (Merged C))
  | 0, _, _ => return none
  | fuel + 1, cursors, merged => do
      match ← nextAll cursors with
      | none => return none
      | some cursors =>
          match pick cursors with
          | none => return some merged
          | some (place, entry) =>
              mergeLoop encoding targetBytes fuel (shift cursors place)
                (merged.push encoding targetBytes entry)

/-- The number of rows that the row groups hold. -/
def rowsLeft (cursors : List (Cursor C)) : Nat :=
  (cursors.map fun cursor => (cursor.groups.map fun group => group.rowEnd - group.rowStart).sum).sum

/-- The files, written one after the other. -/
def writeAll (partition : Partition) : List (List (List (Entry C))) -> ColdStep C Bool
  | [] => return true
  | rowGroups :: outputs => do
      if ← writeFile partition rowGroups then writeAll partition outputs else return false

/-- The removals, as they come to an end: `count` of them. -/
def removeAll : Nat -> List Nat -> ColdStep C Bool
  | 0, _ => return true
  | _, [] => return true
  | count + 1, key :: others => do
      let (ended, gone) ← remove key others
      let rest ← removeAll count ((key :: others).erase ended)
      return gone && rest

/-- The merge of some files of a partition, and whether it has come through. -/
def mergeFiles (encoding : Encoding C) (partition : Partition) (files : List StoredObject)
    (targetBytes : Nat) : ColdStep C Bool := do
  match ← openCursors files with
  | none => return false
  | some cursors =>
      match ← mergeLoop encoding targetBytes (rowsLeft cursors + 1) cursors {} with
      | none => return false
      | some merged =>
          if ← writeAll partition (merged.close encoding) then
            removeAll files.length (files.map StoredObject.key)
          else return false

/-! ## The run -/

/-- The resolved compaction options. -/
structure CompactionOptions where
  targetFileMb : Nat
  closedAfterMs : Int
  maxHoursPerRun : Nat
  lookbackMs : Int

def CompactionOptions.targetBytes (options : CompactionOptions) : Nat :=
  options.targetFileMb * 1024 * 1024

/-- The files that are worth merging. -/
def CompactionOptions.small (options : CompactionOptions) (files : List StoredObject) :
    List StoredObject :=
  files.filter fun file => decide (2 * file.size < options.targetBytes)

/-- How many hours have been merged, and whether the run is over by their cap. -/
structure Progress where
  merged : Nat
  capped : Bool

section Compact

variable (encoding : Encoding C) (options : CompactionOptions) (closedBefore oldest : Int)

def compactHours (type : Text) :
    List (Int × List StoredObject) -> Nat -> ColdStep C (Option Progress)
  | [], merged => return some ⟨merged, false⟩
  | (hourStart, files) :: hours, merged =>
      if options.maxHoursPerRun ≤ merged then return some ⟨merged, true⟩
      else if closedBefore < hourStart + HOUR_MS then compactHours type hours merged
      else if (options.small files).length < 2 then compactHours type hours merged
      else do
        if ← mergeFiles encoding ⟨type, hourStart⟩ (options.small files) options.targetBytes then
          compactHours type hours (merged + 1)
        else return none

def compactDays (type : Text) : List Int -> Nat -> ColdStep C (Option Progress)
  | [], merged => return some ⟨merged, false⟩
  | day :: rest, merged =>
      if day + DAY_MS ≤ oldest ∨ closedBefore ≤ day then compactDays type rest merged
      else do
        match ← hours type day with
        | none => return none
        | some hours =>
            match ← compactHours encoding options closedBefore type hours merged with
            | none => return none
            | some progress =>
                if progress.capped then return some progress
                else compactDays type rest progress.merged

def compactTypes : List Text -> Nat -> ColdStep C (Option Progress)
  | [], merged => return some ⟨merged, false⟩
  | type :: types, merged => do
      match ← days type with
      | none => return none
      | some days =>
          match ← compactDays encoding options closedBefore oldest type days.reverse merged with
          | none => return none
          | some progress =>
              if progress.capped then return some progress
              else compactTypes types progress.merged

end Compact

/-- One compaction, with the number of hours it has merged. -/
def compact (encoding : Encoding C) (options : CompactionOptions) (nowMs : Int) :
    ColdStep C (Option Nat) := do
  match ← listTypes with
  | none => return none
  | some types =>
      let progress ← compactTypes encoding options (nowMs - options.closedAfterMs)
        (nowMs - options.lookbackMs) types 0
      return progress.map Progress.merged

/-- The write of one partition of an archive batch.  The partitions of a batch are
written side by side, so each is a program of its own. -/
def writeGroup (encoding : Encoding C) (group : Partition × List (Entry C)) : ColdStep C Bool :=
  writeFile group.1 (encodeFile encoding (sortOldestFirst group.2))

end Parquet
end Telescope
