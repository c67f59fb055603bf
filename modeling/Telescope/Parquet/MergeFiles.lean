import Telescope.Foundation.KWayMerge
import Telescope.Parquet.ColdLocation
import Telescope.Parquet.ColdScan

namespace Telescope
namespace Parquet

open KWayMerge

/-!
# What a merge reads and makes

The cursors of a merge are sources of rows: what a cursor has left is fixed by the
files it was opened on, however late it is read.  Of what the merge makes only the
places of the rows matter here, and those are merged as the library has it.
-/

variable {C : Type}

/-! ## The builder -/

namespace ParquetFileBuilder

variable {encoding : Encoding C}

/-- The places of the rows that have been appended. -/
def positions (builder : ParquetFileBuilder C) : List Position :=
  (builder.rowGroups.flatten ++ builder.pending).map Entry.position

/-- The builder counts its rows. -/
def Counts (builder : ParquetFileBuilder C) : Prop := builder.rows = builder.positions.length

theorem positions_asRow (readBack : C -> C) (entries : List (Entry C)) :
    (entries.map (asRow readBack)).map Entry.position = entries.map Entry.position := by
  rw [List.map_map]
  rfl

theorem flushGroup_rowGroups (builder : ParquetFileBuilder C) (entries : List (Entry C)) :
    ((flushGroup encoding builder entries).rowGroups.flatten).map Entry.position =
      builder.rowGroups.flatten.map Entry.position ++ entries.map Entry.position := by
  rw [flushGroup, List.flatten_append, List.map_append, List.flatten_singleton, positions_asRow]

theorem flushFull_positions (fuel : Nat) (builder : ParquetFileBuilder C) :
    (flushFull encoding fuel builder).positions = builder.positions ∧
      (flushFull encoding fuel builder).rows = builder.rows := by
  induction fuel generalizing builder with
  | zero => exact ⟨rfl, rfl⟩
  | succ fuel inductionHypothesis =>
      rw [flushFull]
      split
      · exact ⟨rfl, rfl⟩
      · rcases inductionHypothesis (flushGroup encoding
          { builder with pending := builder.pending.drop encoding.rowGroupSize }
          (builder.pending.take encoding.rowGroupSize)) with ⟨same, count⟩
        refine ⟨same.trans ?_, count⟩
        rw [positions, List.map_append, flushGroup_rowGroups]
        simp only [flushGroup, positions, List.map_append, List.append_assoc]
        rw [← List.map_append, List.take_append_drop]

@[simp] theorem append_positions (builder : ParquetFileBuilder C) (entries : List (Entry C)) :
    (builder.append encoding entries).positions =
      builder.positions ++ entries.map Entry.position := by
  rw [append, (flushFull_positions _ _).1]
  simp only [positions, List.map_append, List.append_assoc]

theorem Counts.append {builder : ParquetFileBuilder C} (counts : builder.Counts)
    (entries : List (Entry C)) : (builder.append encoding entries).Counts := by
  rw [Counts, append_positions, List.length_append, List.length_map, ← counts,
    ParquetFileBuilder.append, (flushFull_positions _ _).2]

/-- A finished file holds what was appended. -/
theorem finish_positions (builder : ParquetFileBuilder C) :
    (builder.finish encoding).flatten.map Entry.position = builder.positions := by
  rw [finish]
  split
  · rename_i empty
    rw [positions, List.isEmpty_iff.mp empty, List.append_nil]
  · rw [flushGroup_rowGroups, positions, List.map_append]

end ParquetFileBuilder

/-- An encoded file holds the rows it was made of. -/
theorem encodeFile_positions (encoding : Encoding C) (sorted : List (Entry C)) :
    (encodeFile encoding sorted).flatten.map Entry.position = sorted.map Entry.position := by
  rw [encodeFile, ParquetFileBuilder.finish_positions, ParquetFileBuilder.append_positions]
  rfl

/-! ## The rows that have been merged -/

/-- The places of the rows of some files. -/
def filePositions (outputs : List (List (List (Entry C)))) : List Position :=
  outputs.flatten.flatten.map Entry.position

theorem filePositions_concat (outputs : List (List (List (Entry C)))) (file : List (List (Entry C))) :
    filePositions (outputs ++ [file]) = filePositions outputs ++ file.flatten.map Entry.position := by
  simp only [filePositions, List.flatten_append, List.flatten_singleton, List.map_append]

namespace Merged

variable {encoding : Encoding C} {targetBytes : Nat}

/-- The places of the rows taken so far. -/
def positions (merged : Merged C) : List Position :=
  filePositions merged.outputs ++ merged.builder.positions ++ merged.chunk.map Entry.position

/-- The builder counts its rows, and the last row taken is known. -/
structure Good (merged : Merged C) : Prop where
  counts : merged.builder.Counts
  last : merged.last = merged.positions.getLast?

theorem good_initial : ({} : Merged C).Good where
  counts := rfl
  last := rfl

theorem flushChunk_positions (merged : Merged C) :
    (merged.flushChunk encoding targetBytes).positions = merged.positions := by
  rw [flushChunk]
  split
  · rfl
  · simp only
    split
    · simp only [positions, ParquetFileBuilder.append_positions, List.map_nil, List.append_nil,
        List.append_assoc]
    · have fresh : ({} : ParquetFileBuilder C).positions = [] := rfl
      simp only [positions, filePositions_concat, ParquetFileBuilder.finish_positions,
        ParquetFileBuilder.append_positions, fresh, List.map_nil, List.append_nil, List.append_assoc]

theorem flushChunk_last (merged : Merged C) :
    (merged.flushChunk encoding targetBytes).last = merged.last := by
  rw [flushChunk]
  split
  · rfl
  · simp only
    split <;> rfl

variable {merged : Merged C}

theorem flushChunk_counts (counts : merged.builder.Counts) :
    (merged.flushChunk encoding targetBytes).builder.Counts := by
  rw [flushChunk]
  split
  · exact counts
  · simp only
    split
    · exact counts.append _
    · rfl

theorem push_of_same {entry : Entry C} (same : merged.last = some entry.position) :
    merged.push encoding targetBytes entry = merged := if_pos same

theorem push_positions {entry : Entry C} (differs : merged.last ≠ some entry.position) :
    (merged.push encoding targetBytes entry).positions = merged.positions ++ [entry.position] := by
  rw [push, if_neg differs, flushChunk_positions]
  simp only [positions, List.map_append, List.map_singleton, List.append_assoc]

theorem Good.push (good : merged.Good) (entry : Entry C) :
    (merged.push encoding targetBytes entry).Good := by
  by_cases same : merged.last = some entry.position
  · rw [push_of_same same]
    exact good
  · constructor
    · rw [Merged.push, if_neg same]
      exact flushChunk_counts good.counts
    · rw [push_positions same, List.getLast?_concat, Merged.push, if_neg same, flushChunk_last]

/-- The files to be written hold the rows taken. -/
theorem close_positions (encoding : Encoding C) (counts : merged.builder.Counts) :
    filePositions (merged.close encoding) = merged.positions := by
  have appended : (if merged.chunk.isEmpty then merged.builder
      else merged.builder.append encoding merged.chunk).positions =
        merged.builder.positions ++ merged.chunk.map Entry.position := by
    split
    · rename_i empty
      rw [List.isEmpty_iff.mp empty, List.map_nil, List.append_nil]
    · exact ParquetFileBuilder.append_positions _ _
  have counted : (if merged.chunk.isEmpty then merged.builder
      else merged.builder.append encoding merged.chunk).Counts := by
    split
    · exact counts
    · exact counts.append _
  have closed : forall {builder : ParquetFileBuilder C}, builder.Counts ->
      filePositions (if 0 < builder.rows then merged.outputs ++ [builder.finish encoding]
        else merged.outputs) = filePositions merged.outputs ++ builder.positions := by
    intro builder counts
    split
    · rw [filePositions_concat, ParquetFileBuilder.finish_positions]
    · rename_i noRows
      rw [ParquetFileBuilder.Counts] at counts
      rw [List.length_eq_zero_iff.mp (counts.symm.trans (Nat.eq_zero_of_not_pos noRows)),
        List.append_nil]
  rw [close, positions, List.append_assoc, ← appended]
  exact closed counted

end Merged

/-! ## Sources -/

/-- The key of the merge: the page order the other way round. -/
def oldness (position : Position) : Positionᵒᵈ := OrderDual.toDual position

/-- The places of the rows that a cursor has left. -/
def remaining (location : Location C) (cursor : Cursor C) : List Position :=
  (cursor.rows ++ cursor.groups.flatMap fun group => sortOldestFirst (location.groupRows group)).map
    Entry.position

/-- The rows of a file as a merge reads them, row group by row group. -/
def sourceOf (file : StoredFile C) : List Position :=
  (file.rowGroups.flatMap sortOldestFirst).map Entry.position

variable {location : Location C} {file : StoredFile C}

/-- The row groups of a file hold its rows. -/
theorem groupRows_refs {key : Nat} (isFile : location.created[key]? = some file) {start : Nat}
    {groups : List (List (Entry C))} (rest : file.rows.drop start = groups.flatten) :
    (rowGroupRefs key start groups).map location.groupRows = groups := by
  induction groups generalizing start with
  | nil => rfl
  | cons group groups inductionHypothesis =>
      rw [List.flatten_cons] at rest
      have later : file.rows.drop (start + group.length) = groups.flatten := by
        rw [← List.drop_drop, rest, List.drop_left]
      have first : location.groupRows ⟨key, start, start + group.length⟩ = group := by
        simp only [Location.groupRows, isFile]
        rw [rest, Nat.add_sub_cancel_left, List.take_left]
      rw [rowGroupRefs, List.map_cons, inductionHypothesis later, first]

/-- A cursor that is just opened has all rows of its file left. -/
theorem remaining_opened {key : Nat} (isFile : location.created[key]? = some file) :
    remaining location { groups := rowGroupRefs key 0 file.rowGroups } = sourceOf file := by
  have whole : (rowGroupRefs key 0 file.rowGroups).map location.groupRows = file.rowGroups :=
    groupRows_refs isFile List.drop_zero
  rw [remaining, sourceOf, List.nil_append]
  refine congrArg (List.map Entry.position) ?_
  rw [← List.flatMap_map location.groupRows sortOldestFirst, whole]

theorem mem_sourceOf {position : Position} :
    position ∈ sourceOf file <-> position ∈ file.rows.map Entry.position := by
  have perm : (file.rowGroups.flatMap sortOldestFirst).Perm file.rows := by
    rw [StoredFile.rows]
    induction file.rowGroups with
    | nil => exact List.Perm.refl _
    | cons group groups inductionHypothesis =>
        exact (List.perm_insertionSort _ group).append inductionHypothesis
  exact (perm.map Entry.position).mem_iff

/-- Oldest first; what the writer asks of the rows of a file. -/
def OldestFirst (rows : List (Entry C)) : Prop :=
  rows.Pairwise fun earlier later => ¬ earlier.Newer later

theorem OldestFirst.sorted {rows : List (Entry C)} (oldest : OldestFirst rows) :
    Sorted oldness (rows.map Entry.position) :=
  List.pairwise_map.mpr oldest

theorem flatMap_sortOldestFirst {groups : List (List (Entry C))} (oldest : OldestFirst groups.flatten) :
    groups.flatMap sortOldestFirst = groups.flatten := by
  induction groups with
  | nil => rfl
  | cons group groups inductionHypothesis =>
      rw [OldestFirst, List.flatten_cons] at oldest
      rcases List.pairwise_append.mp oldest with ⟨first, rest, _⟩
      have kept : sortOldestFirst group = group := List.Pairwise.insertionSort_eq first
      rw [List.flatMap_cons, List.flatten_cons, inductionHypothesis rest, kept]

/-- The rows of a sorted file are read in order. -/
theorem sourceOf_sorted (oldest : OldestFirst file.rows) :
    Sorted oldness (sourceOf file) := by
  rw [sourceOf, flatMap_sortOldestFirst oldest]
  exact oldest.sorted

/-! ## The heads -/

/-- The best of the heads so far, and its place. -/
def Best (cursors : List (Cursor C)) : Option (Nat × Entry C) -> Prop
  | none => forall cursor, cursor ∈ cursors -> cursor.rows = []
  | some (place, entry) =>
      (Exists fun cursor => cursors[place]? = some cursor ∧ cursor.rows.head? = some entry) ∧
        forall cursor, cursor ∈ cursors -> forall head, head ∈ cursor.rows.head? -> ¬ entry.Newer head

variable {before : List (Cursor C)} {cursor : Cursor C}

theorem Best.push_empty {best : Option (Nat × Entry C)} (isBest : Best before best) (empty : cursor.rows = []) :
    Best (before ++ [cursor]) best := by
  cases best with
  | none =>
      intro other member
      rcases List.mem_append.mp member with earlier | last
      · exact isBest other earlier
      · exact List.mem_singleton.mp last ▸ empty
  | some best =>
      rcases isBest with ⟨⟨found, isFound, begins⟩, least⟩
      refine ⟨⟨found, ?_, begins⟩, fun other member head isHead => ?_⟩
      · rw [List.getElem?_append_left (List.getElem?_eq_some_iff.mp isFound).1, isFound]
      · rcases List.mem_append.mp member with earlier | last
        · exact least other earlier head isHead
        · rw [List.mem_singleton.mp last, empty] at isHead
          cases isHead

/-- A head that is older than the best, or the first one, is the best. -/
theorem Best.replace {head : Entry C} (begins : cursor.rows.head? = some head)
    (older : forall other, other ∈ before -> forall entry, entry ∈ other.rows.head? ->
      ¬ head.Newer entry) :
    Best (before ++ [cursor]) (some (before.length, head)) := by
  refine ⟨⟨cursor, List.getElem?_concat_length .., begins⟩, fun other member entry isHead => ?_⟩
  rcases List.mem_append.mp member with earlier | last
  · exact older other earlier entry isHead
  · rw [List.mem_singleton.mp last, begins] at isHead
    cases isHead
    exact fun newer => Position.newer_asymm newer newer

theorem Best.keep {place : Nat} {best head : Entry C} (isBest : Best before (some (place, best)))
    (begins : cursor.rows.head? = some head) (noOlder : ¬ best.Newer head) :
    Best (before ++ [cursor]) (some (place, best)) := by
  rcases isBest with ⟨⟨found, isFound, foundHead⟩, least⟩
  refine ⟨⟨found, ?_, foundHead⟩, fun other member entry isHead => ?_⟩
  · rw [List.getElem?_append_left (List.getElem?_eq_some_iff.mp isFound).1, isFound]
  · rcases List.mem_append.mp member with earlier | last
    · exact least other earlier entry isHead
    · rw [List.mem_singleton.mp last, begins] at isHead
      cases isHead
      exact noOlder

theorem pickFrom_best (cursors : List (Cursor C)) {best : Option (Nat × Entry C)} (isBest : Best before best) :
    Best (before ++ cursors) (pickFrom before.length best cursors) := by
  induction cursors generalizing before best with
  | nil =>
      rw [List.append_nil]
      exact isBest
  | cons cursor cursors inductionHypothesis =>
      have step : forall {now : Option (Nat × Entry C)}, Best (before ++ [cursor]) now ->
          Best (before ++ cursor :: cursors) (pickFrom (before.length + 1) now cursors) := by
        intro now isNow
        have rest := inductionHypothesis isNow
        rw [List.append_assoc, List.singleton_append, List.length_append, List.length_singleton] at rest
        exact rest
      unfold pickFrom
      split
      · rename_i empty
        exact step (isBest.push_empty empty)
      · rename_i head rows begins
        refine step (Best.replace (by rw [begins]; rfl) fun other earlier entry isHead => ?_)
        rw [isBest other earlier] at isHead
        cases isHead
      · rename_i head rows place best begins
        split
        · rename_i older
          refine step (Best.replace (by rw [begins]; rfl) fun other earlier entry isHead newer => ?_)
          exact isBest.2 other earlier entry isHead (Position.newer_trans older newer)
        · rename_i noOlder
          exact step (isBest.keep (by rw [begins]; rfl) noOlder)

theorem pick_best (cursors : List (Cursor C)) : Best cursors (pick cursors) := by
  have start : Best ([] : List (Cursor C)) none := fun _ member => (List.not_mem_nil member).elim
  exact pickFrom_best cursors start

/-- A cursor that has read on: without rows it is at its end. -/
def Cursor.Ready (cursor : Cursor C) : Prop := cursor.rows = [] -> cursor.groups = []

/-- The head of a cursor is what it has left first. -/
theorem Cursor.Ready.head (ready : cursor.Ready) (location : Location C) {position : Position}
    (first : position ∈ (remaining location cursor).head?) :
    Exists fun entry => entry ∈ cursor.rows.head? ∧ entry.position = position := by
  rcases cursor with ⟨groups, rows⟩
  cases rows with
  | nil =>
      cases ready rfl
      cases first
  | cons entry rows =>
      cases first
      exact ⟨entry, rfl, rfl⟩

/-- Nothing is picked when nothing is left. -/
theorem pick_none {cursors : List (Cursor C)} (ready : forall cursor, cursor ∈ cursors -> cursor.Ready)
    (none : pick cursors = none) :
    (cursors.map (remaining location)).flatten = [] := by
  have best := pick_best cursors
  rw [none] at best
  refine List.flatten_eq_nil_iff.mpr fun source isSource => ?_
  rcases List.mem_map.mp isSource with ⟨cursor, member, rfl⟩
  have noRows := best cursor member
  rw [remaining, noRows, ready cursor member noRows]
  rfl

/-- What is picked is taken from the sources. -/
theorem pick_takes {cursors : List (Cursor C)} {place : Nat} {entry : Entry C}
    (ready : forall cursor, cursor ∈ cursors -> cursor.Ready) (picked : pick cursors = some (place, entry)) :
    Takes oldness (cursors.map (remaining location)) entry.position
      ((shift cursors place).map (remaining location)) := by
  have best := pick_best cursors
  rw [picked] at best
  rcases best with ⟨⟨cursor, isCursor, begins⟩, least⟩
  rcases List.getElem?_eq_some_iff.mp isCursor with ⟨bound, same⟩
  rcases List.head?_eq_some_iff.mp begins with ⟨rows, shape⟩
  have parts : cursors = cursors.take place ++ cursor :: cursors.drop (place + 1) := by
    rw [← same, ← List.drop_eq_getElem_cons bound, List.take_append_drop]
  have sources : cursors.map (remaining location) =
      (cursors.take place).map (remaining location) ++
        (entry.position :: remaining location { cursor with rows := rows }) ::
          (cursors.drop (place + 1)).map (remaining location) := by
    have front : remaining location cursor =
        entry.position :: remaining location { cursor with rows := rows } := by
      rw [remaining, shape]
      rfl
    rw [← front, ← List.map_cons, ← List.map_append, ← parts]
  have shifted : (shift cursors place).map (remaining location) =
      (cursors.take place).map (remaining location) ++
        remaining location { cursor with rows := rows } ::
          (cursors.drop (place + 1)).map (remaining location) := by
    rw [shift, List.modify_eq_take_cons_drop bound, same, shape, List.map_append, List.map_cons]
    rfl
  have noOlder : forall source, source ∈ cursors.map (remaining location) ->
      forall head, head ∈ source.head? -> oldness entry.position ≤ oldness head := by
    intro source isSource head isHead
    rcases List.mem_map.mp isSource with ⟨other, member, rfl⟩
    rcases (ready other member).head location isHead with ⟨first, isFirst, rfl⟩
    exact least other member first isFirst
  rw [sources] at noOlder
  rw [sources, shifted]
  exact Takes.front noOlder

end Parquet
end Telescope
