import Mathlib.Data.List.Flatten
import Telescope.Parquet.Engine

namespace Telescope
namespace Parquet

open Least

/-!
# Reading with an early stop

What the engine returns are matching rows of the files, each as often as it is stored, at
the places that sorting all of them and keeping the newest would give.  Rows at one place
are interchangeable to it: which of them comes first, or is kept at the edge of the limit,
is decided by the order in which the row groups are read.
-/

variable {C : Type} [JsonContent C] {filter : ColdFilter} {limit : Option Nat} {results : List (Entry C)}

/-- The rows that match, as they are returned. -/
def matched (filter : ColdFilter) (rows : List (Entry C)) : List (Entry C) :=
  (rows.filter fun row => decide (filter.Matches row)).map filter.project

/-- Filter all rows of all files, and keep the newest. -/
def newestMatches (files : List (ColdFile C)) (filter : ColdFilter) (limit : Option Nat) : List (Entry C) :=
  cut limit (sortNewestFirst (matched filter (coldRows files)))

/-! ## No row is made up -/

theorem matched_append (left right : List (Entry C)) :
    matched filter (left ++ right) = matched filter left ++ matched filter right := by
  rw [matched, List.filter_append, List.map_append]
  rfl

theorem matched_sublist {rows others : List (Entry C)} (sublist : rows.Sublist others) :
    (matched filter rows).Sublist (matched filter others) :=
  (sublist.filter _).map _

theorem collect_eq (rows : List (Entry C)) : collect filter results rows = results ++ matched filter rows := rfl

omit [JsonContent C] in
theorem settled_subperm (limit : Option Nat) (results : List (Entry C)) (boundary : Option Int) :
    (settled limit results boundary).2.Subperm results := by
  cases limit with
  | none => exact List.Subperm.refl _
  | some limit =>
      simp only [settled]
      split
      · exact List.Subperm.refl _
      · exact (List.take_sublist ..).subperm.trans (sortNewestFirst_perm results).subperm

theorem readTail_subperm (filter : ColdFilter) (limit fuel size : Nat) (unread results : List (Entry C)) :
    (readTail filter limit fuel size unread results).Subperm (results ++ matched filter unread) := by
  induction fuel generalizing size unread results with
  | zero => exact (List.sublist_append_left ..).subperm
  | succ fuel inductionHypothesis =>
      have whole := List.take_append_drop (unread.length - size) unread
      rw [readTail]
      split
      · exact (List.sublist_append_left ..).subperm
      · rename_i first rows window
        rw [window] at whole
        have kept := settled_subperm (some limit) (collect filter results (first :: rows)) (some first.createdAt)
        simp only
        split
        · refine kept.trans ((List.subperm_append_left _).mpr (matched_sublist ?_).subperm)
          rw [← whole]
          exact List.sublist_append_right ..
        · have rest := inductionHypothesis (size * 2) (unread.take (unread.length - size))
            (settled (some limit) (collect filter results (first :: rows)) (some first.createdAt)).2
          refine rest.trans (((List.subperm_append_right _).mpr kept).trans (List.Perm.subperm ?_))
          rw [collect_eq, List.append_assoc, ← matched_append]
          refine List.Perm.append_left _ ?_
          rw [matched_append]
          refine List.perm_append_comm.trans ?_
          rw [← matched_append, whole]

theorem readTails_subperm (limit : Nat) (groups : List (RowGroup C)) (results : List (Entry C)) :
    (readTails filter limit groups results).Subperm
      (results ++ matched filter (groups.flatMap RowGroup.rows)) := by
  induction groups generalizing results with
  | nil => exact (List.sublist_append_left ..).subperm
  | cons group groups inductionHypothesis =>
      have kept := settled_subperm (some limit) results group.maxMs
      simp only [readTails]
      split
      · exact kept.trans (List.sublist_append_left ..).subperm
      · refine (inductionHypothesis _).trans ?_
        rw [List.flatMap_cons, matched_append, ← List.append_assoc]
        refine (List.subperm_append_right _).mpr ((readTail_subperm ..).trans ?_)
        exact (List.subperm_append_right _).mpr kept

theorem readWindows_subperm (lower upper : Option Int) (fuel : Nat) (groups : List (RowGroup C))
    (results : List (Entry C)) :
    (readWindows filter limit lower upper fuel groups results).Subperm
      (results ++ matched filter (groups.flatMap RowGroup.rows)) := by
  induction fuel generalizing groups results with
  | zero => exact (List.sublist_append_left ..).subperm
  | succ fuel inductionHypothesis =>
      cases groups with
      | nil => exact (List.sublist_append_left ..).subperm
      | cons group groups =>
          have kept := settled_subperm limit results group.maxMs
          simp only [readWindows]
          split
          · exact kept.trans (List.sublist_append_left ..).subperm
          · refine (inductionHypothesis _ _).trans ?_
            rw [collect_eq]
            have pushed : (((group :: groups).take READ_CONCURRENCY).flatMap fun group =>
                group.rows.filter (pushdownFilter filter lower upper)).Sublist
                  (((group :: groups).take READ_CONCURRENCY).flatMap RowGroup.rows) :=
              List.Sublist.flatMap_right _ fun _group _member => List.filter_sublist
            have rows : (group :: groups).flatMap RowGroup.rows =
                ((group :: groups).take READ_CONCURRENCY).flatMap RowGroup.rows ++
                  ((group :: groups).drop READ_CONCURRENCY).flatMap RowGroup.rows := by
              rw [← List.flatMap_append, List.take_append_drop]
            rw [rows, matched_append, ← List.append_assoc]
            exact (List.subperm_append_right _).mpr (kept.append (matched_sublist pushed).subperm)

/-- The engine returns matching rows, none more often than it is stored. -/
theorem hyparquetRead_subperm (footers : Footers C) (files : List (ColdFile C)) (filter : ColdFilter)
    (limit : Option Nat) :
    (hyparquetRead footers files filter limit).Subperm (matched filter (coldRows files)) := by
  simp only [hyparquetRead]
  generalize isGroups : ((files.flatMap footers.rowGroups).filter fun group =>
    group.overlaps filter.lowerBound filter.upperBound).insertionSort RowGroup.EndsNoEarlier = groups
  have within : (matched filter (groups.flatMap RowGroup.rows)).Subperm (matched filter (coldRows files)) := by
    have rows : (files.flatMap footers.rowGroups).flatMap RowGroup.rows = coldRows files := by
      rw [List.flatMap_assoc, coldRows]
      exact congrArg (fun rows => List.flatMap rows files) (funext footers.rows_eq)
    have perm : groups.Perm ((files.flatMap footers.rowGroups).filter fun group =>
        group.overlaps filter.lowerBound filter.upperBound) :=
      isGroups ▸ List.perm_insertionSort _ _
    have sublist : (((files.flatMap footers.rowGroups).filter fun group =>
        group.overlaps filter.lowerBound filter.upperBound).flatMap RowGroup.rows).Sublist (coldRows files) := by
      rw [← rows]
      exact List.filter_sublist.flatMap RowGroup.rows
    exact (((perm.flatMap_right _).filter _).map _).subperm.trans (matched_sublist sublist).subperm
  refine (cut_sublist limit _).subperm.trans ((sortNewestFirst_perm _).subperm.trans ?_)
  cases limit with
  | none => exact (readWindows_subperm ..).trans within
  | some limit =>
      simp only
      split
      · exact (readWindows_subperm ..).trans within
      · exact (readTails_subperm ..).trans within

/-! ## The newest matches -/

theorem positions_newestMatches (files : List (ColdFile C)) (filter : ColdFilter) (limit : Option Nat) :
    (newestMatches files filter limit).map Entry.position = least limit (places filter (coldRows files)) := by
  rw [newestMatches, positions_newest, matched, places, List.map_map]
  congr 1
  exact List.map_congr_left fun row _ => ColdFilter.position_project row

omit [JsonContent C] in
/-- Rows that are told apart by their positions are determined by them. -/
theorem eq_of_positions {rows first second : List (Entry C)}
    (apart : forall row, row ∈ rows -> forall other, other ∈ rows -> row.position = other.position -> row = other)
    (isFirst : forall row, row ∈ first -> row ∈ rows) (isSecond : forall row, row ∈ second -> row ∈ rows)
    (same : first.map Entry.position = second.map Entry.position) : first = second := by
  induction first generalizing second with
  | nil => exact (List.map_eq_nil_iff.mp same.symm).symm
  | cons row first inductionHypothesis =>
      cases second with
      | nil => cases same
      | cons other second =>
          rw [List.map_cons, List.map_cons, List.cons.injEq] at same
          rw [apart row (isFirst row (List.mem_cons_self ..)) other (isSecond other (List.mem_cons_self ..)) same.1,
            inductionHypothesis (fun row member => isFirst row (List.mem_cons_of_mem _ member))
              (fun row member => isSecond row (List.mem_cons_of_mem _ member)) same.2]

/-- With its early stop the engine returns matching rows at the places of the newest ones,
and exactly the newest ones where no two matching rows differ at one place. -/
theorem hyparquetRead_newest (footers : Footers C) {files : List (ColdFile C)}
    (ascending : forall file, file ∈ files -> Ascending file.rows) (filter : ColdFilter) (limit : Option Nat) :
    (hyparquetRead footers files filter limit).Subperm (matched filter (coldRows files)) ∧
      (hyparquetRead footers files filter limit).map Entry.position =
        (newestMatches files filter limit).map Entry.position ∧
      ((forall row, row ∈ matched filter (coldRows files) -> forall other, other ∈ matched filter (coldRows files) ->
          row.position = other.position -> row = other) ->
        hyparquetRead footers files filter limit = newestMatches files filter limit) := by
  have subperm := hyparquetRead_subperm footers files filter limit
  have positions := (positions_hyparquetRead footers ascending filter limit).trans
    (positions_newestMatches files filter limit).symm
  refine ⟨subperm, positions, fun apart => eq_of_positions apart (fun row member => subperm.subset member)
    (fun row member => ?_) positions⟩
  exact mem_sortNewestFirst.mp ((cut_sublist limit _).subset member)

/-! ## Copies that differ -/

/-- Each file a single row group, with the greatest instant in its footer. -/
def statedFiles : Footers Text where
  rowGroups file :=
    [⟨file.rows, none, (file.rows.map Entry.createdAt).max?,
      (fun _row _member _least isLeast => (Option.some_ne_none _ isLeast.symm).elim),
      fun _row member _greatest isMax => (List.max?_eq_some_iff.mp isMax).2 _ (List.mem_map_of_mem member)⟩]
  rows_eq file := List.append_nil file.rows

/-- An entry as it was archived first. -/
def archivedFile : ColdFile Text := ⟨⟨['q'], 0⟩, [plainEntry ['1'] ['q'] 1]⟩

/-- The entry archived again after an update, beside a newer one. -/
def rearchivedFile : ColdFile Text :=
  ⟨⟨['q'], 0⟩, [{ plainEntry ['1'] ['q'] 1 with content := ['x'] }, plainEntry ['2'] ['q'] 2]⟩

theorem hyparquetRead_newest_rearchived :
    hyparquetRead statedFiles [rearchivedFile] {} (some 1) = newestMatches [rearchivedFile] {} (some 1) := by
  have ascending : forall file, file ∈ [rearchivedFile] -> Ascending file.rows := by
    intro file member
    rw [List.mem_singleton.mp member, Ascending]
    decide
  exact (hyparquetRead_newest statedFiles ascending {} (some 1)).2.2 (by decide)

/-- Of two differing rows at one place the engine returns the one in the row group it
reads first, not the one in the first file. -/
theorem hyparquetRead_copies_differ :
    (forall file, file ∈ [archivedFile, rearchivedFile] -> Ascending file.rows) ∧
      hyparquetRead statedFiles [archivedFile, rearchivedFile] {} (some 2) ≠
        newestMatches [archivedFile, rearchivedFile] {} (some 2) := by
  refine ⟨?_, by decide⟩
  intro file member
  rw [Ascending]
  rcases List.mem_cons.mp member with rfl | other
  · decide
  · rw [List.mem_singleton.mp other]
    decide

end Parquet
end Telescope
