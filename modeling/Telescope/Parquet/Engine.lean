import Telescope.Foundation.Least
import Telescope.Parquet.ColdStore

namespace Telescope
namespace Parquet

open Least

/-!
# The default engine

A file is read by its footer: the instants that its row groups span are known
before any row is.  The groups are read from the newest down, and reading stops
once the newest matches that are asked for are known to be newer than whatever
is left.  What the engine finds are the newest matching rows of the files, each
copy of an entry counted.
-/

variable {C : Type}

/-- A row group, with the statistics of its `created_at` column where the footer
has them. -/
structure RowGroup (C : Type) where
  rows : List (Entry C)
  minMs : Option Int
  maxMs : Option Int
  min_le : forall row, row ∈ rows -> forall least, minMs = some least -> least ≤ row.createdAt
  le_max : forall row, row ∈ rows -> forall greatest, maxMs = some greatest -> row.createdAt ≤ greatest

/-- The row groups of a file, in file order. -/
structure Footers (C : Type) where
  rowGroups : ColdFile C -> List (RowGroup C)
  rows_eq : forall file, (rowGroups file).flatMap RowGroup.rows = file.rows

def READ_CONCURRENCY : Nat := 4

def TAIL_WINDOW : Nat := 256

/-- Filters that pick out a few rows anywhere in a file. -/
def selective (filter : ColdFilter) : Bool :=
  filter.ids.isSome || filter.batchId.isSome || filter.traceId.isSome || filter.familyHash.isSome

/-- Whether the statistics of a group leave a matching row possible. -/
def RowGroup.overlaps (group : RowGroup C) (lower upper : Option Int) : Bool :=
  (group.maxMs.all fun greatest => lower.all fun lower => decide (lower ≤ greatest)) &&
    group.minMs.all fun least => upper.all fun upper => decide (least ≤ upper)

/-- `b.maxMs - a.maxMs`, absent statistics counting as infinite. -/
def RowGroup.EndsNoEarlier (left right : RowGroup C) : Prop :=
  (left.maxMs.all fun greatest => right.maxMs.any fun other => decide (other ≤ greatest)) = true

instance (left right : RowGroup C) : Decidable (left.EndsNoEarlier right) :=
  inferInstanceAs (Decidable (_ = true))

section Read

variable [JsonContent C] (filter : ColdFilter)

/-- The clauses that go to the file reader. -/
def pushdownFilter (lower upper : Option Int) (row : Entry C) : Bool :=
  filter.type.all (fun type => decide (row.type = type)) &&
    filter.batchId.all (fun batchId => decide (row.batchId = batchId)) &&
    filter.traceId.all (fun traceId => decide (row.traceId = some traceId)) &&
    filter.familyHash.all (fun family => decide (row.familyHash = some family)) &&
    filter.ids.all (fun ids => decide (row.id ∈ ids)) &&
    upper.all (fun upper => decide (row.createdAt ≤ upper)) &&
    lower.all fun lower => decide (lower ≤ row.createdAt)

/-- Add the rows that match to the results. -/
def collect (results rows : List (Entry C)) : List (Entry C) :=
  results ++ (rows.filter fun row => decide (filter.Matches row)).map filter.project

/-- Whether the newest `limit` matches are known to be newer than a boundary, and
the results, cut to them if there are as many. -/
def settled (limit : Option Nat) (results : List (Entry C)) (boundaryMs : Option Int) :
    Bool × List (Entry C) :=
  match limit with
  | none => (false, results)
  | some limit =>
      if results.length < limit then (false, results)
      else
        let newest := (sortNewestFirst results).take limit
        (newest[limit - 1]?.any fun kth => boundaryMs.any fun boundary => decide (boundary < kth.createdAt),
          newest)

/-- Read a row group backwards, in windows that double; `end` is the number of
rows left. -/
def readTail (limit : Nat) : Nat -> Nat -> List (Entry C) -> List (Entry C) -> List (Entry C)
  | 0, _, _, results => results
  | fuel + 1, size, unread, results =>
      match unread.drop (unread.length - size) with
      | [] => results
      | first :: rows =>
          let cut := settled (some limit) (collect filter results (first :: rows)) (some first.createdAt)
          if cut.1 then cut.2
          else readTail limit fuel (size * 2) (unread.take (unread.length - size)) cut.2

/-- A page of a type. -/
def readTails (limit : Nat) : List (RowGroup C) -> List (Entry C) -> List (Entry C)
  | [], results => results
  | group :: groups, results =>
      let cut := settled (some limit) results group.maxMs
      if cut.1 then cut.2
      else readTails limit groups
        (readTail filter limit group.rows.length (max TAIL_WINDOW (limit + 1)) group.rows cut.2)

/-- Row groups whole, a few at a time. -/
def readWindows (limit : Option Nat) (lower upper : Option Int) :
    Nat -> List (RowGroup C) -> List (Entry C) -> List (Entry C)
  | 0, _, results => results
  | _ + 1, [], results => results
  | fuel + 1, group :: groups, results =>
      let cut := settled limit results group.maxMs
      if cut.1 then cut.2
      else
        let window := (group :: groups).take READ_CONCURRENCY
        readWindows limit lower upper fuel ((group :: groups).drop READ_CONCURRENCY)
          (collect filter cut.2
            (window.flatMap fun group => group.rows.filter (pushdownFilter filter lower upper)))

/-- `HyparquetEngine.read`. -/
def hyparquetRead (footers : Footers C) (files : List (ColdFile C)) (filter : ColdFilter)
    (limit : Option Nat) : List (Entry C) :=
  let upper := filter.upperBound
  let lower := filter.lowerBound
  let groups := ((files.flatMap footers.rowGroups).filter fun group =>
    group.overlaps lower upper).insertionSort RowGroup.EndsNoEarlier
  let results :=
    match limit with
    | none => readWindows filter none lower upper groups.length groups []
    | some limit =>
        if selective filter then readWindows filter (some limit) lower upper groups.length groups []
        else readTails filter limit groups []
  cut limit (sortNewestFirst results)

/-! ## What is read -/

/-- The positions of the matching rows, one for each copy. -/
def places (rows : List (Entry C)) : List Position :=
  (rows.filter fun row => decide (filter.Matches row)).map Entry.position

variable {filter} {limit : Option Nat} {results : List (Entry C)}

theorem places_append (left right : List (Entry C)) :
    places filter (left ++ right) = places filter left ++ places filter right := by
  rw [places, List.filter_append, List.map_append]
  rfl

theorem mem_places {rows : List (Entry C)} {position : Position} :
    position ∈ places filter rows <->
      Exists fun row => row ∈ rows ∧ filter.Matches row ∧ row.position = position := by
  simp only [places, List.mem_map, List.mem_filter, decide_eq_true_eq, and_assoc]

theorem ColdFilter.position_project (entry : Entry C) :
    (filter.project entry).position = entry.position := by
  unfold ColdFilter.project
  split <;> rfl

theorem positions_collect (rows : List (Entry C)) :
    (collect filter results rows).map Entry.position =
      results.map Entry.position ++ places filter rows := by
  rw [collect, List.map_append, List.map_map, places]
  congr 1
  exact List.map_congr_left fun row _ => ColdFilter.position_project row

omit [JsonContent C] in
/-- The newest entries are at the least positions. -/
theorem positions_newest (limit : Option Nat) (entries : List (Entry C)) :
    (cut limit (sortNewestFirst entries)).map Entry.position = least limit (entries.map Entry.position) := by
  rw [map_cut, least, sortNewestFirst]
  exact congrArg (cut limit) (List.map_insertionSort _ _ Entry.position entries fun _ _ _ _ => Iff.rfl)

omit [JsonContent C] in
theorem settled_positions (limit : Option Nat) (results : List (Entry C)) (boundary : Option Int) :
    least limit ((settled limit results boundary).2.map Entry.position) =
      least limit (results.map Entry.position) := by
  cases limit with
  | none => rfl
  | some limit =>
      simp only [settled]
      split
      · rfl
      · have positions := positions_newest (some limit) results
        change ((sortNewestFirst results).take limit).map Entry.position = _ at positions
        rw [positions, least_least]

/-- No position of a page is older than the last one. -/
theorem createdAt_le_of_last {page : List Position} (sorted : page.Pairwise (· ≤ ·)) {limit : Nat}
    (short : page.length ≤ limit) {last : Position} (isLast : page[limit - 1]? = some last)
    {position : Position} (member : position ∈ page) : last.createdAt ≤ position.createdAt := by
  by_contra before
  exact le_of_getElem? sorted short isLast member (.inl (not_le.mp before))

omit [JsonContent C] in
/-- Once results are settled, what is no newer than the boundary adds nothing. -/
theorem settled_behind {boundary : Option Int} (isSettled : (settled limit results boundary).1 = true)
    {others : List Position} (olders : forall other, other ∈ others -> forall instant,
      boundary = some instant -> other.createdAt ≤ instant) :
    least limit (results.map Entry.position ++ others) = least limit (results.map Entry.position) := by
  cases limit with
  | none => cases isSettled
  | some limit =>
      simp only [settled] at isSettled
      split at isSettled
      · cases isSettled
      · rename_i full
        rcases (Option.any_eq_true _ _).mp isSettled with ⟨kth, isKth, beyond⟩
        rcases (Option.any_eq_true _ _).mp beyond with ⟨instant, isInstant, older⟩
        have newer := of_decide_eq_true older
        have size : limit ≤ (results.map Entry.position).length := by
          rw [List.length_map]
          exact not_lt.mp full
        refine least_append_of_full size fun position kept other added => ?_
        have kthPosition : (least (some limit) (results.map Entry.position))[limit - 1]? =
            some kth.position := by
          rw [← positions_newest, List.getElem?_map]
          exact congrArg (Option.map Entry.position) isKth
        have noOlder := createdAt_le_of_last (sorted_least _ _) (least_length size).le kthPosition kept
        have behind : other.createdAt < position.createdAt :=
          lt_of_le_of_lt (olders other added instant isInstant) (lt_of_lt_of_le newer noOlder)
        exact Position.newer_asymm (.inl behind)

/-- Rows in ascending order of their instants. -/
def Ascending (rows : List (Entry C)) : Prop :=
  rows.Pairwise fun earlier later => earlier.createdAt ≤ later.createdAt

theorem readTail_positions (filter : ColdFilter) (limit : Nat) {fuel size : Nat} (positive : 0 < size) {unread : List (Entry C)}
    (enough : unread.length ≤ fuel) (ascending : Ascending unread) (results : List (Entry C)) :
    least (some limit) ((readTail filter limit fuel size unread results).map Entry.position) =
      least (some limit) (results.map Entry.position ++ places filter unread) := by
  induction fuel generalizing size unread results with
  | zero =>
      cases List.length_eq_zero_iff.mp (Nat.le_zero.mp enough)
      exact congrArg (least _) (List.append_nil _).symm
  | succ fuel inductionHypothesis =>
      have whole := List.take_append_drop (unread.length - size) unread
      rw [readTail]
      split
      · rename_i none
        have nothing := congrArg List.length none
        rw [List.length_drop, List.length_nil] at nothing
        cases List.length_eq_zero_iff.mp (show unread.length = 0 by omega)
        exact congrArg (least _) (List.append_nil _).symm
      · rename_i first rows window
        rw [window] at whole
        generalize left : unread.take (unread.length - size) = rest at *
        rw [← whole] at ascending
        rcases List.pairwise_append.mp ascending with ⟨restAscending, _, across⟩
        have parts : (results.map Entry.position ++ places filter unread).Perm
            ((collect filter results (first :: rows)).map Entry.position ++ places filter rest) := by
          rw [positions_collect, ← whole, places_append, List.append_assoc]
          exact List.perm_append_comm.append_left _
        have same := settled_positions (some limit) (collect filter results (first :: rows))
          (some first.createdAt)
        rw [least_eq_of_perm _ parts]
        simp only
        split
        · rename_i isSettled
          rw [same]
          refine (settled_behind isSettled fun other added instant isInstant => ?_).symm
          cases isInstant
          rcases mem_places.mp added with ⟨row, isRow, _, rfl⟩
          exact across row isRow first (List.mem_cons_self ..)
        · have shorter : rest.length ≤ fuel := by
            have sizes := congrArg List.length whole
            rw [List.length_append, List.length_cons] at sizes
            omega
          rw [inductionHypothesis (by omega) shorter restAscending]
          exact least_append_congr same _

/-- Row groups from the newest down. -/
def Descending (groups : List (RowGroup C)) : Prop := groups.Pairwise RowGroup.EndsNoEarlier

variable {groups : List (RowGroup C)}

/-- What is left to read is no newer than the first row group of it. -/
theorem Descending.le_max {group : RowGroup C} (descending : Descending (group :: groups)) {position : Position}
    (member : position ∈ (group :: groups).flatMap fun group => places filter group.rows) :
    forall instant, group.maxMs = some instant -> position.createdAt ≤ instant := by
  intro instant isMax
  rcases List.mem_flatMap.mp member with ⟨other, isOther, isPlace⟩
  rcases mem_places.mp isPlace with ⟨row, isRow, _, rfl⟩
  rcases List.mem_cons.mp isOther with rfl | later
  · exact other.le_max row isRow instant isMax
  · have before := (List.pairwise_cons.mp descending).1 other later
    rw [RowGroup.EndsNoEarlier, isMax, Option.all_some, Option.any_eq_true] at before
    rcases before with ⟨greatest, isGreatest, atMost⟩
    exact (other.le_max row isRow greatest isGreatest).trans (of_decide_eq_true atMost)

theorem readTails_positions (limit : Nat) (descending : Descending groups)
    (ascending : forall group, group ∈ groups -> Ascending group.rows) (results : List (Entry C)) :
    least (some limit) ((readTails filter limit groups results).map Entry.position) =
      least (some limit) (results.map Entry.position ++
        groups.flatMap fun group => places filter group.rows) := by
  induction groups generalizing results with
  | nil => exact congrArg (least _) (List.append_nil _).symm
  | cons group groups inductionHypothesis =>
      have same := settled_positions (some limit) results group.maxMs
      simp only [readTails]
      split
      · rename_i isSettled
        rw [same]
        exact (settled_behind isSettled fun other added => descending.le_max added).symm
      · have positive : 0 < max TAIL_WINDOW (limit + 1) :=
          Nat.lt_of_lt_of_le (Nat.succ_pos _) (Nat.le_max_right ..)
        have read := readTail_positions filter limit positive (Nat.le_refl _)
          (ascending group (List.mem_cons_self ..)) (settled (some limit) results group.maxMs).2
        rw [inductionHypothesis (List.pairwise_cons.mp descending).2
          (fun other later => ascending other (List.mem_cons_of_mem _ later)),
          least_append_congr read, List.append_assoc, least_append_congr same, List.flatMap_cons]

theorem le_upperBound {entry : Entry C} (asks : filter.Matches entry) {upper : Int}
    (isUpper : filter.upperBound = some upper) : entry.createdAt ≤ upper := by
  rcases asks with ⟨_, _, _, _, _, _, before, _, cursor, _⟩
  rcases eq_or_eq_of_minBound isUpper with isBefore | isCursor
  · rcases Option.map_eq_some_iff.mp isBefore with ⟨bound, isBound, rfl⟩
    exact Int.le_sub_one_of_lt (before bound isBound)
  · rcases Option.map_eq_some_iff.mp isCursor with ⟨position, isPosition, rfl⟩
    exact not_lt.mp (not_or.mp (cursor position isPosition)).1

theorem lowerBound_le {entry : Entry C} (asks : filter.Matches entry) {lower : Int}
    (isLower : filter.lowerBound = some lower) : lower ≤ entry.createdAt := by
  rcases Option.map_eq_some_iff.mp isLower with ⟨after, isAfter, rfl⟩
  rcases asks with ⟨_, _, _, _, _, _, _, later, _⟩
  exact Int.add_one_le_iff.mpr (later after isAfter)

theorem matches_pushdownFilter {row : Entry C} (asks : filter.Matches row) :
    pushdownFilter filter filter.lowerBound filter.upperBound row = true := by
  have upper : forall upper, filter.upperBound = some upper -> row.createdAt ≤ upper :=
    fun _ => le_upperBound asks
  have lower : forall lower, filter.lowerBound = some lower -> lower ≤ row.createdAt :=
    fun _ => lowerBound_le asks
  rcases asks with ⟨ids, type, batchId, traceId, family, _⟩
  simp only [pushdownFilter, Bool.and_eq_true, Option.all_eq_true, decide_eq_true_eq]
  exact ⟨⟨⟨⟨⟨⟨type, batchId⟩, traceId⟩, family⟩, ids⟩, upper⟩, lower⟩

theorem places_pushdownFilter (rows : List (Entry C)) :
    places filter (rows.filter (pushdownFilter filter filter.lowerBound filter.upperBound)) =
      places filter rows := by
  rw [places, List.filter_filter]
  congr 1
  refine List.filter_congr fun row _ => ?_
  rw [Bool.and_eq_left_iff_imp, decide_eq_true_eq]
  exact matches_pushdownFilter

theorem places_flatMap {β : Type} (rows : β -> List (Entry C)) (sources : List β) :
    places filter (sources.flatMap rows) = sources.flatMap fun source => places filter (rows source) := by
  induction sources with
  | nil => rfl
  | cons source sources inductionHypothesis =>
      rw [List.flatMap_cons, places_append, inductionHypothesis, List.flatMap_cons]

theorem readWindows_positions {fuel : Nat} (enough : groups.length ≤ fuel) (descending : Descending groups)
    (results : List (Entry C)) :
    least limit ((readWindows filter limit filter.lowerBound filter.upperBound fuel groups
      results).map Entry.position) =
      least limit (results.map Entry.position ++
        groups.flatMap fun group => places filter group.rows) := by
  induction fuel generalizing groups results with
  | zero =>
      cases List.length_eq_zero_iff.mp (Nat.le_zero.mp enough)
      exact congrArg (least _) (List.append_nil _).symm
  | succ fuel inductionHypothesis =>
      cases groups with
      | nil => exact congrArg (least _) (List.append_nil _).symm
      | cons group groups =>
          have same := settled_positions limit results group.maxMs
          simp only [readWindows]
          split
          · rename_i isSettled
            rw [same]
            exact (settled_behind isSettled fun other added => descending.le_max added).symm
          · have shorter : ((group :: groups).drop READ_CONCURRENCY).length ≤ fuel := by
              rw [READ_CONCURRENCY, List.length_drop]
              omega
            have window : places filter (((group :: groups).take READ_CONCURRENCY).flatMap fun group =>
                group.rows.filter (pushdownFilter filter filter.lowerBound filter.upperBound)) =
                ((group :: groups).take READ_CONCURRENCY).flatMap fun group =>
                  places filter group.rows := by
              rw [places_flatMap]
              exact congrArg (List.flatMap · _) (funext fun group => places_pushdownFilter group.rows)
            rw [inductionHypothesis shorter (descending.sublist (List.drop_sublist ..)),
              positions_collect, window, List.append_assoc, ← List.flatMap_append,
              List.take_append_drop, least_append_congr same]

theorem RowGroup.places_eq_nil {group : RowGroup C}
    (apart : group.overlaps filter.lowerBound filter.upperBound = false) :
    places filter group.rows = [] := by
  refine List.eq_nil_iff_forall_not_mem.mpr fun position member => ?_
  rcases mem_places.mp member with ⟨row, isRow, asks, _⟩
  rw [← Bool.not_eq_true, RowGroup.overlaps, Bool.and_eq_true, Option.all_eq_true,
    Option.all_eq_true] at apart
  refine apart ⟨fun greatest isMax => ?_, fun least isMin => ?_⟩
  · exact (Option.all_eq_true _ _).mpr fun lower isLower => decide_eq_true
      ((lowerBound_le asks isLower).trans (group.le_max row isRow greatest isMax))
  · exact (Option.all_eq_true _ _).mpr fun upper isUpper => decide_eq_true
      ((group.min_le row isRow least isMin).trans (le_upperBound asks isUpper))

private instance : Std.Total (RowGroup.EndsNoEarlier (C := C)) where
  total left right := by
    rw [RowGroup.EndsNoEarlier, RowGroup.EndsNoEarlier]
    cases left.maxMs with
    | none => exact .inl rfl
    | some first =>
        cases right.maxMs with
        | none => exact .inr rfl
        | some second => exact (Int.le_total second first).imp decide_eq_true decide_eq_true

private instance : IsTrans (RowGroup C) RowGroup.EndsNoEarlier where
  trans first second third left right := by
    rw [RowGroup.EndsNoEarlier, Option.all_eq_true] at left right ⊢
    intro greatest isGreatest
    rcases (Option.any_eq_true _ _).mp (left greatest isGreatest) with ⟨middle, isMiddle, atMost⟩
    rcases (Option.any_eq_true _ _).mp (right middle isMiddle) with ⟨last, isLast, again⟩
    exact (Option.any_eq_true _ _).mpr
      ⟨last, isLast, decide_eq_true ((of_decide_eq_true again).trans (of_decide_eq_true atMost))⟩

/-- The groups that are read hold all matching rows. -/
theorem places_groups (filter : ColdFilter) (groups : List (RowGroup C)) :
    (((groups.filter fun group => group.overlaps filter.lowerBound filter.upperBound).insertionSort
      RowGroup.EndsNoEarlier).flatMap fun group => places filter group.rows).Perm
      (groups.flatMap fun group => places filter group.rows) := by
  refine ((List.perm_insertionSort _ _).flatMap_right _).trans (List.Perm.of_eq ?_)
  induction groups with
  | nil => rfl
  | cons group groups inductionHypothesis =>
      rw [List.filter_cons, List.flatMap_cons, ← inductionHypothesis]
      cases apart : group.overlaps filter.lowerBound filter.upperBound with
      | true => rw [if_pos rfl, List.flatMap_cons]
      | false => rw [if_neg Bool.false_ne_true, RowGroup.places_eq_nil apart, List.nil_append]

/-- The engine finds the newest matching rows of the files, copies counted. -/
theorem positions_hyparquetRead (footers : Footers C) {files : List (ColdFile C)}
    (ascending : forall file, file ∈ files -> Ascending file.rows) (filter : ColdFilter)
    (limit : Option Nat) :
    (hyparquetRead footers files filter limit).map Entry.position =
      least limit (places filter (coldRows files)) := by
  have rows : ((files.flatMap footers.rowGroups).flatMap fun group => places filter group.rows) =
      places filter (coldRows files) := by
    rw [← places_flatMap, List.flatMap_assoc, coldRows]
    exact congrArg (fun rows => places filter (List.flatMap rows files)) (funext footers.rows_eq)
  have perm := places_groups filter (files.flatMap footers.rowGroups)
  rw [rows] at perm
  simp only [hyparquetRead]
  generalize isGroups : ((files.flatMap footers.rowGroups).filter fun group =>
    group.overlaps filter.lowerBound filter.upperBound).insertionSort RowGroup.EndsNoEarlier = groups at *
  have descending : Descending groups := isGroups ▸ List.pairwise_insertionSort _ _
  have ascendingGroups : forall group, group ∈ groups -> Ascending group.rows := by
    intro group member
    rw [← isGroups, List.mem_insertionSort] at member
    rcases List.mem_flatMap.mp (List.mem_of_mem_filter member) with ⟨file, isFile, isGroup⟩
    have whole := ascending file isFile
    rw [← footers.rows_eq file] at whole
    exact whole.sublist (List.sublist_flatten_of_mem (List.mem_map_of_mem isGroup))
  rw [positions_newest, ← least_eq_of_perm limit perm]
  cases limit with
  | none => exact readWindows_positions (Nat.le_refl _) descending []
  | some limit =>
      simp only
      split
      · exact readWindows_positions (Nat.le_refl _) descending []
      · exact readTails_positions limit descending ascendingGroups []

/-! ## Only what matches -/

section Sound

variable {files : List (ColdFile C)}

theorem AllMatching.collect (all : AllMatching files filter results) {rows : List (Entry C)}
    (within : forall row, row ∈ rows -> row ∈ coldRows files) :
    AllMatching files filter (collect filter results rows) := by
  intro entry member
  rcases List.mem_append.mp member with before | now
  · exact all entry before
  · rcases List.mem_map.mp now with ⟨row, isMatch, rfl⟩
    rcases List.mem_filter.mp isMatch with ⟨isRow, asks⟩
    exact ⟨row, within row isRow, of_decide_eq_true asks, rfl⟩

theorem AllMatching.settled (all : AllMatching files filter results) (limit : Option Nat)
    (boundary : Option Int) : AllMatching files filter (settled limit results boundary).2 := by
  cases limit with
  | none => exact all
  | some limit =>
      simp only [Parquet.settled]
      split
      · exact all
      · exact fun entry member => all entry (mem_sortNewestFirst.mp (List.mem_of_mem_take member))

theorem AllMatching.readTail (limit fuel size : Nat) {unread : List (Entry C)}
    (within : forall row, row ∈ unread -> row ∈ coldRows files)
    (all : AllMatching files filter results) :
    AllMatching files filter (readTail filter limit fuel size unread results) := by
  induction fuel generalizing size unread results with
  | zero => exact all
  | succ fuel inductionHypothesis =>
      rw [Parquet.readTail]
      split
      · exact all
      · rename_i first rows window
        have read : forall row, row ∈ first :: rows -> row ∈ coldRows files := fun row isRow =>
          within row (List.mem_of_mem_drop (window ▸ isRow))
        have collected := (all.collect read).settled (some limit) (some first.createdAt)
        simp only
        split
        · exact collected
        · exact inductionHypothesis _ (fun row isRow => within row (List.mem_of_mem_take isRow)) collected

theorem AllMatching.readTails (limit : Nat)
    (within : forall group, group ∈ groups -> forall row, row ∈ group.rows -> row ∈ coldRows files)
    (all : AllMatching files filter results) :
    AllMatching files filter (readTails filter limit groups results) := by
  induction groups generalizing results with
  | nil => exact all
  | cons group groups inductionHypothesis =>
      simp only [Parquet.readTails]
      split
      · exact all.settled _ _
      · exact inductionHypothesis (fun other later => within other (List.mem_cons_of_mem _ later))
          ((all.settled _ _).readTail _ _ _ (within group (List.mem_cons_self ..)))

theorem AllMatching.readWindows (limit : Option Nat) (lower upper : Option Int) (fuel : Nat)
    (within : forall group, group ∈ groups -> forall row, row ∈ group.rows -> row ∈ coldRows files)
    (all : AllMatching files filter results) :
    AllMatching files filter (readWindows filter limit lower upper fuel groups results) := by
  induction fuel generalizing groups results with
  | zero => exact all
  | succ fuel inductionHypothesis =>
      cases groups with
      | nil => exact all
      | cons group groups =>
          simp only [Parquet.readWindows]
          split
          · exact all.settled _ _
          · refine inductionHypothesis (fun other later => within other (List.mem_of_mem_drop later))
              ((all.settled _ _).collect fun row isRow => ?_)
            rcases List.mem_flatMap.mp isRow with ⟨other, inWindow, inGroup⟩
            exact within other (List.mem_of_mem_take inWindow) row (List.mem_of_mem_filter inGroup)

end Sound

/-- `HyparquetEngine`. -/
def hyparquetEngine (footers : Footers C) : ColdEngine C where
  read := hyparquetRead footers
  sound := by
    intro files filter limit entry found
    have within : forall group, group ∈ ((files.flatMap footers.rowGroups).filter fun group =>
        group.overlaps filter.lowerBound filter.upperBound).insertionSort RowGroup.EndsNoEarlier ->
        forall row, row ∈ group.rows -> row ∈ coldRows files := by
      intro group member row isRow
      rw [List.mem_insertionSort] at member
      rcases List.mem_flatMap.mp (List.mem_of_mem_filter member) with ⟨file, isFile, isGroup⟩
      refine mem_coldRows.mpr ⟨file, isFile, ?_⟩
      rw [← footers.rows_eq file]
      exact List.mem_flatMap.mpr ⟨group, isGroup, isRow⟩
    have nothing : AllMatching files filter [] := fun _ member => (List.not_mem_nil member).elim
    have member := mem_sortNewestFirst.mp ((cut_sublist limit _).subset found)
    cases limit with
    | none => exact nothing.readWindows _ _ _ _ within entry member
    | some limit =>
        simp only at member
        split at member
        · exact nothing.readWindows _ _ _ _ within entry member
        · exact nothing.readTails _ within entry member

end Read

end Parquet
end Telescope
