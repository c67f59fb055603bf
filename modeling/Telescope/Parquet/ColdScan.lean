import Telescope.Parquet.Engine

namespace Telescope
namespace Parquet

open Least

/-!
# What a cold query finds

The engine counts copies: of an hour it returns the newest matching rows up to
the limit, and copies are dropped only afterwards.  So a query finds the newest
entries among those that fewer rows of their hour precede than the limit says,
whatever is left out by walking the hours from the newest down and stopping once
the results are certain.
-/

variable {C : Type} {files : List (ColdFile C)}

/-- A file as it is written: in the partition of its rows, oldest first. -/
structure Placed (file : ColdFile C) : Prop where
  ascending : Ascending file.rows
  inPartition : forall row, row ∈ file.rows -> partitionOf row = file.partition

theorem ascending_sortOldestFirst (entries : List (Entry C)) :
    (sortOldestFirst entries).Pairwise fun earlier later => ¬ earlier.Newer later := by
  have total : Std.Total fun left right : Entry C => ¬ left.Newer right :=
    ⟨fun left right => le_total right.position left.position⟩
  have trans : IsTrans (Entry C) fun left right : Entry C => ¬ left.Newer right :=
    ⟨fun first second third left right => le_trans (a := third.position) right left⟩
  exact List.pairwise_insertionSort _ entries

/-! ## The hours -/

theorem floorHour_le (instant : Int) : floorHour instant ≤ instant := by
  unfold floorHour HOUR_MS
  omega

theorem lt_floorHour (instant : Int) : instant < floorHour instant + HOUR_MS := by
  unfold floorHour HOUR_MS
  omega

theorem lt_floorDay (instant : Int) : instant < floorDay (floorHour instant) + DAY_MS := by
  unfold floorDay floorHour DAY_MS HOUR_MS
  omega

theorem newestDown_descending (instants : List Int) : (newestDown instants).Pairwise (· > ·) := by
  have ordered : (newestDown instants).Pairwise fun left right => right ≤ left :=
    List.pairwise_insertionSort (fun left right : Int => right ≤ left) _
  have distinct : (newestDown instants).Nodup :=
    (List.perm_insertionSort _ _).nodup_iff.mpr (nodup_eraseDups instants)
  exact (ordered.and distinct).imp fun both => lt_of_le_of_ne both.1 both.2.symm

theorem mem_newestDown {instants : List Int} {instant : Int} :
    instant ∈ newestDown instants <-> instant ∈ instants := by
  rw [newestDown, List.mem_insertionSort, List.mem_eraseDups]

/-! ## The rows of an hour -/

section Hours

variable [JsonContent C] {filter : ColdFilter}

theorem perm_filter_or {α : Type} (elements : List α) {first second : α -> Bool}
    (apart : forall element, first element = true -> second element = false) :
    (elements.filter first ++ elements.filter second).Perm
      (elements.filter fun element => first element || second element) := by
  have parts := List.filter_append_perm first
    (elements.filter fun element => first element || second element)
  rw [List.filter_filter, List.filter_filter] at parts
  refine List.Perm.trans (List.Perm.of_eq ?_) parts
  congr 1
  · refine List.filter_congr fun element _ => ?_
    cases first element <;> rfl
  · refine List.filter_congr fun element _ => ?_
    cases isFirst : first element with
    | true => exact apart element isFirst
    | false => exact (Bool.true_and _).symm

omit [JsonContent C] in
/-- The files of an hour, whatever the order of their types. -/
theorem perm_hourFiles (files : List (ColdFile C)) (filter : ColdFilter) (hourStart : Int) :
    (hourFiles files filter hourStart).Perm (files.filter fun file =>
      decide (file.partition.type ∈ scannedTypes files filter) &&
        decide (file.partition.hourStart = hourStart)) := by
  have distinct : (scannedTypes files filter).Nodup := by
    unfold scannedTypes
    cases filter.type with
    | none => exact nodup_eraseDups (files.map fun file => file.partition.type)
    | some type => exact List.nodup_singleton type
  rw [hourFiles]
  generalize scannedTypes files filter = types at *
  induction types with
  | nil =>
      refine List.Perm.of_eq (Eq.symm (List.filter_eq_nil_iff.mpr fun file _ => ?_))
      exact Bool.eq_false_iff.mp rfl
  | cons type types inductionHypothesis =>
      rcases List.nodup_cons.mp distinct with ⟨fresh, rest⟩
      rw [List.flatMap_cons]
      refine ((inductionHypothesis rest).append_left _).trans ((perm_filter_or files ?_).trans
        (List.Perm.of_eq (List.filter_congr fun file _ => ?_)))
      · intro file isType
        rw [of_decide_eq_true isType]
        exact Bool.and_eq_false_iff.mpr (.inl (decide_eq_false fresh))
      · rcases file with ⟨⟨fileType, start⟩, rows⟩
        rw [Bool.eq_iff_iff, Bool.or_eq_true, Bool.and_eq_true, Bool.and_eq_true, decide_eq_true_eq,
          decide_eq_true_eq, decide_eq_true_eq, decide_eq_true_eq, Partition.mk.injEq, List.mem_cons]
        tauto

omit [JsonContent C] in
theorem coldRows_filter (placed : forall file, file ∈ files -> Placed file)
    (keeps : Partition -> Bool) :
    coldRows (files.filter fun file => keeps file.partition) =
      (coldRows files).filter fun row => keeps (partitionOf row) := by
  induction files with
  | nil => rfl
  | cons file files inductionHypothesis =>
      have rest := inductionHypothesis fun other member => placed other (List.mem_cons_of_mem _ member)
      have rows : file.rows.filter (fun row => keeps (partitionOf row)) =
          if keeps file.partition then file.rows else [] := by
        have own := (placed file (List.mem_cons_self ..)).inPartition
        split
        · rename_i kept
          exact List.filter_eq_self.mpr fun row isRow => (own row isRow).symm ▸ kept
        · rename_i dropped
          exact List.filter_eq_nil_iff.mpr fun row isRow => (own row isRow).symm ▸ dropped
      have whole : coldRows (file :: files) = file.rows ++ coldRows files := List.flatMap_cons
      rw [whole, List.filter_append, rows, ← rest, List.filter_cons]
      split
      · exact List.flatMap_cons
      · exact (List.nil_append _).symm

theorem type_mem_scannedTypes (placed : forall file, file ∈ files -> Placed file) {row : Entry C}
    (isRow : row ∈ coldRows files) (asks : filter.Matches row) :
    row.type ∈ scannedTypes files filter := by
  unfold scannedTypes
  cases isType : filter.type with
  | some type => exact List.mem_singleton.mpr (asks.2.1 type isType)
  | none =>
      rcases mem_coldRows.mp isRow with ⟨file, isFile, inFile⟩
      have partition := (placed file isFile).inPartition row inFile
      exact List.mem_eraseDups.mpr
        (List.mem_map.mpr ⟨file, isFile, (congrArg Partition.type partition).symm⟩)

/-- The matching rows of an hour are read from its files. -/
theorem rows_hourFiles (placed : forall file, file ∈ files -> Placed file) (hourStart : Int) :
    ((coldRows (hourFiles files filter hourStart)).filter fun row => decide (filter.Matches row)).Perm
      ((coldRows files).filter fun row => decide (filter.Matches row) &&
        decide (floorHour row.createdAt = hourStart)) := by
  have rows := (perm_hourFiles files filter hourStart).flatMap_right ColdFile.rows
  have kept := coldRows_filter placed fun partition =>
    decide (partition.type ∈ scannedTypes files filter) && decide (partition.hourStart = hourStart)
  refine ((rows.trans (List.Perm.of_eq kept)).filter _).trans (List.Perm.of_eq ?_)
  rw [List.filter_filter]
  refine List.filter_congr fun row isRow => ?_
  rw [Bool.eq_iff_iff, Bool.and_eq_true, Bool.and_eq_true, Bool.and_eq_true, decide_eq_true_eq,
    decide_eq_true_eq, decide_eq_true_eq]
  constructor
  · rintro ⟨asks, _, inHour⟩
    exact ⟨asks, decide_eq_true inHour⟩
  · rintro ⟨asks, inHour⟩
    exact ⟨asks, type_mem_scannedTypes placed isRow asks, of_decide_eq_true inHour⟩

theorem places_hourFiles (placed : forall file, file ∈ files -> Placed file) (hourStart : Int) :
    (places filter (coldRows (hourFiles files filter hourStart))).Perm
      (((coldRows files).filter fun row => decide (filter.Matches row) &&
        decide (floorHour row.createdAt = hourStart)).map Entry.position) :=
  (rows_hourFiles placed hourStart).map Entry.position

end Hours

/-! ## The walk -/

omit files in
/-- The newest distinct entries are at the least distinct positions. -/
theorem positions_newestDistinct (limit : Option Nat) {entries : List (Entry C)}
    (agrees : Agrees entries) :
    (cut limit (sortNewestFirst (dedupe entries))).map Entry.position =
      leastDistinct limit (entries.map Entry.position) := by
  have distinct : ((dedupe entries).map Entry.position).Nodup :=
    List.Nodup.of_map Position.id (by
      rw [List.map_map]
      exact distinctIds_dedupe entries)
  rw [positions_newest]
  refine least_eq_of_perm limit ((List.perm_ext_iff_of_nodup distinct (List.nodup_dedup _)).mpr
    fun position => ?_)
  rw [List.mem_dedup, List.mem_map, List.mem_map]
  constructor
  · rintro ⟨entry, kept, isPosition⟩
    exact ⟨entry, mem_of_mem_dedupe kept, isPosition⟩
  · rintro ⟨entry, member, rfl⟩
    rcases exists_mem_dedupe member with ⟨kept, isKept, same⟩
    exact ⟨kept, isKept, agrees.position (mem_of_mem_dedupe isKept) member same⟩

section Walk

variable [JsonContent C] {engine : ColdEngine C} {filter : ColdFilter} {limit : Option Nat}
  {results : List (Entry C)}

omit [JsonContent C] files in
theorem certain_positions (limit : Option Nat) (agrees : Agrees results) (boundary : Int) :
    leastDistinct limit ((certain limit results boundary).2.map Entry.position) =
      leastDistinct limit (results.map Entry.position) := by
  cases limit with
  | none => rfl
  | some limit =>
      simp only [certain]
      split
      · rfl
      · have positions := positions_newestDistinct (some limit) agrees
        change ((sortNewestFirst (dedupe results)).take limit).map Entry.position = _ at positions
        rw [positions, leastDistinct_leastDistinct]

omit [JsonContent C] files in
/-- Once results are certain, what is older than the boundary adds nothing. -/
theorem certain_behind (agrees : Agrees results) {boundary : Int}
    (isCertain : (certain limit results boundary).1 = true) {others : List Position}
    (older : forall other, other ∈ others -> other.createdAt < boundary) :
    leastDistinct limit (results.map Entry.position ++ others) =
      leastDistinct limit (results.map Entry.position) := by
  cases limit with
  | none => cases isCertain
  | some limit =>
      simp only [certain] at isCertain
      split at isCertain
      · cases isCertain
      · rcases (Option.any_eq_true _ _).mp isCertain with ⟨kth, isKth, noOlder⟩
        have kthPosition : (leastDistinct (some limit) (results.map Entry.position))[limit - 1]? =
            some kth.position := by
          rw [← positions_newestDistinct _ agrees, List.getElem?_map]
          exact congrArg (Option.map Entry.position) isKth
        have size : limit ≤ (results.map Entry.position).dedup.length := by
          rcases List.getElem?_eq_some_iff.mp kthPosition with ⟨inside, _⟩
          have length := inside.trans_le (List.length_take_le' limit _)
          rw [List.length_insertionSort] at length
          omega
        refine leastDistinct_append_of_full size fun position kept other added => ?_
        have front := createdAt_le_of_last (sorted_least _ _) (least_length size).le kthPosition kept
        have behind : other.createdAt < position.createdAt :=
          lt_of_lt_of_le (older other added) ((of_decide_eq_true noOlder).trans front)
        exact Position.newer_asymm (.inl behind)

theorem AllMatching.agrees (all : AllMatching files filter results)
    (agrees : Agrees (coldRows files)) : Agrees results :=
  agrees.of_positions fun entry member => by
    rcases all entry member with ⟨row, isRow, _, rfl⟩
    exact ⟨row, isRow, (ColdFilter.position_project row).symm⟩

/-- What the engine finds in an hour. -/
def hourPositions (engine : ColdEngine C) (files : List (ColdFile C)) (filter : ColdFilter)
    (limit : Option Nat) (hourStart : Int) : List Position :=
  (engine.read (hourFiles files filter hourStart) filter limit).map Entry.position

theorem hourPositions_within (placed : forall file, file ∈ files -> Placed file) {hourStart : Int}
    {position : Position} (member : position ∈ hourPositions engine files filter limit hourStart) :
    floorHour position.createdAt = hourStart := by
  rcases List.mem_map.mp member with ⟨entry, found, rfl⟩
  rcases engine.sound found with ⟨row, isRow, asks, rfl⟩
  have inHour := (places_hourFiles placed hourStart).subset (mem_places.mpr ⟨row, isRow, asks, rfl⟩)
  rcases List.mem_map.mp inHour with ⟨other, kept, same⟩
  have hour := (Bool.and_eq_true_iff.mp (List.mem_filter.mp kept).2).2
  rw [ColdFilter.position_project, ← same]
  exact of_decide_eq_true hour

theorem scanHours_positions (engine : ColdEngine C) (limit : Option Nat)
    (placed : forall file, file ∈ files -> Placed file)
    (agrees : Agrees (coldRows files)) {hours : List Int} (descending : hours.Pairwise (· > ·))
    (all : AllMatching files filter results) :
    leastDistinct limit ((scanHours engine files filter limit hours results).map Entry.position) =
      leastDistinct limit (results.map Entry.position ++
        hours.flatMap (hourPositions engine files filter limit)) := by
  induction hours generalizing results with
  | nil => exact congrArg (leastDistinct _) (List.append_nil _).symm
  | cons hourStart hours inductionHypothesis =>
      rcases List.pairwise_cons.mp descending with ⟨newest, rest⟩
      have same := certain_positions limit (all.agrees agrees) (hourStart + HOUR_MS)
      simp only [scanHours]
      split
      · rename_i isCertain
        rw [same]
        refine (certain_behind (all.agrees agrees) isCertain fun position added => ?_).symm
        rcases List.mem_flatMap.mp added with ⟨other, isHour, found⟩
        have before := lt_floorHour position.createdAt
        rw [hourPositions_within placed found] at before
        rcases List.mem_cons.mp isHour with rfl | later
        · exact before
        · exact before.trans (Int.add_lt_add_right (newest other later) HOUR_MS)
      · rw [inductionHypothesis rest ((all.certain _).read hourStart), List.map_append,
          List.append_assoc, leastDistinct_append_congr same, List.flatMap_cons]
        rfl

omit [JsonContent C] in
theorem scannedHours_descending (files : List (ColdFile C)) (filter : ColdFilter) (lower upper : Option Int) (day : Int) :
    (scannedHours files filter lower upper day).Pairwise (· > ·) :=
  newestDown_descending _

omit [JsonContent C] in
theorem mem_scannedHours {lower upper : Option Int} {day hourStart : Int}
    (member : hourStart ∈ scannedHours files filter lower upper day) : floorDay hourStart = day := by
  have kept := (List.mem_filter.mp (mem_newestDown.mp member)).2
  exact of_decide_eq_true (Bool.and_eq_true_iff.mp kept).1

theorem scanDays_positions (engine : ColdEngine C) (limit : Option Nat)
    (placed : forall file, file ∈ files -> Placed file)
    (agrees : Agrees (coldRows files)) (lower upper : Option Int) {days : List Int}
    (descending : days.Pairwise (· > ·)) (all : AllMatching files filter results) :
    leastDistinct limit ((scanDays engine files filter limit lower upper days results).map
        Entry.position) =
      leastDistinct limit (results.map Entry.position ++ days.flatMap fun day =>
        (scannedHours files filter lower upper day).flatMap
          (hourPositions engine files filter limit)) := by
  induction days generalizing results with
  | nil => exact congrArg (leastDistinct _) (List.append_nil _).symm
  | cons day days inductionHypothesis =>
      rcases List.pairwise_cons.mp descending with ⟨newest, rest⟩
      have same := certain_positions limit (all.agrees agrees) (day + DAY_MS)
      simp only [scanDays]
      split
      · rename_i isCertain
        rw [same]
        refine (certain_behind (all.agrees agrees) isCertain fun position added => ?_).symm
        rcases List.mem_flatMap.mp added with ⟨other, isDay, inDay⟩
        rcases List.mem_flatMap.mp inDay with ⟨hourStart, isHour, found⟩
        have before := lt_floorDay position.createdAt
        rw [hourPositions_within placed found, mem_scannedHours isHour] at before
        rcases List.mem_cons.mp isDay with rfl | later
        · exact before
        · exact before.trans (Int.add_lt_add_right (newest other later) DAY_MS)
      · have kept : AllMatching files filter (certain limit results (day + DAY_MS)).2 := all.certain _
        have read := scanHours_positions engine limit placed agrees
          (scannedHours_descending files filter lower upper day) kept
        rw [inductionHypothesis rest ((all.certain _).scanHours _), leastDistinct_append_congr read,
          List.append_assoc, leastDistinct_append_congr same, List.flatMap_cons]

/-! ## The results -/

/-- The hour of a matching row is walked within bounds that overlap it. -/
theorem hour_walked (placed : forall file, file ∈ files -> Placed file) {row : Entry C}
    (isRow : row ∈ coldRows files) (asks : filter.Matches row) {lower upper : Option Int}
    (belowUpper : forall bound, upper = some bound -> floorHour row.createdAt ≤ bound)
    (aboveLower : forall bound, lower = some bound -> bound < floorHour row.createdAt + HOUR_MS) :
    floorDay (floorHour row.createdAt) ∈ scannedDays files filter lower upper ∧
      floorHour row.createdAt ∈ scannedHours files filter lower upper
        (floorDay (floorHour row.createdAt)) := by
  rcases mem_coldRows.mp isRow with ⟨file, isFile, inFile⟩
  have partition := (placed file isFile).inPartition row inFile
  have start : file.partition.hourStart = floorHour row.createdAt :=
    (congrArg Partition.hourStart partition).symm
  have reached : file ∈ files.filter fun file =>
      decide (file.partition.type ∈ scannedTypes files filter) :=
    List.mem_filter.mpr ⟨isFile, decide_eq_true
      (congrArg Partition.type partition ▸ type_mem_scannedTypes placed isRow asks)⟩
  have day : floorDay (floorHour row.createdAt) ≤ floorHour row.createdAt ∧
      floorHour row.createdAt + HOUR_MS ≤ floorDay (floorHour row.createdAt) + DAY_MS := by
    unfold floorDay floorHour DAY_MS HOUR_MS
    omega
  constructor
  · refine mem_newestDown.mpr (List.mem_filter.mpr ⟨List.mem_map.mpr ⟨file, reached, ?_⟩, ?_⟩)
    · rw [start]
    · rw [Bool.and_eq_true, Option.all_eq_true, Option.all_eq_true]
      exact ⟨fun bound isBound => decide_eq_true (day.1.trans (belowUpper bound isBound)),
        fun bound isBound => decide_eq_true ((aboveLower bound isBound).trans_le day.2)⟩
  · refine mem_newestDown.mpr (List.mem_filter.mpr ⟨List.mem_map.mpr ⟨file, reached, start⟩, ?_⟩)
    rw [Bool.and_eq_true, Bool.and_eq_true, Option.all_eq_true, Option.all_eq_true]
    exact ⟨decide_eq_true rfl, fun bound isBound => decide_eq_true (belowUpper bound isBound),
      fun bound isBound => decide_eq_true (aboveLower bound isBound)⟩

/-- The hour of a matching row is walked. -/
theorem hour_scanned (placed : forall file, file ∈ files -> Placed file) {row : Entry C}
    (isRow : row ∈ coldRows files) (asks : filter.Matches row) :
    floorDay (floorHour row.createdAt) ∈ scannedDays files filter filter.lowerBound filter.upperBound ∧
      floorHour row.createdAt ∈ scannedHours files filter filter.lowerBound filter.upperBound
        (floorDay (floorHour row.createdAt)) :=
  hour_walked placed isRow asks
    (fun _bound isBound => (floorHour_le _).trans (le_upperBound asks isBound))
    fun _bound isBound => (lowerBound_le asks isBound).trans_lt (lt_floorHour _)

/-- Fewer matching rows of its hour precede a position than the limit says; each
copy of a row counts. -/
def InReach (asked : EntryQuery) (rows : List (Entry C)) (limit : Option Nat) (position : Position) :
    Prop :=
  forall bound, limit = some bound ->
    (rows.countP fun row => (decide (asked.Matches row) &&
      behindCursor (asked.cursor.bind decodeCursor) row) &&
        decide (floorHour row.createdAt = floorHour position.createdAt) &&
          decide (row.position.Newer position)) < bound

instance (asked : EntryQuery) (rows : List (Entry C)) (limit : Option Nat) (position : Position) :
    Decidable (InReach asked rows limit position) :=
  match limit with
  | none => .isTrue fun _ none => nomatch none
  | some _ => decidable_of_iff (_ < _)
      ⟨fun fewer _ isBound => Option.some.inj isBound ▸ fewer, fun all => all _ rfl⟩

omit files in
theorem minBound_none (bound : Option Int) : minBound bound none = bound := by
  cases bound <;> rfl

omit files in
theorem maxBound_none (bound : Option Int) : maxBound bound none = bound := by
  cases bound <;> rfl

/-- A scan finds the newest distinct positions of what its hours return. -/
theorem positions_scan (engine : ColdEngine C) (limit : Option Nat)
    (placed : forall file, file ∈ files -> Placed file) (agrees : Agrees (coldRows files))
    (filter : ColdFilter) :
    (scan engine files filter limit none).map Entry.position =
      leastDistinct limit ((scannedDays files filter filter.lowerBound filter.upperBound).flatMap
        fun day => (scannedHours files filter filter.lowerBound filter.upperBound day).flatMap
          (hourPositions engine files filter limit)) := by
  simp only [scan, Option.map_none, minBound_none, maxBound_none]
  split
  · rename_i apart
    rcases (Option.any_eq_true _ _).mp apart with ⟨upper, isUpper, below⟩
    rcases (Option.any_eq_true _ _).mp below with ⟨lower, isLower, before⟩
    have none : ((scannedDays files filter filter.lowerBound filter.upperBound).flatMap fun day =>
        (scannedHours files filter filter.lowerBound filter.upperBound day).flatMap
          (hourPositions engine files filter limit)) = [] := by
      refine List.eq_nil_iff_forall_not_mem.mpr fun position member => ?_
      rcases List.mem_flatMap.mp member with ⟨day, _, inDay⟩
      rcases List.mem_flatMap.mp inDay with ⟨hourStart, _, found⟩
      rcases List.mem_map.mp found with ⟨entry, read, _⟩
      rcases engine.sound read with ⟨row, _, asks, _⟩
      exact ((lowerBound_le asks isLower).trans (le_upperBound asks isUpper)).not_gt
        (of_decide_eq_true before)
    rw [none]
    cases limit with
    | none => rfl
    | some limit => exact List.take_nil.symm
  · have nothing : AllMatching files filter [] := fun _ member => (List.not_mem_nil member).elim
    have walked := scanDays_positions engine limit placed agrees filter.lowerBound filter.upperBound
      (newestDown_descending _ : (scannedDays files filter filter.lowerBound
        filter.upperBound).Pairwise (· > ·)) nothing
    have positions := positions_newestDistinct limit
      ((nothing.scanDays engine limit filter.lowerBound filter.upperBound
        (scannedDays files filter filter.lowerBound filter.upperBound)).agrees agrees)
    exact positions.trans walked

theorem mem_hourPositions (footers : Footers C) (placed : forall file, file ∈ files -> Placed file)
    {asked : EntryQuery} {hourStart : Int} {position : Position} :
    position ∈ hourPositions (hyparquetEngine footers) files (toColdFilter C asked) limit hourStart <->
      (Lists asked (coldRows files) position ∧
        liesBehind (asked.cursor.bind decodeCursor) position = true) ∧
        floorHour position.createdAt = hourStart ∧ InReach asked (coldRows files) limit position := by
  have ascending : forall file, file ∈ hourFiles files (toColdFilter C asked) hourStart ->
      Ascending file.rows := fun file isFile =>
    (placed file (List.mem_of_mem_filter ((perm_hourFiles files _ hourStart).subset isFile))).ascending
  have read := positions_hyparquetRead footers ascending (toColdFilter C asked) limit
  rw [least_eq_of_perm limit (places_hourFiles placed hourStart)] at read
  change position ∈ (hyparquetRead _ _ _ _).map Entry.position <-> _
  rw [read, mem_least, List.countP_map, List.countP_filter, List.mem_map]
  have asks : forall row : Entry C, decide ((toColdFilter C asked).Matches row) =
      (decide (asked.Matches row) && behindCursor (asked.cursor.bind decodeCursor) row) := by
    intro row
    rw [Bool.eq_iff_iff, Bool.and_eq_true, decide_eq_true_eq, decide_eq_true_eq, toColdFilter_matches]
  have inHour : (Exists fun row => row ∈ ((coldRows files).filter fun row =>
      decide ((toColdFilter C asked).Matches row) && decide (floorHour row.createdAt = hourStart)) ∧
        row.position = position) <->
      (Lists asked (coldRows files) position ∧
        liesBehind (asked.cursor.bind decodeCursor) position = true) ∧
        floorHour position.createdAt = hourStart := by
    constructor
    · rintro ⟨row, kept, rfl⟩
      rcases List.mem_filter.mp kept with ⟨isRow, both⟩
      rw [asks, Bool.and_eq_true, Bool.and_eq_true, decide_eq_true_eq, decide_eq_true_eq] at both
      exact ⟨⟨⟨row, isRow, both.1.1, rfl⟩, both.1.2⟩, both.2⟩
    · rintro ⟨⟨⟨row, isRow, matching, rfl⟩, behind⟩, hour⟩
      refine ⟨row, List.mem_filter.mpr ⟨isRow, ?_⟩, rfl⟩
      rw [asks, Bool.and_eq_true, Bool.and_eq_true, decide_eq_true_eq, decide_eq_true_eq]
      exact ⟨⟨matching, behind⟩, hour⟩
  rw [inHour, and_assoc (c := InReach asked (coldRows files) limit position) |>.symm]
  refine and_congr_right fun both => ?_
  rw [InReach]
  have same : ((fun row : Entry C => ((fun other => decide (other < position)) ∘ Entry.position) row &&
      (decide ((toColdFilter C asked).Matches row) && decide (floorHour row.createdAt = hourStart)))) =
      fun row => (decide (asked.Matches row) && behindCursor (asked.cursor.bind decodeCursor) row) &&
        decide (floorHour row.createdAt = floorHour position.createdAt) &&
          decide (row.position.Newer position) := by
    funext row
    rw [asks, both.2, Bool.and_comm]
    rfl
  rw [same]

/-- A query of the default engine finds the newest of the entries in reach. -/
theorem positions_query (footers : Footers C) {files : List (ColdFile C)}
    (placed : forall file, file ∈ files -> Placed file) (agrees : Agrees (coldRows files))
    (asked : EntryQuery) (limit : Option Nat) :
    (query (hyparquetEngine footers) files limit asked).map Entry.position =
      cut limit ((ahead asked (coldRows files)).filter fun position =>
        decide (InReach asked (coldRows files) limit position)) := by
  rw [query, positions_scan _ _ placed agrees, leastDistinct, least]
  congr 1
  have sorted : ((ahead asked (coldRows files)).filter fun position =>
      decide (InReach asked (coldRows files) limit position)).Pairwise (· < ·) :=
    (ahead_sorted asked (coldRows files)).filter _
  refine List.Perm.eq_of_pairwise (fun _ _ _ _ before after => (lt_asymm before after).elim)
    (strict_leastDistinct none _) sorted
    ((List.perm_ext_iff_of_nodup ((strict_leastDistinct none _).imp fun before => before.ne)
      (sorted.imp fun before => before.ne)).mpr fun position => ?_)
  rw [mem_leastDistinct, List.mem_filter, ahead, List.mem_filter, mem_listing agrees,
    decide_eq_true_eq]
  simp only [List.mem_flatMap, mem_hourPositions footers placed]
  constructor
  · rintro ⟨⟨day, _, hourStart, _, lists, _, inReach⟩, _⟩
    exact ⟨lists, inReach⟩
  · rintro ⟨⟨⟨row, isRow, asks, rfl⟩, behind⟩, inReach⟩
    have scanned := hour_scanned placed isRow (toColdFilter_matches.mpr ⟨asks, behind⟩)
    exact ⟨⟨_, scanned.1, _, scanned.2, ⟨⟨row, isRow, asks, rfl⟩, behind⟩, rfl, inReach⟩,
      fun _ none => by cases none⟩

/-- A front that a filter keeps is the front of what it keeps. -/
theorem take_filter_of_front {α : Type} {keeps : α -> Bool} {elements : List α} {places : Nat}
    (front : forall element, element ∈ elements.take places -> keeps element = true) :
    (elements.filter keeps).take places = elements.take places := by
  have parts : elements.filter keeps = elements.take places ++ (elements.drop places).filter keeps := by
    nth_rewrite 1 [← List.take_append_drop places elements]
    rw [List.filter_append, List.filter_eq_self.mpr front]
  rw [parts]
  by_cases full : places ≤ elements.length
  · rw [List.take_append_of_le_length (by rw [List.length_take, Nat.min_eq_left full]),
      List.take_take, Nat.min_self]
  · rw [List.drop_eq_nil_of_le (not_le.mp full).le, List.filter_nil, List.append_nil, List.take_take,
      Nat.min_self]

theorem positions_query_of_inReach (footers : Footers C) {files : List (ColdFile C)}
    (placed : forall file, file ∈ files -> Placed file) (agrees : Agrees (coldRows files))
    {asked : EntryQuery} {limit : Option Nat}
    (inReach : forall position, position ∈ cut limit (ahead asked (coldRows files)) ->
      InReach asked (coldRows files) limit position) :
    (query (hyparquetEngine footers) files limit asked).map Entry.position =
      cut limit (ahead asked (coldRows files)) := by
  rw [positions_query footers placed agrees]
  cases limit with
  | none => exact List.filter_eq_self.mpr fun position member => decide_eq_true (inReach position member)
  | some limit => exact take_filter_of_front fun position member => decide_eq_true (inReach position member)

end Walk

/-! ## An hour that is stored twice -/

theorem unstated_min (file : ColdFile Text) : forall row, row ∈ file.rows -> forall least, none = some least ->
    least ≤ row.createdAt :=
  fun _row _member _least isLeast => (Option.some_ne_none _ isLeast.symm).elim

theorem unstated_max (file : ColdFile Text) : forall row, row ∈ file.rows -> forall greatest, none = some greatest ->
    row.createdAt ≤ greatest :=
  fun _row _member _greatest isGreatest => (Option.some_ne_none _ isGreatest.symm).elim

theorem rows_whole (file : ColdFile Text) : file.rows ++ [] = file.rows := List.append_nil file.rows

/-- Each file a single row group without statistics. -/
def wholeFiles : Footers Text where
  rowGroups file := [⟨file.rows, none, none, unstated_min file, unstated_max file⟩]
  rows_eq := rows_whole

/-- Two entries of one hour. -/
def hourFile : ColdFile Text :=
  ⟨⟨['q'], 0⟩, [plainEntry ['1'] ['q'] 1, plainEntry ['2'] ['q'] 2]⟩

theorem hourFile_placed : Placed hourFile where
  ascending := by
    unfold Ascending
    decide
  inPartition := by decide

end Parquet
end Telescope
