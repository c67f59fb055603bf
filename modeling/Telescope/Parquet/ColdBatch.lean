import Telescope.Parquet.ColdScan
import Telescope.Parquet.EarlyStop

namespace Telescope
namespace Parquet

/-!
# A batch of the cold tier

An identifier of version 7 tells when it was generated, so a batch is looked up in the
hours around that instant first.  The whole tier is read only when nothing was found
there: a batch that reaches out of those hours is returned in part.
-/

variable {C : Type}

/-! ## Identifiers that carry an instant -/

def hexDigit (character : Char) : Option Nat :=
  if '0' ≤ character ∧ character ≤ '9' then some (character.toNat - '0'.toNat)
  else if 'a' ≤ character ∧ character ≤ 'f' then some (character.toNat - 'a'.toNat + 10)
  else if 'A' ≤ character ∧ character ≤ 'F' then some (character.toNat - 'A'.toNat + 10)
  else none

/-- What a UUIDv7 has at each place, in either case. -/
def UUID_V7 : List (Char -> Bool) :=
  let hex (count : Nat) : List (Char -> Bool) := List.replicate count fun character => (hexDigit character).isSome
  let one (allowed : Text) : List (Char -> Bool) := [fun character => decide (character ∈ allowed)]
  hex 8 ++ one ['-'] ++ hex 4 ++ one ['-'] ++ one ['7'] ++ hex 3 ++ one ['-'] ++
    one ['8', '9', 'a', 'b', 'A', 'B'] ++ hex 3 ++ one ['-'] ++ hex 12

def isUuidV7 (id : Text) : Bool :=
  id.length == UUID_V7.length && (List.zipWith (fun allows character => allows character) UUID_V7 id).all fun ok => ok

/-- `Number.parseInt(digits, 16)`. -/
def parseHex (digits : Text) : Nat :=
  digits.foldl (fun value digit => 16 * value + (hexDigit digit).getD 0) 0

/-- The instant a UUIDv7 was generated at. -/
def uuidV7Time (id : Text) : Option Int :=
  if isUuidV7 id then some (parseHex ((id.filter (· ≠ '-')).take 12)) else none

/-! ## Reading a batch -/

def BATCH_BEFORE_MS : Int := 5 * 60 * 1000

def BATCH_AFTER_MS : Int := 6 * HOUR_MS

/-- Where a batch is looked up first. -/
def batchWindow (time : Int) : Window := ⟨time - BATCH_BEFORE_MS, time + BATCH_AFTER_MS⟩

def batchFilter (batchId : Text) : ColdFilter := { batchId := some batchId }

/-- `sort((a, b) => a.sequence - b.sequence)`. -/
def sortBySequence (entries : List (Entry C)) : List (Entry C) :=
  entries.insertionSort fun left right => left.sequence ≤ right.sequence

/-- Entries of a batch, by sequence. -/
def batch [JsonContent C] (engine : ColdEngine C) (files : List (ColdFile C)) (batchId : Text)
    (wholeTierOnMiss : Bool) : List (Entry C) :=
  let found := match uuidV7Time batchId with
    | some time => scan engine files (batchFilter batchId) none (some (batchWindow time))
    | none => []
  sortBySequence (dedupe
    (if found.isEmpty && ((uuidV7Time batchId).isNone || wholeTierOnMiss) then
      scan engine files (batchFilter batchId) none none
    else found))

/-! ## Scans without a limit -/

section Unlimited

variable [JsonContent C] {engine : ColdEngine C} {files : List (ColdFile C)} {filter : ColdFilter}
  {results : List (Entry C)} {lower upper : Option Int}

/-- The default engine leaves out no matching row, unless it is asked for a few. -/
theorem hyparquetRead_perm (footers : Footers C) {files : List (ColdFile C)}
    (ascending : forall file, file ∈ files -> Ascending file.rows) (filter : ColdFilter) :
    (hyparquetRead footers files filter none).Perm (matched filter (coldRows files)) := by
  have positions := (positions_hyparquetRead footers ascending filter none).trans
    (positions_newestMatches files filter none).symm
  have sizes := congrArg List.length positions
  rw [List.length_map, List.length_map] at sizes
  refine (hyparquetRead_subperm footers files filter none).perm_of_length_le (le_of_eq ?_)
  exact ((sortNewestFirst_perm _).length_eq.symm.trans sizes.symm)

theorem scanHours_unlimited (hours : List Int) :
    scanHours engine files filter none hours results =
      results ++ hours.flatMap fun hourStart => engine.read (hourFiles files filter hourStart) filter none := by
  induction hours generalizing results with
  | nil => exact (List.append_nil _).symm
  | cons hourStart hours inductionHypothesis =>
      have step : scanHours engine files filter none (hourStart :: hours) results =
          scanHours engine files filter none hours
            (results ++ engine.read (hourFiles files filter hourStart) filter none) := rfl
      rw [step, inductionHypothesis, List.flatMap_cons, List.append_assoc]

theorem scanDays_unlimited (days : List Int) :
    scanDays engine files filter none lower upper days results =
      results ++ days.flatMap fun day => (scannedHours files filter lower upper day).flatMap fun hourStart =>
        engine.read (hourFiles files filter hourStart) filter none := by
  induction days generalizing results with
  | nil => exact (List.append_nil _).symm
  | cons day days inductionHypothesis =>
      have step : scanDays engine files filter none lower upper (day :: days) results =
          scanDays engine files filter none lower upper days
            (scanHours engine files filter none (scannedHours files filter lower upper day) results) := rfl
      rw [step, scanHours_unlimited, inductionHypothesis, List.flatMap_cons, List.append_assoc]

/-- The hour of a row overlaps a window. -/
def RowInWindow (window : Window) (row : Entry C) : Prop :=
  floorHour row.createdAt ≤ window.upper ∧ window.lower < floorHour row.createdAt + HOUR_MS

instance (window : Window) (row : Entry C) : Decidable (RowInWindow window row) :=
  inferInstanceAs (Decidable (_ ∧ _))

omit [JsonContent C] in
/-- The hours that are walked overlap the bounds. -/
theorem overlaps_of_scanned {day hourStart : Int} (member : hourStart ∈ scannedHours files filter lower upper day) :
    (forall bound, upper = some bound -> hourStart ≤ bound) ∧
      forall bound, lower = some bound -> bound < hourStart + HOUR_MS := by
  have kept := (List.mem_filter.mp (mem_newestDown.mp member)).2
  rw [Bool.and_eq_true, Bool.and_eq_true, Option.all_eq_true, Option.all_eq_true] at kept
  exact ⟨fun bound isBound => of_decide_eq_true (kept.2.1 bound isBound),
    fun bound isBound => of_decide_eq_true (kept.2.2 bound isBound)⟩

theorem mem_read_hourFiles (footers : Footers C) (placed : forall file, file ∈ files -> Placed file)
    {hourStart : Int} {entry : Entry C} :
    entry ∈ (hyparquetEngine footers).read (hourFiles files filter hourStart) filter none <->
      Exists fun row => row ∈ coldRows files ∧ filter.Matches row ∧ floorHour row.createdAt = hourStart ∧
        filter.project row = entry := by
  have ascending : forall file, file ∈ hourFiles files filter hourStart -> Ascending file.rows :=
    fun file isFile =>
      (placed file (List.mem_of_mem_filter ((perm_hourFiles files _ hourStart).subset isFile))).ascending
  have read := (hyparquetRead_perm footers ascending filter).trans
    ((rows_hourFiles placed hourStart).map filter.project)
  refine read.mem_iff.trans (List.mem_map.trans (exists_congr fun row => ?_))
  rw [List.mem_filter, Bool.and_eq_true, decide_eq_true_eq, decide_eq_true_eq, and_assoc, and_assoc]

/-- Walking its days and hours finds the matching rows of the hours that overlap the bounds. -/
theorem mem_scanDays (footers : Footers C) (placed : forall file, file ∈ files -> Placed file) {entry : Entry C} :
    entry ∈ scanDays (hyparquetEngine footers) files filter none lower upper
        (scannedDays files filter lower upper) [] <->
      Exists fun row => row ∈ coldRows files ∧ filter.Matches row ∧
        ((forall bound, upper = some bound -> floorHour row.createdAt ≤ bound) ∧
          forall bound, lower = some bound -> bound < floorHour row.createdAt + HOUR_MS) ∧
        filter.project row = entry := by
  rw [scanDays_unlimited, List.nil_append]
  simp only [List.mem_flatMap, mem_read_hourFiles footers placed]
  constructor
  · rintro ⟨day, _, hourStart, walked, row, isRow, asks, rfl, same⟩
    exact ⟨row, isRow, asks, overlaps_of_scanned walked, same⟩
  · rintro ⟨row, isRow, asks, ⟨belowUpper, aboveLower⟩, same⟩
    have walked := hour_walked placed isRow asks belowUpper aboveLower
    exact ⟨_, walked.1, _, walked.2, row, isRow, asks, rfl, same⟩

end Unlimited

/-! ## Both passes -/

section Batch

variable [JsonContent C] {files : List (ColdFile C)} {batchId : Text}

theorem batchFilter_matches {row : Entry C} : (batchFilter batchId).Matches row <-> row.batchId = batchId := by
  simp only [ColdFilter.Matches, batchFilter]
  refine ⟨fun asks => asks.2.2.1 batchId rfl, fun same => ?_⟩
  have unasked {α : Type} {holds : α -> Prop} (value : α) (isAsked : none = some value) : holds value := by
    cases isAsked
  refine ⟨unasked, unasked, ?_, unasked, unasked, unasked, unasked, unasked, unasked, unasked⟩
  exact fun asked isAsked => same.trans (Option.some.inj isAsked)

omit [JsonContent C] in
theorem mem_sortBySequence {entries : List (Entry C)} {entry : Entry C} :
    entry ∈ sortBySequence entries <-> entry ∈ entries :=
  List.mem_insertionSort _

omit [JsonContent C] in
theorem batchWindow_ordered (time : Int) : (batchWindow time).lower ≤ (batchWindow time).upper := by
  change time - BATCH_BEFORE_MS ≤ time + BATCH_AFTER_MS
  unfold BATCH_BEFORE_MS BATCH_AFTER_MS HOUR_MS
  omega

/-- The rows of the batch in the hours of a window, or in all hours. -/
theorem mem_scanned_batch (footers : Footers C) (placed : forall file, file ∈ files -> Placed file)
    (window : Option Window) {entry : Entry C} :
    entry ∈ scanDays (hyparquetEngine footers) files (batchFilter batchId) none (window.map Window.lower)
        (window.map Window.upper) (scannedDays files (batchFilter batchId) (window.map Window.lower)
          (window.map Window.upper)) [] <->
      entry ∈ coldRows files ∧ entry.batchId = batchId ∧
        forall bounds, bounds ∈ window -> RowInWindow bounds entry := by
  have bounded : forall row : Entry C,
      ((forall bound, window.map Window.upper = some bound -> floorHour row.createdAt ≤ bound) ∧
        forall bound, window.map Window.lower = some bound -> bound < floorHour row.createdAt + HOUR_MS) <->
      forall bounds, bounds ∈ window -> RowInWindow bounds row := by
    intro row
    cases window with
    | none => exact ⟨fun _ => nofun, fun _ => ⟨nofun, nofun⟩⟩
    | some bounds =>
        simp only [Option.map_some, Option.mem_def, Option.some.injEq, forall_eq']
        rfl
  rw [mem_scanDays footers placed]
  constructor
  · rintro ⟨row, isRow, asks, overlaps, rfl⟩
    exact ⟨isRow, batchFilter_matches.mp asks, (bounded row).mp overlaps⟩
  · rintro ⟨isRow, same, reached⟩
    exact ⟨entry, isRow, batchFilter_matches.mpr same, (bounded entry).mpr reached, rfl⟩

theorem scan_batch (engine : ColdEngine C) {window : Option Window}
    (ordered : forall bounds, bounds ∈ window -> bounds.lower ≤ bounds.upper) :
    scan engine files (batchFilter batchId) none window =
      sortNewestFirst (dedupe (scanDays engine files (batchFilter batchId) none (window.map Window.lower)
        (window.map Window.upper) (scannedDays files (batchFilter batchId) (window.map Window.lower)
          (window.map Window.upper)) [])) := by
  cases window with
  | none => rfl
  | some bounds =>
      have notApart : ¬ bounds.upper < bounds.lower := not_lt.mpr (ordered bounds rfl)
      change (if decide (bounds.upper < bounds.lower) = true then _ else _) = _
      rw [decide_eq_false notApart, if_neg Bool.false_ne_true]
      rfl

/-- What one pass over the hours of a window, or over all hours, finds of a batch. -/
structure Pass (files : List (ColdFile C)) (batchId : Text) (window : Option Window)
    (found : List (Entry C)) : Prop where
  sound : forall entry, entry ∈ found -> entry ∈ coldRows files ∧ entry.batchId = batchId ∧
    forall bounds, bounds ∈ window -> RowInWindow bounds entry
  whole : forall row, row ∈ coldRows files -> row.batchId = batchId ->
    (forall bounds, bounds ∈ window -> RowInWindow bounds row) ->
    Exists fun kept => kept ∈ found ∧ kept.id = row.id

theorem pass_scan (footers : Footers C) (placed : forall file, file ∈ files -> Placed file)
    {window : Option Window} (ordered : forall bounds, bounds ∈ window -> bounds.lower ≤ bounds.upper) :
    Pass files batchId window (scan (hyparquetEngine footers) files (batchFilter batchId) none window) := by
  rw [scan_batch _ ordered]
  constructor
  · intro entry found
    exact (mem_scanned_batch footers placed window).mp (mem_of_mem_dedupe (mem_sortNewestFirst.mp found))
  · intro row isRow same reached
    rcases exists_mem_dedupe ((mem_scanned_batch footers placed window).mpr ⟨isRow, same, reached⟩) with
      ⟨kept, isKept, sameId⟩
    exact ⟨kept, mem_sortNewestFirst.mpr isKept, sameId⟩

/-- Every entry of the batch once, and nothing else. -/
structure Complete (rows : List (Entry C)) (batchId : Text) (returned : List (Entry C)) : Prop where
  once : Entry.DistinctIds returned
  sound : forall entry, entry ∈ returned -> entry ∈ rows ∧ entry.batchId = batchId
  whole : forall row, row ∈ rows -> row.batchId = batchId ->
    Exists fun kept => kept ∈ returned ∧ kept.id = row.id

/-- Some row of the batch lies in the hours of its window. -/
def InWindow (rows : List (Entry C)) (batchId : Text) (time : Int) : Prop :=
  Exists fun row => row ∈ rows ∧ row.batchId = batchId ∧ RowInWindow (batchWindow time) row

/-- Every entry of the batch has a row in the hours of its window. -/
def WithinWindow (rows : List (Entry C)) (batchId : Text) (time : Int) : Prop :=
  forall row, row ∈ rows -> row.batchId = batchId ->
    Exists fun copy => copy ∈ rows ∧ copy.batchId = batchId ∧ copy.id = row.id ∧ RowInWindow (batchWindow time) copy

omit [JsonContent C] in
theorem Pass.complete_iff {window : Option Window} {found : List (Entry C)}
    (pass : Pass files batchId window found) :
    Complete (coldRows files) batchId (sortBySequence (dedupe found)) <->
      forall row, row ∈ coldRows files -> row.batchId = batchId -> Exists fun copy => copy ∈ coldRows files ∧
        copy.batchId = batchId ∧ copy.id = row.id ∧ forall bounds, bounds ∈ window -> RowInWindow bounds copy := by
  constructor
  · intro complete row isRow same
    rcases complete.whole row isRow same with ⟨kept, isKept, sameId⟩
    rcases pass.sound kept (mem_of_mem_dedupe (mem_sortBySequence.mp isKept)) with ⟨keptRow, ofBatch, reached⟩
    exact ⟨kept, keptRow, ofBatch, sameId, reached⟩
  · intro within
    constructor
    · exact (List.Perm.nodup_iff ((List.perm_insertionSort _ _).map Entry.id)).mpr (distinctIds_dedupe found)
    · intro entry returned
      rcases pass.sound entry (mem_of_mem_dedupe (mem_sortBySequence.mp returned)) with ⟨isRow, same, _⟩
      exact ⟨isRow, same⟩
    · intro row isRow same
      rcases within row isRow same with ⟨copy, isCopy, ofBatch, sameId, reached⟩
      rcases pass.whole copy isCopy ofBatch reached with ⟨kept, isKept, keptId⟩
      rcases exists_mem_dedupe isKept with ⟨first, isFirst, firstId⟩
      exact ⟨first, mem_sortBySequence.mpr isFirst, firstId.trans (keptId.trans sameId)⟩

end Batch

/-! ## A batch of eight hours -/

/-- A batch identifier generated at 1717986918400. -/
def longBatchId : Text :=
  ['0', '1', '9', '0', '0', '0', '0', '0', '-', '0', '0', '0', '0', '-', '7', '0', '0', '0', '-',
    '8', '0', '0', '0', '-', '0', '0', '0', '0', '0', '0', '0', '0', '0', '0', '0', '0']

def batchEntry (id : Text) (createdAt : Int) : Entry Text :=
  { plainEntry id ['j', 'o', 'b'] createdAt with batchId := longBatchId }

/-- The hour the batch began in. -/
def firstFile : ColdFile Text :=
  ⟨⟨['j', 'o', 'b'], 1717984800000⟩, [batchEntry ['1'] 1717986918400]⟩

/-- Eight hours later. -/
def laterFile : ColdFile Text :=
  ⟨⟨['j', 'o', 'b'], 1718013600000⟩, [batchEntry ['2'] 1718015718400]⟩

theorem firstFile_placed : Placed firstFile where
  ascending := List.pairwise_singleton _ _
  inPartition := by decide

theorem laterFile_placed : Placed laterFile where
  ascending := List.pairwise_singleton _ _
  inPartition := by decide

end Parquet
end Telescope
