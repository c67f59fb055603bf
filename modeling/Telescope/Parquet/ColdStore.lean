import Telescope.Core.StorageProvider

namespace Telescope
namespace Parquet

/-!
# The cold store

Archived entries lie in files of one type and one hour each.  A batch is written
as one file for each of its partitions.  A query walks the days and the hours
from the newest down and stops as soon as the newest matches are certain.  How
the files of one hour are read is the engine's part; all the walk relies on is
what the engine's interface says, that it returns rows of those files that match.
-/

variable {C : Type}

/-! ## The layout -/

def HOUR_MS : Int := 60 * 60 * 1000

def DAY_MS : Int := 24 * HOUR_MS

def floorHour (epochMs : Int) : Int := epochMs / HOUR_MS * HOUR_MS

def floorDay (epochMs : Int) : Int := epochMs / DAY_MS * DAY_MS

/-- One hour of one type. -/
structure Partition where
  type : Text
  hourStart : Int
  deriving DecidableEq

/-- A file under the prefix of its partition, as its decoded rows. -/
structure ColdFile (C : Type) where
  partition : Partition
  rows : List (Entry C)

/-- All rows of the tier. -/
def coldRows (files : List (ColdFile C)) : List (Entry C) := files.flatMap ColdFile.rows

theorem mem_coldRows {files : List (ColdFile C)} {row : Entry C} :
    row ∈ coldRows files <-> Exists fun file => file ∈ files ∧ row ∈ file.rows :=
  List.mem_flatMap

/-! ## Writing -/

def partitionOf (entry : Entry C) : Partition := ⟨entry.type, floorHour entry.createdAt⟩

/-- Push an entry onto the group of its partition, or onto a new one. -/
def pushToGroup (entry : Entry C) :
    List (Partition × List (Entry C)) -> List (Partition × List (Entry C))
  | [] => [(partitionOf entry, [entry])]
  | (partition, entries) :: groups =>
      if partition = partitionOf entry then (partition, entries ++ [entry]) :: groups
      else (partition, entries) :: pushToGroup entry groups

/-- The entries by partition, in the order in which the partitions come up. -/
def groupByPartition (entries : List (Entry C)) : List (Partition × List (Entry C)) :=
  entries.foldl (fun groups entry => pushToGroup entry groups) []

/-- `sort(oldestFirst)`. -/
def sortOldestFirst (entries : List (Entry C)) : List (Entry C) :=
  List.insertionSort (fun left right => ¬ left.Newer right) entries

/-- An entry as it is decoded from the row it was encoded to: its content has
been through JSON. -/
def asRow (readBack : C -> C) (entry : Entry C) : Entry C :=
  { entry with content := readBack entry.content }

/-- One new file per type and hour, each sorted. -/
def write (readBack : C -> C) (files : List (ColdFile C)) (entries : List (Entry C)) :
    List (ColdFile C) :=
  files ++ (groupByPartition entries).map fun group =>
    ⟨group.1, (sortOldestFirst group.2).map (asRow readBack)⟩

variable {entry : Entry C}

theorem mem_pushToGroup {member : Entry C} {groups : List (Partition × List (Entry C))}
    {group : Partition × List (Entry C)} (isGroup : group ∈ pushToGroup entry groups) (inGroup : member ∈ group.2) :
    member = entry ∨ Exists fun group => group ∈ groups ∧ member ∈ group.2 := by
  induction groups with
  | nil =>
      cases List.mem_singleton.mp isGroup
      exact .inl (List.mem_singleton.mp inGroup)
  | cons first groups inductionHypothesis =>
      rw [pushToGroup] at isGroup
      split at isGroup
      · rcases List.mem_cons.mp isGroup with rfl | later
        · rcases List.mem_append.mp inGroup with earlier | pushed
          · exact .inr ⟨first, List.mem_cons_self .., earlier⟩
          · exact .inl (List.mem_singleton.mp pushed)
        · exact .inr ⟨group, List.mem_cons_of_mem _ later, inGroup⟩
      · rcases List.mem_cons.mp isGroup with rfl | later
        · exact .inr ⟨first, List.mem_cons_self .., inGroup⟩
        · rcases inductionHypothesis later with same | ⟨other, isOther, inOther⟩
          · exact .inl same
          · exact .inr ⟨other, List.mem_cons_of_mem _ isOther, inOther⟩

theorem mem_groupByPartition {entries : List (Entry C)} {member : Entry C}
    {group : Partition × List (Entry C)} (isGroup : group ∈ groupByPartition entries)
    (inGroup : member ∈ group.2) : member ∈ entries := by
  induction entries using List.reverseRecOn generalizing group with
  | nil => exact (List.not_mem_nil isGroup).elim
  | append_singleton entries last inductionHypothesis =>
      rw [groupByPartition, List.foldl_append] at isGroup
      rcases mem_pushToGroup isGroup inGroup with rfl | ⟨other, isOther, inOther⟩
      · exact List.mem_append_right _ (List.mem_singleton_self _)
      · exact List.mem_append_left _ (inductionHypothesis isOther inOther)

/-- A write adds no rows but those of its entries. -/
theorem mem_coldRows_write {readBack : C -> C} {files : List (ColdFile C)}
    {entries : List (Entry C)} {row : Entry C}
    (member : row ∈ coldRows (write readBack files entries)) :
    row ∈ coldRows files ∨ Exists fun entry => entry ∈ entries ∧ row = asRow readBack entry := by
  rcases mem_coldRows.mp member with ⟨file, isFile, inFile⟩
  rcases List.mem_append.mp isFile with before | written
  · exact .inl (mem_coldRows.mpr ⟨file, before, inFile⟩)
  · rcases List.mem_map.mp written with ⟨group, isGroup, rfl⟩
    rcases List.mem_map.mp inFile with ⟨entry, inGroup, rfl⟩
    exact .inr ⟨entry,
      mem_groupByPartition isGroup ((List.perm_insertionSort _ _).mem_iff.mp inGroup), rfl⟩

/-! ## Filters -/

/-- A query resolved for the cold tier; `search` is lowercased and the bounds
are exclusive. -/
structure ColdFilter where
  type : Option Text := none
  ids : Option (List Text) := none
  batchId : Option Text := none
  traceId : Option Text := none
  familyHash : Option Text := none
  tag : Option Text := none
  search : Option Text := none
  beforeMs : Option Int := none
  afterMs : Option Int := none
  cursor : Option Position := none
  omitContent : Bool := false

def toColdFilter (C : Type) [JsonContent C] (query : EntryQuery) : ColdFilter where
  type := query.type
  ids := query.ids
  batchId := query.batchId
  traceId := query.traceId
  familyHash := query.familyHash
  tag := query.tag
  search := query.search.map (JsonContent.toLowerCase C)
  beforeMs := query.before
  afterMs := query.after
  cursor := query.cursor.bind decodeCursor
  omitContent := query.omitContent

/-- The lesser of two upper bounds, either of which may be infinite. -/
def minBound : Option Int -> Option Int -> Option Int
  | some first, some second => some (min first second)
  | first, second => first.or second

/-- It is one of them. -/
theorem eq_or_eq_of_minBound {first second : Option Int} {least : Int}
    (isLeast : minBound first second = some least) : first = some least ∨ second = some least := by
  cases first with
  | none => exact .inr isLeast
  | some first =>
      cases second with
      | none => exact .inl isLeast
      | some second =>
          rcases Int.le_total first second with before | after
          · rw [minBound, Int.min_eq_left before] at isLeast
            exact .inl isLeast
          · rw [minBound, Int.min_eq_right after] at isLeast
            exact .inr isLeast

/-- The greater of two lower bounds. -/
def maxBound : Option Int -> Option Int -> Option Int
  | some first, some second => some (max first second)
  | first, second => first.or second

namespace ColdFilter

/-- Newest `createdAt` a matching row can have, inclusive. -/
def upperBound (filter : ColdFilter) : Option Int :=
  minBound (filter.beforeMs.map (· - 1)) (filter.cursor.map Position.createdAt)

/-- Oldest `createdAt` a matching row can have, inclusive. -/
def lowerBound (filter : ColdFilter) : Option Int := filter.afterMs.map (· + 1)

/-- The full predicate on a decoded row. -/
def Matches [JsonContent C] (filter : ColdFilter) (entry : Entry C) : Prop :=
  (forall ids, ids ∈ filter.ids -> entry.id ∈ ids) ∧
    (forall type, type ∈ filter.type -> entry.type = type) ∧
    (forall batchId, batchId ∈ filter.batchId -> entry.batchId = batchId) ∧
    (forall traceId, traceId ∈ filter.traceId -> entry.traceId = some traceId) ∧
    (forall family, family ∈ filter.familyHash -> entry.familyHash = some family) ∧
    (forall tag, tag ∈ filter.tag -> tag ∈ entry.tags) ∧
    (forall before, before ∈ filter.beforeMs -> entry.createdAt < before) ∧
    (forall after, after ∈ filter.afterMs -> after < entry.createdAt) ∧
    (forall cursor, cursor ∈ filter.cursor ->
      ¬ (cursor.createdAt < entry.createdAt ∨
        (entry.createdAt = cursor.createdAt ∧ ¬ entry.id.Before cursor.id))) ∧
    (forall search, search ∈ filter.search ->
      search <:+: JsonContent.toLowerCase C (JsonContent.stringify entry.content))

instance [JsonContent C] (filter : ColdFilter) (entry : Entry C) :
    Decidable (filter.Matches entry) :=
  inferInstanceAs (Decidable (_ ∧ _))

/-- What a matching row is returned as. -/
def project [JsonContent C] (filter : ColdFilter) (entry : Entry C) : Entry C :=
  if filter.omitContent then entry.withoutContent else entry

end ColdFilter

/-- The cursor of a filter asks for what is strictly older. -/
theorem not_reached_iff {cursor : Position} :
    ¬ (cursor.createdAt < entry.createdAt ∨
        (entry.createdAt = cursor.createdAt ∧ ¬ entry.id.Before cursor.id)) <->
      cursor.Newer entry.position := by
  rw [not_or, not_lt, not_and, not_not, Position.Newer]
  change (entry.createdAt ≤ cursor.createdAt ∧ _) <-> (entry.createdAt < cursor.createdAt ∨
    (cursor.createdAt = entry.createdAt ∧ entry.id.Before cursor.id))
  constructor
  · rintro ⟨older, tie⟩
    rcases older.lt_or_eq with strictly | same
    · exact .inl strictly
    · exact .inr ⟨same.symm, tie same⟩
  · rintro (strictly | ⟨same, tie⟩)
    · exact ⟨strictly.le, fun same => (strictly.ne same).elim⟩
    · exact ⟨same.ge, fun _ => tie⟩

/-- The predicate of the cold tier is that of the query, behind its cursor. -/
theorem toColdFilter_matches [JsonContent C] {query : EntryQuery} :
    (toColdFilter C query).Matches entry <->
      query.Matches entry ∧ behindCursor (query.cursor.bind decodeCursor) entry = true := by
  have search : (forall search, search ∈ (toColdFilter C query).search ->
      search <:+: JsonContent.toLowerCase C (JsonContent.stringify entry.content)) <->
      forall search, search ∈ query.search -> contentIncludes entry.content search = true := by
    constructor
    · intro found search asked
      exact decide_eq_true (found _ (Option.mem_map_of_mem _ asked))
    · intro found search lowered
      rcases Option.mem_map.mp lowered with ⟨asked, isAsked, rfl⟩
      exact of_decide_eq_true (found asked isAsked)
  have behind : (forall cursor, cursor ∈ (toColdFilter C query).cursor ->
      ¬ (cursor.createdAt < entry.createdAt ∨
        (entry.createdAt = cursor.createdAt ∧ ¬ entry.id.Before cursor.id))) <->
      behindCursor (query.cursor.bind decodeCursor) entry = true := by
    simp only [not_reached_iff, toColdFilter, behindCursor]
    cases query.cursor.bind decodeCursor with
    | none => exact ⟨fun _ => rfl, fun _ _ found => by cases found⟩
    | some cursor =>
        exact ⟨fun older => decide_eq_true (older cursor rfl),
          fun older _ found => Option.some.inj found ▸ of_decide_eq_true older⟩
  rw [ColdFilter.Matches, search, behind, EntryQuery.Matches]
  simp only [toColdFilter]
  tauto

/-! ## Reading -/

/-- First occurrence of each identifier wins. -/
def dedupeFrom (seen : List Text) : List (Entry C) -> List (Entry C)
  | [] => []
  | entry :: entries =>
      if entry.id ∈ seen then dedupeFrom seen entries
      else entry :: dedupeFrom (entry.id :: seen) entries

def dedupe (entries : List (Entry C)) : List (Entry C) := dedupeFrom [] entries

theorem dedupeFrom_sublist (seen : List Text) (entries : List (Entry C)) :
    (dedupeFrom seen entries).Sublist entries := by
  induction entries generalizing seen with
  | nil => exact List.Sublist.slnil
  | cons entry entries inductionHypothesis =>
      rw [dedupeFrom]
      split
      · exact (inductionHypothesis seen).cons entry
      · exact (inductionHypothesis _).cons_cons entry

theorem not_mem_dedupeFrom {seen : List Text} {entries : List (Entry C)} (kept : entry ∈ dedupeFrom seen entries) :
    entry.id ∉ seen := by
  induction entries generalizing seen with
  | nil => exact (List.not_mem_nil kept).elim
  | cons first entries inductionHypothesis =>
      rw [dedupeFrom] at kept
      split at kept
      · exact inductionHypothesis kept
      · rename_i fresh
        rcases List.mem_cons.mp kept with rfl | later
        · exact fresh
        · exact fun old => inductionHypothesis later (List.mem_cons_of_mem _ old)

theorem distinctIds_dedupeFrom (seen : List Text) (entries : List (Entry C)) :
    Entry.DistinctIds (dedupeFrom seen entries) := by
  induction entries generalizing seen with
  | nil => exact List.nodup_nil
  | cons entry entries inductionHypothesis =>
      rw [dedupeFrom]
      split
      · exact inductionHypothesis seen
      · refine List.nodup_cons.mpr ⟨fun again => ?_, inductionHypothesis _⟩
        rcases List.mem_map.mp again with ⟨other, kept, same⟩
        exact not_mem_dedupeFrom kept (same ▸ List.mem_cons_self ..)

theorem exists_mem_dedupeFrom {seen : List Text} {entries : List (Entry C)} (member : entry ∈ entries)
    (fresh : entry.id ∉ seen) :
    Exists fun kept => kept ∈ dedupeFrom seen entries ∧ kept.id = entry.id := by
  induction entries generalizing seen with
  | nil => exact (List.not_mem_nil member).elim
  | cons first entries inductionHypothesis =>
      rw [dedupeFrom]
      rcases List.mem_cons.mp member with rfl | later
      · rw [if_neg fresh]
        exact ⟨entry, List.mem_cons_self .., rfl⟩
      · split
        · exact inductionHypothesis later fresh
        · by_cases same : entry.id = first.id
          · exact ⟨first, List.mem_cons_self .., same.symm⟩
          · rcases inductionHypothesis later (List.not_mem_cons_of_ne_of_not_mem same fresh) with
              ⟨kept, isKept, sameId⟩
            exact ⟨kept, List.mem_cons_of_mem _ isKept, sameId⟩

/-- One entry of each identifier stays. -/
theorem exists_mem_dedupe {entries : List (Entry C)} (member : entry ∈ entries) :
    Exists fun kept => kept ∈ dedupe entries ∧ kept.id = entry.id :=
  exists_mem_dedupeFrom member List.not_mem_nil

theorem mem_of_mem_dedupe {entries : List (Entry C)} (kept : entry ∈ dedupe entries) : entry ∈ entries :=
  (dedupeFrom_sublist [] entries).subset kept

theorem distinctIds_dedupe (entries : List (Entry C)) : Entry.DistinctIds (dedupe entries) :=
  distinctIds_dedupeFrom [] entries

/-- An engine: with a limit it may leave out rows, but it returns only rows of the
files that match. -/
structure ColdEngine (C : Type) [JsonContent C] where
  read : List (ColdFile C) -> ColdFilter -> Option Nat -> List (Entry C)
  sound : forall {files filter limit entry}, entry ∈ read files filter limit ->
    Exists fun row => row ∈ coldRows files ∧ filter.Matches row ∧ entry = filter.project row

/-- A lookup's window of instants. -/
structure Window where
  lower : Int
  upper : Int

section Scan

variable [JsonContent C] (engine : ColdEngine C) (files : List (ColdFile C)) (filter : ColdFilter)
  (limit : Option Nat) (lower upper : Option Int)

/-- Distinct instants from the newest down. -/
def newestDown (instants : List Int) : List Int :=
  instants.eraseDups.insertionSort fun left right => right ≤ left

/-- The types a filter reaches. -/
def scannedTypes : List Text :=
  match filter.type with
  | some type => [type]
  | none => (files.map fun file => file.partition.type).eraseDups

/-- The days of those types that overlap the bounds. -/
def scannedDays : List Int :=
  newestDown (((files.filter fun file => decide (file.partition.type ∈ scannedTypes files filter)).map
    fun file => floorDay file.partition.hourStart).filter fun day =>
      upper.all (fun upper => decide (day ≤ upper)) &&
        lower.all fun lower => decide (lower < day + DAY_MS))

/-- The hours of a day that overlap the bounds. -/
def scannedHours (day : Int) : List Int :=
  newestDown (((files.filter fun file =>
    decide (file.partition.type ∈ scannedTypes files filter)).map
      fun file => file.partition.hourStart).filter fun hourStart =>
        decide (floorDay hourStart = day) &&
          (upper.all (fun upper => decide (hourStart ≤ upper)) &&
            lower.all fun lower => decide (lower < hourStart + HOUR_MS)))

/-- The files of an hour, type by type. -/
def hourFiles (hourStart : Int) : List (ColdFile C) :=
  (scannedTypes files filter).flatMap fun type =>
    files.filter fun file => decide (file.partition = ⟨type, hourStart⟩)

/-- Whether the newest `limit` matches are known to be at or after a boundary, and
the results, cut to them if there are as many. -/
def certain (results : List (Entry C)) (boundary : Int) : Bool × List (Entry C) :=
  match limit with
  | none => (false, results)
  | some limit =>
      if results.length < limit then (false, results)
      else
        let newest := (sortNewestFirst (dedupe results)).take limit
        (newest[limit - 1]?.any fun kth => decide (boundary ≤ kth.createdAt), newest)

def scanHours : List Int -> List (Entry C) -> List (Entry C)
  | [], results => results
  | hourStart :: hours, results =>
      let settled := certain limit results (hourStart + HOUR_MS)
      if settled.1 then settled.2
      else scanHours hours (settled.2 ++ engine.read (hourFiles files filter hourStart) filter limit)

def scanDays : List Int -> List (Entry C) -> List (Entry C)
  | [], results => results
  | day :: days, results =>
      let settled := certain limit results (day + DAY_MS)
      if settled.1 then settled.2
      else scanDays days (scanHours engine files filter limit
        (scannedHours files filter lower upper day) settled.2)

/-- The cold read path. -/
def scan (window : Option Window) : List (Entry C) :=
  let upper := minBound filter.upperBound (window.map Window.upper)
  let lower := maxBound filter.lowerBound (window.map Window.lower)
  if upper.any fun upper => lower.any fun lower => decide (upper < lower) then []
  else
    let results := scanDays engine files filter limit lower upper
      (scannedDays files filter lower upper) []
    let final := sortNewestFirst (dedupe results)
    limit.elim final final.take

/-- Matching entries newest first; with `limit`, the newest `limit` of them. -/
def query (asked : EntryQuery) : List (Entry C) :=
  scan engine files (toColdFilter C asked) limit none

variable {engine files filter limit lower upper}

/-- All of these are rows of the tier that match. -/
def AllMatching (files : List (ColdFile C)) (filter : ColdFilter) (results : List (Entry C)) : Prop :=
  forall entry, entry ∈ results ->
    Exists fun row => row ∈ coldRows files ∧ filter.Matches row ∧ entry = filter.project row

variable {results : List (Entry C)}

theorem AllMatching.newest (all : AllMatching files filter results) :
    AllMatching files filter (sortNewestFirst (dedupe results)) :=
  fun entry member => all entry (mem_of_mem_dedupe (mem_sortNewestFirst.mp member))

theorem AllMatching.certain (all : AllMatching files filter results) (boundary : Int) :
    AllMatching files filter (certain limit results boundary).2 := by
  cases limit with
  | none => exact all
  | some limit =>
      simp only [Parquet.certain]
      split
      · exact all
      · exact fun entry member => all.newest entry (List.mem_of_mem_take member)

theorem AllMatching.read (all : AllMatching files filter results) (hourStart : Int) :
    AllMatching files filter
      (results ++ engine.read (hourFiles files filter hourStart) filter limit) := by
  intro entry member
  rcases List.mem_append.mp member with before | read
  · exact all entry before
  · rcases engine.sound read with ⟨row, isRow, isMatch, projected⟩
    rcases mem_coldRows.mp isRow with ⟨file, inHour, inFile⟩
    rcases List.mem_flatMap.mp inHour with ⟨type, _, ofType⟩
    exact ⟨row, mem_coldRows.mpr ⟨file, List.mem_of_mem_filter ofType, inFile⟩, isMatch, projected⟩

theorem AllMatching.scanHours (hours : List Int) (all : AllMatching files filter results) :
    AllMatching files filter (scanHours engine files filter limit hours results) := by
  induction hours generalizing results with
  | nil => exact all
  | cons hourStart hours inductionHypothesis =>
      simp only [Parquet.scanHours]
      split
      · exact all.certain _
      · exact inductionHypothesis ((all.certain _).read hourStart)

theorem AllMatching.scanDays (all : AllMatching files filter results) (engine : ColdEngine C) (limit : Option Nat)
    (lower upper : Option Int) (days : List Int) :
    AllMatching files filter (scanDays engine files filter limit lower upper days results) := by
  induction days generalizing results with
  | nil => exact all
  | cons day days inductionHypothesis =>
      simp only [Parquet.scanDays]
      split
      · exact all.certain _
      · exact inductionHypothesis ((all.certain _).scanHours _)

/-- Whatever a scan finds is a row of the tier that matches. -/
theorem scan_sound (window : Option Window) :
    AllMatching files filter (scan engine files filter limit window) := by
  simp only [scan]
  split
  · exact fun entry member => (List.not_mem_nil member).elim
  · have nothing : AllMatching files filter [] := fun _ member => (List.not_mem_nil member).elim
    have all := (nothing.scanDays engine limit (maxBound filter.lowerBound (window.map Window.lower))
      (minBound filter.upperBound (window.map Window.upper)) (scannedDays files filter
        (maxBound filter.lowerBound (window.map Window.lower))
        (minBound filter.upperBound (window.map Window.upper)))).newest
    cases limit with
    | none => exact all
    | some limit => exact fun entry member => all entry (List.mem_of_mem_take member)

/-- Whatever a query finds is a row of the tier that it asks for. -/
theorem mem_query {asked : EntryQuery} (found : entry ∈ query engine files limit asked) :
    Exists fun row => row ∈ coldRows files ∧ asked.Matches row ∧
      behindCursor (asked.cursor.bind decodeCursor) row = true ∧ entry = asked.project row := by
  rcases scan_sound none entry found with ⟨row, isRow, isMatch, projected⟩
  rcases toColdFilter_matches.mp isMatch with ⟨asks, behind⟩
  exact ⟨row, isRow, asks, behind, projected⟩

end Scan

end Parquet
end Telescope

namespace Telescope
namespace Parquet

/-!
# Copies of entries

The same entry may be stored more than once: in both tiers, and in several files
of the cold one.  A query asks for it when it asks for one of its copies, and all
of them are at one place in the page order.
-/

variable {C : Type} [JsonContent C]

/-- Copies of an entry are of the same instant. -/
def Agrees (stored : List (Entry C)) : Prop :=
  forall first, first ∈ stored -> forall second, second ∈ stored ->
    first.id = second.id -> first.createdAt = second.createdAt

/-- One entry for each identifier of which a copy is asked for, newest first. -/
def listing (query : EntryQuery) (stored : List (Entry C)) : List (Entry C) :=
  sortNewestFirst (dedupe (stored.filter fun entry => decide (query.Matches entry)))

/-- A place in the page order at which there is an entry that a query asks for. -/
def Lists (query : EntryQuery) (stored : List (Entry C)) (position : Position) : Prop :=
  Exists fun entry => entry ∈ stored ∧ query.Matches entry ∧ entry.position = position

variable {stored : List (Entry C)}

omit [JsonContent C] in
theorem Agrees.of_distinct (distinct : Entry.DistinctIds stored) :
    Agrees stored := fun first isFirst second isSecond same => by
  rw [Entry.eq_of_id distinct isFirst isSecond same]

omit [JsonContent C] in
theorem Agrees.position (agrees : Agrees stored) {first second : Entry C} (firstStored : first ∈ stored)
    (secondStored : second ∈ stored) (same : first.id = second.id) : first.position = second.position := by
  rw [Entry.position, Entry.position, agrees first firstStored second secondStored same, same]

omit [JsonContent C] in
/-- Entries at the positions of agreeing ones agree. -/
theorem Agrees.of_positions {entries : List (Entry C)} (agrees : Agrees stored)
    (copies : forall entry, entry ∈ entries ->
      Exists fun original => original ∈ stored ∧ original.position = entry.position) :
    Agrees entries := by
  intro first firstMember second secondMember same
  rcases copies first firstMember with ⟨firstOriginal, firstStored, firstPosition⟩
  rcases copies second secondMember with ⟨secondOriginal, secondStored, secondPosition⟩
  have sameId : firstOriginal.id = secondOriginal.id :=
    (congrArg Position.id firstPosition).trans (same.trans (congrArg Position.id secondPosition).symm)
  exact (congrArg Position.createdAt firstPosition).symm.trans
    ((agrees firstOriginal firstStored secondOriginal secondStored sameId).trans
      (congrArg Position.createdAt secondPosition))

theorem listing_sorted (query : EntryQuery) (stored : List (Entry C)) :
    ((listing query stored).map Entry.position).Pairwise Position.Newer :=
  List.pairwise_map.mpr (newestFirst_sort (distinctIds_dedupe _))

theorem mem_listing {query : EntryQuery} (agrees : Agrees stored) {position : Position} :
    position ∈ (listing query stored).map Entry.position <-> Lists query stored position := by
  have asked : forall {entry : Entry C},
      entry ∈ dedupe (stored.filter fun entry => decide (query.Matches entry)) ->
        entry ∈ stored ∧ query.Matches entry := fun kept => by
    rcases List.mem_filter.mp (mem_of_mem_dedupe kept) with ⟨isStored, asks⟩
    exact ⟨isStored, of_decide_eq_true asks⟩
  constructor
  · intro member
    rcases List.mem_map.mp member with ⟨entry, listed, isPosition⟩
    rcases asked (mem_sortNewestFirst.mp listed) with ⟨isStored, asks⟩
    exact ⟨entry, isStored, asks, isPosition⟩
  · rintro ⟨entry, isStored, asks, rfl⟩
    have isAsked : entry ∈ stored.filter fun entry => decide (query.Matches entry) :=
      List.mem_filter.mpr ⟨isStored, decide_eq_true asks⟩
    rcases exists_mem_dedupe isAsked with ⟨kept, isKept, same⟩
    exact List.mem_map.mpr ⟨kept, mem_sortNewestFirst.mpr isKept,
      agrees.position (asked isKept).1 isStored same⟩

/-- Whether a position is strictly older than a cursor. -/
def liesBehind (cursor : Option Position) (position : Position) : Bool :=
  cursor.all fun cursor => decide (cursor.Newer position)

/-- The positions that a query has left behind its cursor. -/
def ahead (query : EntryQuery) (stored : List (Entry C)) : List Position :=
  ((listing query stored).map Entry.position).filter (liesBehind (query.cursor.bind decodeCursor))

theorem ahead_sorted (query : EntryQuery) (stored : List (Entry C)) :
    (ahead query stored).Pairwise Position.Newer :=
  (listing_sorted query stored).filter _

theorem mem_ahead {query : EntryQuery} (agrees : Agrees stored) {position : Position} :
    position ∈ ahead query stored <->
      Exists fun entry => entry ∈ stored ∧ query.Matches entry ∧
        behindCursor (query.cursor.bind decodeCursor) entry = true ∧ entry.position = position := by
  rw [ahead, List.mem_filter, mem_listing agrees]
  constructor
  · rintro ⟨⟨entry, isStored, asks, rfl⟩, behind⟩
    exact ⟨entry, isStored, asks, behind, rfl⟩
  · rintro ⟨entry, isStored, asks, behind, rfl⟩
    exact ⟨⟨entry, isStored, asks, rfl⟩, behind⟩

end Parquet
end Telescope
