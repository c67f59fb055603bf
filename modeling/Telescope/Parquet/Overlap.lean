import Telescope.Parquet.MergeLoop

namespace Telescope
namespace Parquet

open KWayMerge

/-!
# Compactions and writes side by side

A file is removed only after files written later hold all its rows.  Of the files
that hold a row, the one written last is therefore never removed, in whatever order
compactions and archive writes take their steps, and wherever they stop.
-/

variable {C : Type}

/-! ## The invariant -/

/-- The file with a key, gone or not, has a row at a place. -/
def Location.Holds (location : Location C) (key : Nat) (position : Position) : Prop :=
  Exists fun file => location.created[key]? = some file ∧ position ∈ file.rows.map Entry.position

/-- All rows of a file are in files written later. -/
def Location.Superseded (location : Location C) (key : Nat) : Prop :=
  key < location.created.length ∧ forall position, location.Holds key position ->
    Exists fun later => key < later ∧ location.Holds later position

/-- Files that are gone are superseded, and all files are in order if the first ones
were. -/
structure Safe (ordered : Prop) (location : Location C) : Prop where
  superseded : forall key, key ∈ location.removed -> location.Superseded key
  inOrder : ordered -> forall file, file ∈ location.created -> OldestFirst file.rows

variable {alone : Bool} {ordered : Prop} {location now : Location C}

variable {key : Nat} {position : Position}

theorem Changes.holds (changes : Changes alone location now) (holds : location.Holds key position) :
    now.Holds key position := by
  rcases holds with ⟨file, isFile, inFile⟩
  exact ⟨file, changes.file isFile, inFile⟩

theorem Changes.known (changes : Changes alone location now) (known : key < location.created.length) :
    key < now.created.length :=
  lt_of_lt_of_le known changes.1.length_le

/-- What a known file holds, it has always held. -/
theorem Changes.held (changes : Changes alone location now) (known : key < location.created.length)
    (holds : now.Holds key position) :
    location.Holds key position := by
  have isFile := List.getElem?_eq_getElem known
  rcases holds with ⟨file, found, inFile⟩
  rw [changes.file isFile] at found
  exact ⟨file, isFile.trans found, inFile⟩

theorem Changes.superseded (changes : Changes alone location now) (superseded : location.Superseded key) :
    now.Superseded key := by
  refine ⟨changes.known superseded.1, fun position holds => ?_⟩
  rcases superseded.2 position (changes.held superseded.1 holds) with ⟨later, after, holdsLater⟩
  exact ⟨later, after, changes.holds holdsLater⟩

theorem Changes.create (file : StoredFile C) : Changes false location (location.create file) :=
  ⟨List.prefix_append _ _, nofun⟩

theorem Changes.drop (key : Nat) : Changes false location (location.drop key) :=
  ⟨List.prefix_rfl, nofun⟩

/-- Writing keeps the invariant. -/
theorem Safe.create (safe : Safe ordered location) {file : StoredFile C}
    (inOrder : ordered -> OldestFirst file.rows) : Safe ordered (location.create file) where
  superseded key gone := (Changes.create file).superseded (safe.superseded key gone)
  inOrder isOrdered other member := by
    rcases List.mem_append.mp member with before | new
    · exact safe.inOrder isOrdered other before
    · exact List.mem_singleton.mp new ▸ inOrder isOrdered

/-- Removing a superseded file keeps the invariant. -/
theorem Safe.drop (safe : Safe ordered location) (superseded : location.Superseded key) :
    Safe ordered (location.drop key) where
  superseded other gone := by
    rcases List.mem_append.mp gone with before | new
    · exact (Changes.drop key).superseded (safe.superseded other before)
    · rw [List.mem_singleton.mp new]
      exact (Changes.drop key).superseded superseded
  inOrder := safe.inOrder

/-- A row is in a file that is there: of those that hold it, the last one written. -/
theorem Safe.present (safe : Safe ordered location) (holds : location.Holds key position) :
    Exists fun later => location.Present later ∧ location.Holds later position := by
  induction left : location.created.length - key using Nat.strong_induction_on generalizing key with
  | _ left inductionHypothesis =>
      have known : key < location.created.length := by
        rcases holds with ⟨file, isFile, _⟩
        exact (List.getElem?_eq_some_iff.mp isFile).1
      by_cases gone : key ∈ location.removed
      · rcases (safe.superseded key gone).2 position holds with ⟨later, after, holdsLater⟩
        exact inductionHypothesis (location.created.length - later) (by omega) holdsLater rfl
      · exact ⟨key, ⟨known, gone⟩, holds⟩

/-! ## Writes -/

section Programs

variable {encoding : Encoding C}

/-- A file that has been written since. -/
def WrittenSince (origin now : Location C) (rowGroups : List (List (Entry C))) : Prop :=
  Exists fun key => origin.created.length ≤ key ∧
    Exists fun file => now.created[key]? = some file ∧ file.rowGroups = rowGroups

theorem WrittenSince.keep {origin : Location C} {rowGroups : List (List (Entry C))}
    (written : WrittenSince origin location rowGroups) (changes : Changes false location now) :
    WrittenSince origin now rowGroups := by
  rcases written with ⟨key, since, file, isFile, same⟩
  exact ⟨key, since, file, changes.file isFile, same⟩

theorem writeFile_safe {origin : Location C} {partition : Partition}
    {rowGroups : List (List (Entry C))} (inOrder : ordered -> OldestFirst rowGroups.flatten)
    (changed : Changes false origin now) :
    (coldProtocol false encoding).Ensures (Safe ordered)
      (fun made later => Changes false origin later ∧ (made = true -> WrittenSince origin later rowGroups))
      (writeFile partition rowGroups) now := by
  intro later more safe made next replied
  have reached : Changes false origin next := (changed.trans more).trans (noticed replied)
  have kept : Safe ordered (later.create ⟨partition, rowGroups, encoding.size rowGroups⟩) :=
    safe.create inOrder
  refine ⟨?_, fun last evenMore => ⟨reached.trans evenMore, fun isMade => ?_⟩⟩
  · cases made with
    | true => exact replied.1 ▸ kept
    | false =>
        rcases replied.1 with rfl | rfl
        · exact safe
        · exact kept
  · cases made with
    | true =>
        have new : next.created[later.created.length]? =
            some ⟨partition, rowGroups, encoding.size rowGroups⟩ := by
          rw [replied.1]
          exact List.getElem?_concat_length ..
        exact WrittenSince.keep ⟨_, (changed.trans more).1.length_le, _, new, rfl⟩ evenMore
    | false => exact (Bool.false_ne_true isMade).elim

variable {outputs : List (List (List (Entry C)))}

theorem writeAll_safe {origin : Location C} {partition : Partition}
    (inOrder : ordered -> forall output, output ∈ outputs -> OldestFirst output.flatten)
    (changed : Changes false origin now) :
    (coldProtocol false encoding).Ensures (Safe ordered)
      (fun made later => Changes false origin later ∧
        (made = true -> forall output, output ∈ outputs -> WrittenSince origin later output))
      (writeAll partition outputs) now := by
  induction outputs generalizing now with
  | nil =>
      exact fun later more => ⟨changed.trans more, fun _ output member => (List.not_mem_nil member).elim⟩
  | cons output outputs inductionHypothesis =>
      refine Protocol.Ensures.bind ((writeFile_safe
        (fun isOrdered => inOrder isOrdered output (List.mem_cons_self ..)) changed).weaken
          fun made later found => ?_)
      rcases found with ⟨reached, written⟩
      cases made with
      | false => exact fun last more => ⟨reached.trans more, nofun⟩
      | true =>
          have rest := inductionHypothesis
            (fun isOrdered other member => inOrder isOrdered other (List.mem_cons_of_mem _ member)) reached
          have framed : (coldProtocol false encoding).Ensures (Safe ordered)
              (fun made last => (Changes false origin last ∧ (made = true -> forall output,
                output ∈ outputs -> WrittenSince origin last output)) ∧ Changes false later last)
              (writeAll partition outputs) later :=
            rest.frame Changes.trans id noticed (Changes.refl false later)
          refine framed.weaken fun made last found => ?_
          refine ⟨found.1.1, fun isMade other member => ?_⟩
          rcases List.mem_cons.mp member with rfl | later
          · exact (written rfl).keep found.2
          · exact found.1.2 isMade other later

/-! ## Removals -/

theorem removeAll_safe {count : Nat} {keys : List Nat}
    (superseded : forall key, key ∈ keys -> now.Superseded key) :
    (coldProtocol false encoding).Ensures (Safe ordered) (fun _ later => Changes false now later)
      (removeAll count keys) now := by
  induction count generalizing keys now with
  | zero => exact fun later more => more
  | succ count inductionHypothesis =>
      cases keys with
      | nil => exact fun later more => more
      | cons key others =>
          rw [removeAll]
          refine Protocol.Ensures.call fun later more safe reply next replied => ?_
          have noted : Changes false later next := noticed replied
          rcases reply with ⟨ended, gone⟩
          have dropped := safe.drop (more.superseded (superseded ended replied.1))
          refine ⟨?_, ?_⟩
          · cases gone with
            | true => exact replied.2.1 ▸ dropped
            | false =>
                rcases replied.2.1 with rfl | rfl
                · exact safe
                · exact dropped
          · have reached := more.trans noted
            refine Protocol.Ensures.bind ((inductionHypothesis fun other member =>
              reached.superseded (superseded other (List.mem_of_mem_erase member))).weaken
                fun rest last found => ?_)
            exact fun final evenMore => (reached.trans found).trans evenMore

/-! ## A merge -/

/-- Files of a listing, which are in order if the first ones were. -/
def Listed (ordered : Prop) (location : Location C) (files : List StoredObject) : Prop :=
  forall file, file ∈ files -> Exists fun stored =>
    location.created[file.key]? = some stored ∧ (ordered -> OldestFirst stored.rows)

variable {files : List StoredObject}

theorem Listed.keep (listed : Listed ordered location files) (changes : Changes alone location now) :
    Listed ordered now files := by
  intro file member
  rcases listed file member with ⟨stored, isStored, inOrder⟩
  exact ⟨stored, changes.file isStored, inOrder⟩

theorem Listed.known (listed : Listed ordered location files) {file : StoredObject} (member : file ∈ files) :
    file.key < location.created.length := by
  rcases listed file member with ⟨stored, isStored, _⟩
  exact (List.getElem?_eq_some_iff.mp isStored).1

/-- What the files of a merge hold is what it reads. -/
theorem mem_sources {file : StoredObject} (member : file ∈ files) (holds : location.Holds file.key position) :
    position ∈ (sources location files).flatten := by
  rcases holds with ⟨stored, isStored, inFile⟩
  refine List.mem_flatten.mpr ⟨sourceOf stored, List.mem_map.mpr ⟨file, member, ?_⟩, mem_sourceOf.mpr inFile⟩
  rw [isStored]
  rfl

theorem sources_sorted (listed : Listed ordered location files) (isOrdered : ordered) :
    forall input, input ∈ sources location files -> Sorted oldness input := by
  intro input isInput
  rcases List.mem_map.mp isInput with ⟨file, member, rfl⟩
  rcases listed file member with ⟨stored, isStored, inOrder⟩
  rw [isStored]
  exact sourceOf_sorted (inOrder isOrdered)

theorem mem_filePositions :
    position ∈ filePositions outputs <-> Exists fun output =>
      output ∈ outputs ∧ position ∈ output.flatten.map Entry.position := by
  constructor
  · intro member
    rcases List.mem_map.mp member with ⟨row, isRow, rfl⟩
    rcases List.mem_flatten.mp isRow with ⟨group, isGroup, inGroup⟩
    rcases List.mem_flatten.mp isGroup with ⟨output, isOutput, inOutput⟩
    exact ⟨output, isOutput, List.mem_map.mpr ⟨row, List.mem_flatten.mpr ⟨group, inOutput, inGroup⟩, rfl⟩⟩
  · rintro ⟨output, isOutput, member⟩
    rcases List.mem_map.mp member with ⟨row, isRow, rfl⟩
    rcases List.mem_flatten.mp isRow with ⟨group, inOutput, inGroup⟩
    exact List.mem_map.mpr ⟨row, List.mem_flatten.mpr
      ⟨group, List.mem_flatten.mpr ⟨output, isOutput, inOutput⟩, inGroup⟩, rfl⟩

/-- Files that ascend together ascend one by one. -/
theorem oldestFirst_of_filePositions (sorted : StrictlySorted oldness (filePositions outputs))
    {output : List (List (Entry C))} (member : output ∈ outputs) : OldestFirst output.flatten := by
  have part : (output.flatten.map Entry.position).Sublist (filePositions outputs) := by
    rw [filePositions, List.flatten_flatten]
    exact (List.sublist_flatten_of_mem (List.mem_map_of_mem member)).map Entry.position
  exact (List.pairwise_map.mp (sorted.sublist part)).imp fun before newer =>
    Position.newer_asymm newer before

/-- Once its outputs are written, the inputs of a merge are superseded. -/
theorem superseded_of_written {merged : Merged C} (listed : Listed ordered location files)
    (merges : MergeOf (sources location files) merged) (changes : Changes false location now)
    (written : forall output, output ∈ merged.close encoding -> WrittenSince location now output) :
    forall key, key ∈ files.map StoredObject.key -> now.Superseded key := by
  intro key isKey
  rcases List.mem_map.mp isKey with ⟨file, member, rfl⟩
  have known := listed.known member
  refine ⟨changes.known known, fun position holds => ?_⟩
  have read : position ∈ merged.positions :=
    (merges.places position).mpr (mem_sources member (changes.held known holds))
  rw [← Merged.close_positions encoding merges.good.counts] at read
  rcases mem_filePositions.mp read with ⟨output, isOutput, inOutput⟩
  rcases written output isOutput with ⟨later, since, stored, isStored, rfl⟩
  exact ⟨later, lt_of_lt_of_le known since, stored, isStored, inOutput⟩

theorem mergeFiles_safe {partition : Partition} {targetBytes : Nat} (listed : Listed ordered now files) :
    (coldProtocol false encoding).Ensures (Safe ordered) (fun _ later => Changes false now later)
      (mergeFiles encoding partition files targetBytes) now := by
  refine mergeFiles_ensures (fun file member => ⟨listed.known member, nofun⟩) (Changes.refl false now)
    (fun _ later reached => reached) fun merged later merges reached => ?_
  refine Protocol.Ensures.bind ((writeAll_safe (fun isOrdered output member => ?_) reached).weaken
    fun made last found => ?_)
  · have sorted := merges.inOrder (sources_sorted listed isOrdered)
    rw [← Merged.close_positions encoding merges.good.counts] at sorted
    exact oldestFirst_of_filePositions sorted member
  · rcases found with ⟨reachedLast, written⟩
    cases made with
    | false => exact fun final more => reachedLast.trans more
    | true =>
        exact (removeAll_safe (superseded_of_written listed merges reachedLast (written rfl))).weaken
          fun _ final found => reachedLast.trans found

/-! ## A run -/

theorem Listed.small (listed : Listed ordered location files) (options : CompactionOptions) :
    Listed ordered location (options.small files) :=
  fun file member => listed file (List.mem_of_mem_filter member)

variable {options : CompactionOptions}

theorem compactHours_safe {closedBefore : Int} {type : Text} {hours : List (Int × List StoredObject)} {merged : Nat}
    (listed : forall hour, hour ∈ hours -> Listed ordered now hour.2) :
    (coldProtocol false encoding).Ensures (Safe ordered) (fun _ later => Changes false now later)
      (compactHours encoding options closedBefore type hours merged) now := by
  induction hours generalizing merged now with
  | nil => exact fun later more => more
  | cons hour hours inductionHypothesis =>
      have rest := fun other member => listed other (List.mem_cons_of_mem hour member)
      rw [compactHours]
      split
      · exact fun later more => more
      · split
        · exact inductionHypothesis rest
        · split
          · exact inductionHypothesis rest
          · have here := Listed.small (listed hour (List.mem_cons_self ..)) options
            refine Protocol.Ensures.bind ((mergeFiles_safe here).weaken fun made later reached => ?_)
            cases made with
            | false => exact fun last more => reached.trans more
            | true =>
                exact (inductionHypothesis fun other member => (rest other member).keep reached).weaken
                  fun _ last found => reached.trans found

theorem listed_of_shows (safe : Safe ordered location) (shows : forall file, file ∈ files -> location.Shows file) :
    Listed ordered location files := by
  intro file member
  rcases shows file member with ⟨stored, isStored, _⟩
  exact ⟨stored, isStored, fun isOrdered => safe.inOrder isOrdered stored (List.mem_of_getElem? isStored)⟩

theorem mem_groupByHour {objects : List StoredObject} {hour : Int × List StoredObject}
    (member : hour ∈ groupByHour objects) {file : StoredObject} (inHour : file ∈ hour.2) :
    file ∈ objects ∧ file.partition.hourStart = hour.1 := by
  rcases List.mem_map.mp member with ⟨hourStart, _, rfl⟩
  rcases List.mem_filter.mp inHour with ⟨isObject, same⟩
  exact ⟨isObject, of_decide_eq_true same⟩

theorem hours_safe {type : Text} {day : Int} :
    (coldProtocol false encoding).Ensures (Safe ordered)
      (fun reply later => Changes false now later ∧ forall hours, hours ∈ reply ->
        forall hour, hour ∈ hours -> Listed ordered later hour.2) (hours type day) now := by
  refine Protocol.Ensures.call fun later more safe reply next replied => ?_
  rcases replied with ⟨rfl, shows, _⟩
  refine ⟨safe, fun last evenMore => ⟨more.trans evenMore, fun hours isHours hour member => ?_⟩⟩
  rcases Option.map_eq_some_iff.mp isHours with ⟨objects, isObjects, rfl⟩
  refine (listed_of_shows safe fun file inHour => ?_).keep evenMore
  exact (shows objects isObjects file (mem_groupByHour member inHour).1).1

theorem compactDays_safe {closedBefore oldest : Int} {type : Text} {days : List Int} {merged : Nat} :
    (coldProtocol false encoding).Ensures (Safe ordered) (fun _ _ => True)
      (compactDays encoding options closedBefore oldest type days merged) now := by
  induction days generalizing merged now with
  | nil => exact fun _ _ => trivial
  | cons day days inductionHypothesis =>
      rw [compactDays]
      split
      · exact inductionHypothesis
      · refine Protocol.Ensures.bind (hours_safe.weaken fun reply later found => ?_)
        cases reply with
        | none => exact fun _ _ => trivial
        | some hours =>
            refine Protocol.Ensures.bind ((compactHours_safe (found.2 hours rfl)).weaken
              fun reply last _ => ?_)
            cases reply with
            | none => exact fun _ _ => trivial
            | some progress =>
                change Protocol.Ensures _ _ _ (if progress.capped then _ else _) _
                split
                · exact fun _ _ => trivial
                · exact inductionHypothesis

theorem compactTypes_safe {closedBefore oldest : Int} {types : List Text} {merged : Nat} :
    (coldProtocol false encoding).Ensures (Safe ordered) (fun _ _ => True)
      (compactTypes encoding options closedBefore oldest types merged) now := by
  induction types generalizing merged now with
  | nil => exact fun _ _ => trivial
  | cons type types inductionHypothesis =>
      rw [compactTypes, days]
      refine Protocol.Ensures.call fun later _ safe listing next replied => ?_
      rcases replied with ⟨rfl, _⟩
      refine ⟨safe, ?_⟩
      cases listing with
      | none => exact fun _ _ => trivial
      | some listing =>
          refine Protocol.Ensures.bind (compactDays_safe.weaken fun reply last _ => ?_)
          cases reply with
          | none => exact fun _ _ => trivial
          | some progress =>
              change Protocol.Ensures _ _ _ (if progress.capped then _ else _) _
              split
              · exact fun _ _ => trivial
              · exact inductionHypothesis

theorem compact_safe {nowMs : Int} :
    (coldProtocol false encoding).Ensures (Safe ordered) (fun _ _ => True)
      (compact encoding options nowMs) now := by
  refine Protocol.Ensures.call fun later _ safe types next replied => ?_
  rcases replied with ⟨rfl, _⟩
  refine ⟨safe, ?_⟩
  cases types with
  | none => exact fun _ _ => trivial
  | some types =>
      exact Protocol.Ensures.bind (compactTypes_safe.weaken fun _ _ _ _ _ => trivial)

/-! ## Any number of programs -/

theorem sortOldestFirst_inOrder (entries : List (Entry C)) : OldestFirst (sortOldestFirst entries) :=
  ascending_sortOldestFirst entries

/-- What an archive write writes is in order. -/
theorem encodeFile_inOrder {sorted : List (Entry C)} (inOrder : OldestFirst sorted) :
    OldestFirst (encodeFile encoding sorted).flatten := by
  have ascending : ((encodeFile encoding sorted).flatten.map Entry.position).Pairwise
      fun earlier later => ¬ earlier.Newer later := by
    rw [encodeFile_positions]
    exact List.pairwise_map.mpr inOrder
  exact List.pairwise_map.mp ascending

theorem writeGroup_safe {group : Partition × List (Entry C)} :
    (coldProtocol false encoding).Ensures (Safe ordered) (fun _ _ => True)
      (writeGroup encoding group) now :=
  (writeFile_safe (fun _ => encodeFile_inOrder (sortOldestFirst_inOrder group.2))
    (Changes.refl false now)).weaken fun _ _ _ => trivial

/-- The programs that a location is shared by: compactions, at any instants and with
any options, and the writes of archive batches. -/
inductive Starts (encoding : Encoding C) : ColdStep C Unit -> Prop
  | compact (options : CompactionOptions) (nowMs : Int) :
      Starts encoding (compact encoding options nowMs >>= fun _ => .done ())
  | write (entries : List (Entry C)) {group : Partition × List (Entry C)}
      (isGroup : group ∈ groupByPartition entries) :
      Starts encoding (writeGroup encoding group >>= fun _ => .done ())

/-- The invariant holds whatever runs. -/
theorem safe_of_run {files : List (StoredFile C)}
    {last : Protocol.Pool (Location C) (ColdRequest C) ColdReply Unit}
    (run : (coldProtocol false encoding).PoolRun (Starts encoding) ⟨{ created := files }, []⟩ last) :
    Safe (forall file, file ∈ files -> OldestFirst file.rows) last.world := by
  refine Protocol.invariant_of_poolRun noticed (fun program world started safe => ?_) ?_ run
  · cases started with
    | compact options nowMs =>
        exact Protocol.Ensures.bind (compact_safe.weaken fun _ _ _ _ _ => trivial)
    | write entries isGroup =>
        exact Protocol.Ensures.bind (writeGroup_safe.weaken fun _ _ _ _ _ => trivial)
  · exact ⟨fun _ gone => (List.not_mem_nil gone).elim, fun isOrdered => isOrdered⟩

end Programs

end Parquet
end Telescope
