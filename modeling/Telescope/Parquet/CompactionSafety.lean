import Telescope.Parquet.Overlap

namespace Telescope
namespace Parquet

open KWayMerge

/-!
# Compaction

Whatever compactions and archive writes share a location, and wherever they stop,
no row is lost.  A compaction that is alone comes through, and what it leaves of
the files it has merged is one sequence of files in strict order of their rows.
-/

variable {C : Type}

/-! ## A merge that is alone -/

section Alone

variable {encoding : Encoding C} {now : Location C} {partition : Partition}

/-- Alone, there is no invariant that others rely on. -/
def Unwatched (_ : Location C) : Prop := True

def writtenAs (encoding : Encoding C) (partition : Partition) (rowGroups : List (List (Entry C))) :
    StoredFile C :=
  ⟨partition, rowGroups, encoding.size rowGroups⟩

theorem writeAll_alone {outputs : List (List (List (Entry C)))} :
    (coldProtocol true encoding).Ensures Unwatched
      (fun made later => made = true ∧
        later = { now with created := now.created ++ outputs.map (writtenAs encoding partition) })
      (writeAll partition outputs) now := by
  induction outputs generalizing now with
  | nil =>
      intro later more
      rw [more.2 rfl, List.map_nil, List.append_nil]
      exact ⟨rfl, rfl⟩
  | cons output outputs inductionHypothesis =>
      rw [writeAll]
      refine Protocol.Ensures.call fun later more _ made next replied => ⟨trivial, ?_⟩
      rcases replied with ⟨written, always⟩
      cases always rfl
      cases more.2 rfl
      simp only [if_true] at written
      rw [written]
      refine inductionHypothesis.weaken fun made last found => ⟨found.1, found.2.trans ?_⟩
      simp only [Location.create, List.map_cons, List.append_assoc, List.singleton_append]
      rfl

theorem removeAll_alone {count : Nat} {keys : List Nat} (all : keys.length = count) :
    (coldProtocol true encoding).Ensures Unwatched
      (fun gone later => gone = true ∧ Exists fun order => order.Perm keys ∧
        later = { now with removed := now.removed ++ order })
      (removeAll count keys) now := by
  induction count generalizing keys now with
  | zero =>
      intro later more
      cases List.length_eq_zero_iff.mp all
      refine ⟨rfl, [], List.Perm.refl _, ?_⟩
      rw [more.2 rfl, List.append_nil]
  | succ count inductionHypothesis =>
      cases keys with
      | nil => cases all
      | cons key others =>
          rw [removeAll]
          refine Protocol.Ensures.call fun later more _ reply next replied => ⟨trivial, ?_⟩
          rcases reply with ⟨ended, gone⟩
          rcases replied with ⟨member, dropped, always⟩
          cases always rfl
          cases more.2 rfl
          simp only [if_true] at dropped
          rw [dropped]
          have shorter : ((key :: others).erase ended).length = count := by
            rw [List.length_erase_of_mem member, all]
            rfl
          refine Protocol.Ensures.bind ((inductionHypothesis shorter).weaken fun rest last found => ?_)
          rcases found with ⟨rfl, order, perm, rfl⟩
          intro final evenMore
          rw [evenMore.2 rfl]
          refine ⟨rfl, ended :: order, (List.Perm.cons ended perm).trans (List.perm_cons_erase member).symm, ?_⟩
          simp only [Location.drop, List.append_assoc, List.singleton_append]

/-- A merge that is alone comes through. -/
theorem mergeFiles_alone {files : List StoredObject} {targetBytes : Nat}
    (readable : forall file, file ∈ files -> Readable true now file.key) :
    (coldProtocol true encoding).Ensures Unwatched
      (fun made later => made = true ∧ Exists fun merged : Merged C => Exists fun order =>
        MergeOf (sources now files) merged ∧ order.Perm (files.map StoredObject.key) ∧
          later = ⟨now.created ++ (merged.close encoding).map (writtenAs encoding partition),
            now.removed ++ order⟩)
      (mergeFiles encoding partition files targetBytes) now := by
  refine mergeFiles_ensures readable (Changes.refl true now) nofun fun merged later merges reached => ?_
  cases reached.2 rfl
  refine Protocol.Ensures.bind (writeAll_alone.weaken fun made last found => ?_)
  rcases found with ⟨rfl, rfl⟩
  refine (removeAll_alone (List.length_map _)).weaken fun gone final found => ?_
  rcases found with ⟨isGone, order, perm, rfl⟩
  exact ⟨isGone, merged, order, merges, perm, rfl⟩

end Alone

/-! ## What a compaction leaves -/

/-- The files of a partition that a compaction has written. -/
def outputs (before after : Location C) (partition : Partition) : List (StoredFile C) :=
  (after.created.drop before.created.length).filter fun file => decide (file.partition = partition)

/-- The files of a partition that it has removed. -/
def Consumed (before after : Location C) (partition : Partition) (key : Nat) : Prop :=
  before.Present key ∧ ¬ after.Present key ∧
    Exists fun file => before.created[key]? = some file ∧ file.partition = partition

/-- Together the files written have each row of the files removed once, oldest first. -/
structure Merges (before after : Location C) (partition : Partition) : Prop where
  inOrder : ((outputs before after partition).flatMap StoredFile.rows).Pairwise
    fun earlier later => later.Newer earlier
  places : forall position,
    position ∈ ((outputs before after partition).flatMap StoredFile.rows).map Entry.position <->
      Exists fun key => Consumed before after partition key ∧ before.Holds key position

/-- How far a compaction is, with the partitions that it has not come to. -/
structure Underway (before now : Location C) (fresh : Partition -> Prop) : Prop where
  grows : before.created <+: now.created
  removes : before.removed <+: now.removed
  old : forall key, key ∈ now.removed -> key < before.created.length
  merges : forall partition, Merges before now partition
  untouched : forall partition, fresh partition -> outputs before now partition = [] ∧
    forall key, ¬ Consumed before now partition key

theorem Underway.weaken {before now : Location C} {fresh fewer : Partition -> Prop}
    (underway : Underway before now fresh) (weaker : forall partition, fewer partition -> fresh partition) :
    Underway before now fewer where
  grows := underway.grows
  removes := underway.removes
  old := underway.old
  merges := underway.merges
  untouched partition isFewer := underway.untouched partition (weaker partition isFewer)

theorem Underway.start {before : Location C}
    (old : forall key, key ∈ before.removed -> key < before.created.length) :
    Underway before before fun _ => True := by
  have none : forall partition, outputs before before partition = [] := by
    intro partition
    rw [outputs, List.drop_length]
    rfl
  have kept : forall partition key, ¬ Consumed before before partition key :=
    fun _ _ consumed => consumed.2.1 consumed.1
  refine ⟨List.prefix_rfl, List.prefix_rfl, old, fun partition => ?_, fun partition _ => ⟨none partition, kept partition⟩⟩
  constructor
  · rw [none partition]
    exact List.Pairwise.nil
  · intro position
    rw [none partition]
    exact ⟨fun member => (List.not_mem_nil member).elim,
      fun ⟨key, consumed, _⟩ => (kept partition key consumed).elim⟩

section Step

variable {before now later : Location C} {fresh : Partition -> Prop} {partition : Partition}
  {files : List StoredObject} {written : List (StoredFile C)} {order : List Nat}

/-- Files of a listing of one partition. -/
structure Hour (location : Location C) (partition : Partition) (files : List StoredObject) : Prop where
  there : forall file, file ∈ files -> file ∈ location.objects ∧ file.partition = partition
  distinct : (files.map StoredObject.key).Nodup

theorem Hour.file (hour : Hour now partition files) {file : StoredObject} (member : file ∈ files) :
    Exists fun stored => now.created[file.key]? = some stored ∧ file.key ∉ now.removed ∧
      stored.partition = partition := by
  rcases Location.mem_objects.mp (hour.there file member).1 with ⟨stored, isStored, present, same⟩
  refine ⟨stored, isStored, present, ?_⟩
  have samePartition : file.partition = stored.partition := congrArg StoredObject.partition same
  rw [← samePartition, (hour.there file member).2]

theorem Hour.readable (hour : Hour now partition files) {file : StoredObject} (member : file ∈ files) :
    Readable true now file.key := by
  rcases hour.file member with ⟨stored, isStored, present, _⟩
  exact ⟨(List.getElem?_eq_some_iff.mp isStored).1, fun _ => present⟩

/-- The files of a partition that is not come to are older than the compaction. -/
theorem Underway.key_lt (underway : Underway before now fresh) (isFresh : fresh partition)
    (hour : Hour now partition files) {file : StoredObject} (member : file ∈ files) :
    file.key < before.created.length := by
  rcases hour.file member with ⟨stored, isStored, _, samePartition⟩
  by_contra since
  have isOutput : stored ∈ outputs before now partition := by
    refine List.mem_filter.mpr ⟨?_, decide_eq_true samePartition⟩
    refine List.mem_of_getElem? (i := file.key - before.created.length) ?_
    rw [List.getElem?_drop, Nat.add_sub_cancel' (Nat.le_of_not_lt since), isStored]
  rw [(underway.untouched partition isFresh).1] at isOutput
  exact List.not_mem_nil isOutput

theorem outputs_append (underway : Underway before now fresh)
    (isLater : later.created = now.created ++ written) (other : Partition) :
    outputs before later other = outputs before now other ++
      written.filter fun file => decide (file.partition = other) := by
  rw [outputs, isLater, List.drop_append_of_le_length underway.grows.length_le, List.filter_append]
  rfl

/-- What is held by files that are there from the start does not change. -/
theorem Underway.holds_iff (underway : Underway before now fresh) {key : Nat}
    (known : key < before.created.length) {position : Position} :
    now.Holds key position <-> before.Holds key position := by
  have changes : Changes false before now := ⟨underway.grows, nofun⟩
  exact ⟨changes.held known, changes.holds⟩

variable (isLater : later = ⟨now.created ++ written, now.removed ++ order⟩)
  (perm : order.Perm (files.map StoredObject.key))

include isLater perm

/-- The files that a merge consumes are the ones it was given. -/
theorem Underway.consumed_iff (underway : Underway before now fresh) (isFresh : fresh partition)
    (hour : Hour now partition files) (key : Nat) :
    Consumed before later partition key <-> key ∈ files.map StoredObject.key := by
  constructor
  · rintro ⟨present, absent, file, isFile, samePartition⟩
    have gone : key ∈ now.removed ++ order := by
      by_contra kept
      refine absent ⟨?_, ?_⟩
      · rw [isLater, List.length_append]
        exact lt_of_lt_of_le (lt_of_lt_of_le present.1 underway.grows.length_le) (Nat.le_add_right _ _)
      · rw [isLater]
        exact kept
    rcases List.mem_append.mp gone with earlier | here
    · refine ((underway.untouched partition isFresh).2 key ⟨present, ?_, file, isFile, samePartition⟩).elim
      exact fun stillThere => stillThere.2 earlier
    · exact perm.mem_iff.mp here
  · intro isKey
    rcases List.mem_map.mp isKey with ⟨file, member, rfl⟩
    have known := underway.key_lt isFresh hour member
    rcases hour.file member with ⟨stored, isStored, present, samePartition⟩
    refine ⟨⟨known, fun gone => present (underway.removes.subset gone)⟩, fun still => still.2 ?_, stored, ?_,
      samePartition⟩
    · rw [isLater]
      exact List.mem_append_right _ (perm.mem_iff.mpr isKey)
    · have isFile := List.getElem?_eq_getElem known
      have changes : Changes false before now := ⟨underway.grows, nofun⟩
      rw [changes.file isFile] at isStored
      exact isFile.trans isStored

/-- The files of other partitions are left alone. -/
theorem Underway.consumed_other (underway : Underway before now fresh)
    (hour : Hour now partition files) {other : Partition} (different : other ≠ partition) (key : Nat) :
    Consumed before later other key <-> Consumed before now other key := by
  have changes : Changes false before now := ⟨underway.grows, nofun⟩
  constructor
  · rintro ⟨present, absent, file, isFile, samePartition⟩
    refine ⟨present, fun still => absent ⟨?_, ?_⟩, file, isFile, samePartition⟩
    · rw [isLater, List.length_append]
      exact lt_of_lt_of_le still.1 (Nat.le_add_right _ _)
    · rw [isLater]
      intro gone
      rcases List.mem_append.mp gone with earlier | here
      · exact still.2 earlier
      · rcases List.mem_map.mp (perm.mem_iff.mp here) with ⟨object, member, rfl⟩
        rcases hour.file member with ⟨stored, isStored, _, itsPartition⟩
        rw [changes.file isFile] at isStored
        cases isStored
        exact different (samePartition.symm.trans itsPartition)
  · rintro ⟨present, absent, file, isFile, samePartition⟩
    refine ⟨present, fun still => absent ⟨changes.known present.1, fun gone => still.2 ?_⟩, file, isFile,
      samePartition⟩
    rw [isLater]
    exact List.mem_append_left _ gone

omit isLater perm in
theorem filter_writtenAs (encoding : Encoding C) (closed : List (List (List (Entry C))))
    (other : Partition) :
    (closed.map (writtenAs encoding partition)).filter (fun file => decide (file.partition = other)) =
      if partition = other then closed.map (writtenAs encoding partition) else [] := by
  split
  · rename_i same
    refine List.filter_eq_self.mpr fun file member => ?_
    rcases List.mem_map.mp member with ⟨rowGroups, _, rfl⟩
    exact decide_eq_true same
  · rename_i different
    refine List.filter_eq_nil_iff.mpr fun file member isOther => different ?_
    rcases List.mem_map.mp member with ⟨rowGroups, _, rfl⟩
    exact of_decide_eq_true isOther

omit isLater perm in
theorem rows_writtenAs (partition : Partition) (encoding : Encoding C) (closed : List (List (List (Entry C)))) :
    ((closed.map (writtenAs encoding partition)).flatMap StoredFile.rows).map Entry.position =
      filePositions closed := by
  rw [filePositions, List.flatten_flatten, List.flatMap_map]
  rfl

/-- A merge of a partition that was not come to. -/
theorem Underway.merge (underway : Underway before now fresh)
    (sorted : forall file, file ∈ before.created -> OldestFirst file.rows) (isFresh : fresh partition)
    (hour : Hour now partition files) {encoding : Encoding C} {merged : Merged C}
    (merges : MergeOf (sources now files) merged)
    (isWritten : written = (merged.close encoding).map (writtenAs encoding partition)) :
    Underway before later fun other => fresh other ∧ other ≠ partition where
  grows := by
    rw [isLater]
    exact underway.grows.trans (List.prefix_append _ _)
  removes := by
    rw [isLater]
    exact underway.removes.trans (List.prefix_append _ _)
  old key gone := by
    rw [isLater] at gone
    rcases List.mem_append.mp gone with earlier | here
    · exact underway.old key earlier
    · rcases List.mem_map.mp (perm.mem_iff.mp here) with ⟨file, member, rfl⟩
      exact underway.key_lt isFresh hour member
  untouched other both := by
    rcases underway.untouched other both.1 with ⟨none, kept⟩
    refine ⟨?_, fun key consumed => kept key ?_⟩
    · rw [outputs_append underway (congrArg Location.created isLater), none, isWritten,
        filter_writtenAs, if_neg both.2.symm, List.append_nil]
    · exact (underway.consumed_other isLater perm hour both.2 key).mp consumed
  merges other := by
    have appended := outputs_append underway (congrArg Location.created isLater) other
    rw [isWritten, filter_writtenAs] at appended
    by_cases same : partition = other
    · cases same
      rw [(underway.untouched partition isFresh).1, if_pos rfl, List.nil_append] at appended
      have places := rows_writtenAs partition encoding (merged.close encoding)
      rw [Merged.close_positions encoding merges.good.counts] at places
      constructor
      · have listed : forall input, input ∈ sources now files -> Sorted oldness input := by
          intro input isInput
          rcases List.mem_map.mp isInput with ⟨file, member, rfl⟩
          have known := underway.key_lt isFresh hour member
          have isFile := List.getElem?_eq_getElem known
          have changes : Changes false before now := ⟨underway.grows, nofun⟩
          rw [changes.file isFile]
          exact sourceOf_sorted (sorted _ (List.getElem_mem known))
        have strictly := merges.inOrder listed
        rw [← places] at strictly
        rw [appended]
        exact List.pairwise_map.mp strictly
      · intro position
        rw [appended, places, merges.places]
        constructor
        · intro member
          rcases List.mem_flatten.mp member with ⟨input, isInput, inInput⟩
          rcases List.mem_map.mp isInput with ⟨file, isFile, rfl⟩
          rcases hour.file isFile with ⟨stored, isStored, _, _⟩
          rw [isStored] at inInput
          have holds : now.Holds file.key position := ⟨stored, isStored, mem_sourceOf.mp inInput⟩
          exact ⟨file.key, (underway.consumed_iff isLater perm isFresh hour file.key).mpr
            (List.mem_map_of_mem isFile), (underway.holds_iff (underway.key_lt isFresh hour isFile)).mp holds⟩
        · rintro ⟨key, consumed, holds⟩
          have isKey := (underway.consumed_iff isLater perm isFresh hour key).mp consumed
          rcases List.mem_map.mp isKey with ⟨file, isFile, rfl⟩
          exact mem_sources isFile ((underway.holds_iff (underway.key_lt isFresh hour isFile)).mpr holds)
    · rw [if_neg same, List.append_nil] at appended
      have others := underway.consumed_other isLater perm hour (Ne.symm same)
      constructor
      · rw [appended]
        exact (underway.merges other).inOrder
      · intro position
        rw [appended, (underway.merges other).places]
        exact exists_congr fun key => and_congr_left fun _ => (others key).symm

/-- The files of another partition are still there after a merge. -/
theorem Hour.keep (hour : Hour now partition files) {other : Partition} {others : List StoredObject}
    (listed : Hour now other others) (different : other ≠ partition) : Hour later other others where
  distinct := listed.distinct
  there file member := by
    have both := listed.there file member
    refine ⟨?_, both.2⟩
    rcases Location.mem_objects.mp both.1 with ⟨stored, isStored, present, same⟩
    refine Location.mem_objects.mpr ⟨stored, ?_, fun gone => ?_, same⟩
    · rw [isLater]
      exact (List.getElem?_append_left (List.getElem?_eq_some_iff.mp isStored).1).trans isStored
    · rw [isLater] at gone
      rcases List.mem_append.mp gone with earlier | here
      · exact present earlier
      · rcases List.mem_map.mp (perm.mem_iff.mp here) with ⟨object, isObject, sameKey⟩
        rcases hour.file isObject with ⟨merged, isMerged, _, itsPartition⟩
        rcases listed.file member with ⟨again, isAgain, _, otherPartition⟩
        rw [sameKey, isAgain] at isMerged
        cases isMerged
        exact different (otherPartition.symm.trans itsPartition)

end Step

/-! ## The run of a compaction that is alone -/

section Run

variable {encoding : Encoding C} {options : CompactionOptions} {closedBefore oldest : Int}
  {before now : Location C} {fresh : Partition -> Prop} {type : Text}

theorem Hour.small {partition : Partition} {files : List StoredObject} (hour : Hour now partition files)
    (options : CompactionOptions) : Hour now partition (options.small files) where
  there file member := hour.there file (List.mem_of_mem_filter member)
  distinct := hour.distinct.sublist (List.filter_sublist.map StoredObject.key)

theorem compactHours_alone (sorted : forall file, file ∈ before.created -> OldestFirst file.rows)
    {hours : List (Int × List StoredObject)} {merged : Nat} (underway : Underway before now fresh)
    (listed : forall hour, hour ∈ hours -> Hour now ⟨type, hour.1⟩ hour.2 ∧ fresh ⟨type, hour.1⟩)
    (distinct : (hours.map Prod.fst).Nodup) :
    (coldProtocol true encoding).Ensures Unwatched
      (fun reply later => reply.isSome ∧ Underway before later fun partition =>
        fresh partition ∧ ¬ (partition.type = type ∧ partition.hourStart ∈ hours.map Prod.fst))
      (compactHours encoding options closedBefore type hours merged) now := by
  induction hours generalizing merged now fresh with
  | nil =>
      intro later more
      rw [more.2 rfl]
      exact ⟨rfl, underway.weaken fun _ => And.left⟩
  | cons hour hours inductionHypothesis =>
      rw [List.map_cons, List.nodup_cons] at distinct
      have rest := fun other member => listed other (List.mem_cons_of_mem hour member)
      have fewer : forall partition : Partition, (fresh partition ∧
          ¬ (partition.type = type ∧ partition.hourStart ∈ (hour :: hours).map Prod.fst)) ->
            fresh partition ∧ ¬ (partition.type = type ∧ partition.hourStart ∈ hours.map Prod.fst) :=
        fun partition both => ⟨both.1, fun inRest => both.2 ⟨inRest.1, List.mem_cons_of_mem _ inRest.2⟩⟩
      have skip : (coldProtocol true encoding).Ensures Unwatched _
          (compactHours encoding options closedBefore type hours merged) now :=
        (inductionHypothesis underway rest distinct.2).weaken fun reply later found =>
          And.intro found.1 (found.2.weaken fewer)
      rw [compactHours]
      split
      · intro later more
        rw [more.2 rfl]
        exact ⟨rfl, underway.weaken fun _ => And.left⟩
      · split
        · exact skip
        · split
          · exact skip
          · rcases listed hour (List.mem_cons_self ..) with ⟨here, isFresh⟩
            have small := here.small options
            refine Protocol.Ensures.bind ((mergeFiles_alone fun file member =>
              small.readable member).weaken fun made later found => ?_)
            rcases found with ⟨rfl, result, order, merges, perm, isLater⟩
            have step := underway.merge isLater perm sorted isFresh small merges rfl
            refine (inductionHypothesis step (fun other member => ?_) distinct.2).weaken
              fun reply last found => ⟨found.1, found.2.weaken fun partition both => ?_⟩
            · have different : (⟨type, other.1⟩ : Partition) ≠ ⟨type, hour.1⟩ := by
                intro same
                have sameHour : other.1 = hour.1 := congrArg Partition.hourStart same
                exact distinct.1 (sameHour ▸ List.mem_map_of_mem member)
              exact ⟨Hour.keep isLater perm small (rest other member).1 different,
                (rest other member).2, different⟩
            · refine ⟨⟨both.1, fun same => both.2 ?_⟩, (fewer partition both).2⟩
              rw [same]
              exact ⟨rfl, List.mem_cons_self ..⟩

theorem nodup_keys (location : Location C) : (location.objects.map StoredObject.key).Nodup := by
  have keys : location.objects.map StoredObject.key =
      (location.created.zipIdx.filter fun entry => decide (entry.2 ∉ location.removed)).map Prod.snd := by
    rw [Location.objects, List.map_map]
    rfl
  have all : (location.created.zipIdx.map Prod.snd).Nodup := by
    rw [List.zipIdx_map_snd]
    exact List.nodup_range'
  rw [keys]
  exact all.sublist (List.filter_sublist.map Prod.snd)

theorem hours_alone {day : Int} :
    (coldProtocol true encoding).Ensures Unwatched
      (fun reply later => later = now ∧ Exists fun hours => reply = some hours ∧
        (hours.map Prod.fst).Nodup ∧ forall hour, hour ∈ hours ->
          Hour now ⟨type, hour.1⟩ hour.2 ∧ floorDay hour.1 = floorDay day)
      (hours type day) now := by
  refine Protocol.Ensures.call fun later more _ reply next replied => ⟨trivial, ?_⟩
  cases more.2 rfl
  rcases replied with ⟨rfl, _, exactly⟩
  rcases exactly rfl with ⟨files, rfl, perm⟩
  intro last evenMore
  refine ⟨evenMore.2 rfl, groupByHour files, rfl, ?_, fun hour member => ?_⟩
  · rw [groupByHour, List.map_map]
    change List.Nodup (List.map id _)
    rw [List.map_id]
    exact (newestDown_descending _).imp ne_of_gt
  · have listed : forall file, file ∈ files -> file ∈ next.objects ∧ file.partition.type = type ∧
        floorDay file.partition.hourStart = floorDay day := by
      intro file isFile
      rcases List.mem_filter.mp (perm.mem_iff.mp isFile) with ⟨isObject, same⟩
      exact ⟨isObject, of_decide_eq_true same⟩
    have sub : hour.2.Sublist files ∧ hour.1 ∈ files.map fun object => object.partition.hourStart := by
      rcases List.mem_map.mp member with ⟨hourStart, isHour, rfl⟩
      exact ⟨List.filter_sublist, mem_newestDown.mp isHour⟩
    refine ⟨⟨fun file inHour => ?_, ?_⟩, ?_⟩
    · rcases mem_groupByHour member inHour with ⟨isFile, sameHour⟩
      rcases listed file isFile with ⟨isObject, sameType, _⟩
      refine ⟨isObject, ?_⟩
      rw [← sameHour, ← sameType]
    · have distinct : (files.map StoredObject.key).Nodup :=
        ((perm.map _).nodup_iff).mpr ((nodup_keys next).sublist (List.filter_sublist.map _))
      exact distinct.sublist (sub.1.map _)
    · rcases List.mem_map.mp sub.2 with ⟨file, isFile, same⟩
      rw [← same]
      exact (listed file isFile).2.2

theorem compactDays_alone (sorted : forall file, file ∈ before.created -> OldestFirst file.rows)
    {days : List Int} {merged : Nat} (underway : Underway before now fresh)
    (areFresh : forall partition : Partition, partition.type = type ->
      floorDay partition.hourStart ∈ days -> fresh partition)
    (aligned : forall day, day ∈ days -> floorDay day = day) (distinct : days.Nodup) :
    (coldProtocol true encoding).Ensures Unwatched
      (fun reply later => reply.isSome ∧ Underway before later fun partition =>
        fresh partition ∧ ¬ (partition.type = type ∧ floorDay partition.hourStart ∈ days))
      (compactDays encoding options closedBefore oldest type days merged) now := by
  induction days generalizing merged now fresh with
  | nil =>
      intro later more
      rw [more.2 rfl]
      exact ⟨rfl, underway.weaken fun _ => And.left⟩
  | cons day days inductionHypothesis =>
      rw [List.nodup_cons] at distinct
      have restAligned := fun other member => aligned other (List.mem_cons_of_mem day member)
      have fewer : forall partition : Partition, (fresh partition ∧
          ¬ (partition.type = type ∧ floorDay partition.hourStart ∈ day :: days)) ->
            fresh partition ∧ ¬ (partition.type = type ∧ floorDay partition.hourStart ∈ days) :=
        fun partition both => ⟨both.1, fun inRest => both.2 ⟨inRest.1, List.mem_cons_of_mem _ inRest.2⟩⟩
      rw [compactDays]
      split
      · exact (inductionHypothesis underway (fun partition sameType member =>
          areFresh partition sameType (List.mem_cons_of_mem _ member)) restAligned distinct.2).weaken
            fun reply later found => ⟨found.1, found.2.weaken fewer⟩
      · refine Protocol.Ensures.bind (hours_alone.weaken fun reply later found => ?_)
        rcases found with ⟨rfl, hours, rfl, distinctHours, listed⟩
        have onDay : forall hour, hour ∈ hours -> floorDay hour.1 = day := fun hour member =>
          (listed hour member).2.trans (aligned day (List.mem_cons_self ..))
        refine Protocol.Ensures.bind ((compactHours_alone sorted underway (fun hour member =>
          ⟨(listed hour member).1, areFresh _ rfl ?_⟩) distinctHours).weaken fun reply last found => ?_)
        · rw [onDay hour member]
          exact List.mem_cons_self ..
        · rcases found with ⟨through, further⟩
          cases reply with
          | none => exact (Bool.false_ne_true through).elim
          | some progress =>
              have visitedDay : forall partition : Partition,
                  partition.hourStart ∈ hours.map Prod.fst -> floorDay partition.hourStart = day := by
                intro partition isHour
                rcases List.mem_map.mp isHour with ⟨hour, member, same⟩
                exact same ▸ onDay hour member
              have notVisited : forall partition : Partition,
                  ¬ (partition.type = type ∧ floorDay partition.hourStart ∈ day :: days) ->
                    ¬ (partition.type = type ∧ partition.hourStart ∈ hours.map Prod.fst) := by
                intro partition off visited
                refine off ⟨visited.1, ?_⟩
                rw [visitedDay partition visited.2]
                exact List.mem_cons_self ..
              change Protocol.Ensures _ _ _ (if progress.capped then _ else _) _
              split
              · intro final more
                rw [more.2 rfl]
                exact ⟨rfl, further.weaken fun partition both => ⟨both.1, notVisited partition both.2⟩⟩
              · refine (inductionHypothesis further (fun partition sameType member => ?_) restAligned
                  distinct.2).weaken fun reply final found => ⟨found.1, found.2.weaken fun partition both =>
                    ⟨⟨both.1, notVisited partition both.2⟩, (fewer partition both).2⟩⟩
                refine ⟨areFresh partition sameType (List.mem_cons_of_mem _ member), fun visited => ?_⟩
                exact distinct.1 (visitedDay partition visited.2 ▸ member)

theorem floorDay_floorDay (instant : Int) : floorDay (floorDay instant) = floorDay instant := by
  unfold floorDay DAY_MS HOUR_MS
  omega

/-- The days of a type, oldest first. -/
theorem days_alone :
    (coldProtocol true encoding).Ensures Unwatched
      (fun reply later => later = now ∧ Exists fun days => reply = some days ∧ days.Nodup ∧
        forall day, day ∈ days -> floorDay day = day)
      (days type) now := by
  refine Protocol.Ensures.call fun later more _ reply next replied => ⟨trivial, ?_⟩
  cases more.2 rfl
  rcases replied with ⟨rfl, exactly⟩
  rcases exactly rfl with ⟨listing, rfl, distinct, members⟩
  have perm := List.perm_insertionSort (fun left right : Int => right ≤ left) listing
  refine fun last evenMore => ⟨evenMore.2 rfl, _, rfl, perm.nodup_iff.mpr distinct, fun day member => ?_⟩
  rcases (members day).mp (perm.mem_iff.mp member) with ⟨file, _, _, rfl⟩
  exact floorDay_floorDay _

theorem compactTypes_alone (sorted : forall file, file ∈ before.created -> OldestFirst file.rows)
    {types : List Text} {merged : Nat} (underway : Underway before now fresh)
    (areFresh : forall partition : Partition, partition.type ∈ types -> fresh partition)
    (distinct : types.Nodup) :
    (coldProtocol true encoding).Ensures Unwatched
      (fun reply later => reply.isSome ∧ Underway before later fun _ => False)
      (compactTypes encoding options closedBefore oldest types merged) now := by
  induction types generalizing merged now fresh with
  | nil =>
      intro later more
      rw [more.2 rfl]
      exact ⟨rfl, underway.weaken fun _ => False.elim⟩
  | cons type types inductionHypothesis =>
      rw [List.nodup_cons] at distinct
      rw [compactTypes]
      refine Protocol.Ensures.bind (days_alone.weaken fun reply later found => ?_)
      rcases found with ⟨rfl, days, rfl, distinctDays, aligned⟩
      refine Protocol.Ensures.bind ((compactDays_alone sorted underway
        (fun partition sameType _ => areFresh partition (sameType ▸ List.mem_cons_self ..))
        (fun day member => aligned day (List.mem_reverse.mp member))
        (List.nodup_reverse.mpr distinctDays)).weaken fun reply last found => ?_)
      rcases found with ⟨through, further⟩
      cases reply with
      | none => exact (Bool.false_ne_true through).elim
      | some progress =>
          change Protocol.Ensures _ _ _ (if progress.capped then _ else _) _
          split
          · intro final more
            rw [more.2 rfl]
            exact ⟨rfl, further.weaken fun _ => False.elim⟩
          · refine inductionHypothesis further (fun partition member => ?_) distinct.2
            exact ⟨areFresh partition (List.mem_cons_of_mem _ member),
              fun visited => distinct.1 (visited.1 ▸ member)⟩

theorem compact_alone {nowMs : Int} (sorted : forall file, file ∈ before.created -> OldestFirst file.rows)
    (old : forall key, key ∈ before.removed -> key < before.created.length) :
    (coldProtocol true encoding).Ensures Unwatched
      (fun reply later => reply.isSome ∧ Underway before later fun _ => False)
      (compact encoding options nowMs) before := by
  refine Protocol.Ensures.call fun later more _ types next replied => ⟨trivial, ?_⟩
  cases more.2 rfl
  rcases replied with ⟨rfl, exactly⟩
  rcases exactly rfl with ⟨listing, rfl, distinct, _⟩
  refine Protocol.Ensures.bind ((compactTypes_alone sorted (Underway.start old) (fun _ _ => trivial)
    distinct).weaken fun reply last found => ?_)
  intro final evenMore
  rw [evenMore.2 rfl, Option.isSome_map]
  exact found

end Run

/-! ## Compaction safety -/

/-- No row of a file that was there at first or has been written since is lost,
whatever compactions and archive writes run and wherever they stop.  A compaction
that then runs alone comes through.  For every partition the files it has written
are there, and together they have each row of the files it has removed once, oldest
first. -/
theorem compaction_safe {C : Type} (encoding : Encoding C) (files : List (StoredFile C))
    {last : Protocol.Pool (Location C) (ColdRequest C) ColdReply Unit}
    (run : (coldProtocol false encoding).PoolRun (Starts encoding) ⟨{ created := files }, []⟩ last) :
    files <+: last.world.created ∧
      (forall file, file ∈ last.world.created -> forall row, row ∈ file.rows ->
        Exists fun key => last.world.Present key ∧ last.world.Holds key row.position) ∧
      ((forall file, file ∈ files -> OldestFirst file.rows) ->
        forall (options : CompactionOptions) (nowMs : Int) (reply : Option Nat) (after : Location C),
          (coldProtocol true encoding).Ends (compact encoding options nowMs) last.world reply after ->
            reply.isSome ∧
              (forall key, last.world.created.length ≤ key -> key < after.created.length ->
                after.Present key) ∧
              forall partition, Merges last.world after partition) := by
  have safe := safe_of_run run
  refine ⟨(Protocol.interferes_of_poolRun noticed run).1, fun file isFile row isRow => ?_,
    fun sorted options nowMs reply after ends => ?_⟩
  · rcases List.mem_iff_getElem?.mp isFile with ⟨key, isKey⟩
    exact safe.present ⟨file, isKey, List.mem_map_of_mem isRow⟩
  · have old : forall key, key ∈ last.world.removed -> key < last.world.created.length :=
      fun key gone => (safe.superseded key gone).1
    rcases (Protocol.Ensures.of_ends (fun _ _ => trivial) (compact_alone (safe.inOrder sorted) old)
      trivial ends).2 with ⟨through, underway⟩
    exact ⟨through, fun key since known => ⟨known, fun gone => (underway.old key gone).not_ge since⟩,
      underway.merges⟩

/-! ## A location that answers -/

/-- A location that does what is asked of it, removals in order. -/
def serve (encoding : Encoding C) (location : Location C) :
    (request : ColdRequest C) -> ColdReply request × Location C
  | .listTypes => (some (location.objects.map fun file => file.partition.type).eraseDups, location)
  | .listDays type =>
      (some ((location.objects.filter fun file => decide (file.partition.type = type)).map
        fun file => floorDay file.partition.hourStart).eraseDups, location)
  | .listDay type day =>
      (some (location.objects.filter fun file => decide (file.partition.type = type ∧
        floorDay file.partition.hourStart = day)), location)
  | .rowGroups file =>
      (if file.key ∈ location.removed then none
        else (location.created[file.key]?).map fun stored => rowGroupRefs file.key 0 stored.rowGroups,
        location)
  | .readRowGroup group =>
      (if group.key ∈ location.removed then none
        else (location.created[group.key]?).map fun _ => location.groupRows group, location)
  | .write partition rowGroups =>
      (true, location.create ⟨partition, rowGroups, encoding.size rowGroups⟩)
  | .remove key _ => ((key, true), location.drop key)

theorem answers_serve (alone : Bool) (encoding : Encoding C) (location : Location C)
    (request : ColdRequest C) :
    (coldProtocol alone encoding).replies location request (serve encoding location request).1
      (serve encoding location request).2 := by
  cases request with
  | listTypes =>
      refine ⟨rfl, fun _ => ⟨_, rfl, nodup_eraseDups _, fun type => ?_⟩⟩
      rw [List.mem_eraseDups, List.mem_map]
  | listDays type =>
      refine ⟨rfl, fun _ => ⟨_, rfl, nodup_eraseDups _, fun day => ?_⟩⟩
      simp only [List.mem_eraseDups, List.mem_map, List.mem_filter, decide_eq_true_eq, and_assoc]
  | listDay type day =>
      refine ⟨rfl, fun files isFiles file member => ?_, fun _ => ⟨_, rfl, List.Perm.refl _⟩⟩
      cases isFiles
      rcases List.mem_filter.mp member with ⟨isObject, same⟩
      rcases Location.mem_objects.mp isObject with ⟨stored, isStored, _, shown⟩
      exact ⟨⟨stored, isStored, shown⟩, of_decide_eq_true same⟩
  | rowGroups file =>
      refine ⟨rfl, fun groups isGroups => ?_, fun _ present => ?_⟩
      · simp only [serve] at isGroups
        split at isGroups
        · cases isGroups
        · rename_i kept
          rcases Option.map_eq_some_iff.mp isGroups with ⟨stored, isStored, rfl⟩
          exact ⟨⟨(List.getElem?_eq_some_iff.mp isStored).1, kept⟩, stored, isStored, rfl⟩
      · simp only [serve, if_neg present.2, List.getElem?_eq_getElem present.1, Option.map_some,
          Option.isSome_some]
  | readRowGroup group =>
      refine ⟨rfl, fun rows isRows => ?_, fun _ present => ?_⟩
      · simp only [serve] at isRows
        split at isRows
        · cases isRows
        · rename_i kept
          rcases Option.map_eq_some_iff.mp isRows with ⟨stored, isStored, rfl⟩
          exact ⟨⟨(List.getElem?_eq_some_iff.mp isStored).1, kept⟩, rfl⟩
      · simp only [serve, if_neg present.2, List.getElem?_eq_getElem present.1, Option.map_some,
          Option.isSome_some]
  | write partition rowGroups => exact ⟨rfl, fun _ => rfl⟩
  | remove key others => exact ⟨List.mem_cons_self .., rfl, fun _ => rfl⟩

def pairGroups : Encoding Text where
  rowGroupSize := 2
  rowGroupSize_pos := by decide
  readBack := id
  bytes := fun groups => groups.length
  size := fun groups => groups.length

/-- Two files of one hour that share a row. -/
def sharedHour : List (StoredFile Text) :=
  [⟨⟨['q'], 0⟩, [[plainEntry ['a'] ['q'] 1, plainEntry ['b'] ['q'] 2]], 1⟩,
    ⟨⟨['q'], 0⟩, [[plainEntry ['b'] ['q'] 2, plainEntry ['c'] ['q'] 3]], 1⟩]

def hourly : CompactionOptions where
  targetFileMb := 1
  closedAfterMs := 0
  maxHoursPerRun := 24
  lookbackMs := DAY_MS

/-- One compaction stops before its first step, an archive write comes through, and
another compaction runs alone. -/
theorem compaction_safe_sharedHour :
    let group : Partition × List (Entry Text) := (⟨['q'], 0⟩, [plainEntry ['d'] ['q'] 0])
    let stored := (Program.run (serve pairGroups)
      (writeGroup pairGroups group >>= fun _ => .done ()) { created := sharedHour }).2
    let after := (Program.run (serve pairGroups) (compact pairGroups hourly (2 * HOUR_MS)) stored).2
    (forall file, file ∈ stored.created -> forall row, row ∈ file.rows ->
      Exists fun key => stored.Present key ∧ stored.Holds key row.position) ∧
        Merges stored after ⟨['q'], 0⟩ := by
  intro group stored after
  have run : (coldProtocol false pairGroups).PoolRun (Starts pairGroups)
      ⟨{ created := sharedHour }, []⟩ ⟨stored, [.done ()]⟩ := by
    refine Relation.ReflTransGen.head (.start (.compact hourly (2 * HOUR_MS))) ?_
    refine Relation.ReflTransGen.head (.stop [] []) ?_
    refine Relation.ReflTransGen.head
      (.start (.write [plainEntry ['d'] ['q'] 0] (List.mem_singleton_self group))) ?_
    exact Protocol.poolRun_of_run (answers_serve false pairGroups) _ _ [] []
  rcases compaction_safe pairGroups sharedHour run with ⟨_, kept, exactly⟩
  have sorted : forall file, file ∈ sharedHour -> OldestFirst file.rows := by
    unfold OldestFirst
    decide
  exact ⟨kept, (exactly sorted hourly (2 * HOUR_MS) _ _
    (Protocol.ends_of_run (answers_serve true pairGroups) _ _)).2.2 ⟨['q'], 0⟩⟩

end Parquet
end Telescope
