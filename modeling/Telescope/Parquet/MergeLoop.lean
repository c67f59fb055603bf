import Telescope.Parquet.MergeFiles

namespace Telescope
namespace Parquet

open KWayMerge

/-!
# The merge loop

However the location changes while a merge reads, its cursors have left what their
files hold, and each round of the loop takes one row from them.  What a merge
comes through with are the rows of its inputs, one for each place, and in order
where its inputs are.  A merge that is alone comes through.
-/

variable {C : Type}

/-- A file can be read: it is known, and nobody has removed it from a program that
is alone. -/
def Readable (alone : Bool) (location : Location C) (key : Nat) : Prop :=
  key < location.created.length ∧ (alone = true -> key ∉ location.removed)

/-- What reading programs end with: a result, if nothing has failed. -/
def Found {α : Type} (alone : Bool) (origin : Location C) (result : α -> Prop) (reply : Option α)
    (now : Location C) : Prop :=
  Changes alone origin now ∧ (alone = true -> reply.isSome) ∧ forall value, value ∈ reply -> result value

section Reading

variable {alone : Bool} {encoding : Encoding C} {invariant : Location C -> Prop}
  {origin now : Location C} {α β : Type}

theorem Changes.trans {first second third : Location C} (earlier : Changes alone first second)
    (later : Changes alone second third) : Changes alone first third :=
  ⟨earlier.1.trans later.1, fun isAlone => (later.2 isAlone).trans (earlier.2 isAlone)⟩

theorem Found.done {result : α -> Prop} {value : α} (changed : Changes alone origin now)
    (holds : result value) :
    (coldProtocol alone encoding).Ensures invariant (Found alone origin result)
      (.done (some value)) now := by
  intro later more
  refine ⟨changed.trans more, fun _ => rfl, fun other same => ?_⟩
  cases same
  exact holds

/-- Programs go on with what they have found, or give up. -/
theorem Found.bind {result : α -> Prop} {final : β -> Prop} {program : ColdStep C (Option α)}
    {goOn : Option α -> ColdStep C (Option β)}
    (first : (coldProtocol alone encoding).Ensures invariant (Found alone origin result) program now)
    (givesUp : goOn none = .done none)
    (rest : forall value later, result value -> Changes alone origin later ->
      (coldProtocol alone encoding).Ensures invariant (Found alone origin final) (goOn (some value)) later) :
    (coldProtocol alone encoding).Ensures invariant (Found alone origin final) (program >>= goOn) now := by
  refine Protocol.Ensures.bind (first.weaken fun reply later found => ?_)
  rcases found with ⟨changed, through, holds⟩
  cases reply with
  | none =>
      rw [givesUp]
      intro last more
      refine ⟨changed.trans more, fun isAlone => ?_, fun _ same => by cases same⟩
      exact (Bool.false_ne_true (through isAlone)).elim
  | some value => exact rest value later (holds value rfl) changed

/-- The same for a result that is only put together. -/
theorem Found.map {result : α -> Prop} {final : β -> Prop} {program : ColdStep C (Option α)}
    {put : α -> β}
    (first : (coldProtocol alone encoding).Ensures invariant (Found alone origin result) program now)
    (holds : forall value, result value -> final (put value)) :
    (coldProtocol alone encoding).Ensures invariant (Found alone origin final)
      (program >>= fun reply => .done (reply.map put)) now := by
  refine Protocol.Ensures.bind (first.weaken fun reply later found => ?_)
  intro last more
  refine ⟨found.1.trans more, fun isAlone => ?_, fun value same => ?_⟩
  · rw [Option.isSome_map]
    exact found.2.1 isAlone
  · rcases Option.map_eq_some_iff.mp same with ⟨before, isBefore, rfl⟩
    exact holds before (found.2.2 before isBefore)

/-! ## Reading -/

theorem Readable.present {key : Nat} (readable : Readable alone origin key)
    (changed : Changes alone origin now) (isAlone : alone = true) : now.Present key := by
  rw [changed.2 isAlone]
  exact ⟨readable.1, readable.2 isAlone⟩

theorem readRowGroup_ensures {group : RowGroupRef} (readable : Readable alone origin group.key)
    (changed : Changes alone origin now) :
    (coldProtocol alone encoding).Ensures invariant
      (Found alone origin fun rows => rows = origin.groupRows group) (readRowGroup group) now := by
  intro later more holds reply next replied
  rcases replied with ⟨rfl, rows, through⟩
  have reached := changed.trans more
  refine ⟨holds, fun last evenMore => ⟨reached.trans evenMore, fun isAlone => ?_, fun value same => ?_⟩⟩
  · exact through isAlone (readable.present reached isAlone)
  · rw [(rows value same).2, reached.groupRows readable.1]

theorem rowGroups_ensures {file : StoredObject} (readable : Readable alone origin file.key)
    (changed : Changes alone origin now) :
    (coldProtocol alone encoding).Ensures invariant
      (Found alone origin fun groups => Exists fun stored =>
        origin.created[file.key]? = some stored ∧ groups = rowGroupRefs file.key 0 stored.rowGroups)
      (rowGroups file) now := by
  intro later more holds reply next replied
  rcases replied with ⟨rfl, groups, through⟩
  have reached := changed.trans more
  refine ⟨holds, fun last evenMore => ⟨reached.trans evenMore, fun isAlone => ?_, fun value same => ?_⟩⟩
  · exact through isAlone (readable.present reached isAlone)
  · rcases (groups value same).2 with ⟨stored, isStored, isValue⟩
    have isFile := List.getElem?_eq_getElem readable.1
    rw [reached.file isFile] at isStored
    exact ⟨stored, isFile.trans isStored, isValue⟩

/-- A cursor can be read on. -/
def Cursor.Reads (alone : Bool) (origin : Location C) (cursor : Cursor C) : Prop :=
  forall group, group ∈ cursor.groups -> Readable alone origin group.key

/-- A cursor has read on. -/
structure Advanced (alone : Bool) (origin : Location C) (before after : Cursor C) : Prop where
  reads : after.Reads alone origin
  ready : after.Ready
  same : remaining origin after = remaining origin before

theorem next_ensures {groups : List RowGroupRef} {rows : List (Entry C)}
    (reads : ({ groups := groups, rows := rows } : Cursor C).Reads alone origin)
    (changed : Changes alone origin now) :
    (coldProtocol alone encoding).Ensures invariant
      (Found alone origin (Advanced alone origin { groups := groups, rows := rows }))
      (next groups rows) now := by
  induction groups generalizing rows now with
  | nil =>
      cases rows with
      | nil => exact Found.done changed ⟨reads, fun _ => rfl, rfl⟩
      | cons entry rows => exact Found.done changed ⟨reads, nofun, rfl⟩
  | cons group groups inductionHypothesis =>
      cases rows with
      | nil =>
          rw [next]
          refine Found.bind (readRowGroup_ensures (reads group (List.mem_cons_self ..)) changed) rfl ?_
          rintro rows later rfl changedLater
          have readsRest : ({ groups := groups, rows := sortOldestFirst (origin.groupRows group) } :
              Cursor C).Reads alone origin :=
            fun other member => reads other (List.mem_cons_of_mem _ member)
          refine (inductionHypothesis readsRest changedLater).weaken fun reply last found =>
            ⟨found.1, found.2.1, fun cursor isCursor => ?_⟩
          have advanced := found.2.2 cursor isCursor
          exact ⟨advanced.reads, advanced.ready, advanced.same⟩
      | cons entry rows => exact Found.done changed ⟨reads, nofun, rfl⟩

variable {cursors : List (Cursor C)}

theorem nextAll_ensures (reads : forall cursor, cursor ∈ cursors -> cursor.Reads alone origin)
    (changed : Changes alone origin now) :
    (coldProtocol alone encoding).Ensures invariant
      (Found alone origin fun after => List.Forall₂ (Advanced alone origin) cursors after)
      (nextAll cursors) now := by
  induction cursors generalizing now with
  | nil => exact Found.done changed List.Forall₂.nil
  | cons cursor cursors inductionHypothesis =>
      rw [nextAll]
      refine Found.bind (next_ensures (reads cursor (List.mem_cons_self ..)) changed) rfl ?_
      intro after later advanced changedLater
      refine Found.map (inductionHypothesis
        (fun other member => reads other (List.mem_cons_of_mem _ member)) changedLater) ?_
      exact fun rest all => List.Forall₂.cons advanced all

/-- A cursor that was just opened on a file. -/
structure Opened (alone : Bool) (origin : Location C) (file : StoredObject) (cursor : Cursor C) :
    Prop where
  reads : cursor.Reads alone origin
  fresh : cursor.rows = []
  source : Exists fun stored => origin.created[file.key]? = some stored ∧
    cursor.groups = rowGroupRefs file.key 0 stored.rowGroups

theorem key_of_mem_rowGroupRefs {key start : Nat} {groups : List (List (Entry C))} {group : RowGroupRef}
    (member : group ∈ rowGroupRefs key start groups) : group.key = key := by
  induction groups generalizing start with
  | nil => exact (List.not_mem_nil member).elim
  | cons rows groups inductionHypothesis =>
      rcases List.mem_cons.mp member with rfl | later
      · rfl
      · exact inductionHypothesis later

theorem openCursors_ensures {files : List StoredObject}
    (readable : forall file, file ∈ files -> Readable alone origin file.key)
    (changed : Changes alone origin now) :
    (coldProtocol alone encoding).Ensures invariant
      (Found alone origin fun cursors => List.Forall₂ (Opened alone origin) files cursors)
      (openCursors files) now := by
  induction files generalizing now with
  | nil => exact Found.done changed List.Forall₂.nil
  | cons file files inductionHypothesis =>
      have here := readable file (List.mem_cons_self ..)
      rw [openCursors]
      refine Found.bind (rowGroups_ensures here changed) rfl ?_
      rintro groups later ⟨stored, isStored, rfl⟩ changedLater
      refine Found.map (inductionHypothesis
        (fun other member => readable other (List.mem_cons_of_mem _ member)) changedLater) ?_
      refine fun rest all => List.Forall₂.cons ⟨fun group member => ?_, rfl, stored, isStored, rfl⟩ all
      rw [key_of_mem_rowGroupRefs member]
      exact here

/-! ## The loop -/

/-- The rows of its inputs, one for each place, and in order where its inputs are. -/
structure MergeOf (inputs : List (List Position)) (merged : Merged C) : Prop where
  good : merged.Good
  places : forall position, position ∈ merged.positions <-> position ∈ inputs.flatten
  inOrder : (forall input, input ∈ inputs -> Sorted oldness input) ->
    StrictlySorted oldness merged.positions

theorem mem_map_oldness {positions : List Position} {position : Position} :
    oldness position ∈ positions.map oldness <-> position ∈ positions :=
  List.mem_map_of_injective OrderDual.toDual.injective

variable {inputs : List (List Position)}

/-- A merge that has used up its sources is done. -/
theorem MergeOf.of_merging {sources : List (List Position)} {merged : Merged C} (good : merged.Good)
    (merging : Merging oldness inputs merged.positions sources) (usedUp : sources.flatten = []) :
    MergeOf inputs merged where
  good := good
  places position := by
    rw [← mem_map_oldness, merging.finish usedUp, mem_map_oldness]
  inOrder sorted := (merging.inOrder sorted).ascending

/-- A row is taken or skipped. -/
theorem merging_push {targetBytes : Nat} {sources rest : List (List Position)} {merged : Merged C} {entry : Entry C}
    (good : merged.Good) (merging : Merging oldness inputs merged.positions sources)
    (takes : Takes oldness sources entry.position rest) :
    Merging oldness inputs (merged.push encoding targetBytes entry).positions rest := by
  have last := good.last
  by_cases same : merged.last = some entry.position
  · rw [Merged.push_of_same same]
    rw [same] at last
    exact merging.skip takes (congrArg (Option.map oldness) last.symm)
  · rw [Merged.push_positions same]
    refine merging.emit takes fun sameKey => same ?_
    rcases Option.map_eq_some_iff.mp sameKey with ⟨before, isLast, sameOldness⟩
    rw [last, isLast, OrderDual.toDual.injective sameOldness]

theorem remaining_of_advanced {after : List (Cursor C)}
    (advanced : List.Forall₂ (Advanced alone origin) cursors after) :
    after.map (remaining origin) = cursors.map (remaining origin) := by
  induction advanced with
  | nil => rfl
  | cons first _ inductionHypothesis =>
      rw [List.map_cons, List.map_cons, first.same, inductionHypothesis]

theorem advanced_of_mem {after : List (Cursor C)} (advanced : List.Forall₂ (Advanced alone origin) cursors after)
    {cursor : Cursor C} (member : cursor ∈ after) : cursor.Reads alone origin ∧ cursor.Ready := by
  induction advanced with
  | nil => exact (List.not_mem_nil member).elim
  | cons first _ inductionHypothesis =>
      rcases List.mem_cons.mp member with rfl | later
      · exact ⟨first.reads, first.ready⟩
      · exact inductionHypothesis later

theorem groups_of_mem_shift {place : Nat} {cursor : Cursor C} (member : cursor ∈ shift cursors place) :
    Exists fun before => before ∈ cursors ∧ before.groups = cursor.groups := by
  rcases List.mem_iff_getElem?.mp member with ⟨index, isCursor⟩
  rw [shift, List.getElem?_modify] at isCursor
  rcases Option.map_eq_some_iff.mp isCursor with ⟨before, isBefore, same⟩
  refine ⟨before, List.mem_of_getElem? isBefore, ?_⟩
  rw [← same]
  split <;> rfl

/-- The loop merges what its cursors have left. -/
theorem mergeLoop_ensures {targetBytes fuel : Nat} {merged : Merged C}
    (enough : (cursors.map (remaining origin)).flatten.length < fuel)
    (reads : forall cursor, cursor ∈ cursors -> cursor.Reads alone origin) (good : merged.Good)
    (merging : Merging oldness inputs merged.positions (cursors.map (remaining origin)))
    (changed : Changes alone origin now) :
    (coldProtocol alone encoding).Ensures invariant (Found alone origin (MergeOf inputs))
      (mergeLoop encoding targetBytes fuel cursors merged) now := by
  induction fuel generalizing cursors merged now with
  | zero => exact (Nat.not_lt_zero _ enough).elim
  | succ fuel inductionHypothesis =>
      rw [mergeLoop]
      refine Found.bind (nextAll_ensures reads changed) rfl fun after later advanced changedLater => ?_
      have same := remaining_of_advanced advanced
      have ready : forall cursor, cursor ∈ after -> cursor.Ready :=
        fun cursor member => (advanced_of_mem advanced member).2
      rw [← same] at enough merging
      cases picked : pick after with
      | none =>
          simp only [picked]
          exact Found.done changedLater (MergeOf.of_merging good merging (pick_none ready picked))
      | some best =>
          rcases best with ⟨place, entry⟩
          have takes : Takes oldness (after.map (remaining origin)) entry.position
              ((shift after place).map (remaining origin)) := pick_takes ready picked
          have fewer := takes.perm.length_eq
          rw [List.length_cons] at fewer
          simp only [picked]
          refine inductionHypothesis (by omega) (fun cursor member => ?_) (good.push entry)
            (merging_push good merging takes) changedLater
          rcases groups_of_mem_shift member with ⟨before, isBefore, sameGroups⟩
          intro group inCursor
          rw [← sameGroups] at inCursor
          exact (advanced_of_mem advanced isBefore).1 group inCursor

/-- The row groups of a cursor hold no more rows than they say. -/
theorem remaining_length {cursor : Cursor C} (fresh : cursor.rows = []) :
    (remaining origin cursor).length ≤
      (cursor.groups.map fun group => group.rowEnd - group.rowStart).sum := by
  rw [remaining, fresh, List.nil_append, List.length_map]
  induction cursor.groups with
  | nil => exact le_rfl
  | cons group groups inductionHypothesis =>
      have here : (sortOldestFirst (origin.groupRows group)).length ≤ group.rowEnd - group.rowStart := by
        rw [sortOldestFirst, List.length_insertionSort, Location.groupRows]
        split
        · exact List.length_take_le _ _
        · exact Nat.zero_le _
      rw [List.flatMap_cons, List.length_append, List.map_cons, List.sum_cons]
      exact Nat.add_le_add here inductionHypothesis

/-- The files that a merge reads. -/
def sources (location : Location C) (files : List StoredObject) : List (List Position) :=
  files.map fun file => ((location.created[file.key]?).map sourceOf).getD []

theorem opened_sources {files : List StoredObject} (opened : List.Forall₂ (Opened alone origin) files cursors) :
    cursors.map (remaining origin) = sources origin files ∧
      (cursors.map (remaining origin)).flatten.length ≤ rowsLeft cursors ∧
        forall cursor, cursor ∈ cursors -> cursor.Reads alone origin := by
  induction opened with
  | nil => exact ⟨rfl, le_rfl, fun _ member => (List.not_mem_nil member).elim⟩
  | @cons file cursor files cursors first _ inductionHypothesis =>
      rcases inductionHypothesis with ⟨same, bounded, reads⟩
      rcases first.source with ⟨stored, isStored, isGroups⟩
      have here : remaining origin cursor = sourceOf stored := by
        rw [← remaining_opened isStored, ← isGroups, remaining, remaining, first.fresh]
      refine ⟨?_, ?_, fun other member => ?_⟩
      · rw [List.map_cons, same, here, sources, sources, List.map_cons, isStored]
        rfl
      · rw [List.map_cons, List.flatten_cons, List.length_append, rowsLeft, List.map_cons, List.sum_cons]
        exact Nat.add_le_add (remaining_length first.fresh) bounded
      · rcases List.mem_cons.mp member with rfl | later
        · exact first.reads
        · exact reads other later

/-- The rule of merges: with the rows of its files at hand, a merge goes on to write. -/
theorem mergeFiles_ensures {post : Bool -> Location C -> Prop} {partition : Partition}
    {files : List StoredObject} {targetBytes : Nat}
    (readable : forall file, file ∈ files -> Readable alone origin file.key)
    (changed : Changes alone origin now)
    (givesUp : alone = false -> forall later, Changes alone origin later -> post false later)
    (goesOn : forall merged later, MergeOf (sources origin files) merged -> Changes alone origin later ->
      (coldProtocol alone encoding).Ensures invariant post
        (do
          if ← writeAll partition (merged.close encoding) then
            removeAll files.length (files.map StoredObject.key)
          else return false) later) :
    (coldProtocol alone encoding).Ensures invariant post
      (mergeFiles encoding partition files targetBytes) now := by
  have failed : forall {later}, Changes alone origin later -> alone ≠ true ->
      (coldProtocol alone encoding).Ensures invariant post (.done false) later :=
    fun reached notAlone last more => givesUp (Bool.not_eq_true _ ▸ notAlone) last (reached.trans more)
  rw [mergeFiles]
  refine Protocol.Ensures.bind
    ((openCursors_ensures readable changed).weaken fun reply later found => ?_)
  rcases found with ⟨reached, through, opened⟩
  cases reply with
  | none => exact failed reached fun isAlone => Bool.false_ne_true (through isAlone)
  | some cursors =>
      rcases opened_sources (opened cursors rfl) with ⟨same, bounded, reads⟩
      have start : Merging oldness (sources origin files) [] (sources origin files) := Merging.start _
      rw [← same] at start
      refine Protocol.Ensures.bind ((mergeLoop_ensures (Nat.lt_succ_of_le bounded) reads
        Merged.good_initial start reached).weaken fun reply last found => ?_)
      rw [same] at found
      rcases found with ⟨reachedLast, through, merges⟩
      cases reply with
      | none => exact failed reachedLast fun isAlone => Bool.false_ne_true (through isAlone)
      | some merged => exact goesOn merged last (merges merged rfl) reachedLast

end Reading

end Parquet
end Telescope
