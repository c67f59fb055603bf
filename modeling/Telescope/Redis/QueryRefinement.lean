import Telescope.Redis.Query
import Telescope.Redis.Removal

namespace Telescope
namespace Redis

universe u

/-!
# Queries refine the reference

The scan of `get` stops only between two milliseconds, so what it has kept is
newer throughout than what it has not looked at.  Sorting the kept entries
therefore gives the opening of the sorted list of all entries the query asks
for, and the page cut from it is the page of the reference.
-/

variable {C : Type u} [JsonContent C]

open SortedIndex (Bound)
open Keyspace (visit ScanState)

/-! ## Where the scan stops -/

/-- The group a pass over some members leaves behind. -/
def groupAfter (members : List Text) (group : Option Text) : Option Text :=
  members.foldl (fun _ member => some (groupOf member)) group

theorem groupAfter_concat (members : List Text) (last : Text) (group : Option Text) :
    groupAfter (members ++ [last]) group = some (groupOf last) := by
  rw [groupAfter, List.foldl_append]
  rfl

omit [JsonContent C] in
/-- A pass keeps what it keeps for a front of the members, and breaks off only
with the page exceeded and a new group ahead. -/
theorem visit_spec (limit : Nat) (keptFor : Text -> Option (Entry C)) (members : List Text)
    (state : ScanState C) :
    Exists fun front => Exists fun back =>
      members = front ++ back ∧
        (visit limit keptFor members state).1.kept = state.kept ++ front.filterMap keptFor ∧
        (back = [] ∨
          (limit < (state.kept ++ front.filterMap keptFor).length ∧
            forall first rest, back = first :: rest ->
              some (groupOf first) ≠ groupAfter front state.groupInv)) := by
  induction members generalizing state with
  | nil => exact ⟨[], [], rfl, (List.append_nil _).symm, .inl rfl⟩
  | cons member members inductionHypothesis =>
      rw [visit]
      by_cases breaks : state.kept.length > limit ∧ some (groupOf member) ≠ state.groupInv
      · refine ⟨[], member :: members, rfl, ?_, .inr ⟨?_, ?_⟩⟩
        · rw [if_pos breaks, List.filterMap_nil, List.append_nil]
        · rw [List.filterMap_nil, List.append_nil]
          exact breaks.1
        · rintro first rest ⟨⟩
          exact breaks.2
      · have kept : forall front, (state.kept ++ (keptFor member).toList) ++
            front.filterMap keptFor = state.kept ++ (member :: front).filterMap keptFor := by
          intro front
          rw [List.append_assoc, List.filterMap_cons]
          cases keptFor member <;> rfl
        rcases inductionHypothesis
          { kept := state.kept ++ (keptFor member).toList
            groupInv := some (groupOf member)
            min := .strict member } with ⟨front, back, split, keptFront, stop⟩
        refine ⟨member :: front, back, by rw [split]; rfl, ?_, ?_⟩
        · rw [if_neg breaks, ← kept]
          exact keptFront
        · rw [← kept]
          exact stop

/-! ## What the scan keeps -/

/-- The content a scan reads. -/
def readFor (query : EntryQuery) (entry : Entry C) : Entry C :=
  if Keyspace.readsWithoutContent query then entry.withoutContent else entry

/-- The tests a scan makes on an entry. -/
def keeps (query : EntryQuery) (cursor : Option Position) (entry : Entry C) : Bool :=
  !Keyspace.alreadyReturned cursor entry &&
    !(Keyspace.needsPostFilter query (Keyspace.primaryIndexKey query) &&
      !Keyspace.matchesSecondary entry query (Keyspace.primaryIndexKey query))

theorem readFor_position (query : EntryQuery) (entry : Entry C) :
    (readFor query entry).position = entry.position := by
  unfold readFor
  split <;> rfl

theorem project_readFor (query : EntryQuery) (entry : Entry C) :
    query.project (readFor query entry) = query.project entry := by
  unfold readFor
  split
  · rename_i contentless
    rw [Keyspace.readsWithoutContent, Bool.and_eq_true] at contentless
    rw [EntryQuery.project, EntryQuery.project, if_pos contentless.1, if_pos contentless.1]
    rfl
  · rfl

/-- A scan without content does not search. -/
theorem keeps_readFor (query : EntryQuery) (cursor : Option Position) (entry : Entry C) :
    keeps query cursor (readFor query entry) = keeps query cursor entry := by
  unfold readFor
  split
  · rename_i contentless
    rw [Keyspace.readsWithoutContent, Bool.and_eq_true, Option.isNone_iff_eq_none] at contentless
    rw [keeps, keeps, Keyspace.matchesSecondary, Keyspace.matchesSecondary, contentless.2]
    rfl
  · rfl

variable {contents : List (Entry C)} {entry : Entry C}

theorem keptFor_member {keyspace : Keyspace C} (represents : Represents contents keyspace) (query : EntryQuery)
    (cursor : Option Position) (member : entry ∈ contents) :
    keyspace.keptFor query cursor (entryMember entry) =
      if keeps query cursor entry = true then some (readFor query entry) else none := by
  have read : keyspace.readEntry (Keyspace.readsWithoutContent query)
      (idFromMember (entryMember entry)) = some (readFor query entry) := by
    unfold readFor
    split
    · rename_i contentless
      rw [contentless]
      exact represents.readEntry member
    · rename_i contentful
      rw [Bool.not_eq_true] at contentful
      rw [contentful, entryMember, idFromMember_lexMember]
      exact (represents.entries entry.id entry).mpr ⟨member, rfl⟩
  rw [Keyspace.keptFor, read, ← keeps_readFor]
  dsimp only
  rw [keeps]
  cases Keyspace.alreadyReturned cursor (readFor query entry) with
  | true => rfl
  | false =>
      cases Keyspace.needsPostFilter query (Keyspace.primaryIndexKey query) &&
        !Keyspace.matchesSecondary (readFor query entry) query (Keyspace.primaryIndexKey query) with
      | true => rfl
      | false => rfl

theorem filterMap_keptFor {selected : List (Entry C)} {keyspace : Keyspace C}
    (represents : Represents contents keyspace) (query : EntryQuery) (cursor : Option Position)
    (subset : forall entry, entry ∈ selected -> entry ∈ contents) :
    (selected.map entryMember).filterMap (keyspace.keptFor query cursor) =
      (selected.filter (keeps query cursor)).map (readFor query) := by
  induction selected with
  | nil => rfl
  | cons entry selected inductionHypothesis =>
      have rest := inductionHypothesis fun other found =>
        subset other (List.mem_cons_of_mem _ found)
      rw [List.map_cons, List.filterMap_cons,
        keptFor_member represents query cursor (subset entry (List.mem_cons_self ..)), rest,
        List.filter_cons]
      by_cases accepted : keeps query cursor entry = true
      · rw [if_pos accepted, if_pos accepted]
        rfl
      · rw [if_neg accepted, if_neg accepted]

/-! ## The entries of the range -/

/-- The bounds of the window denote their instants. -/
def WindowInRange (query : EntryQuery) : Prop :=
  (forall before, before ∈ query.before -> 1 ≤ before) ∧
    forall after, after ∈ query.after -> 0 ≤ after

omit [JsonContent C] in
/-- Raising a lower bound to the cursor's millisecond. -/
theorem below_resumeBound {min : Bound Text} (least : min = .lowest ∨ Exists fun key => min = .closed key)
    (cursor : Option Position) (member : Text) :
    (Keyspace.resumeBound min cursor).below member = true <->
      min.below member = true ∧
        forall position, position ∈ cursor ->
          (Bound.closed (invBound position.createdAt)).below member = true := by
  cases cursor with
  | none => exact (and_iff_left fun _ found => by cases found).symm
  | some position =>
      have single : (forall found, found ∈ some position ->
          (Bound.closed (invBound found.createdAt)).below member = true) <->
            (Bound.closed (invBound position.createdAt)).below member = true :=
        ⟨fun all => all position rfl, fun one found same => Option.some.inj same ▸ one⟩
      rw [single]
      rcases least with rfl | ⟨key, rfl⟩
      · exact (and_iff_right rfl).symm
      · rw [Keyspace.resumeBound]
        split
        · rename_i raised
          refine (and_iff_right_of_imp fun above => ?_).symm
          exact SortedIndex.below_closed.mpr
            (le_trans (le_of_lt raised) (SortedIndex.below_closed.mp above))
        · rename_i notRaised
          refine (and_iff_left_of_imp fun above => ?_).symm
          exact SortedIndex.below_closed.mpr
            (le_trans (not_lt.mp notRaised) (SortedIndex.below_closed.mp above))

/-- The window as the bounds of the scan admit it. -/
def Admits (query : EntryQuery) (entry : Entry C) : Prop :=
  (Keyspace.minBound query).below (entryMember entry) = true ∧
    (Keyspace.maxBound query).above (entryMember entry) = true

instance (query : EntryQuery) (entry : Entry C) : Decidable (Admits query entry) :=
  inferInstanceAs (Decidable (_ ∧ _))

/-- The window a query asks for. -/
def InWindow (query : EntryQuery) (entry : Entry C) : Prop :=
  (forall before, before ∈ query.before -> entry.createdAt < before) ∧
    forall after, after ∈ query.after -> after < entry.createdAt

/-- The window with the instants its bounds are read as. -/
def ReadWindow (query : EntryQuery) (entry : Entry C) : Prop :=
  (forall before, before ∈ query.before -> entry.createdAt ≤ readAs (before - 1)) ∧
    forall after, after ∈ query.after -> readAs after < entry.createdAt

omit [JsonContent C] in
/-- The bounds of the scan admit the window as they are read. -/
theorem admits_iff (query : EntryQuery) (inRange : InRange entry.createdAt) :
    Admits query entry <-> ReadWindow query entry := by
  have min : (Keyspace.minBound query).below (entryMember entry) = true <->
      forall before, before ∈ query.before -> entry.createdAt ≤ readAs (before - 1) := by
    unfold Keyspace.minBound
    split
    · rename_i before found
      rw [entryMember, closed_below_iff (before - 1) inRange, found]
      exact ⟨fun older other same => Option.some.inj same ▸ older, fun all => all before rfl⟩
    · rename_i absent
      rw [absent]
      exact iff_of_true rfl fun _ found => by cases found
  have max : (Keyspace.maxBound query).above (entryMember entry) = true <->
      forall after, after ∈ query.after -> readAs after < entry.createdAt := by
    unfold Keyspace.maxBound
    split
    · rename_i after found
      rw [entryMember, strict_above_iff after inRange, found]
      exact ⟨fun newer other same => Option.some.inj same ▸ newer, fun all => all after rfl⟩
    · rename_i absent
      rw [absent]
      exact iff_of_true rfl fun _ found => by cases found
  rw [Admits, min, max, ReadWindow]

variable {query : EntryQuery}

omit [JsonContent C] in
/-- Bounds that denote their instants are read as the window. -/
theorem readWindow_iff (window : WindowInRange query) (entry : Entry C) :
    ReadWindow query entry <-> InWindow query entry := by
  refine and_congr (forall_congr' fun before => forall_congr' fun found => ?_)
    (forall_congr' fun after => forall_congr' fun found => ?_)
  · have fromEpoch := window.1 before found
    rw [readAs_fromEpoch (by omega), Int.le_sub_one_iff]
  · rw [readAs_fromEpoch (window.2 after found)]

omit [JsonContent C] in
/-- The range of the scan: the window, from the cursor's millisecond on. -/
theorem range_bounds_iff (query : EntryQuery) {cursor : Option Position}
    (resumable : forall position, position ∈ cursor -> 0 ≤ position.createdAt) (inRange : InRange entry.createdAt) :
    (Keyspace.resumeBound (Keyspace.minBound query) cursor).below (entryMember entry) = true ∧
        (Keyspace.maxBound query).above (entryMember entry) = true <->
      Admits query entry ∧
        forall position, position ∈ cursor -> entry.createdAt ≤ position.createdAt := by
  have least : Keyspace.minBound query = .lowest ∨
      Exists fun key => Keyspace.minBound query = .closed key := by
    unfold Keyspace.minBound
    split
    · exact .inr ⟨_, rfl⟩
    · exact .inl rfl
  have resume : (forall position, position ∈ cursor ->
      (Bound.closed (invBound position.createdAt)).below (entryMember entry) = true) <->
        forall position, position ∈ cursor -> entry.createdAt ≤ position.createdAt :=
    forall_congr' fun position => forall_congr' fun found =>
      (closed_below_iff position.createdAt inRange entry.id).trans
        (by rw [readAs_fromEpoch (resumable position found)])
  rw [below_resumeBound least, resume, and_right_comm, Admits]

omit [JsonContent C] in
theorem all_iff {α : Type} (option : Option α) (test : α -> Bool) (property : α -> Prop)
    (decides : forall value, test value = true <-> property value) :
    option.all test = true <-> forall value, value ∈ option -> property value := by
  rw [Option.all_eq_true]
  exact forall_congr' fun value => forall_congr' fun _ => decides value

/-- The filters that no window or identifier is part of. -/
def FieldsMatch (query : EntryQuery) (entry : Entry C) : Prop :=
  (forall type, type ∈ query.type -> entry.type = type) ∧
    (forall tag, tag ∈ query.tag -> tag ∈ entry.tags) ∧
    (forall family, family ∈ query.familyHash -> entry.familyHash = some family) ∧
    (forall batchId, batchId ∈ query.batchId -> entry.batchId = batchId) ∧
    (forall traceId, traceId ∈ query.traceId -> entry.traceId = some traceId) ∧
    forall search, search ∈ query.search -> contentIncludes entry.content search = true

instance (query : EntryQuery) (entry : Entry C) : Decidable (FieldsMatch query entry) :=
  inferInstanceAs (Decidable (_ ∧ _))

/-- A listed entry that meets the secondary predicates meets all of them. -/
theorem matchesSecondary_iff (query : EntryQuery) (entry : Entry C) (indexKey : IndexKey)
    (listed : indexKey ∈ indexKeys entry) :
    Keyspace.matchesSecondary entry query indexKey = true <-> FieldsMatch query entry := by
  have type : (query.type.all fun type => indexKey == .type type || entry.type == type) = true <->
      forall type, type ∈ query.type -> entry.type = type := by
    refine all_iff _ _ _ fun type => ?_
    rw [Bool.or_eq_true, beq_iff_eq, beq_iff_eq]
    refine or_iff_right_of_imp fun same => ?_
    exact mem_indexKeys_type.mp (same ▸ listed)
  have tag : (query.tag.all fun tag => indexKey == .tag tag || decide (tag ∈ entry.tags)) = true <->
      forall tag, tag ∈ query.tag -> tag ∈ entry.tags := by
    refine all_iff _ _ _ fun tag => ?_
    rw [Bool.or_eq_true, beq_iff_eq, decide_eq_true_eq]
    refine or_iff_right_of_imp fun same => ?_
    exact mem_indexKeys_tag.mp (same ▸ listed)
  have family : (query.familyHash.all fun family =>
      indexKey == .family family || entry.familyHash == some family) = true <->
        forall family, family ∈ query.familyHash -> entry.familyHash = some family := by
    refine all_iff _ _ _ fun family => ?_
    rw [Bool.or_eq_true, beq_iff_eq, beq_iff_eq]
    refine or_iff_right_of_imp fun same => ?_
    exact mem_indexKeys_family.mp (same ▸ listed)
  rw [Keyspace.matchesSecondary, Bool.and_eq_true, Bool.and_eq_true, Bool.and_eq_true,
    Bool.and_eq_true, Bool.and_eq_true, type, tag, family,
    all_iff _ _ _ fun _ => beq_iff_eq, all_iff _ _ _ fun _ => beq_iff_eq,
    all_iff _ _ _ fun _ => Iff.rfl]
  simp only [FieldsMatch, and_assoc]

/-- Without a post filter the index decides everything. -/
theorem matchesSecondary_of_notNeeded {indexKey : IndexKey}
    (notNeeded : Keyspace.needsPostFilter query indexKey = false) (entry : Entry C) :
    Keyspace.matchesSecondary entry query indexKey = true := by
  rw [Keyspace.needsPostFilter] at notNeeded
  simp only [Bool.or_eq_false_iff, Option.any_eq_false, bne_eq_false_iff_eq,
    Option.isSome_eq_false_iff, Option.isNone_iff_eq_none] at notNeeded
  rcases notNeeded with ⟨⟨⟨⟨⟨type, tag⟩, family⟩, batchId⟩, traceId⟩, search⟩
  simp only [Keyspace.matchesSecondary, batchId, traceId, search, Option.all_none, Bool.and_true,
    Bool.and_eq_true, Option.all_eq_true, Bool.or_eq_true, beq_iff_eq]
  exact ⟨⟨fun value found => .inl (type value found), fun value found => .inl (tag value found)⟩,
    fun value found => .inl (family value found)⟩

omit [JsonContent C] in
/-- An entry that matches is listed under the primary index of the query. -/
theorem mem_primaryIndexKey (type : forall type, type ∈ query.type -> entry.type = type)
    (tag : forall tag, tag ∈ query.tag -> tag ∈ entry.tags)
    (family : forall family, family ∈ query.familyHash -> entry.familyHash = some family) :
    Keyspace.primaryIndexKey query ∈ indexKeys entry := by
  unfold Keyspace.primaryIndexKey
  split
  · rename_i found
    exact mem_indexKeys_family.mpr (family _ found)
  · split
    · rename_i found
      exact mem_indexKeys_type.mpr (type _ found)
    · split
      · rename_i found
        exact mem_indexKeys_tag.mpr (tag _ found)
      · exact mem_indexKeys_all entry

/-- Index and post filter together are the filters on fields. -/
theorem fields_iff (query : EntryQuery) (entry : Entry C) :
    (Keyspace.primaryIndexKey query ∈ indexKeys entry ∧
        (!(Keyspace.needsPostFilter query (Keyspace.primaryIndexKey query) &&
          !Keyspace.matchesSecondary entry query (Keyspace.primaryIndexKey query))) = true) <->
      FieldsMatch query entry := by
  have filtered : (!(Keyspace.needsPostFilter query (Keyspace.primaryIndexKey query) &&
      !Keyspace.matchesSecondary entry query (Keyspace.primaryIndexKey query))) =
        Keyspace.matchesSecondary entry query (Keyspace.primaryIndexKey query) := by
    cases needed : Keyspace.needsPostFilter query (Keyspace.primaryIndexKey query) with
    | false => rw [matchesSecondary_of_notNeeded needed entry]; rfl
    | true => rw [Bool.true_and, Bool.not_not]
  rw [filtered]
  constructor
  · rintro ⟨listed, secondary⟩
    exact (matchesSecondary_iff query entry _ listed).mp secondary
  · intro fieldsMatch
    have listed := mem_primaryIndexKey fieldsMatch.1 fieldsMatch.2.1 fieldsMatch.2.2.1
    exact ⟨listed, (matchesSecondary_iff query entry _ listed).mpr fieldsMatch⟩

theorem matches_iff (noIds : query.ids = none) (entry : Entry C) :
    query.Matches entry <-> FieldsMatch query entry ∧ InWindow query entry := by
  have ids : (forall ids, ids ∈ query.ids -> entry.id ∈ ids) <-> True :=
    iff_true_intro fun _ found => by rw [noIds] at found; cases found
  rw [EntryQuery.Matches, ids, true_and, FieldsMatch, InWindow]
  simp only [and_assoc]

omit [JsonContent C] in
/-- Skipping the returned part of the cursor's millisecond. -/
theorem behindCursor_iff (cursor : Option Position) (entry : Entry C) :
    behindCursor cursor entry = true <->
      (forall position, position ∈ cursor -> entry.createdAt ≤ position.createdAt) ∧
        (!Keyspace.alreadyReturned cursor entry) = true := by
  cases cursor with
  | none => exact iff_of_true rfl ⟨(fun _ found => by cases found), rfl⟩
  | some position =>
      have single : (forall found, found ∈ some position -> entry.createdAt ≤ found.createdAt) <->
          entry.createdAt ≤ position.createdAt :=
        ⟨fun all => all position rfl, fun one found same => Option.some.inj same ▸ one⟩
      rw [single, behindCursor, Option.all_some, decide_eq_true_eq, Keyspace.alreadyReturned,
        Option.any_some, Bool.not_eq_true', Bool.and_eq_false_iff, decide_eq_false_iff_not,
        Bool.not_eq_false', decide_eq_true_eq, Position.Newer, Entry.position]
      constructor
      · rintro (older | ⟨same, before⟩)
        · exact ⟨le_of_lt older, .inl older.ne⟩
        · exact ⟨le_of_eq same.symm, .inr before⟩
      · rintro ⟨notNewer, different | before⟩
        · exact .inl (lt_of_le_of_ne notNewer different)
        · rcases lt_or_eq_of_le notNewer with older | same
          · exact .inl older
          · exact .inr ⟨same.symm, before⟩

/-! ## The page -/

theorem openPage_toPage (query : EntryQuery) (entries : List (Entry C)) :
    (Keyspace.openPage query entries).toPage =
      Keyset.firstPage cursorOf (Keyspace.resolveLimit query.limit) (entries.map query.project) := by
  rw [Keyspace.openPage, Keyset.firstPage, List.length_map, ← List.map_take, cursorBehind_project]

omit [JsonContent C] in
theorem sortNewestFirst_map (transform : Entry C -> Entry C)
    (position : forall entry, (transform entry).position = entry.position)
    (entries : List (Entry C)) :
    (sortNewestFirst entries).map transform = sortNewestFirst (entries.map transform) := by
  refine List.map_insertionSort _ _ transform entries fun left _ right _ => ?_
  rw [Entry.Newer, Entry.Newer, position, position]

theorem openPage_readFor (query : EntryQuery) (entries : List (Entry C)) :
    (Keyspace.openPage query (sortNewestFirst (entries.map (readFor query)))).toPage =
      Keyset.firstPage cursorOf (Keyspace.resolveLimit query.limit)
        ((sortNewestFirst entries).map query.project) := by
  rw [openPage_toPage, ← sortNewestFirst_map _ (readFor_position query), List.map_map]
  congr 1
  exact List.map_congr_left fun entry _ => project_readFor query entry

omit [JsonContent C] in
/-- Across a group boundary of the index, entries get strictly older. -/
theorem newer_across {front back : List (Entry C)}
    (inRange : forall entry, entry ∈ front ++ back -> InRange entry.createdAt)
    (ascending : (front ++ back).Pairwise fun first second =>
      entryMember first < entryMember second)
    (boundary : forall first rest, back.map entryMember = first :: rest ->
      some (groupOf first) ≠ groupAfter (front.map entryMember) none)
    {left right : Entry C} (leftFront : left ∈ front) (rightBack : right ∈ back) :
    right.createdAt < left.createdAt := by
  have older : forall first second : Entry C, InRange first.createdAt -> InRange second.createdAt ->
      entryMember first < entryMember second -> second.createdAt ≤ first.createdAt := by
    intro first second firstInRange secondInRange below
    by_contra newer
    exact lt_asymm below
      (lexMember_lt_of_newer firstInRange secondInRange (not_le.mp newer) second.id first.id)
  cases back with
  | nil => cases rightBack
  | cons next back =>
      rcases List.eq_nil_or_concat' front with rfl | ⟨earlier, last, rfl⟩
      · cases leftFront
      · have lastMember : last ∈ (earlier ++ [last]) ++ next :: back :=
          List.mem_append_left _ (List.mem_append_right _ (List.mem_singleton_self last))
        have nextMember : next ∈ (earlier ++ [last]) ++ next :: back :=
          List.mem_append_right _ (List.mem_cons_self ..)
        have lastInRange := inRange last lastMember
        have nextInRange := inRange next nextMember
        rcases List.pairwise_append.mp ascending with ⟨frontAscending, backAscending, across⟩
        have lastNext := across last (List.mem_append_right _ (List.mem_singleton_self last)) next
          (List.mem_cons_self ..)
        have different := boundary _ _ rfl
        rw [List.map_append, List.map_singleton, groupAfter_concat, entryMember, entryMember,
          groupOf_lexMember, groupOf_lexMember] at different
        have strictly : next.createdAt < last.createdAt :=
          lt_of_le_of_ne (older last next lastInRange nextInRange lastNext)
            fun same => different (by rw [same])
        have leftOlder : last.createdAt ≤ left.createdAt := by
          rcases List.mem_append.mp leftFront with inEarlier | isLast
          · exact older left last (inRange left (List.mem_append_left _ leftFront)) lastInRange
              ((List.pairwise_append.mp frontAscending).2.2 left inEarlier last
                (List.mem_singleton_self last))
          · rw [List.mem_singleton.mp isLast]
        have rightOlder : right.createdAt ≤ next.createdAt := by
          rcases List.mem_cons.mp rightBack with isNext | later
          · rw [isNext]
          · exact older next right nextInRange
              (inRange right (List.mem_append_right _ rightBack))
              ((List.pairwise_cons.mp backAscending).1 right later)
        omega

omit [JsonContent C] in
/-- A pass that broke off between groups opens the page of the whole range. -/
theorem firstPage_of_front {front back : List (Entry C)} (accepts : Entry C -> Bool) (limit : Nat)
    (transform : Entry C -> Entry C)
    (distinct : Entry.DistinctIds (front ++ back))
    (newer : forall left, left ∈ front -> forall right, right ∈ back ->
      right.createdAt < left.createdAt)
    (stop : back = [] ∨ limit < (front.filter accepts).length) :
    Keyset.firstPage cursorOf limit ((sortNewestFirst (front.filter accepts)).map transform) =
      Keyset.firstPage cursorOf limit
        ((sortNewestFirst ((front ++ back).filter accepts)).map transform) := by
  rcases stop with rfl | full
  · rw [List.append_nil]
  · have distinctKept : Entry.DistinctIds (front.filter accepts ++ back.filter accepts) := by
      rw [← List.filter_append]
      exact Entry.distinctIds_sublist List.filter_sublist distinct
    rw [List.filter_append, sortNewestFirst_append distinctKept, List.map_append,
      Keyset.firstPage_append]
    · rwa [List.length_map, length_sortNewestFirst]
    · intro left leftKept right rightKept
      exact .inl (newer left (List.mem_of_mem_filter leftKept) right
        (List.mem_of_mem_filter rightKept))

/-- What a scan selects: the filters on fields and the window its bounds admit. -/
def scanResults (query : EntryQuery) (contents : List (Entry C)) : List (Entry C) :=
  sortNewestFirst (contents.filter fun entry =>
    decide (FieldsMatch query entry ∧ Admits query entry))

/-- The scan of a consistent keyspace returns, and its page opens what it selects
behind the cursor. -/
theorem get_spec {keyspace : Keyspace C} (represents : Represents contents keyspace)
    (inRange : forall entry, entry ∈ contents -> InRange entry.createdAt) (query : EntryQuery)
    (noIds : query.ids = none) (resumable : forall position, position ∈ query.cursor.bind decodeCursor ->
      0 ≤ position.createdAt) :
    Exists fun page =>
      keyspace.get query = some page ∧
        page.toPage = Keyset.firstPage cursorOf (Keyspace.resolveLimit query.limit)
          (((scanResults query contents).filter
            (behindCursor (query.cursor.bind decodeCursor))).map query.project) := by
  generalize cursorEq : query.cursor.bind decodeCursor = cursor at resumable
  have sorted := (keyspace.index (Keyspace.primaryIndexKey query)).range_sorted
    (Keyspace.resumeBound (Keyspace.minBound query) cursor) (Keyspace.maxBound query)
  generalize listed : (keyspace.index (Keyspace.primaryIndexKey query)).range
    (Keyspace.resumeBound (Keyspace.minBound query) cursor) (Keyspace.maxBound query) = members
    at sorted
  have inIndex : forall member, member ∈ members ->
      member ∈ keyspace.index (Keyspace.primaryIndexKey query) ∧
        (Keyspace.resumeBound (Keyspace.minBound query) cursor).below member = true ∧
        (Keyspace.maxBound query).above member = true := by
    intro member found
    rw [← listed] at found
    exact SortedIndex.mem_range.mp found
  rcases exists_selection represents (sorted.imp fun below => below.ne)
    (fun member found => (inIndex member found).1) with ⟨selected, selection, rfl, keyed⟩
  have scanned := Keyspace.scan_eq_visit (keyspace.index (Keyspace.primaryIndexKey query))
    (Keyspace.maxBound query) (Keyspace.resolveLimit query.limit) (keyspace.keptFor query cursor)
    ((keyspace.index (Keyspace.primaryIndexKey query)).members.length + 1)
    { kept := [], groupInv := none,
      min := Keyspace.resumeBound (Keyspace.minBound query) cursor }
    (Nat.lt_succ_of_le (List.length_filter_le _ _))
  rw [listed] at scanned
  rcases visit_spec (Keyspace.resolveLimit query.limit) (keyspace.keptFor query cursor)
    (selected.map entryMember)
    { kept := [], groupInv := none,
      min := Keyspace.resumeBound (Keyspace.minBound query) cursor } with
    ⟨frontMembers, backMembers, split, kept, stop⟩
  rcases List.map_eq_append_iff.mp split with ⟨front, back, rfl, rfl, rfl⟩
  have frontKept := filterMap_keptFor represents query cursor
    fun entry found => selection.subset entry (List.mem_append_left back found)
  rw [List.nil_append, frontKept] at kept
  rw [List.nil_append, frontKept, List.length_map] at stop
  refine ⟨Keyspace.openPage query
    (sortNewestFirst ((front.filter (keeps query cursor)).map (readFor query))), ?_, ?_⟩
  · rw [Keyspace.get, noIds]
    dsimp only
    rw [cursorEq, scanned, kept]
    rfl
  · have perm : ((front ++ back).filter (keeps query cursor)).Perm
        ((contents.filter fun entry =>
          decide (FieldsMatch query entry ∧ Admits query entry)).filter (behindCursor cursor)) := by
      refine (List.perm_ext_iff_of_nodup ?_ ?_).mpr fun entry => ?_
      · exact (List.Nodup.of_map _ selection.distinct).filter _
      · exact ((List.Nodup.of_map _ represents.distinct).filter _).filter _
      · rw [List.mem_filter, List.mem_filter, List.mem_filter, decide_eq_true_eq]
        constructor
        · rintro ⟨found, accepted⟩
          have stored := selection.subset entry found
          have bounds := (range_bounds_iff query resumable (inRange entry stored)).mp
            (inIndex _ (List.mem_map_of_mem found)).2
          rw [keeps, Bool.and_eq_true] at accepted
          exact ⟨⟨stored, (fields_iff query entry).mp ⟨keyed entry found, accepted.2⟩, bounds.1⟩,
            (behindCursor_iff cursor entry).mpr ⟨bounds.2, accepted.1⟩⟩
        · rintro ⟨⟨stored, fieldsMatch, admitted⟩, behind⟩
          rcases (behindCursor_iff cursor entry).mp behind with ⟨notNewer, notReturned⟩
          rcases (fields_iff query entry).mpr fieldsMatch with ⟨inKey, filtered⟩
          have bounds := (range_bounds_iff query resumable (inRange entry stored)).mpr
            ⟨admitted, notNewer⟩
          have isListed : entryMember entry ∈ (front ++ back).map entryMember := by
            rw [← listed]
            exact SortedIndex.mem_range.mpr
              ⟨(represents.index _ _).mpr ⟨entry, stored, inKey, rfl⟩, bounds⟩
          rcases List.mem_map.mp isListed with ⟨other, otherSelected, same⟩
          have isEntry := Entry.eq_of_id represents.distinct
            (selection.subset other otherSelected) stored (lexMember_injective_id same)
          rw [keeps, Bool.and_eq_true]
          exact ⟨isEntry ▸ otherSelected, notReturned, filtered⟩
    have acrossGroups : back = [] ∨ Keyspace.resolveLimit query.limit <
        (front.filter (keeps query cursor)).length := by
      rcases stop with empty | ⟨full, _⟩
      · exact .inl (List.map_eq_nil_iff.mp empty)
      · exact .inr full
    have newer : forall left, left ∈ front -> forall right, right ∈ back ->
        right.createdAt < left.createdAt := by
      intro left leftFront right rightBack
      rcases stop with empty | ⟨_, boundary⟩
      · rw [List.map_eq_nil_iff.mp empty] at rightBack
        cases rightBack
      · exact newer_across (fun entry found => inRange entry (selection.subset entry found))
          (List.pairwise_map.mp sorted) boundary leftFront rightBack
    rw [openPage_readFor, firstPage_of_front _ _ _ selection.distinct newer acrossGroups,
      scanResults,
      sortNewestFirst_congr (Entry.distinctIds_sublist List.filter_sublist selection.distinct) perm,
      sortNewestFirst_filter (Entry.distinctIds_sublist List.filter_sublist represents.distinct)]

/-- No bound of the window is read as an instant on the other side of a stored
entry that meets the other filters. -/
def ReadExactly (query : EntryQuery) (contents : List (Entry C)) : Prop :=
  forall entry, entry ∈ contents -> FieldsMatch query entry ->
    (ReadWindow query entry <-> InWindow query entry)

theorem readExactly_of_window (window : WindowInRange query) (contents : List (Entry C)) :
    ReadExactly query contents :=
  fun entry _ _ => readWindow_iff window entry

theorem mem_scanResults (inRange : forall entry, entry ∈ contents -> InRange entry.createdAt) :
    entry ∈ scanResults query contents <->
      entry ∈ contents ∧ FieldsMatch query entry ∧ ReadWindow query entry := by
  rw [scanResults, mem_sortNewestFirst, List.mem_filter, decide_eq_true_eq]
  exact and_congr_right fun stored =>
    and_congr_right fun _ => admits_iff query (inRange entry stored)

/-- A scan selects the results of the query exactly when the bounds are read
exactly. -/
theorem scanResults_eq_iff (distinct : Entry.DistinctIds contents)
    (inRange : forall entry, entry ∈ contents -> InRange entry.createdAt) (noIds : query.ids = none) :
    (scanResults query contents).map query.project = query.results contents <->
      ReadExactly query contents := by
  constructor
  · intro same entry stored fields
    have listed : entry ∈ scanResults query contents <->
        entry ∈ sortNewestFirst (contents.filter fun entry => decide (query.Matches entry)) := by
      have across : forall left right : List (Entry C), left.map query.project =
          right.map query.project -> (forall other, other ∈ right -> other ∈ contents) ->
          entry ∈ left -> entry ∈ right := by
        intro left right same stored' member
        have projected := List.mem_map_of_mem (f := query.project) member
        rw [same] at projected
        rcases List.mem_map.mp projected with ⟨other, inRight, equal⟩
        have positions := congrArg Entry.position equal
        rw [EntryQuery.position_project, EntryQuery.position_project] at positions
        rwa [← Entry.eq_of_id distinct (stored' other inRight) stored
          (congrArg Position.id positions)]
      exact ⟨across _ _ same fun other member =>
          List.mem_of_mem_filter (mem_sortNewestFirst.mp member),
        across _ _ same.symm fun other member =>
          List.mem_of_mem_filter (mem_sortNewestFirst.mp member)⟩
    rw [mem_scanResults inRange, mem_sortNewestFirst, List.mem_filter, decide_eq_true_eq,
      matches_iff noIds] at listed
    exact ⟨fun read => (listed.mp ⟨stored, fields, read⟩).2.2,
      fun inWindow => (listed.mpr ⟨stored, fields, inWindow⟩).2.2⟩
  · intro exactly
    rw [scanResults, EntryQuery.results]
    congr 2
    refine List.filter_congr fun entry member => decide_eq_decide.mpr ?_
    rw [matches_iff noIds, admits_iff query (inRange entry member)]
    exact and_congr_right fun fields => exactly entry member fields

end Redis
end Telescope
