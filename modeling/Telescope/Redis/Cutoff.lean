import Telescope.Redis.BoundedPrune
import Telescope.Redis.Paging

namespace Telescope
namespace Redis

universe u

/-!
# Cutoffs

Every prune and every window turns an instant into a bound of the index.  From
one millisecond after the epoch on, the bound of a prune splits the entries by
their instant, also far beyond the padded range.  A cutoff at or before the epoch
is read as an instant of the far future: nothing is older than the cutoff, and
what is older than that instant is deleted unless the count of kept entries or
the scan budget happens to stop the call.
-/

variable {C : Type u}

/-! ## What a prune takes for older -/

/-- The entries a scope takes for older than its cutoff: those of its index, up
to the instant its bound is read as. -/
def TakenForOlder (scope : TypeScope) (entry : Entry C) : Prop :=
  scopeIndex scope ∈ indexKeys entry ∧ entry.createdAt ≤ readAs (scope.before - 1)

instance (scope : TypeScope) (entry : Entry C) : Decidable (TakenForOlder scope entry) :=
  inferInstanceAs (Decidable (_ ∧ _))

/-- How many entries taken for older stand in front of an entry in the index. -/
def takenInFront (contents : List (Entry C)) (scope : TypeScope) (entry : Entry C) : Nat :=
  contents.countP fun other =>
    decide (TakenForOlder scope other ∧ entryMember other < entryMember entry)

/-- How many stand behind it. -/
def takenBehind (contents : List (Entry C)) (scope : TypeScope) (entry : Entry C) : Nat :=
  contents.countP fun other =>
    decide (TakenForOlder scope other ∧ entryMember entry < entryMember other)

/-- Every selected entry taken for older is among the newest that are kept. -/
def AllKept (contents : List (Entry C)) (scope : TypeScope) (keepLast : Option Int) : Prop :=
  forall entry, entry ∈ contents -> TakenForOlder scope entry -> scope.Selects entry.type ->
    takenInFront contents scope entry < keepCount keepLast

/-- Every selected entry taken for older lies beyond the scan budget. -/
def AllBeyondBudget (contents : List (Entry C)) (input : BoundedPruneScope) : Prop :=
  forall entry, entry ∈ contents -> TakenForOlder input.toTypeScope entry ->
    input.Selects entry.type ->
    input.limit * Keyspace.SCAN_BUDGET_MULTIPLE ≤ takenBehind contents input.toTypeScope entry

section Ranks

variable {contents old : List (Entry C)} {scope : TypeScope}

theorem mem_old_iff (inRange : forall entry, entry ∈ contents -> InRange entry.createdAt)
    (oldEntries : OldEntries contents (scopeIndex scope) (Keyspace.pruneBoundary scope.before) old)
    {entry : Entry C} (stored : entry ∈ contents) :
    entry ∈ old <-> TakenForOlder scope entry :=
  (oldEntries.complete entry stored).trans
    (and_congr_right fun _ => closed_below_iff _ (inRange entry stored) entry.id)

/-- Counting among the old entries is counting what is taken for older. -/
theorem countP_old (inRange : forall entry, entry ∈ contents -> InRange entry.createdAt)
    (distinct : Entry.DistinctIds contents)
    (oldEntries : OldEntries contents (scopeIndex scope) (Keyspace.pruneBoundary scope.before) old)
    (test : Entry C -> Prop) [DecidablePred test] :
    (old.countP fun other => decide (test other)) =
      contents.countP fun other => decide (TakenForOlder scope other ∧ test other) := by
  have perm : old.Perm (contents.filter fun other => decide (TakenForOlder scope other)) := by
    refine (List.perm_ext_iff_of_nodup (List.Nodup.of_map _ oldEntries.selection.distinct)
      ((List.Nodup.of_map _ distinct).filter _)).mpr fun entry => ?_
    rw [List.mem_filter, decide_eq_true_eq]
    constructor
    · intro found
      have stored := oldEntries.selection.subset entry found
      exact ⟨stored, (mem_old_iff inRange oldEntries stored).mp found⟩
    · exact fun ⟨stored, taken⟩ => (mem_old_iff inRange oldEntries stored).mpr taken
  rw [perm.countP_eq, List.countP_filter]
  refine List.countP_congr fun other _ => ?_
  rw [← Bool.decide_and, decide_eq_true_eq, decide_eq_true_eq, and_comm]

/-- A prune without a sound boundary still spares what it keeps. -/
theorem nothingGone_iff_allKept
    (inRange : forall entry, entry ∈ contents -> InRange entry.createdAt)
    (distinct : Entry.DistinctIds contents)
    (oldEntries : OldEntries contents (scopeIndex scope) (Keyspace.pruneBoundary scope.before) old)
    (keepLast : Option Int) :
    (old.reverse.drop (keepCount keepLast)).filter (notSpared (scopeExclusion scope)) = [] <->
      AllKept contents scope keepLast := by
  have ranked : forall entry, entry ∈ old ->
      (entry ∈ old.reverse.drop (keepCount keepLast) <->
        keepCount keepLast ≤ takenInFront contents scope entry) := by
    intro entry found
    have ascending : old.reverse.Pairwise fun first second =>
        entryMember first < entryMember second := List.pairwise_reverse.mpr oldEntries.descending
    rw [Keyset.mem_drop_iff (fun _ _ => lt_asymm) ascending (List.mem_reverse.mpr found),
      List.countP_reverse, countP_old inRange distinct oldEntries, takenInFront]
  rw [List.filter_eq_nil_iff]
  constructor
  · intro barren entry stored taken selected
    have found := (mem_old_iff inRange oldEntries stored).mpr taken
    by_contra late
    exact barren entry ((ranked entry found).mpr (Nat.not_lt.mp late))
      (scope_selects_iff.mpr selected).2
  · intro kept entry dropped unspared
    have found := List.mem_reverse.mp (List.mem_of_mem_drop dropped)
    have stored := oldEntries.selection.subset entry found
    have taken := (mem_old_iff inRange oldEntries stored).mp found
    exact Nat.not_lt.mpr ((ranked entry found).mp dropped)
      (kept entry stored taken (scope_selects_iff.mp ⟨taken.1, unspared⟩))

/-- So does a bounded one with what lies beyond its budget. -/
theorem nothingReached_iff_allBeyondBudget {input : BoundedPruneScope}
    (inRange : forall entry, entry ∈ contents -> InRange entry.createdAt)
    (distinct : Entry.DistinctIds contents)
    (oldEntries : OldEntries contents (scopeIndex input.toTypeScope)
      (Keyspace.pruneBoundary input.before) old) :
    (old.take (input.limit * Keyspace.SCAN_BUDGET_MULTIPLE)).filter
        (notSpared (scopeExclusion input.toTypeScope)) = [] <->
      AllBeyondBudget contents input := by
  have ranked : forall entry, entry ∈ old ->
      (entry ∈ old.drop (input.limit * Keyspace.SCAN_BUDGET_MULTIPLE) <->
        input.limit * Keyspace.SCAN_BUDGET_MULTIPLE ≤
          takenBehind contents input.toTypeScope entry) := by
    intro entry found
    rw [Keyset.mem_drop_iff (fun _ _ above below => lt_asymm above below) oldEntries.descending
      found, countP_old inRange distinct oldEntries, takenBehind]
  have nodup : old.Nodup := List.Nodup.of_map _ oldEntries.selection.distinct
  rw [List.filter_eq_nil_iff]
  constructor
  · intro barren entry stored taken selected
    have found := (mem_old_iff inRange oldEntries stored).mpr taken
    refine (ranked entry found).mp ?_
    rw [← List.take_append_drop (input.limit * Keyspace.SCAN_BUDGET_MULTIPLE) old] at found
    rcases List.mem_append.mp found with reached | beyond
    · exact (barren entry reached (scope_selects_iff.mpr selected).2).elim
    · exact beyond
  · intro beyond entry reached unspared
    have found := List.mem_of_mem_take reached
    have stored := oldEntries.selection.subset entry found
    have taken := (mem_old_iff inRange oldEntries stored).mp found
    have dropped := (ranked entry found).mpr
      (beyond entry stored taken (scope_selects_iff.mp ⟨taken.1, unspared⟩))
    exact List.disjoint_take_drop nodup (Nat.le_refl _) reached dropped

end Ranks

/-! ## Prunes -/

section Prunes

variable [JsonContent C] {contents : List (Entry C)} {keyspace : Keyspace C}

/-- An operation that turned a keyspace with these contents into another one has
deleted only entries created before the cutoff. -/
def DeletesOnlyOlder (cutoff : Int) (contents : List (Entry C)) (after : Keyspace C) : Prop :=
  Exists fun gone =>
    Selection contents gone ∧ Represents (without contents gone) after ∧
      forall entry, entry ∈ gone -> entry.createdAt < cutoff

/-- The keyspace after an operation tells what is gone. -/
theorem deletesOnlyOlder_iff {gone : List (Entry C)} {after : Keyspace C}
    (distinct : Entry.DistinctIds contents) (selection : Selection contents gone)
    (rest : Represents (without contents gone) after) (cutoff : Int) :
    DeletesOnlyOlder cutoff contents after <->
      forall entry, entry ∈ gone -> entry.createdAt < cutoff := by
  refine ⟨?_, fun older => ⟨gone, selection, rest, older⟩⟩
  rintro ⟨others, otherSelection, otherRest, older⟩ entry isGone
  have stored := selection.subset entry isGone
  by_contra newer
  have stays : entry ∈ without contents others := mem_without.mpr
    ⟨stored, fun id => newer (older entry (otherSelection.mem_of_id distinct stored id))⟩
  have found : after.entries entry.id = some entry :=
    (otherRest.entries entry.id entry).mpr ⟨stays, rfl⟩
  have left := ((rest.entries entry.id entry).mp found).1
  exact (mem_without.mp left).2 (List.mem_map_of_mem isGone)

omit [JsonContent C] in
/-- At or before the epoch nothing stored is older than the cutoff. -/
theorem older_iff_nothing {gone : List (Entry C)} (selection : Selection contents gone)
    (inRange : forall entry, entry ∈ contents -> InRange entry.createdAt) {cutoff : Int}
    (notAfterEpoch : cutoff ≤ 0) :
    (forall entry, entry ∈ gone -> entry.createdAt < cutoff) <-> gone = [] := by
  constructor
  · intro older
    refine List.eq_nil_iff_forall_not_mem.mpr fun entry isGone => ?_
    have isOlder := older entry isGone
    have fromEpoch := (inRange entry (selection.subset entry isGone)).1
    omega
  · rintro rfl entry isGone
    exact (List.not_mem_nil isGone).elim

theorem pruneScoped_eq (keyspace : Keyspace C) (input : PruneScope) :
    keyspace.pruneScoped input = keyspace.pruneWith (scopeIndex input.toTypeScope) input.before
      input.keepLast (scopeExclusion input.toTypeScope) := by
  rcases input with ⟨⟨before, type, excludeTypes⟩, keepLast⟩
  cases type <;> rfl

theorem pruneScoped_deletesOnlyOlder_iff (represents : Represents contents keyspace)
    (inRange : forall entry, entry ∈ contents -> InRange entry.createdAt) (input : PruneScope) :
    DeletesOnlyOlder input.before contents (keyspace.pruneScoped input).1 <->
      1 ≤ input.before ∨ AllKept contents input.toTypeScope input.keepLast := by
  rcases exists_oldEntries represents (scopeIndex input.toTypeScope)
    (Keyspace.pruneBoundary input.before) with ⟨old, oldEntries⟩
  rcases pruneWith_spec represents oldEntries input.keepLast (scopeExclusion input.toTypeScope) with
    ⟨selection, rest, _⟩
  rw [← pruneScoped_eq] at rest
  rw [deletesOnlyOlder_iff represents.distinct selection rest]
  by_cases fromEpoch : 1 ≤ input.before
  · refine iff_of_true (fun entry isGone => ?_) (.inl fromEpoch)
    have stored := selection.subset entry isGone
    have isOld := List.mem_reverse.mp (List.mem_of_mem_drop (List.mem_of_mem_filter isGone))
    exact (below_boundary_iff fromEpoch (inRange entry stored)).mp
      ((oldEntries.complete entry stored).mp isOld).2
  · rw [older_iff_nothing selection inRange (by omega),
      nothingGone_iff_allKept inRange represents.distinct oldEntries]
    exact (or_iff_right fromEpoch).symm

theorem pruneScopedBatch_deletesOnlyOlder_iff (represents : Represents contents keyspace)
    (inRange : forall entry, entry ∈ contents -> InRange entry.createdAt)
    (input : BoundedPruneScope) :
    (Exists fun after => Exists fun result =>
      keyspace.pruneScopedBatch input = some (after, result) ∧
        DeletesOnlyOlder input.before contents after) <->
      1 ≤ input.before ∨ AllBeyondBudget contents input := by
  rcases exists_oldEntries represents (scopeIndex input.toTypeScope)
    (Keyspace.pruneBoundary input.before) with ⟨old, oldEntries⟩
  rcases pruneScopedBatch_spec represents input oldEntries with
    ⟨after, result, front, back, returned, walk⟩
  have frontOld : front.Sublist old := walk.split ▸ List.sublist_append_left front back
  have selection : Selection contents
      (front.filter (notSpared (scopeExclusion input.toTypeScope))) :=
    Selection.filter ⟨fun entry found => oldEntries.selection.subset entry (frontOld.subset found),
      Entry.distinctIds_sublist frontOld oldEntries.selection.distinct⟩ _
  have settled : (Exists fun after => Exists fun result =>
      keyspace.pruneScopedBatch input = some (after, result) ∧
        DeletesOnlyOlder input.before contents after) <->
      forall entry, entry ∈ front.filter (notSpared (scopeExclusion input.toTypeScope)) ->
        entry.createdAt < input.before := by
    rw [← deletesOnlyOlder_iff represents.distinct selection walk.represents]
    constructor
    · rintro ⟨other, otherResult, sameReturned, sound⟩
      cases returned.symm.trans sameReturned
      exact sound
    · exact fun sound => ⟨after, result, returned, sound⟩
  rw [settled]
  by_cases fromEpoch : 1 ≤ input.before
  · refine iff_of_true (fun entry isGone => ?_) (.inl fromEpoch)
    have stored := selection.subset entry isGone
    have isOld := frontOld.subset (List.mem_of_mem_filter isGone)
    exact (below_boundary_iff fromEpoch (inRange entry stored)).mp
      ((oldEntries.complete entry stored).mp isOld).2
  · rw [older_iff_nothing selection inRange (by omega),
      ← nothingReached_iff_allBeyondBudget inRange represents.distinct oldEntries]
    refine Iff.trans ?_ (or_iff_right fromEpoch).symm
    constructor
    · intro nothing
      cases more : result.hasMore with
      | false =>
          rw [walk.split, walk.drained more, List.append_nil]
          exact List.filter_eq_nil_iff.mpr fun entry reached =>
            List.filter_eq_nil_iff.mp nothing entry (List.mem_of_mem_take reached)
      | true =>
          have reach : input.limit * Keyspace.SCAN_BUDGET_MULTIPLE ≤ front.length := by
            rcases walk.stopped more with full | spent
            · have noneDeleted := walk.deleted
              rw [nothing, List.length_nil, full] at noneDeleted
              rw [noneDeleted, Nat.zero_mul]
              exact Nat.zero_le _
            · exact spent
          rw [walk.split, List.take_append_of_le_length reach]
          exact List.filter_eq_nil_iff.mpr fun entry reached =>
            List.filter_eq_nil_iff.mp nothing entry (List.mem_of_mem_take reached)
    · intro nothing
      refine walk.budgeted (List.filter_eq_nil_iff.mpr fun entry reached => ?_)
      refine List.filter_eq_nil_iff.mp nothing entry ?_
      rw [walk.split, List.take_append]
      exact List.mem_append_left _ reached

end Prunes

/-! ## Windows -/

section Windows

variable [JsonContent C] {contents : List (Entry C)} {keyspace : Keyspace C}

/-- The page of a window alone is the page of the reference. -/
def WindowExact (keyspace : Keyspace C) (query : EntryQuery) (contents : List (Entry C)) : Prop :=
  Exists fun page =>
    keyspace.get query = some page ∧
      page.toPage = Keyset.firstPage cursorOf (Keyspace.resolveLimit query.limit)
        (query.results contents)

theorem windowExact_iff (represents : Represents contents keyspace)
    (inRange : forall entry, entry ∈ contents -> InRange entry.createdAt)
    {query : EntryQuery} (noIds : query.ids = none) (noCursor : query.cursor = none) :
    WindowExact keyspace query contents <->
      Keyset.firstPage cursorOf (Keyspace.resolveLimit query.limit)
        ((scanResults query contents).map query.project) =
      Keyset.firstPage cursorOf (Keyspace.resolveLimit query.limit) (query.results contents) := by
  have noPosition : query.cursor.bind decodeCursor = none := by rw [noCursor]; rfl
  rcases get_spec represents inRange query noIds
    (fun _ found => by rw [noPosition] at found; cases found) with ⟨page, returned, opens⟩
  have everything : (scanResults query contents).filter (behindCursor none) =
      scanResults query contents := List.filter_eq_self.mpr fun _ _ => rfl
  rw [noPosition, everything] at opens
  constructor
  · rintro ⟨other, sameReturned, exactly⟩
    cases returned.symm.trans sameReturned
    exact opens.symm.trans exactly
  · exact fun exactly => ⟨page, returned, opens.trans exactly⟩

/-- A window is returned exactly, whatever the limit, exactly when its bounds are
read exactly: a limit beyond the contents shows all of it. -/
theorem window_exact_iff (represents : Represents contents keyspace)
    (inRange : forall entry, entry ∈ contents -> InRange entry.createdAt)
    (before after : Option Int) :
    (forall limit, WindowExact keyspace { before := before, after := after, limit := limit }
        contents) <->
      ReadExactly { before := before, after := after } contents := by
  have noIds : EntryQuery.ids { before := before, after := after } = none := rfl
  have same := scanResults_eq_iff represents.distinct inRange noIds
  rw [← same]
  constructor
  · intro always
    have exactly := (windowExact_iff represents inRange rfl rfl).mp
      (always (some (contents.length + 1)))
    have shown := congrArg Keyset.Page.data exactly
    have wide : Keyspace.resolveLimit (some ((contents.length : Int) + 1)) =
        contents.length + 1 := by
      rw [Keyspace.resolveLimit, if_pos (by omega)]
      omega
    have few : forall (keep : Entry C -> Bool) (project : Entry C -> Entry C),
        ((sortNewestFirst (contents.filter keep)).map project).length ≤ contents.length + 1 := by
      intro keep project
      rw [List.length_map, length_sortNewestFirst]
      exact Nat.le_succ_of_le (List.length_filter_le _ _)
    simp only [Keyset.firstPage, wide] at shown
    exact (List.take_of_length_le (few _ _)).symm.trans
      (shown.trans (List.take_of_length_le (few _ _)))
  · intro equal limit
    refine (windowExact_iff represents inRange rfl rfl).mpr ?_
    exact congrArg (Keyset.firstPage cursorOf (Keyspace.resolveLimit limit)) equal

end Windows

/-! ## All of them -/

/-- Each prune deletes only entries older than its cutoff exactly when the cutoff
lies after the epoch or nothing it takes for older is deleted; a window is
exact exactly when its bounds are read exactly. -/
theorem cutoffs_sound_iff [JsonContent C] (contents : List (Entry C)) (keyspace : Keyspace C)
    (represents : Represents contents keyspace)
    (inRange : forall entry, entry ∈ contents -> InRange entry.createdAt) :
    (forall olderThan keepLast,
      DeletesOnlyOlder olderThan contents (keyspace.prune olderThan keepLast).1 <->
        1 ≤ olderThan ∨ AllKept contents { before := olderThan } keepLast) ∧
    (forall input : PruneScope,
      DeletesOnlyOlder input.before contents (keyspace.pruneScoped input).1 <->
        1 ≤ input.before ∨ AllKept contents input.toTypeScope input.keepLast) ∧
    (forall input : BoundedPruneScope,
      (Exists fun after => Exists fun result =>
        keyspace.pruneScopedBatch input = some (after, result) ∧
          DeletesOnlyOlder input.before contents after) <->
        1 ≤ input.before ∨ AllBeyondBudget contents input) ∧
    (forall before after,
      ((forall limit, WindowExact keyspace { before := before, after := after, limit := limit }
          contents) <->
        ReadExactly { before := before, after := after } contents) ∧
      (WindowInRange { before := before, after := after } ->
        ReadExactly { before := before, after := after } contents)) :=
  ⟨fun olderThan keepLast => pruneScoped_deletesOnlyOlder_iff represents inRange
      { before := olderThan, keepLast := keepLast },
    pruneScoped_deletesOnlyOlder_iff represents inRange,
    pruneScopedBatch_deletesOnlyOlder_iff represents inRange,
    fun before after => ⟨window_exact_iff represents inRange before after,
      fun window => readExactly_of_window window contents⟩⟩

theorem cutoffs_sound_iff_busyMillisecond :
    DeletesOnlyOlder 25 busyMillisecond ((storing busyMillisecond).prune 25 (some 1)).1 := by
  have sound := cutoffs_sound_iff busyMillisecond (storing busyMillisecond)
    (storing_represents (by decide)) (by decide)
  exact (sound.1 25 (some 1)).mpr (.inl (by decide))

/-- An entry of this century. -/
def recent : Entry Text := plainEntry ['e'] ['j', 'o', 'b'] 1700000000000

/-- A prune at the epoch deletes it. -/
theorem epochPrune_deletes :
    ¬ forall (contents : List (Entry Text)) (keyspace : Keyspace Text) (olderThan : Int),
      Represents contents keyspace ->
      (forall entry, entry ∈ contents -> InRange entry.createdAt) ->
      DeletesOnlyOlder olderThan contents (keyspace.prune olderThan none).1 := by
  intro always
  rcases always [recent] (storing [recent]) 0 (storing_represents (by decide)) (by decide) with
    ⟨gone, selection, rest, older⟩
  have deleted : ((storing [recent]).prune 0 none).1.entries ['e'] = none := by decide +kernel
  have kept : recent ∈ without [recent] gone := by
    refine mem_without.mpr ⟨List.mem_singleton_self _, fun id => ?_⟩
    have distinct : Entry.DistinctIds [recent] := List.nodup_singleton _
    have isGone := selection.mem_of_id distinct (List.mem_singleton_self recent) id
    exact absurd (older recent isGone) (by decide)
  rw [(rest.entries ['e'] recent).mpr ⟨kept, rfl⟩] at deleted
  cases deleted

end Redis
end Telescope
