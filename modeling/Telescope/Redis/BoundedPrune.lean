import Telescope.Redis.Prune

namespace Telescope
namespace Redis

universe u

/-!
# Progress of the bounded prune

One call of `pruneScopedBatch` removes the oldest entries of its scope, at most
`limit` of them, and reports the end of the index truthfully.  It walks at most
`SCAN_BUDGET_MULTIPLE` times its limit and starts over at the old end on every
call, so it is sure to remove something only while fewer excluded entries than
that are as old as the oldest entry in scope; under that condition repeated
calls drain the scope.
-/

variable {C : Type u}

/-- Old entries the scope carves out of the primary index. -/
def CarvedOut (scope : TypeScope) (entry : Entry C) : Prop :=
  entry.createdAt < scope.before ∧ scope.type = none ∧ entry.type ∈ scope.excludeTypes.getD []

instance (scope : TypeScope) (entry : Entry C) : Decidable (CarvedOut scope entry) :=
  inferInstanceAs (Decidable (_ ∧ _))

/-- How many carved-out entries are at least as old as an entry. -/
def carvedOutBefore (contents : List (Entry C)) (scope : TypeScope) (entry : Entry C) : Nat :=
  contents.countP fun other =>
    decide (CarvedOut scope other ∧ other.createdAt ≤ entry.createdAt)

/-- What one call does, `gone` being the entries it deletes. -/
structure BatchOutcome (contents : List (Entry C)) (input : BoundedPruneScope)
    (result : BoundedPruneResult) (gone : List (Entry C)) : Prop where
  selection : Selection contents gone
  deleted : result.deleted = gone.length
  bounded : gone.length ≤ input.limit
  inScope : forall entry, entry ∈ gone -> input.InScope entry
  oldest : forall entry, entry ∈ gone -> forall other, other ∈ contents -> input.InScope other ->
    other ∉ gone -> entry.createdAt ≤ other.createdAt
  drained : result.hasMore = false ->
    forall entry, entry ∈ contents -> input.InScope entry -> entry ∈ gone
  progress : forall entry, entry ∈ contents -> input.InScope entry ->
    carvedOutBefore contents input.toTypeScope entry <
      input.limit * Keyspace.SCAN_BUDGET_MULTIPLE -> gone ≠ []

/-! ## The scope of a walk -/

theorem excludedTypes_mem {excludeTypes : Option (List Text)} {type : Text} :
    (Exists fun excluded => Keyspace.excludedTypes excludeTypes = some excluded ∧ type ∈ excluded) <->
      type ∈ excludeTypes.getD [] := by
  cases excludeTypes with
  | none => exact iff_of_false (fun ⟨_, found, _⟩ => by cases found) List.not_mem_nil
  | some types =>
      cases types with
      | nil => exact iff_of_false (fun ⟨_, found, _⟩ => by cases found) List.not_mem_nil
      | cons first types =>
          constructor
          · rintro ⟨_, ⟨⟩, member⟩
            exact member
          · exact fun member => ⟨_, rfl, member⟩

variable {entry : Entry C}

theorem notSpared_iff {excludeTypes : Option (List Text)} :
    notSpared (Keyspace.excludedTypes excludeTypes) entry = true <->
      entry.type ∉ excludeTypes.getD [] := by
  rw [← excludedTypes_mem, notSpared]
  cases Keyspace.excludedTypes excludeTypes with
  | none => exact iff_of_true rfl fun ⟨_, found, _⟩ => by cases found
  | some excluded =>
      rw [Keyspace.spared, Bool.not_eq_true', decide_eq_false_iff_not]
      simp only [Option.some.injEq, exists_eq_left']

/-- A scope's index and carve-out select what the scope selects. -/
theorem scope_selects_iff {scope : TypeScope} :
    scopeIndex scope ∈ indexKeys entry ∧ notSpared (scopeExclusion scope) entry = true <->
      scope.Selects entry.type := by
  rcases scope with ⟨before, type, excludeTypes⟩
  cases type with
  | some type =>
      have unspared : notSpared none entry = true := rfl
      exact (and_iff_left unspared).trans mem_indexKeys_type
  | none =>
      exact (and_iff_right (mem_indexKeys_all entry)).trans notSpared_iff

section Walk

variable {contents old : List (Entry C)} {scope : TypeScope}

theorem below_boundary_iff {before : Int} (fromEpoch : 1 ≤ before) (inRange : InRange entry.createdAt) :
    (Keyspace.pruneBoundary before).below (entryMember entry) = true <->
      entry.createdAt < before :=
  (closed_below_iff (before - 1) inRange entry.id).trans
    (by rw [readAs_fromEpoch (by omega), Int.le_sub_one_iff])

theorem inScope_iff (fromEpoch : 1 ≤ scope.before) (inRange : forall entry, entry ∈ contents -> InRange entry.createdAt)
    (oldEntries : OldEntries contents (scopeIndex scope) (Keyspace.pruneBoundary scope.before) old)
    (member : entry ∈ contents) :
    entry ∈ old ∧ notSpared (scopeExclusion scope) entry = true <-> scope.InScope entry := by
  rw [oldEntries.complete entry member, below_boundary_iff fromEpoch (inRange entry member),
    and_right_comm, scope_selects_iff, TypeScope.InScope, and_comm]

/-- A spared entry of the walk is carved out. -/
theorem carvedOut_of_spared (fromEpoch : 1 ≤ scope.before)
    (inRange : forall entry, entry ∈ contents -> InRange entry.createdAt)
    (oldEntries : OldEntries contents (scopeIndex scope) (Keyspace.pruneBoundary scope.before) old)
    (inOld : entry ∈ old) (spared : notSpared (scopeExclusion scope) entry ≠ true) : CarvedOut scope entry := by
  have member := oldEntries.selection.subset entry inOld
  have below := ((oldEntries.complete entry member).mp inOld).2
  refine ⟨(below_boundary_iff fromEpoch (inRange entry member)).mp below, ?_⟩
  rcases scope with ⟨before, type, excludeTypes⟩
  cases type with
  | some type => exact (spared rfl).elim
  | none => exact ⟨rfl, not_not.mp fun notExcluded => spared (notSpared_iff.mpr notExcluded)⟩

/-- The walk goes from the oldest entries to newer ones. -/
theorem old_ascending
    (inRange : forall entry, entry ∈ contents -> InRange entry.createdAt) {key : IndexKey}
    {boundary : SortedIndex.Bound Text} (oldEntries : OldEntries contents key boundary old) :
    old.Pairwise fun first second => first.createdAt ≤ second.createdAt := by
  refine oldEntries.descending.imp_of_mem fun {first second} firstOld secondOld below => ?_
  have firstInRange := inRange first (oldEntries.selection.subset first firstOld)
  have secondInRange := inRange second (oldEntries.selection.subset second secondOld)
  by_contra newer
  exact lt_asymm below (lexMember_lt_of_newer secondInRange firstInRange (not_le.mp newer)
    first.id second.id)

variable [JsonContent C] {keyspace : Keyspace C} {input : BoundedPruneScope}
  {result : BoundedPruneResult} {front back : List (Entry C)}

/-- A walk that removes nothing has passed only carved-out entries. -/
theorem carvedOut_of_barren (fromEpoch : 1 ≤ input.before)
    (inRange : forall entry, entry ∈ contents -> InRange entry.createdAt)
    (oldEntries : OldEntries contents (scopeIndex input.toTypeScope)
      (Keyspace.pruneBoundary input.before) old)
    (walk : BatchWalk contents old (scopeExclusion input.toTypeScope) input.limit keyspace result
      front back) (barren : front.filter (notSpared (scopeExclusion input.toTypeScope)) = []) (behind : entry ∈ back) :
    front.length ≤ carvedOutBefore contents input.toTypeScope entry := by
  have sublist : front.Sublist old := walk.split ▸ List.sublist_append_left front back
  have selection : Selection contents front :=
    ⟨fun other found => oldEntries.selection.subset other (sublist.subset found),
      Entry.distinctIds_sublist sublist oldEntries.selection.distinct⟩
  have ascending := old_ascending inRange oldEntries
  rw [walk.split] at ascending
  have counted : forall other, other ∈ front ->
      decide (CarvedOut input.toTypeScope other ∧ other.createdAt ≤ entry.createdAt) = true := by
    intro other found
    have spared : notSpared (scopeExclusion input.toTypeScope) other ≠ true :=
      List.filter_eq_nil_iff.mp barren other found
    refine decide_eq_true ⟨carvedOut_of_spared fromEpoch inRange oldEntries
      (sublist.subset found) spared, ?_⟩
    exact (List.pairwise_append.mp ascending).2.2 other found entry behind
  have subperm : front.Subperm contents :=
    List.subperm_of_subset (List.Nodup.of_map _ selection.distinct) selection.subset
  calc front.length
      = front.countP fun other =>
          decide (CarvedOut input.toTypeScope other ∧ other.createdAt ≤ entry.createdAt) :=
        (List.countP_eq_length.mpr counted).symm
    _ ≤ carvedOutBefore contents input.toTypeScope entry := subperm.countP_le _

theorem batchOutcome_of_walk (fromEpoch : 1 ≤ input.before) (positive : 0 < input.limit)
    (inRange : forall entry, entry ∈ contents -> InRange entry.createdAt)
    (oldEntries : OldEntries contents (scopeIndex input.toTypeScope)
      (Keyspace.pruneBoundary input.before) old)
    (walk : BatchWalk contents old (scopeExclusion input.toTypeScope) input.limit keyspace result
      front back) :
    BatchOutcome contents input result
      (front.filter (notSpared (scopeExclusion input.toTypeScope))) := by
  have sublist : front.Sublist old := walk.split ▸ List.sublist_append_left front back
  have selects := fun {entry : Entry C} (member : entry ∈ contents) =>
    inScope_iff fromEpoch inRange oldEntries member
  have goneOrBehind : forall entry, entry ∈ contents -> input.InScope entry ->
      entry ∈ front.filter (notSpared (scopeExclusion input.toTypeScope)) ∨ entry ∈ back := by
    intro entry member inScope
    rcases (selects member).mpr inScope with ⟨inOld, unspared⟩
    rw [walk.split] at inOld
    rcases List.mem_append.mp inOld with inFront | inBack
    · exact .inl (List.mem_filter.mpr ⟨inFront, unspared⟩)
    · exact .inr inBack
  refine ⟨?_, walk.deleted, walk.deleted ▸ walk.bounded, ?_, ?_, ?_, ?_⟩
  · have removed : (front.filter (notSpared (scopeExclusion input.toTypeScope))).Sublist old :=
      List.filter_sublist.trans sublist
    exact ⟨fun entry found => oldEntries.selection.subset entry (removed.subset found),
      Entry.distinctIds_sublist removed oldEntries.selection.distinct⟩
  · intro entry found
    rcases List.mem_filter.mp found with ⟨inFront, unspared⟩
    have inOld := sublist.subset inFront
    exact (selects (oldEntries.selection.subset entry inOld)).mp ⟨inOld, unspared⟩
  · intro entry found other member inScope stays
    have ascending := old_ascending inRange oldEntries
    rw [walk.split] at ascending
    have behind := (goneOrBehind other member inScope).resolve_left stays
    exact (List.pairwise_append.mp ascending).2.2 entry (List.mem_of_mem_filter found) other behind
  · intro finished entry member inScope
    have behind := goneOrBehind entry member inScope
    rw [walk.drained finished] at behind
    exact behind.resolve_right List.not_mem_nil
  · intro entry member inScope few barren
    have behind := goneOrBehind entry member inScope
    rw [barren] at behind
    have inBack := behind.resolve_left List.not_mem_nil
    have passed := carvedOut_of_barren fromEpoch inRange oldEntries walk barren inBack
    have noneDeleted : result.deleted = 0 := by rw [walk.deleted, barren, List.length_nil]
    cases more : result.hasMore with
    | false =>
        rw [walk.drained more] at inBack
        exact List.not_mem_nil inBack
    | true =>
        rcases walk.stopped more with full | spent
        · omega
        · omega

end Walk

/-! ## Repeated calls -/

section Drain

variable [JsonContent C]

/-- The same call a number of times. -/
def drain (input : BoundedPruneScope) : Nat -> Keyspace C -> Option (Keyspace C)
  | 0, keyspace => some keyspace
  | calls + 1, keyspace =>
      (keyspace.pruneScopedBatch input).bind fun outcome => drain input calls outcome.1

/-- What one call does in a consistent keyspace. -/
theorem pruneScopedBatch_outcome {contents : List (Entry C)} {keyspace : Keyspace C}
    (represents : Represents contents keyspace)
    (inRange : forall entry, entry ∈ contents -> InRange entry.createdAt)
    (input : BoundedPruneScope) (fromEpoch : 1 ≤ input.before) (positive : 0 < input.limit) :
    Exists fun final => Exists fun result => Exists fun gone =>
      keyspace.pruneScopedBatch input = some (final, result) ∧
        Represents (without contents gone) final ∧ BatchOutcome contents input result gone := by
  rcases exists_oldEntries represents (scopeIndex input.toTypeScope)
    (Keyspace.pruneBoundary input.before) with ⟨old, oldEntries⟩
  rcases pruneScopedBatch_spec represents input oldEntries with
    ⟨final, result, front, back, returned, walk⟩
  exact ⟨final, result, _, returned, walk.represents,
    batchOutcome_of_walk fromEpoch positive inRange oldEntries walk⟩

omit [JsonContent C] in
theorem filter_without_outcome {contents gone : List (Entry C)} {input : BoundedPruneScope}
    {result : BoundedPruneResult} (distinct : Entry.DistinctIds contents)
    (outcome : BatchOutcome contents input result gone) :
    (without contents gone).filter (fun entry => decide (¬ input.InScope entry)) =
      contents.filter fun entry => decide (¬ input.InScope entry) := by
  rw [without, List.filter_filter]
  refine List.filter_congr fun entry member => ?_
  rw [← Bool.decide_and]
  refine decide_eq_decide.mpr (and_iff_left_of_imp fun outside isGone => outside ?_)
  exact outcome.inScope entry (outcome.selection.mem_of_id distinct member isGone)

theorem drain_spec (input : BoundedPruneScope) (fromEpoch : 1 ≤ input.before)
    (positive : 0 < input.limit) (calls : Nat) {contents : List (Entry C)}
    {keyspace : Keyspace C} (represents : Represents contents keyspace)
    (inRange : forall entry, entry ∈ contents -> InRange entry.createdAt)
    (sparse : forall entry, entry ∈ contents -> input.InScope entry ->
      carvedOutBefore contents input.toTypeScope entry <
        input.limit * Keyspace.SCAN_BUDGET_MULTIPLE)
    (enough : (contents.countP fun entry => decide (input.InScope entry)) ≤ calls) :
    Exists fun final =>
      drain input calls keyspace = some final ∧
        Represents (contents.filter fun entry => decide (¬ input.InScope entry)) final := by
  induction calls generalizing contents keyspace with
  | zero =>
      refine ⟨keyspace, rfl, ?_⟩
      have noneInScope := List.countP_eq_zero.mp (Nat.le_zero.mp enough)
      have everything : (contents.filter fun entry => decide (¬ input.InScope entry)) = contents :=
        List.filter_eq_self.mpr fun entry member =>
          decide_eq_true fun inScope => noneInScope entry member (decide_eq_true inScope)
      rwa [everything]
  | succ calls inductionHypothesis =>
      rcases pruneScopedBatch_outcome represents inRange input fromEpoch positive with
        ⟨next, result, gone, returned, rest, outcome⟩
      have fewer : (contents.countP fun entry => decide (input.InScope entry)) =
          ((without contents gone).countP fun entry => decide (input.InScope entry)) +
            gone.length := by
        have parts := (perm_without_append represents.distinct outcome.selection).countP_eq
          fun entry => decide (input.InScope entry)
        rw [List.countP_append] at parts
        rw [parts, List.countP_eq_length.mpr fun entry found =>
          decide_eq_true (outcome.inScope entry found)]
      have left : ((without contents gone).countP fun entry => decide (input.InScope entry)) ≤
          calls := by
        by_cases nothing : gone = []
        · rw [fewer, nothing, List.length_nil, Nat.add_zero] at enough
          refine Nat.le_trans (Nat.le_of_eq (List.countP_eq_zero.mpr fun entry found => ?_))
            (Nat.zero_le calls)
          rw [decide_eq_true_eq]
          intro inScope
          have member := (mem_without.mp found).1
          exact outcome.progress entry member inScope (sparse entry member inScope) nothing
        · have some := List.length_pos_iff.mpr nothing
          omega
      have stillSparse : forall entry, entry ∈ without contents gone -> input.InScope entry ->
          carvedOutBefore (without contents gone) input.toTypeScope entry <
            input.limit * Keyspace.SCAN_BUDGET_MULTIPLE := fun entry found inScope =>
        Nat.lt_of_le_of_lt (List.filter_sublist.countP_le)
          (sparse entry (mem_without.mp found).1 inScope)
      rcases inductionHypothesis rest
        (fun entry found => inRange entry (mem_without.mp found).1) stillSparse left with
        ⟨final, drained, finalRepresents⟩
      rw [filter_without_outcome represents.distinct outcome] at finalRepresents
      refine ⟨final, ?_, finalRepresents⟩
      rw [drain, returned]
      exact drained

end Drain

/-! ## Two contents -/

/-- Everything but logs, one row per call. -/
def exceptLogs : BoundedPruneScope where
  before := 1000
  excludeTypes := some [['l', 'o', 'g']]
  limit := 1

/-- One old log and two newer jobs. -/
def fewLogs : List (Entry Text) :=
  [plainEntry ['a'] ['l', 'o', 'g'] 10, plainEntry ['b'] ['j', 'o', 'b'] 20,
    plainEntry ['c'] ['j', 'o', 'b'] 30]

/-- Twenty logs older than the only job. -/
def shieldedJob : List (Entry Text) :=
  (List.range 20).map (fun index => plainEntry (Nat.toDigits 10 index) ['l', 'o', 'g'] index) ++
    [plainEntry ['j'] ['j', 'o', 'b'] 20]

end Redis
end Telescope
