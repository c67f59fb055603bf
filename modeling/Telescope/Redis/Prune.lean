import Telescope.Redis.Removal

namespace Telescope
namespace Redis

universe u

/-!
# Pruning

`prune` and `pruneScoped` remove a stretch of one index.  `pruneScopedBatch`
walks an index from its old end in rounds, while its own removals shift what is
left of it; the spared members it has passed stay behind as the offset of the
next round.  Seen from the list of old entries as the call found it, the rounds
are one walk: the entries passed so far are a front of that list, and those of
them that are not spared are gone.
-/

variable {C : Type u} [JsonContent C]

open SortedIndex (Bound)

/-! ## The old entries of an index -/

/-- The entries of an index beyond a boundary, oldest member first. -/
structure OldEntries (contents : List (Entry C)) (key : IndexKey) (boundary : Bound Text)
    (old : List (Entry C)) : Prop where
  selection : Selection contents old
  descending : old.Pairwise fun first second => entryMember second < entryMember first
  complete : forall entry, entry ∈ contents ->
    (entry ∈ old <-> key ∈ indexKeys entry ∧ boundary.below (entryMember entry) = true)

/-- `ZREVRANGEBYLEX key + boundary`. -/
def oldMembers (keyspace : Keyspace C) (key : IndexKey) (boundary : Bound Text) : List Text :=
  ((keyspace.index key).range boundary .highest).reverse

omit [JsonContent C] in
theorem oldMembers_descending (keyspace : Keyspace C) (key : IndexKey) (boundary : Bound Text) :
    (oldMembers keyspace key boundary).Pairwise fun first second => second < first :=
  List.pairwise_reverse.mpr ((keyspace.index key).range_sorted boundary .highest)

variable {keyspace : Keyspace C} {key : IndexKey} {boundary : Bound Text}

omit [JsonContent C] in
theorem mem_oldMembers {member : Text} :
    member ∈ oldMembers keyspace key boundary <->
      member ∈ keyspace.index key ∧ boundary.below member = true := by
  rw [oldMembers, List.mem_reverse, SortedIndex.mem_range]
  exact and_congr_right fun _ => and_iff_left rfl

variable {contents : List (Entry C)}

theorem exists_oldEntries (represents : Represents contents keyspace) (key : IndexKey) (boundary : Bound Text) :
    Exists fun old => OldEntries contents key boundary old := by
  have descending := oldMembers_descending keyspace key boundary
  rcases exists_selection represents (descending.imp fun below => below.ne')
    (fun member found => (mem_oldMembers.mp found).1) with ⟨old, selection, members, keyed⟩
  rw [members] at descending
  refine ⟨old, selection, List.pairwise_map.mp descending, fun entry stored => ?_⟩
  constructor
  · intro found
    have listed : entryMember entry ∈ old.map entryMember := List.mem_map_of_mem found
    rw [← members] at listed
    exact ⟨keyed entry found, (mem_oldMembers.mp listed).2⟩
  · rintro ⟨inKey, below⟩
    have listed : entryMember entry ∈ oldMembers keyspace key boundary :=
      mem_oldMembers.mpr ⟨(represents.index key _).mpr ⟨entry, stored, inKey, rfl⟩, below⟩
    rw [members] at listed
    rcases List.mem_map.mp listed with ⟨other, inOld, same⟩
    rwa [← Entry.eq_of_id represents.distinct (selection.subset other inOld) stored
      (lexMember_injective_id same)]

/-- Two descending lists with the same members are equal. -/
theorem descending_unique {left right : List Text}
    (leftSorted : left.Pairwise fun first second => second < first)
    (rightSorted : right.Pairwise fun first second => second < first)
    (same : forall member, member ∈ left <-> member ∈ right) : left = right := by
  have perm : left.Perm right :=
    (List.perm_ext_iff_of_nodup (leftSorted.imp fun below => below.ne')
      (rightSorted.imp fun below => below.ne')).mpr same
  exact perm.eq_of_pairwise (fun _ _ _ _ below above => (lt_asymm below above).elim) leftSorted
    rightSorted

variable {old : List (Entry C)}

theorem oldMembers_eq (represents : Represents contents keyspace) (oldEntries : OldEntries contents key boundary old) :
    oldMembers keyspace key boundary = old.map entryMember := by
  refine descending_unique (oldMembers_descending keyspace key boundary)
    (List.pairwise_map.mpr oldEntries.descending) fun member => ?_
  rw [mem_oldMembers, List.mem_map, represents.index]
  constructor
  · rintro ⟨⟨entry, stored, inKey, rfl⟩, below⟩
    exact ⟨entry, (oldEntries.complete entry stored).mpr ⟨inKey, below⟩, rfl⟩
  · rintro ⟨entry, inOld, rfl⟩
    have stored := oldEntries.selection.subset entry inOld
    rcases (oldEntries.complete entry stored).mp inOld with ⟨inKey, below⟩
    exact ⟨⟨entry, stored, inKey, rfl⟩, below⟩

/-- How many of the newest candidates a prune keeps. -/
def keepCount (keepLast : Option Int) : Nat := ((keepLast.map fun count => max 0 count).getD 0).toNat

/-- The shared prune core removes the old entries of its index but the newest few
and the excluded ones, and counts them. -/
theorem pruneWith_spec (represents : Represents contents keyspace) {olderThan : Int}
    (oldEntries : OldEntries contents key (Keyspace.pruneBoundary olderThan) old) (keepLast : Option Int)
    (excludeTypes : Option (List Text)) :
    let gone := (old.reverse.drop (keepCount keepLast)).filter (notSpared excludeTypes)
    Selection contents gone ∧
      Represents (without contents gone)
        (keyspace.pruneWith key olderThan keepLast excludeTypes).1 ∧
      (keyspace.pruneWith key olderThan keepLast excludeTypes).2 = gone.length := by
  have members := oldMembers_eq represents oldEntries
  rw [oldMembers, List.reverse_eq_iff, ← List.map_reverse] at members
  have selection : Selection contents (old.reverse.drop (keepCount keepLast)) := by
    refine ⟨fun entry found => ?_, ?_⟩
    · exact oldEntries.selection.subset entry (List.mem_reverse.mp (List.mem_of_mem_drop found))
    · refine Entry.distinctIds_sublist (List.drop_sublist _ _) ?_
      rw [Entry.DistinctIds, List.map_reverse]
      exact List.nodup_reverse.mpr oldEntries.selection.distinct
  rcases removeMembers_spec represents selection excludeTypes with ⟨rest, removed, _⟩
  refine ⟨selection.filter _, ?_, ?_⟩
  · rw [Keyspace.pruneWith, members, ← List.map_drop]
    exact rest
  · rw [Keyspace.pruneWith, members, ← List.map_drop]
    exact removed

theorem pruneWith_represents (represents : Represents contents keyspace) (key : IndexKey) (olderThan : Int)
    (keepLast : Option Int) (excludeTypes : Option (List Text)) :
    Exists fun gone =>
      Represents (without contents gone)
        (keyspace.pruneWith key olderThan keepLast excludeTypes).1 := by
  rcases exists_oldEntries represents key (Keyspace.pruneBoundary olderThan) with ⟨old, oldEntries⟩
  exact ⟨_, (pruneWith_spec represents oldEntries keepLast excludeTypes).2.1⟩

omit [JsonContent C] in
/-- After a walk over a front of the old entries, its spared ones and the rest
are still there. -/
theorem OldEntries.walked {walked rest : List (Entry C)}
    (oldEntries : OldEntries contents key boundary (walked ++ rest)) (unspared : Entry C -> Bool) :
    OldEntries (without contents (walked.filter unspared)) key boundary
      (walked.filter (fun entry => !unspared entry) ++ rest) := by
  have ids : (walked.map Entry.id ++ rest.map Entry.id).Nodup := by
    have distinct := oldEntries.selection.distinct
    rwa [Entry.DistinctIds, List.map_append] at distinct
  rcases List.nodup_append.mp ids with ⟨walkedIds, _, across⟩
  have kept : (walked.filter (fun entry => !unspared entry) ++ rest).Sublist (walked ++ rest) :=
    List.filter_sublist.append_right rest
  have memberKept : forall entry, entry ∈ walked ++ rest ->
      (entry ∈ walked.filter (fun entry => !unspared entry) ++ rest <->
        entry.id ∉ (walked.filter unspared).map Entry.id) := by
    intro entry found
    constructor
    · intro stays gone
      rcases List.mem_map.mp gone with ⟨other, otherGone, same⟩
      rcases List.mem_filter.mp otherGone with ⟨otherWalked, otherUnspared⟩
      rcases List.mem_append.mp stays with inWalked | inRest
      · rcases List.mem_filter.mp inWalked with ⟨entryWalked, entrySpared⟩
        rw [Entry.eq_of_id walkedIds otherWalked entryWalked same] at otherUnspared
        rw [otherUnspared] at entrySpared
        cases entrySpared
      · exact across other.id (List.mem_map_of_mem otherWalked) entry.id
          (List.mem_map_of_mem inRest) same
    · intro stays
      rcases List.mem_append.mp found with inWalked | inRest
      · refine List.mem_append_left _ (List.mem_filter.mpr ⟨inWalked, ?_⟩)
        by_cases spared : unspared entry = true
        · exact (stays (List.mem_map_of_mem (List.mem_filter.mpr ⟨inWalked, spared⟩))).elim
        · rw [Bool.not_eq_true] at spared
          rw [spared]
          rfl
      · exact List.mem_append_right _ inRest
  refine ⟨⟨?_, ?_⟩, oldEntries.descending.sublist kept, ?_⟩
  · intro entry stays
    have found := kept.subset stays
    exact mem_without.mpr ⟨oldEntries.selection.subset entry found,
      (memberKept entry found).mp stays⟩
  · exact Entry.distinctIds_sublist kept oldEntries.selection.distinct
  · intro entry stored
    rcases mem_without.mp stored with ⟨inContents, notGone⟩
    rw [← oldEntries.complete entry inContents]
    exact ⟨fun stays => kept.subset stays, fun found => (memberKept entry found).mpr notGone⟩

/-! ## The rounds of one call -/

/-- What a call has achieved when it returns: it has walked a front of the old
entries and removed those of them that are not spared. -/
structure BatchWalk (contents old : List (Entry C)) (excludeTypes : Option (List Text))
    (limit : Nat) (keyspace : Keyspace C) (result : BoundedPruneResult)
    (walked rest : List (Entry C)) : Prop where
  split : old = walked ++ rest
  represents : Represents (without contents (walked.filter (notSpared excludeTypes))) keyspace
  deleted : result.deleted = (walked.filter (notSpared excludeTypes)).length
  bounded : result.deleted ≤ limit
  drained : result.hasMore = false -> rest = []
  stopped : result.hasMore = true ->
    result.deleted = limit ∨ limit * Keyspace.SCAN_BUDGET_MULTIPLE ≤ walked.length
  budgeted : (walked.take (limit * Keyspace.SCAN_BUDGET_MULTIPLE)).filter (notSpared excludeTypes) =
    [] -> walked.filter (notSpared excludeTypes) = []

variable {excludeTypes : Option (List Text)}

omit [JsonContent C] in
/-- A page read within the budget does not reach the first deletion beyond it,
as long as pages without a deletion are whole. -/
theorem budgeted_append {limit : Nat} {walked page : List (Entry C)}
    (whole : walked.filter (notSpared excludeTypes) = [] -> limit ∣ walked.length)
    (budgeted : (walked.take (limit * Keyspace.SCAN_BUDGET_MULTIPLE)).filter
      (notSpared excludeTypes) = [] -> walked.filter (notSpared excludeTypes) = [])
    (within : walked.length < limit * Keyspace.SCAN_BUDGET_MULTIPLE) (short : page.length ≤ limit)
    (barren : ((walked ++ page).take (limit * Keyspace.SCAN_BUDGET_MULTIPLE)).filter
      (notSpared excludeTypes) = []) :
    (walked ++ page).filter (notSpared excludeTypes) = [] := by
  rw [List.take_append, List.filter_append, List.append_eq_nil_iff] at barren
  have front := budgeted barren.1
  rcases whole front with ⟨pages, wholePages⟩
  have fits : walked.length + page.length ≤ limit * Keyspace.SCAN_BUDGET_MULTIPLE := by
    rw [wholePages] at within ⊢
    calc limit * pages + page.length
        ≤ limit * pages + limit := Nat.add_le_add_left short _
      _ = limit * (pages + 1) := (Nat.mul_succ limit pages).symm
      _ ≤ limit * Keyspace.SCAN_BUDGET_MULTIPLE :=
          Nat.mul_le_mul_left _ (Nat.lt_of_mul_lt_mul_left within)
  have unread : page.take (limit * Keyspace.SCAN_BUDGET_MULTIPLE - walked.length) = page :=
    List.take_of_length_le (by omega)
  have rest := barren.2
  rw [unread] at rest
  rw [List.filter_append, front, rest]
  rfl

/-- The scan counters after a walk. -/
def scanAfter (excludeTypes : Option (List Text)) (walked : List (Entry C)) : Keyspace.BatchScan where
  deleted := (walked.filter (notSpared excludeTypes)).length
  skipped := (walked.filter fun entry => !notSpared excludeTypes entry).length
  scanned := walked.length

omit [JsonContent C] in
/-- One more page of the walk. -/
theorem scanAfter_append (excludeTypes : Option (List Text)) (walked page : List (Entry C)) :
    scanAfter excludeTypes (walked ++ page) =
      { deleted := (scanAfter excludeTypes walked).deleted +
          (page.filter (notSpared excludeTypes)).length
        skipped := (scanAfter excludeTypes walked).skipped +
          (page.length - (page.filter (notSpared excludeTypes)).length)
        scanned := (scanAfter excludeTypes walked).scanned + page.length } := by
  have parts := List.length_eq_length_filter_add (l := page) (notSpared excludeTypes)
  simp only [scanAfter, List.filter_append, List.length_append, Keyspace.BatchScan.mk.injEq,
    true_and, and_true]
  omega

/-- The next page of a call that has walked a front of the old entries. -/
theorem nextPage_eq {walked rest : List (Entry C)} (oldEntries : OldEntries contents key boundary (walked ++ rest))
    (represents : Represents (without contents (walked.filter (notSpared excludeTypes))) keyspace) (want : Nat) :
    ((oldMembers keyspace key boundary).drop (scanAfter excludeTypes walked).skipped).take want =
      (rest.take want).map entryMember := by
  rw [oldMembers_eq represents (oldEntries.walked (notSpared excludeTypes)), List.map_append,
    scanAfter, List.drop_append_of_le_length (by rw [List.length_map]),
    List.drop_of_length_le (by rw [List.length_map]), List.nil_append, List.map_take]

theorem pruneBatchLoop_spec {limit : Nat} (oldEntries : OldEntries contents key boundary old) (fuel : Nat)
    (keyspace : Keyspace C) (walked rest : List (Entry C)) (split : old = walked ++ rest)
    (represents : Represents (without contents (walked.filter (notSpared excludeTypes))) keyspace)
    (bounded : (walked.filter (notSpared excludeTypes)).length ≤ limit)
    (whole : walked.filter (notSpared excludeTypes) = [] -> limit ∣ walked.length)
    (budgeted : (walked.take (limit * Keyspace.SCAN_BUDGET_MULTIPLE)).filter
      (notSpared excludeTypes) = [] -> walked.filter (notSpared excludeTypes) = [])
    (enough : limit * Keyspace.SCAN_BUDGET_MULTIPLE ≤ fuel + walked.length) :
    Exists fun final => Exists fun result => Exists fun front => Exists fun back =>
      Keyspace.pruneBatchLoop key boundary excludeTypes limit fuel keyspace
          (scanAfter excludeTypes walked) = some (final, result) ∧
        BatchWalk contents old excludeTypes limit final result front back := by
  induction fuel generalizing keyspace walked rest with
  | zero =>
      rw [Nat.zero_add] at enough
      refine ⟨keyspace, ⟨_, true⟩, walked, rest, if_neg fun running => ?_,
        split, represents, rfl, bounded, (fun more => by cases more), (fun _ => .inr enough), budgeted⟩
      exact Nat.not_lt.mpr enough running.2
  | succ fuel inductionHypothesis =>
      rw [Keyspace.pruneBatchLoop]
      by_cases running : (scanAfter excludeTypes walked).deleted < limit ∧
          (scanAfter excludeTypes walked).scanned < limit * Keyspace.SCAN_BUDGET_MULTIPLE
      · rw [if_pos running]
        have positive : 0 < limit - (scanAfter excludeTypes walked).deleted :=
          Nat.sub_pos_of_lt running.1
        generalize wanted : limit - (scanAfter excludeTypes walked).deleted = want at positive
        have page := nextPage_eq (split ▸ oldEntries) represents want
        rw [oldMembers] at page
        simp only [page]
        by_cases nothing : rest.take want = []
        · have exhausted : rest = [] := by
            rcases List.take_eq_nil_iff.mp nothing with zero | empty
            · omega
            · exact empty
          rw [if_pos (by rw [nothing, List.map_nil])]
          exact ⟨_, _, walked, rest, rfl, split, represents, rfl, bounded, (fun _ => exhausted),
            (fun more => by cases more), budgeted⟩
        · have notEmpty : ¬ (rest.take want).map entryMember = [] := by
            rwa [List.map_eq_nil_iff]
          have selection : Selection (without contents (walked.filter (notSpared excludeTypes)))
              (rest.take want) := by
            have all := (OldEntries.walked (split ▸ oldEntries) (notSpared excludeTypes)).selection
            have sublist := (List.take_sublist want rest).trans (List.sublist_append_right
              (walked.filter fun entry => !notSpared excludeTypes entry) rest)
            exact ⟨fun entry found => all.subset entry (sublist.subset found),
              Entry.distinctIds_sublist sublist all.distinct⟩
          rcases removeMembers_spec represents selection excludeTypes with
            ⟨nextRepresents, removed, skipped⟩
          rw [without_without, ← List.filter_append] at nextRepresents
          have nextSplit : old = (walked ++ rest.take want) ++ rest.drop want := by
            rw [List.append_assoc, List.take_append_drop, split]
          have nextScan := scanAfter_append excludeTypes walked (rest.take want)
          have nextBounded :
              ((walked ++ rest.take want).filter (notSpared excludeTypes)).length ≤ limit := by
            have few := List.length_filter_le (notSpared excludeTypes) (rest.take want)
            have short := List.length_take_le want rest
            have before : (scanAfter excludeTypes walked).deleted =
              (walked.filter (notSpared excludeTypes)).length := rfl
            rw [List.filter_append, List.length_append]
            omega
          have few : (rest.take want).length ≤ limit :=
            (List.length_take_le want rest).trans (wanted.symm.trans_le (Nat.sub_le _ _))
          have nextBudgeted := budgeted_append whole budgeted running.2 few
          rw [if_neg notEmpty, removed, skipped, List.length_map]
          by_cases short : (rest.take want).length < want
          · have exhausted : rest.drop want = [] := by
              rw [List.length_take] at short
              exact List.drop_eq_nil_of_le (by omega)
            rw [if_pos short]
            refine ⟨_, _, walked ++ rest.take want, rest.drop want, rfl, nextSplit,
              nextRepresents, ?_, ?_, (fun _ => exhausted), (fun more => by cases more), nextBudgeted⟩
            · exact (congrArg Keyspace.BatchScan.deleted nextScan).symm
            · exact (congrArg Keyspace.BatchScan.deleted nextScan).symm.trans_le nextBounded
          · rw [if_neg short, ← nextScan]
            refine inductionHypothesis _ _ _ nextSplit nextRepresents nextBounded ?_ nextBudgeted ?_
            · intro barren
              rw [List.filter_append, List.append_eq_nil_iff] at barren
              have nothingDeleted : (scanAfter excludeTypes walked).deleted = 0 := by
                rw [scanAfter, barren.1, List.length_nil]
              rw [List.length_append]
              refine (Nat.dvd_add_right (whole barren.1)).mpr ?_
              exact ⟨1, by omega⟩
            have grown : 0 < (rest.take want).length := List.length_pos_iff.mpr nothing
            rw [List.length_append]
            omega
      · rw [if_neg running]
        refine ⟨_, _, walked, rest, rfl, split, represents, rfl, bounded,
          (fun more => by cases more), (fun _ => ?_), budgeted⟩
        rcases not_and_or.mp running with full | spent
        · exact .inl (Nat.le_antisymm bounded (Nat.not_lt.mp full))
        · exact .inr (Nat.not_lt.mp spent)

/-- The index and the carve-out a bounded scope scans. -/
def scopeIndex (scope : TypeScope) : IndexKey :=
  match scope.type with
  | some type => .type type
  | none => .all

def scopeExclusion (scope : TypeScope) : Option (List Text) :=
  match scope.type with
  | some _ => none
  | none => Keyspace.excludedTypes scope.excludeTypes

/-- One call of `pruneScopedBatch` always returns, after one walk. -/
theorem pruneScopedBatch_spec (represents : Represents contents keyspace) (input : BoundedPruneScope)
    (oldEntries : OldEntries contents (scopeIndex input.toTypeScope)
      (Keyspace.pruneBoundary input.before) old) :
    Exists fun final => Exists fun result => Exists fun front => Exists fun back =>
      keyspace.pruneScopedBatch input = some (final, result) ∧
        BatchWalk contents old (scopeExclusion input.toTypeScope) input.limit final result
          front back := by
  have start : Represents (without contents
      (([] : List (Entry C)).filter (notSpared (scopeExclusion input.toTypeScope)))) keyspace := by
    have everything : without contents
        (([] : List (Entry C)).filter (notSpared (scopeExclusion input.toTypeScope))) = contents :=
      List.filter_eq_self.mpr fun _ _ => rfl
    rwa [everything]
  exact pruneBatchLoop_spec oldEntries (input.limit * Keyspace.SCAN_BUDGET_MULTIPLE) keyspace
    [] old rfl start (Nat.zero_le _) (fun _ => Nat.dvd_zero _) (fun _ => rfl) (Nat.le_refl _)

end Redis
end Telescope
