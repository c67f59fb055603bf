import Telescope.Core.StorageProvider

namespace Telescope

universe u

/-!
# What a scoped prune keeps

A scope keeps the newest few of the entries it selects.  A provider counts those
few in an order of its own, and perhaps among more entries than the scope
selects; it deletes what the scope dooms exactly when each of the newest in
scope is among the first it counts.
-/

variable {C : Type u}

/-- How many of the newest a scope keeps. -/
def PruneScope.keep (scope : PruneScope) : Nat := (scope.keepLast.getD 0).toNat

/-- Each of the newest entries in scope is among the first of the counted ones,
in the order they are counted in. -/
def PruneScope.KeepsNewest (scope : PruneScope) (before : Entry C -> Entry C -> Prop)
    [forall left right, Decidable (before left right)] (counted : Entry C -> Bool)
    (contents : List (Entry C)) : Prop :=
  forall entry, entry ∈ contents -> scope.InScope entry ->
    Ranking.rank Entry.Newer (contents.filter fun other => decide (scope.InScope other)) entry <
      scope.keep ->
    Ranking.rank before (contents.filter counted) entry < scope.keep

instance (scope : PruneScope) (before : Entry C -> Entry C -> Prop)
    [forall left right, Decidable (before left right)] (counted : Entry C -> Bool)
    (contents : List (Entry C)) : Decidable (scope.KeepsNewest before counted contents) :=
  inferInstanceAs (Decidable (forall entry, entry ∈ contents -> _))

theorem selection_doomed {contents : List (Entry C)} (distinct : Entry.DistinctIds contents)
    (scope : PruneScope) : Selection contents (scope.doomed contents) where
  subset := fun _ member =>
    List.mem_of_mem_filter (mem_sortNewestFirst.mp (List.mem_of_mem_drop member))
  distinct := by
    refine Entry.distinctIds_sublist (List.drop_sublist _ _) ?_
    exact ((sortNewestFirst_perm _).map Entry.id).nodup_iff.mpr
      (Entry.distinctIds_sublist List.filter_sublist distinct)

/-- What stays tells what is gone. -/
theorem gone_perm_of_stays {contents gone doomed : List (Entry C)}
    (distinct : Entry.DistinctIds contents) (isGone : Selection contents gone)
    (isDoomed : Selection contents doomed)
    (stays : forall entry, entry ∈ without contents gone <-> entry ∈ without contents doomed) :
    gone.Perm doomed := by
  refine (List.perm_ext_iff_of_nodup (List.Nodup.of_map _ isGone.distinct)
    (List.Nodup.of_map _ isDoomed.distinct)).mpr fun entry => ?_
  have both := stays entry
  rw [mem_without, mem_without] at both
  constructor
  · intro member
    have stored := isGone.subset entry member
    by_contra missing
    exact (both.mpr ⟨stored, fun id => missing (isDoomed.mem_of_id distinct stored id)⟩).2
      (List.mem_map_of_mem member)
  · intro member
    have stored := isDoomed.subset entry member
    by_contra missing
    exact (both.mp ⟨stored, fun id => missing (isGone.mem_of_id distinct stored id)⟩).2
      (List.mem_map_of_mem member)

theorem without_eq_iff {contents gone doomed : List (Entry C)}
    (distinct : Entry.DistinctIds contents) (isGone : Selection contents gone)
    (isDoomed : Selection contents doomed) :
    without contents gone = without contents doomed <-> gone.Perm doomed := by
  constructor
  · intro same
    exact gone_perm_of_stays distinct isGone isDoomed fun entry => by rw [same]
  · intro perm
    refine List.filter_congr fun entry _ => decide_eq_decide.mpr ?_
    rw [(perm.map Entry.id).mem_iff]

section Cut

variable {contents listed : List (Entry C)} {condition : Entry C -> Bool}

/-- The entries of a condition that are not among the first of their listing are
the rest of it. -/
theorem cutOff_iff (distinct : Entry.DistinctIds contents)
    (perm : listed.Perm (contents.filter condition)) (keep : Nat) {entry : Entry C}
    (member : entry ∈ contents) :
    (condition entry = true ∧ entry.id ∉ (listed.take keep).map Entry.id) <->
      entry.id ∈ (listed.drop keep).map Entry.id := by
  have listedDistinct : Entry.DistinctIds listed :=
    (perm.map Entry.id).nodup_iff.mpr (Entry.distinctIds_sublist List.filter_sublist distinct)
  have parts : listed.map Entry.id =
      (listed.take keep).map Entry.id ++ (listed.drop keep).map Entry.id := by
    rw [← List.map_append, List.take_append_drop]
  have listedIff : condition entry = true <-> entry.id ∈ listed.map Entry.id := by
    rw [(perm.map Entry.id).mem_iff]
    constructor
    · exact fun meets => List.mem_map_of_mem (List.mem_filter.mpr ⟨member, meets⟩)
    · intro found
      rcases List.mem_map.mp found with ⟨other, isListed, same⟩
      rcases List.mem_filter.mp isListed with ⟨stored, meets⟩
      rwa [Entry.eq_of_id distinct stored member same] at meets
  rw [Entry.DistinctIds, parts] at listedDistinct
  rw [listedIff, parts, List.mem_append]
  constructor
  · rintro ⟨front | back, notFront⟩
    · exact (notFront front).elim
    · exact back
  · exact fun back => ⟨.inr back, fun front =>
      List.disjoint_of_nodup_append listedDistinct front back⟩

theorem selection_cutOff (distinct : Entry.DistinctIds contents)
    (perm : listed.Perm (contents.filter condition)) (keep : Nat) :
    Selection contents (listed.drop keep) where
  subset := fun _ member => List.mem_of_mem_filter (perm.mem_iff.mp (List.mem_of_mem_drop member))
  distinct := Entry.distinctIds_sublist (List.drop_sublist keep listed)
    ((perm.map Entry.id).nodup_iff.mpr (Entry.distinctIds_sublist List.filter_sublist distinct))

theorem filter_cutOff (distinct : Entry.DistinctIds contents)
    (perm : listed.Perm (contents.filter condition)) (keep : Nat) :
    (contents.filter fun entry =>
      !(condition entry && !decide (entry.id ∈ (listed.take keep).map Entry.id))) =
        without contents (listed.drop keep) := by
  refine List.filter_congr fun entry member => ?_
  rw [Bool.eq_iff_iff, decide_eq_true_eq, ← cutOff_iff distinct perm keep member,
    Bool.not_eq_true', Bool.and_eq_false_iff, Bool.not_eq_false', decide_eq_true_eq, not_and,
    not_not, ← Bool.not_eq_true]
  exact imp_iff_not_or.symm

theorem length_cutOff (distinct : Entry.DistinctIds contents)
    (perm : listed.Perm (contents.filter condition)) (keep : Nat) :
    contents.length - (without contents (listed.drop keep)).length = (listed.drop keep).length := by
  have parts := (perm_without_append distinct (selection_cutOff distinct perm keep)).length_eq
  rw [List.length_append] at parts
  omega

end Cut

/-- A provider that lists what it counts, cuts off the first of it and deletes
what it selects of the rest, deletes what the scope dooms exactly when it keeps
the newest. -/
theorem PruneScope.gone_perm_iff {contents listed : List (Entry C)}
    (distinct : Entry.DistinctIds contents) (scope : PruneScope)
    {before : Entry C -> Entry C -> Prop} [forall left right, Decidable (before left right)]
    (asymmetric : forall left right, before left right -> ¬ before right left)
    (sorted : listed.Pairwise before) {counted selected : Entry C -> Bool}
    (perm : listed.Perm (contents.filter counted))
    (both : forall entry, entry ∈ contents ->
      (selected entry && counted entry) = decide (scope.InScope entry)) :
    ((listed.drop scope.keep).filter selected).Perm (scope.doomed contents) <->
      scope.KeepsNewest before counted contents := by
  have inScope : (listed.filter selected).Perm
      (contents.filter fun entry => decide (scope.InScope entry)) := by
    refine (perm.filter selected).trans ?_
    rw [List.filter_filter]
    exact List.Perm.of_eq (List.filter_congr both)
  have target : (listed.filter selected).Perm
      (sortNewestFirst (contents.filter fun entry => decide (scope.InScope entry))) :=
    inScope.trans (sortNewestFirst_perm _).symm
  have newest := newestFirst_sort (Entry.distinctIds_sublist
    (List.filter_sublist (p := fun entry => decide (scope.InScope entry))) distinct)
  have newestAsymmetric : forall left right : Entry C, left.Newer right -> ¬ right.Newer left :=
    fun _ _ => Position.newer_asymm
  refine (Ranking.drop_filter_perm_iff asymmetric newestAsymmetric sorted newest selected target
    scope.keep).trans ?_
  have ranked : forall entry,
      Ranking.rank before listed entry = Ranking.rank before (contents.filter counted) entry :=
    Ranking.rank_eq_of_perm before perm
  have newestRanked : forall entry, Ranking.rank Entry.Newer
      (sortNewestFirst (contents.filter fun entry => decide (scope.InScope entry))) entry =
        Ranking.rank Entry.Newer (contents.filter fun entry => decide (scope.InScope entry)) entry :=
    Ranking.rank_eq_of_perm Entry.Newer (sortNewestFirst_perm _)
  constructor
  · intro kept entry member isInScope
    have found : entry ∈ sortNewestFirst
        (contents.filter fun entry => decide (scope.InScope entry)) :=
      mem_sortNewestFirst.mpr (List.mem_filter.mpr ⟨member, decide_eq_true isInScope⟩)
    rw [← newestRanked, ← ranked]
    exact kept entry found
  · intro kept entry found
    rcases List.mem_filter.mp (mem_sortNewestFirst.mp found) with ⟨member, isInScope⟩
    rw [newestRanked, ranked]
    exact kept entry member (of_decide_eq_true isInScope)

/-- A provider that counts the entries in scope alone leaves and returns what the
scope asks for exactly when it keeps the newest. -/
theorem PruneScope.cutOff_exact_iff {contents listed : List (Entry C)}
    (distinct : Entry.DistinctIds contents) (scope : PruneScope)
    {before : Entry C -> Entry C -> Prop} [forall left right, Decidable (before left right)]
    (asymmetric : forall left right, before left right -> ¬ before right left)
    (sorted : listed.Pairwise before)
    (perm : listed.Perm (contents.filter fun entry => decide (scope.InScope entry))) :
    (without contents (listed.drop scope.keep) = without contents (scope.doomed contents) ∧
        (listed.drop scope.keep).length = (scope.doomed contents).length) <->
      scope.KeepsNewest before (fun entry => decide (scope.InScope entry)) contents := by
  have everything : forall entry, entry ∈ contents ->
      ((fun _ => true) entry && decide (scope.InScope entry)) = decide (scope.InScope entry) :=
    fun _ _ => Bool.true_and _
  have keeps := scope.gone_perm_iff distinct asymmetric sorted perm everything
  rw [List.filter_eq_self.mpr fun _ _ => rfl] at keeps
  have isGone := selection_cutOff distinct perm scope.keep
  have isDoomed := selection_doomed distinct scope
  rw [← keeps, ← without_eq_iff distinct isGone isDoomed]
  exact and_iff_left_of_imp fun same => ((without_eq_iff distinct isGone isDoomed).mp same).length_eq

end Telescope
