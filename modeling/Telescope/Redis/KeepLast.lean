import Telescope.Core.Retention
import Telescope.Redis.Cutoff

namespace Telescope
namespace Redis

universe u

/-!
# What a scoped prune keeps

A scoped prune cuts off the newest candidates of the index it scans before it
looks at the carve-out, and inside one millisecond the index ascends by
identifier.  So it keeps what the scope keeps exactly when each of the newest
entries in scope is among the first candidates in the order of the index.
-/

variable {C : Type u}

/-- Before another entry in the order of an index. -/
def Precedes (left right : Entry C) : Prop :=
  right.createdAt < left.createdAt ∨ (left.createdAt = right.createdAt ∧ left.id < right.id)

instance (left right : Entry C) : Decidable (Precedes left right) :=
  inferInstanceAs (Decidable (_ ∨ _))

/-- The old entries of the index a scope scans, excluded types among them. -/
def isCandidate (scope : TypeScope) (entry : Entry C) : Bool :=
  decide (entry.createdAt < scope.before) && scope.type.all fun type => decide (entry.type = type)

theorem precedes_asymm {left right : Entry C} (precedes : Precedes left right) :
    ¬ Precedes right left := by
  rcases precedes with older | ⟨same, below⟩
  · rintro (newer | ⟨same, _⟩)
    · exact lt_asymm older newer
    · exact older.ne same
  · rintro (newer | ⟨_, above⟩)
    · exact newer.ne same
    · exact lt_asymm below above

theorem precedes_of_member_lt {left right : Entry C} (leftInRange : InRange left.createdAt)
    (rightInRange : InRange right.createdAt) (below : entryMember left < entryMember right) :
    Precedes left right := by
  rcases lt_trichotomy left.createdAt right.createdAt with older | same | newer
  · exact (lt_asymm below (lexMember_lt_of_newer leftInRange rightInRange older _ _)).elim
  · rcases lt_trichotomy left.id right.id with before | sameId | after
    · exact .inr ⟨same, before⟩
    · rw [entryMember, entryMember, same, sameId] at below
      exact (lt_irrefl _ below).elim
    · have above : entryMember right < entryMember left := by
        rw [entryMember, entryMember, lexMember, lexMember, same]
        exact List.append_left_lt (List.cons_lt_cons_iff.mpr (.inr ⟨rfl, after⟩))
      exact (lt_asymm below above).elim
  · exact .inl newer

theorem isCandidate_iff {scope : TypeScope} {entry : Entry C} :
    isCandidate scope entry = true <->
      entry.createdAt < scope.before ∧ scopeIndex scope ∈ indexKeys entry := by
  rcases scope with ⟨before, type, excludeTypes⟩
  rw [isCandidate, Bool.and_eq_true, decide_eq_true_eq]
  refine and_congr_right fun _ => ?_
  cases type with
  | none => exact iff_of_true rfl (mem_indexKeys_all entry)
  | some type => exact decide_eq_true_iff.trans mem_indexKeys_type.symm

theorem keepCount_eq (scope : PruneScope) : keepCount scope.keepLast = scope.keep := by
  unfold keepCount PruneScope.keep
  cases scope.keepLast with
  | none => rfl
  | some count =>
      simp only [Option.map_some, Option.getD_some]
      omega

section Scope

variable [JsonContent C] {contents : List (Entry C)} {keyspace : Keyspace C}

/-- The store after a scoped prune, and the number it returned, are those the
scope asks for. -/
def PrunesScope (keyspace : Keyspace C) (contents : List (Entry C)) (input : PruneScope) : Prop :=
  Represents (without contents (input.doomed contents)) (keyspace.pruneScoped input).1 ∧
    (keyspace.pruneScoped input).2 = (input.doomed contents).length

/-- A store holds one set of entries. -/
theorem represents_without_iff {gone doomed : List (Entry C)} {after : Keyspace C}
    (distinct : Entry.DistinctIds contents) (isGone : Selection contents gone)
    (isDoomed : Selection contents doomed) (rest : Represents (without contents gone) after) :
    Represents (without contents doomed) after <-> gone.Perm doomed := by
  constructor
  · intro other
    refine gone_perm_of_stays distinct isGone isDoomed fun entry => ?_
    have left := rest.entries entry.id entry
    have right := other.entries entry.id entry
    rw [and_iff_left rfl] at left right
    exact left.symm.trans right
  · intro perm
    rwa [← (without_eq_iff distinct isGone isDoomed).mpr perm]

omit [JsonContent C] in
/-- The candidates, newest first. -/
theorem candidates_sorted (inRange : forall entry, entry ∈ contents -> InRange entry.createdAt)
    {key : IndexKey} {boundary : SortedIndex.Bound Text} {old : List (Entry C)}
    (oldEntries : OldEntries contents key boundary old) : old.reverse.Pairwise Precedes := by
  refine List.pairwise_reverse.mpr (oldEntries.descending.imp_of_mem ?_)
  intro later earlier laterOld earlierOld below
  exact precedes_of_member_lt (inRange earlier (oldEntries.selection.subset earlier earlierOld))
    (inRange later (oldEntries.selection.subset later laterOld)) below

/-- A cutoff after the epoch keeps the newest of the candidates; one before it
must find nothing to delete. -/
theorem prunesScope_iff (represents : Represents contents keyspace)
    (inRange : forall entry, entry ∈ contents -> InRange entry.createdAt) (input : PruneScope) :
    PrunesScope keyspace contents input <->
      (1 ≤ input.before ->
        input.KeepsNewest Precedes (isCandidate input.toTypeScope) contents) ∧
      (input.before < 1 -> AllKept contents input.toTypeScope input.keepLast) := by
  rcases exists_oldEntries represents (scopeIndex input.toTypeScope)
    (Keyspace.pruneBoundary input.before) with ⟨old, oldEntries⟩
  rcases pruneWith_spec represents oldEntries input.keepLast (scopeExclusion input.toTypeScope) with
    ⟨isGone, rest, size⟩
  have isDoomed := selection_doomed represents.distinct input
  rw [← pruneScoped_eq] at rest size
  have exactly : PrunesScope keyspace contents input <->
      ((old.reverse.drop (keepCount input.keepLast)).filter
        (notSpared (scopeExclusion input.toTypeScope))).Perm (input.doomed contents) := by
    rw [PrunesScope, represents_without_iff represents.distinct isGone isDoomed rest, size]
    exact and_iff_left_of_imp List.Perm.length_eq
  rw [exactly]
  by_cases fromEpoch : 1 ≤ input.before
  · rw [imp_iff_right fromEpoch, and_iff_left fun before => (not_lt.mpr fromEpoch before).elim,
      keepCount_eq]
    have perm : old.reverse.Perm (contents.filter (isCandidate input.toTypeScope)) := by
      refine (List.perm_ext_iff_of_nodup
        (List.nodup_reverse.mpr (List.Nodup.of_map _ oldEntries.selection.distinct))
        ((List.Nodup.of_map _ represents.distinct).filter _)).mpr fun entry => ?_
      rw [List.mem_reverse, List.mem_filter, isCandidate_iff]
      constructor
      · intro found
        have stored := oldEntries.selection.subset entry found
        rcases (oldEntries.complete entry stored).mp found with ⟨inKey, below⟩
        exact ⟨stored, (below_boundary_iff fromEpoch (inRange entry stored)).mp below, inKey⟩
      · rintro ⟨stored, older, inKey⟩
        exact (oldEntries.complete entry stored).mpr
          ⟨inKey, (below_boundary_iff fromEpoch (inRange entry stored)).mpr older⟩
    refine input.gone_perm_iff represents.distinct (fun _ _ => precedes_asymm)
      (candidates_sorted inRange oldEntries) perm fun entry stored => ?_
    rw [Bool.eq_iff_iff, Bool.and_eq_true, decide_eq_true_eq, isCandidate_iff, TypeScope.InScope,
      ← scope_selects_iff]
    tauto
  · have early : input.before < 1 := not_le.mp fromEpoch
    rw [imp_iff_right early, and_iff_right fun after => (fromEpoch after).elim]
    have nothing : input.doomed contents = [] := by
      refine List.eq_nil_iff_forall_not_mem.mpr fun entry member => ?_
      have stored := isDoomed.subset entry member
      have older := (of_decide_eq_true (List.mem_filter.mp
        (mem_sortNewestFirst.mp (List.mem_of_mem_drop member))).2 : input.InScope entry).1
      have notBefore := (inRange entry stored).1
      omega
    rw [nothing, List.perm_nil]
    exact nothingGone_iff_allKept inRange represents.distinct oldEntries input.keepLast

end Scope

end Redis
end Telescope
