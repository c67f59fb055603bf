import Telescope.Core.Retention
import Telescope.InMemory.Order

namespace Telescope
namespace InMemory

universe u

/-!
# Pruning the array

A prune reprieves the first entries of its scope in the order of the comparator;
the sort is stable, so what the comparator takes for equal stays in the order of
the array.  It keeps what the scope keeps exactly when each of the newest entries
in scope is among the first in that order.
-/

variable {C : Type u} (locale : Locale)

/-- The place of an entry in the array. -/
def place (entries : List (Entry C)) (entry : Entry C) : Nat :=
  (entries.map Entry.id).idxOf entry.id

/-- Before another entry once a part of the array is sorted newest first. -/
def Precedes (entries : List (Entry C)) (left right : Entry C) : Prop :=
  newestFirst locale left right ≤ 0 ∧
    (newestFirst locale right left ≤ 0 -> place entries left < place entries right)

instance (entries : List (Entry C)) (left right : Entry C) :
    Decidable (Precedes locale entries left right) :=
  inferInstanceAs (Decidable (_ ∧ (_ -> _)))

theorem precedes_asymm {entries : List (Entry C)} {left right : Entry C}
    (precedes : Precedes locale entries left right) : ¬ Precedes locale entries right left :=
  fun back => lt_asymm (precedes.2 back.1) (back.2 precedes.1)

theorem pairwise_place {entries : List (Entry C)} (distinct : Entry.DistinctIds entries) :
    entries.Pairwise fun earlier later => place entries earlier < place entries later := by
  have ids : (entries.map Entry.id).Pairwise fun earlier later =>
      (entries.map Entry.id).idxOf earlier < (entries.map Entry.id).idxOf later := by
    refine List.pairwise_iff_getElem.mpr fun first second firstInside secondInside before => ?_
    rw [distinct.idxOf_getElem, distinct.idxOf_getElem]
    exact before
  exact (List.pairwise_map (f := Entry.id)).mp ids

/-- The sort of a part of the array. -/
theorem sortByLocale_sorted {entries : List (Entry C)} (distinct : Entry.DistinctIds entries)
    (keeps : Entry C -> Bool) :
    (sortByLocale locale (entries.filter keeps)).Pairwise (Precedes locale entries) := by
  refine Ranking.stable_insertionSort (fun first second => ?_) (fun first second third left right => ?_)
    ((pairwise_place distinct).filter keeps)
  · rw [newestFirst_le_iff, newestFirst_le_iff]
    exact notAfter_total locale _ _
  · rw [newestFirst_le_iff] at left right ⊢
    exact notAfter_trans locale right left

theorem sortByLocale_perm (entries : List (Entry C)) : (sortByLocale locale entries).Perm entries :=
  List.perm_insertionSort _ entries

/-- A prune deletes the entries of its condition past the first few. -/
theorem pruneWhere_spec {provider : Provider C} (distinct : Entry.DistinctIds provider.entries)
    (condition : Entry C -> Bool) (keepLast : Option Int)
    (nonneg : forall count, count ∈ keepLast -> 0 ≤ count) :
    (pruneWhere locale provider condition keepLast).1.entries = without provider.entries
        ((sortByLocale locale (provider.entries.filter condition)).drop (keepLast.getD 0).toNat) ∧
      (pruneWhere locale provider condition keepLast).2 =
        ((sortByLocale locale (provider.entries.filter condition)).drop
          (keepLast.getD 0).toNat).length := by
  have perm := sortByLocale_perm locale (provider.entries.filter condition)
  have rest := filter_cutOff distinct perm (keepLast.getD 0).toNat
  have size := length_cutOff distinct perm (keepLast.getD 0).toNat
  have counted : (pruneWhere locale provider condition keepLast).2 =
      provider.entries.length - (pruneWhere locale provider condition keepLast).1.entries.length := by
    unfold pruneWhere
    cases keepLast with
    | none => rfl
    | some count =>
        dsimp only
        split <;> rfl
  have stays : (pruneWhere locale provider condition keepLast).1.entries =
      provider.entries.filter fun entry => !(condition entry && !decide (entry.id ∈
        ((sortByLocale locale (provider.entries.filter condition)).take
          (keepLast.getD 0).toNat).map Entry.id)) := by
    unfold pruneWhere
    cases keepLast with
    | none =>
        refine List.filter_congr fun entry _ => ?_
        exact congrArg (!·) (Bool.and_true _).symm
    | some count =>
        dsimp only
        split
        · refine List.filter_congr fun entry _ => ?_
          rw [sliceTo, if_neg (not_lt.mpr (nonneg count rfl)), Bool.not_and, Bool.not_not]
          rfl
        · rename_i nothingOld
          have same : (provider.entries.filter fun entry => !condition entry).length =
              provider.entries.length :=
            Nat.le_antisymm (List.length_filter_le _ _) (Nat.not_lt.mp nothingOld)
          refine List.filter_congr fun entry member => ?_
          have outside := List.length_filter_eq_length_iff.mp same entry member
          rw [Bool.not_eq_true'] at outside
          rw [outside, Bool.false_and]
  rw [rest] at stays
  exact ⟨stays, by rw [counted, stays, size]⟩

theorem inScope_eq (scope : TypeScope) (entry : Entry C) :
    inScope scope entry = decide (scope.InScope entry) := by
  rcases scope with ⟨before, type, excludeTypes⟩
  rw [inScope, Bool.eq_iff_iff, decide_eq_true_eq, TypeScope.InScope]
  by_cases recent : entry.createdAt ≥ before
  · rw [if_pos recent]
    exact iff_of_false Bool.false_ne_true fun older => not_lt.mpr recent older.1
  · rw [if_neg recent, and_iff_right (not_le.mp recent)]
    cases type with
    | some selected => exact decide_eq_true_iff
    | none =>
        cases excludeTypes with
        | none => exact iff_of_true rfl List.not_mem_nil
        | some excluded =>
            change (!decide (entry.type ∈ excluded)) = true <-> entry.type ∉ excluded
            rw [Bool.not_eq_true', decide_eq_false_iff_not]

/-- The array after a scoped prune, and the number it returned, are those the
scope asks for. -/
def PrunesScope (provider : Provider C) (input : PruneScope) : Prop :=
  (pruneScoped locale provider input).1.entries =
      without provider.entries (input.doomed provider.entries) ∧
    (pruneScoped locale provider input).2 = (input.doomed provider.entries).length

theorem prunesScope_iff {provider : Provider C} (distinct : Entry.DistinctIds provider.entries)
    {input : PruneScope} (nonneg : forall count, count ∈ input.keepLast -> 0 ≤ count) :
    PrunesScope locale provider input <->
      input.KeepsNewest (Precedes locale provider.entries)
        (fun entry => decide (input.InScope entry)) provider.entries := by
  have condition : inScope input.toTypeScope =
      fun entry : Entry C => decide (input.InScope entry) := funext (inScope_eq input.toTypeScope)
  rcases pruneWhere_spec locale distinct (inScope input.toTypeScope) input.keepLast nonneg with
    ⟨rest, size⟩
  rw [condition] at rest size
  rw [PrunesScope, pruneScoped, condition, rest, size]
  exact input.cutOff_exact_iff distinct (fun _ _ => precedes_asymm locale)
    (sortByLocale_sorted locale distinct _) (sortByLocale_perm locale _)

end InMemory
end Telescope
