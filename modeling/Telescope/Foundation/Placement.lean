import Mathlib.Algebra.GroupWithZero.Nat
import Mathlib.Algebra.Order.BigOperators.Group.List
import Mathlib.Algebra.Order.Group.Nat

namespace Telescope
namespace Placement

/-!
# Two placements

The same items are placed twice, each time some of them and in places of its own.  Where
the second placement never puts an item in front of its first place, the places are
filled alike only if every item is placed alike.
-/

universe u

variable {α : Type u}

/-- The place of an item that is placed, else the first place. -/
def placeOf (placed : α -> Bool) (place : α -> Nat) (item : α) : Nat :=
  if placed item then place item else 0

theorem sum_places (items : List α) (placed : α -> Bool) (place : α -> Nat) :
    ((items.filter placed).map place).sum = (items.map (placeOf placed place)).sum := by
  induction items with
  | nil => rfl
  | cons item items inductionHypothesis =>
      rw [List.map_cons, List.sum_cons, ← inductionHypothesis, List.filter_cons, placeOf]
      split
      · rw [List.map_cons, List.sum_cons]
      · rw [Nat.zero_add]

section Later

variable {items : List α} {early late : α -> Bool} {first second : α -> Nat}

/-- Items that only one of the placements has are in front, or behind the first place; the
others are not put forward. -/
structure Later (items : List α) (early late : α -> Bool) (first second : α -> Nat) : Prop where
  onlyEarly : forall item, item ∈ items -> early item = true -> late item = false -> first item = 0
  onlyLate : forall item, item ∈ items -> early item = false -> late item = true -> 0 < second item
  both : forall item, item ∈ items -> early item = true -> late item = true -> first item ≤ second item

theorem Later.placeOf_le (later : Later items early late first second) {item : α} (member : item ∈ items) :
    placeOf early first item ≤ placeOf late second item := by
  rw [placeOf, placeOf]
  cases isEarly : early item with
  | false => exact Nat.zero_le _
  | true =>
      cases isLate : late item with
      | false => exact (later.onlyEarly item member isEarly isLate).le
      | true => exact later.both item member isEarly isLate

/-- The places are filled alike exactly where every item is placed alike. -/
theorem perm_places_iff (later : Later items early late first second) :
    ((items.filter early).map first).Perm ((items.filter late).map second) <->
      forall item, item ∈ items -> early item = late item ∧ (late item = true -> first item = second item) := by
  constructor
  · intro alike
    have sums : (items.map (placeOf early first)).sum = (items.map (placeOf late second)).sum := by
      rw [← sum_places, ← sum_places]
      exact alike.sum_eq
    have places : forall item, item ∈ items -> placeOf early first item = placeOf late second item := by
      intro item member
      refine Classical.byContradiction fun different => ?_
      have less := List.sum_lt_sum (placeOf early first) (placeOf late second)
        (fun other isOther => later.placeOf_le isOther)
        ⟨item, member, Nat.lt_of_le_of_ne (later.placeOf_le member) different⟩
      exact absurd sums less.ne
    have noneMissed : forall item, item ∈ items -> late item = true -> early item = true := by
      intro item member isLate
      refine Classical.byContradiction fun notEarly => ?_
      have missed := Bool.eq_false_iff.mpr notEarly
      have place := places item member
      rw [placeOf, placeOf, missed, isLate, if_neg Bool.false_ne_true, if_pos rfl] at place
      exact absurd place (later.onlyLate item member missed isLate).ne
    have lengths := alike.length_eq
    rw [List.length_map, List.length_map] at lengths
    have same : forall item, item ∈ items -> early item = late item := by
      have restricted : (items.filter early).filter late = items.filter late := by
        rw [List.filter_filter]
        refine List.filter_congr fun item member => ?_
        cases isLate : late item with
        | false => rfl
        | true => exact noneMissed item member isLate
      have equal : items.filter late = items.filter early := by
        refine List.Sublist.eq_of_length ?_ lengths.symm
        rw [← restricted]
        exact List.filter_sublist
      intro item member
      rw [Bool.eq_iff_iff]
      refine ⟨fun isEarly => ?_, noneMissed item member⟩
      have isLate := List.mem_filter.mpr ⟨member, isEarly⟩
      rw [← equal] at isLate
      exact (List.mem_filter.mp isLate).2
    intro item member
    refine ⟨same item member, fun isLate => ?_⟩
    have place := places item member
    rw [placeOf, placeOf, same item member, isLate, if_pos rfl, if_pos rfl] at place
    exact place
  · intro alike
    rw [List.filter_congr fun item member => (alike item member).1]
    rw [List.map_congr_left fun item member =>
      (alike item (List.mem_filter.mp member).1).2 (List.mem_filter.mp member).2]

end Later

/-- Lists of one length that hold everything but one thing equally often hold that one
equally often, too. -/
theorem count_eq_of_others [BEq α] [LawfulBEq α] {first second : List α} {special : α}
    (lengths : first.length = second.length)
    (others : forall item, item ≠ special -> first.count item = second.count item) :
    first.count special = second.count special := by
  have filtered : (first.filter fun item => !(item == special)).Perm
      (second.filter fun item => !(item == special)) := by
    rw [List.perm_iff_count]
    intro item
    by_cases isSpecial : item = special
    · have absent : forall items : List α, item ∉ items.filter fun item => !(item == special) := by
        intro items member
        rw [List.mem_filter, isSpecial, beq_self_eq_true] at member
        exact Bool.false_ne_true member.2
      rw [List.count_eq_zero_of_not_mem (absent first), List.count_eq_zero_of_not_mem (absent second)]
    · have kept : (!(item == special)) = true := by
        rw [beq_eq_false_iff_ne.mpr isSpecial]
        rfl
      have counts := fun items => List.count_filter (l := items) (p := fun item => !(item == special)) kept
      rw [counts, counts]
      exact others item isSpecial
  have sizes := filtered.length_eq
  rw [← List.countP_eq_length_filter, ← List.countP_eq_length_filter] at sizes
  have firstLength := List.length_eq_countP_add_countP (fun item => item == special) (l := first)
  have secondLength := List.length_eq_countP_add_countP (fun item => item == special) (l := second)
  rw [List.count_eq_countP, List.count_eq_countP]
  simp only [Bool.not_eq_true, Bool.decide_eq_false] at firstLength secondLength
  omega

end Placement
end Telescope
