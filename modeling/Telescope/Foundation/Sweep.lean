import Mathlib.Order.Lattice
import Mathlib.Data.List.Perm.Subperm

namespace Telescope
namespace Sweep

universe u v

/-!
# Sweeps

A rule selects elements of a list and keeps the highest few of them.  A sweep by some rules
removes what they select, except for what each of them keeps; where no element is selected
twice, a sweep by many rules is a sweep by one after the other.
-/

variable {α : Type u} {β : Type v} [LinearOrder β]

/-- What a rule selects, and how many of it it keeps. -/
structure Rule (α : Type u) where
  selects : α -> Bool
  keep : Nat

/-- The highest few of some elements.  Among elements of the same rank the choice is free. -/
structure HighestOf (rank : α -> β) (few : Nat) (among highest : List α) : Prop where
  sublist : highest.Sublist among
  length : highest.length = min few among.length
  higher : forall kept, kept ∈ highest -> forall other, other ∈ among -> other ∉ highest ->
    rank other ≤ rank kept

/-- What a sweep by some rules leaves of a list. -/
structure Swept (rank : α -> β) (rules : List (Rule α)) (before after : List α) : Prop where
  sublist : after.Sublist before
  spares : forall value, value ∈ before -> (forall rule, rule ∈ rules -> rule.selects value = false) ->
    value ∈ after
  keeps : forall rule, rule ∈ rules ->
    HighestOf rank rule.keep (before.filter rule.selects) (after.filter rule.selects)

/-- A part that contains all of a condition has the same elements of it. -/
theorem filter_eq_of_contains {before after : List α} (nodup : before.Nodup) (sublist : after.Sublist before)
    {condition : α -> Bool}
    (contains : forall value, value ∈ before -> condition value = true -> value ∈ after) :
    after.filter condition = before.filter condition := by
  refine (sublist.filter condition).eq_of_length_le ?_
  refine (List.subperm_of_subset (nodup.filter condition) fun value member => ?_).length_le
  rcases List.mem_filter.mp member with ⟨present, meets⟩
  exact List.mem_filter.mpr ⟨contains value present meets, meets⟩

namespace Swept

variable {rank : α -> β} {rule : Rule α} {rules : List (Rule α)} {before middle after : List α}

theorem nil (values : List α) : Swept rank [] values values where
  sublist := List.Sublist.refl values
  spares := fun _ member _ => member
  keeps := fun _ none => (List.not_mem_nil none).elim

/-- A sweep leaves alone what its rules do not select. -/
theorem filter_eq (swept : Swept rank rules before after) (nodup : before.Nodup) {condition : α -> Bool}
    (apart : forall value, condition value = true -> forall rule, rule ∈ rules -> rule.selects value = false) :
    after.filter condition = before.filter condition :=
  filter_eq_of_contains nodup swept.sublist fun value member meets =>
    swept.spares value member (apart value meets)

/-- A sweep after another whose rule selects nothing of it. -/
theorem cons (first : Swept rank [rule] before middle) (rest : Swept rank rules middle after)
    (nodup : before.Nodup)
    (apart : forall other, other ∈ rules -> forall value, rule.selects value = true ->
      other.selects value = false) :
    Swept rank (rule :: rules) before after where
  sublist := rest.sublist.trans first.sublist
  spares := by
    intro value member unselected
    rw [List.forall_mem_cons] at unselected
    exact rest.spares value (first.spares value member (List.forall_mem_singleton.mpr unselected.1))
      unselected.2
  keeps := by
    intro chosen isChosen
    rcases List.mem_cons.mp isChosen with rfl | later
    · rw [rest.filter_eq (first.sublist.nodup nodup) fun value selected other isOther =>
        apart other isOther value selected]
      exact first.keeps chosen (List.mem_cons_self ..)
    · have same : middle.filter chosen.selects = before.filter chosen.selects :=
        first.filter_eq nodup fun value selected => List.forall_mem_singleton.mpr (by
          by_contra both
          rw [Bool.not_eq_false] at both
          rw [apart chosen later value both] at selected
          cases selected)
      rw [← same]
      exact rest.keeps chosen later

/-- Of a condition that its rules avoid nothing is removed. -/
theorem countP_of_apart (swept : Swept rank rules before after) (nodup : before.Nodup) (condition : α -> Bool)
    (apart : forall value, condition value = true -> forall rule, rule ∈ rules -> rule.selects value = false) :
    after.countP condition = before.countP condition := by
  rw [List.countP_eq_length_filter, List.countP_eq_length_filter, swept.filter_eq nodup apart]

/-- Of a condition that its rules imply everything is removed that is removed at all. -/
theorem countP_of_within (swept : Swept rank rules before after) (nodup : before.Nodup)
    (condition : α -> Bool)
    (within : forall rule, rule ∈ rules -> forall value, rule.selects value = true ->
      condition value = true) :
    after.countP condition + before.length = before.countP condition + after.length := by
  have outside : after.countP (fun value => !condition value) = before.countP fun value => !condition value := by
    refine swept.countP_of_apart nodup _ fun value fails rule isRule => ?_
    by_contra selected
    rw [Bool.not_eq_false] at selected
    rw [within rule isRule value selected] at fails
    cases fails
  have parts : forall values : List α,
      values.length = values.countP condition + values.countP fun value => !condition value := by
    intro values
    refine (List.length_eq_countP_add_countP condition).trans (congrArg (_ + ·) (List.countP_congr fun value _ => ?_))
    rw [decide_eq_true_eq, Bool.not_eq_true', Bool.not_eq_true]
  rw [parts before, parts after, outside]
  omega

end Swept
end Sweep
end Telescope
