import Telescope.Foundation.Keyset
import Mathlib.Data.List.Sort

namespace Telescope
namespace Ranking

universe u v

/-!
# Ranks

The rank of an element is the number of elements before it.  Two orders that
each cut off all but their first few agree on what they keep exactly when what
the one keeps has a small rank in the other; a selection may be made before the
one cut and after the other.  A stable sort orders what it compares as equal by
the order in which it found it.
-/

variable {α : Type u}

/-- How many elements come before one. -/
def rank (before : α -> α -> Prop) [forall first second, Decidable (before first second)]
    (elements : List α) (element : α) : Nat :=
  elements.countP fun other => decide (before other element)

theorem rank_eq_of_perm (before : α -> α -> Prop)
    [forall first second, Decidable (before first second)] {left right : List α}
    (perm : left.Perm right) (element : α) : rank before left element = rank before right element :=
  perm.countP_eq _

section Cuts

variable {own reference : α -> α -> Prop} [forall first second, Decidable (own first second)]
  [forall first second, Decidable (reference first second)]

theorem mem_take_iff {before : α -> α -> Prop} [forall first second, Decidable (before first second)]
    (asymmetric : forall first second, before first second -> ¬ before second first)
    {elements : List α} (sorted : elements.Pairwise before) {element : α}
    (member : element ∈ elements) {places : Nat} :
    element ∈ elements.take places <-> rank before elements element < places := by
  have distinct : elements.Nodup := sorted.imp fun {first second} precedes same => by
    subst same
    exact asymmetric first first precedes precedes
  rw [rank, ← not_le, ← Keyset.mem_drop_iff asymmetric sorted member]
  constructor
  · exact fun front back => List.disjoint_take_drop distinct (Nat.le_refl places) front back
  · intro notBack
    rw [← List.take_append_drop places elements] at member
    exact (List.mem_append.mp member).resolve_right notBack

/-- Cutting a listing in its own order and selecting then leaves what selecting
and cutting in the order of reference would leave, exactly when each element the
reference keeps is among the first of the listing. -/
theorem drop_filter_perm_iff
    (ownAsymmetric : forall first second, own first second -> ¬ own second first)
    (referenceAsymmetric : forall first second, reference first second -> ¬ reference second first)
    {listed target : List α} (listedSorted : listed.Pairwise own)
    (targetSorted : target.Pairwise reference) (selected : α -> Bool)
    (perm : (listed.filter selected).Perm target) (keep : Nat) :
    ((listed.drop keep).filter selected).Perm (target.drop keep) <->
      forall element, element ∈ target ->
        rank reference target element < keep -> rank own listed element < keep := by
  have distinct : forall {before : α -> α -> Prop} {elements : List α},
      (forall first second, before first second -> ¬ before second first) ->
      elements.Pairwise before -> elements.Nodup := by
    intro before elements asymmetric sorted
    refine sorted.imp fun {first second} precedes same => ?_
    subst same
    exact asymmetric first first precedes precedes
  have listedDistinct := distinct ownAsymmetric listedSorted
  have targetDistinct := distinct referenceAsymmetric targetSorted
  have inListed : forall {element}, element ∈ target -> element ∈ listed ∧ selected element = true :=
    fun member => List.mem_filter.mp (perm.mem_iff.mpr member)
  have keptAlike : (forall element, element ∈ target ->
        rank reference target element < keep -> rank own listed element < keep) <->
      forall element, element ∈ target.take keep -> element ∈ listed.take keep := by
    constructor
    · intro ranked element kept
      have member := List.mem_of_mem_take kept
      refine (mem_take_iff ownAsymmetric listedSorted (inListed member).1).mpr (ranked element member ?_)
      exact (mem_take_iff referenceAsymmetric targetSorted member).mp kept
    · intro front element member early
      refine (mem_take_iff ownAsymmetric listedSorted (inListed member).1).mp (front element ?_)
      exact (mem_take_iff referenceAsymmetric targetSorted member).mpr early
  rw [keptAlike]
  constructor
  · intro gone element kept
    have member := List.mem_of_mem_take kept
    rcases List.mem_append.mp ((List.take_append_drop keep listed).symm ▸ (inListed member).1) with
      early | late
    · exact early
    · have dropped := gone.mem_iff.mp (List.mem_filter.mpr ⟨late, (inListed member).2⟩)
      exact (List.disjoint_take_drop targetDistinct (Nat.le_refl keep) kept dropped).elim
  · intro front
    refine (List.perm_ext_iff_of_nodup ((listedDistinct.sublist (List.drop_sublist _ _)).filter _)
      (targetDistinct.sublist (List.drop_sublist _ _))).mpr fun element => ?_
    constructor
    · intro gone
      rcases List.mem_filter.mp gone with ⟨late, isSelected⟩
      have member := perm.mem_iff.mp (List.mem_filter.mpr ⟨List.mem_of_mem_drop late, isSelected⟩)
      rcases List.mem_append.mp ((List.take_append_drop keep target).symm ▸ member) with kept | cut
      · exact (List.disjoint_take_drop listedDistinct (Nat.le_refl keep) (front element kept) late).elim
      · exact cut
    · intro cut
      have member := List.mem_of_mem_drop cut
      refine List.mem_filter.mpr ⟨?_, (inListed member).2⟩
      rcases List.mem_append.mp ((List.take_append_drop keep listed).symm ▸ (inListed member).1) with
        early | late
      · -- The front is full of what the reference keeps, so nothing else is in it.
        have within : (target.take keep).Subperm (listed.take keep) :=
          (targetDistinct.sublist (List.take_sublist _ _)).subperm fun other => front other
        have longer : keep < target.length := by
          by_contra short
          rw [List.drop_eq_nil_of_le (Nat.le_of_not_lt short)] at cut
          exact List.not_mem_nil cut
        have same := within.perm_of_length_le (by
          rw [List.length_take, List.length_take]
          omega)
        exact (List.disjoint_take_drop targetDistinct (Nat.le_refl keep) (same.mem_iff.mpr early)
          cut).elim
      · exact late

end Cuts

/-- The front of a list in one order holds what is least in another exactly when
nothing that comes first keeps something lesser out of the front. -/
theorem front_least_iff {κ : Type v} [LinearOrder κ] {key : α -> κ} {before : α -> α -> Prop}
    [forall first second, Decidable (before first second)]
    (asymmetric : forall first second, before first second -> ¬ before second first)
    {listed elements : List α} (sorted : listed.Pairwise before) (perm : listed.Perm elements)
    (places : Nat) :
    (forall front, front ∈ listed.take places -> forall back, back ∈ listed.drop places ->
        key front ≤ key back) <->
      forall lesser greater, lesser ∈ elements -> greater ∈ elements -> key lesser < key greater ->
        before greater lesser -> rank before elements greater < places ->
        rank before elements lesser < places := by
  have ranked := rank_eq_of_perm before perm
  constructor
  · intro least lesser greater lesserMember greaterMember less _ early
    by_contra late
    rw [not_lt, ← ranked] at late
    have front : greater ∈ listed.take places :=
      (mem_take_iff asymmetric sorted (perm.mem_iff.mpr greaterMember)).mpr (ranked greater ▸ early)
    have back : lesser ∈ listed.drop places :=
      (Keyset.mem_drop_iff asymmetric sorted (perm.mem_iff.mpr lesserMember)).mpr late
    exact not_lt.mpr (least greater front lesser back) less
  · intro passes front isFront back isBack
    by_contra greater
    have parts : (listed.take places ++ listed.drop places).Pairwise before :=
      (List.take_append_drop places listed).symm ▸ sorted
    have precedes := (List.pairwise_append.mp parts).2.2 front isFront back isBack
    have frontMember := List.mem_of_mem_take isFront
    have backMember := List.mem_of_mem_drop isBack
    have early := (mem_take_iff asymmetric sorted frontMember).mp isFront
    have late := (Keyset.mem_drop_iff asymmetric sorted backMember).mp isBack
    rw [ranked] at early
    have passed := passes back front (perm.mem_iff.mp backMember) (perm.mem_iff.mp frontMember)
      (not_le.mp greater) precedes early
    rw [← ranked] at passed
    exact not_lt.mpr late passed

/-! ## Stable sorts -/

/-- Sorted by a comparison, and where it does not decide by the order found. -/
theorem stable_insertionSort {compared found : α -> α -> Prop}
    [forall first second, Decidable (compared first second)]
    (total : forall first second, compared first second ∨ compared second first)
    (transitive : forall first second third,
      compared first second -> compared second third -> compared first third)
    {elements : List α} (order : elements.Pairwise found) :
    (elements.insertionSort compared).Pairwise fun first second =>
      compared first second ∧ (compared second first -> found first second) := by
  induction elements with
  | nil => exact List.Pairwise.nil
  | cons first elements inductionHypothesis =>
      rcases List.pairwise_cons.mp order with ⟨leads, rest⟩
      have sorted := inductionHypothesis rest
      have precedes : forall other, other ∈ elements.insertionSort compared -> found first other :=
        fun other member => leads other ((List.mem_insertionSort compared).mp member)
      rw [List.insertionSort_cons]
      generalize elements.insertionSort compared = tail at sorted precedes
      induction tail with
      | nil => exact List.pairwise_singleton _ _
      | cons second tail tailHypothesis =>
          rcases List.pairwise_cons.mp sorted with ⟨above, tailSorted⟩
          by_cases fits : compared first second
          · rw [List.orderedInsert_cons_of_le compared tail fits]
            refine List.pairwise_cons.mpr ⟨fun other member => ⟨?_, fun _ => precedes other member⟩, sorted⟩
            rcases List.mem_cons.mp member with rfl | later
            · exact fits
            · exact transitive _ _ _ fits (above other later).1
          · rw [List.orderedInsert_of_not_le compared tail fits]
            refine List.pairwise_cons.mpr ⟨fun other member => ?_,
              tailHypothesis tailSorted fun other member =>
                precedes other (List.mem_cons_of_mem _ member)⟩
            rcases (List.mem_orderedInsert compared).mp member with rfl | later
            · exact ⟨(total _ _).resolve_left fits, fun back => (fits back).elim⟩
            · exact above other later

section Strict

variable {κ : Type v} {before : κ -> κ -> Prop} [forall first second, Decidable (before first second)]
  {key : α -> κ} {elements : List α}

/-- Sorted by keys under a strict order: nothing is behind what comes after it. -/
theorem keyed_insertionSort
    (asymmetric : forall first second, before first second -> ¬ before second first)
    (transitive : forall first second third,
      before first second -> before second third -> before first third)
    (trichotomy : forall first second, before first second ∨ first = second ∨ before second first)
    {found : α -> α -> Prop} (order : elements.Pairwise found) :
    (elements.insertionSort fun first second => ¬ before (key second) (key first)).Pairwise
      fun first second => ¬ before (key second) (key first) ∧
        (¬ before (key first) (key second) -> found first second) := by
  refine stable_insertionSort (fun first second => ?_) (fun first second third left right after => ?_)
    order
  · by_cases after : before (key second) (key first)
    · exact .inr (asymmetric _ _ after)
    · exact .inl after
  · rcases trichotomy (key first) (key second) with precedes | same | follows
    · exact right (transitive _ _ _ after precedes)
    · exact right (same ▸ after)
    · exact left follows

/-- Distinct keys are sorted strictly. -/
theorem strict_insertionSort
    (asymmetric : forall first second, before first second -> ¬ before second first)
    (transitive : forall first second third,
      before first second -> before second third -> before first third)
    (trichotomy : forall first second, before first second ∨ first = second ∨ before second first)
    (distinct : (elements.map key).Nodup) :
    (elements.insertionSort fun first second => ¬ before (key second) (key first)).Pairwise
      fun first second => before (key first) (key second) := by
  refine (keyed_insertionSort asymmetric transitive trichotomy (List.pairwise_map.mp distinct)).imp ?_
  rintro first second ⟨notAfter, different⟩
  rcases trichotomy (key first) (key second) with precedes | same | follows
  · exact precedes
  · exact (different (by rw [same]; exact fun itself => asymmetric _ _ itself itself) same).elim
  · exact (notAfter follows).elim

end Strict

end Ranking
end Telescope
