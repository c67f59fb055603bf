import Mathlib.Data.List.Sort
import Mathlib.Data.List.Dedup
import Mathlib.Data.List.Perm.Subperm

namespace Telescope

universe u

/-!
# The least elements

The first elements of a sorted list, up to a limit or all of them, with copies
counted or each element once.  Cutting a collection to its least elements before
more is added to it makes no difference, and once as many elements as the limit
are found, nothing that lies behind them does: a search that reads its sources
in order may drop what is cut off and stop early.
-/

variable {α : Type u}

/-- At most as many elements as a limit, which may be absent. -/
def cut (limit : Option Nat) (elements : List α) : List α := limit.elim elements elements.take

theorem cut_sublist (limit : Option Nat) (elements : List α) : (cut limit elements).Sublist elements := by
  cases limit with
  | none => exact List.Sublist.refl elements
  | some limit => exact List.take_sublist limit elements

theorem map_cut {β : Type u} (f : α -> β) (limit : Option Nat) (elements : List α) :
    (cut limit elements).map f = cut limit (elements.map f) := by
  cases limit with
  | none => rfl
  | some limit => exact List.map_take

namespace Least

variable [LinearOrder α]

/-- The least elements with their copies, ascending. -/
def least (limit : Option Nat) (elements : List α) : List α :=
  cut limit (elements.insertionSort (· ≤ ·))

/-- The least elements, each once, ascending. -/
def leastDistinct (limit : Option Nat) (elements : List α) : List α := least limit elements.dedup

theorem sorted_least (limit : Option Nat) (elements : List α) :
    (least limit elements).Pairwise (· ≤ ·) :=
  (List.pairwise_insertionSort (· ≤ ·) elements).sublist (cut_sublist limit _)

theorem least_none (elements : List α) : (least none elements).Perm elements :=
  List.perm_insertionSort (· ≤ ·) elements

variable {left right : List α}

theorem sort_eq_of_perm (perm : left.Perm right) :
    left.insertionSort (· ≤ ·) = right.insertionSort (· ≤ ·) :=
  ((List.perm_insertionSort (· ≤ ·) left).trans
    (perm.trans (List.perm_insertionSort (· ≤ ·) right).symm)).eq_of_pairwise
      (fun _ _ _ _ => le_antisymm) (List.pairwise_insertionSort _ left)
      (List.pairwise_insertionSort _ right)

theorem least_eq_of_perm (limit : Option Nat) (perm : left.Perm right) :
    least limit left = least limit right := by
  rw [least, least, sort_eq_of_perm perm]

variable {elements : List α} {limit : Nat}

/-- An element is among the least ones when fewer than the limit come before it. -/
theorem mem_take_of_sorted (sorted : elements.Pairwise (· ≤ ·)) {element : α} : element ∈ elements.take limit <->
      element ∈ elements ∧ elements.countP (fun other => decide (other < element)) < limit := by
  induction elements generalizing limit with
  | nil => simp only [List.take_nil, List.not_mem_nil, false_and]
  | cons first elements inductionHypothesis =>
      rcases List.pairwise_cons.mp sorted with ⟨leads, rest⟩
      cases limit with
      | zero => simp only [List.take_zero, List.not_mem_nil, Nat.not_lt_zero, and_false]
      | succ limit =>
          rw [List.take_succ_cons, List.mem_cons, List.mem_cons, inductionHypothesis rest,
            List.countP_cons]
          rcases lt_trichotomy first element with before | same | after
          · rw [if_pos (decide_eq_true before)]
            have different : element ≠ first := before.ne'
            simp only [different, false_or, Nat.add_lt_add_iff_right]
          · have none : elements.countP (fun other => decide (other < element)) = 0 :=
              List.countP_eq_zero.mpr fun other member => by
                rw [decide_eq_true_eq, not_lt, ← same]
                exact leads other member
            rw [none, if_neg (by rw [decide_eq_true_eq, same]; exact lt_irrefl element)]
            simp only [same, true_or, true_and, Nat.zero_add, Nat.zero_lt_succ]
          · have absent : element ∉ elements := fun member => (leads element member).not_gt after
            have different : element ≠ first := after.ne
            simp only [different, absent, false_and, or_false]

theorem mem_least {limit : Option Nat} {element : α} :
    element ∈ least limit elements <-> element ∈ elements ∧
      forall bound, limit = some bound ->
        elements.countP (fun other => decide (other < element)) < bound := by
  have sorted := List.pairwise_insertionSort (· ≤ ·) elements
  have perm := List.perm_insertionSort (· ≤ ·) elements
  cases limit with
  | none => exact (List.mem_insertionSort (· ≤ ·)).trans ⟨fun member => ⟨member, fun _ none => by cases none⟩, And.left⟩
  | some limit =>
      rw [least, cut, Option.elim_some, mem_take_of_sorted sorted, perm.mem_iff, perm.countP_eq]
      simp only [Option.some.injEq, forall_eq']

theorem le_of_getElem? (sorted : elements.Pairwise (· ≤ ·)) (short : elements.length ≤ limit) {last : α}
    (isLast : elements[limit - 1]? = some last) {element : α} (member : element ∈ elements) : element ≤ last := by
  rcases List.getElem?_eq_some_iff.mp isLast with ⟨inside, rfl⟩
  rcases List.getElem_of_mem member with ⟨place, bound, rfl⟩
  rcases Nat.lt_or_eq_of_le (Nat.le_sub_one_of_lt (Nat.lt_of_lt_of_le bound short)) with before | same
  · exact List.pairwise_iff_getElem.mp sorted place (limit - 1) bound inside before
  · exact le_of_eq (by simp only [same])

theorem mem_leastDistinct {limit : Option Nat} {element : α} :
    element ∈ leastDistinct limit elements <-> element ∈ elements ∧
      forall bound, limit = some bound ->
        elements.dedup.countP (fun other => decide (other < element)) < bound := by
  rw [leastDistinct, mem_least, List.mem_dedup]

/-- The least elements, each once, depend on the members alone. -/
theorem leastDistinct_congr (limit : Option Nat) (same : forall element, element ∈ left <-> element ∈ right) :
    leastDistinct limit left = leastDistinct limit right := by
  refine least_eq_of_perm limit ((List.perm_ext_iff_of_nodup (List.nodup_dedup left)
    (List.nodup_dedup right)).mpr fun element => ?_)
  rw [List.mem_dedup, List.mem_dedup]
  exact same element

/-- They ascend strictly. -/
theorem strict_leastDistinct (limit : Option Nat) (elements : List α) :
    (leastDistinct limit elements).Pairwise (· < ·) := by
  have distinct : (leastDistinct limit elements).Nodup :=
    ((List.perm_insertionSort (· ≤ ·) elements.dedup).nodup_iff.mpr (List.nodup_dedup elements)).sublist
      (cut_sublist limit _)
  exact ((sorted_least limit elements.dedup).and distinct).imp fun both => lt_of_le_of_ne both.1 both.2

/-! ## Cutting early -/

theorem least_length (full : limit ≤ elements.length) :
    (least (some limit) elements).length = limit := by
  change ((elements.insertionSort (· ≤ ·)).take limit).length = limit
  rw [List.length_take, List.length_insertionSort, Nat.min_eq_left full]

/-- As many elements as the limit, with none of the others before them, are the least. -/
theorem least_append_of_full {others : List α} (full : limit ≤ elements.length)
    (behind : forall element, element ∈ least (some limit) elements ->
      forall other, other ∈ others -> element ≤ other) :
    least (some limit) (elements ++ others) = least (some limit) elements := by
  have size := least_length full
  have sorted := List.pairwise_insertionSort (· ≤ ·) elements
  have parts : (elements.insertionSort (· ≤ ·)) = least (some limit) elements ++
      (elements.insertionSort (· ≤ ·)).drop limit := (List.take_append_drop limit _).symm
  generalize least (some limit) elements = front at *
  generalize (elements.insertionSort (· ≤ ·)).drop limit = back at *
  rw [parts] at sorted
  rcases List.pairwise_append.mp sorted with ⟨frontSorted, _, across⟩
  have perm : (elements ++ others).Perm (front ++ (back ++ others).insertionSort (· ≤ ·)) := by
    refine (List.Perm.append_right others (List.perm_insertionSort (· ≤ ·) elements).symm).trans ?_
    rw [parts, List.append_assoc]
    exact List.Perm.append_left front (List.perm_insertionSort (· ≤ ·) _).symm
  have ordered : (front ++ (back ++ others).insertionSort (· ≤ ·)).Pairwise (· ≤ ·) := by
    refine List.pairwise_append.mpr ⟨frontSorted, List.pairwise_insertionSort _ _, ?_⟩
    intro element member other found
    rcases List.mem_append.mp ((List.mem_insertionSort (· ≤ ·)).mp found) with inBack | added
    · exact across element member other inBack
    · exact behind element member other added
  rw [least, sort_eq_of_perm perm, ordered.insertionSort_eq, cut, Option.elim_some,
    List.take_append_of_le_length size.ge, List.take_of_length_le size.le]

/-- Elements that are cut off come after whatever takes the place of the others. -/
theorem cut_behind {more : List α} (full : limit ≤ elements.length)
    (within : (least (some limit) elements).Subperm more) {element other : α} (kept : element ∈ least (some limit) more)
    (cutOff : other ∈ (elements.insertionSort (· ≤ ·)).drop limit) : element ≤ other := by
  by_contra before
  have sorted := List.pairwise_insertionSort (· ≤ ·) elements
  rw [← List.take_append_drop limit (elements.insertionSort (· ≤ ·))] at sorted
  have across := (List.pairwise_append.mp sorted).2.2
  have all : (least (some limit) elements).countP (fun first => decide (first < element)) = limit := by
    refine (List.countP_eq_length.mpr fun first member => ?_).trans (least_length full)
    exact decide_eq_true (lt_of_le_of_lt (across first member other cutOff) (not_le.mp before))
  have fewer := (mem_least.mp kept).2 limit rfl
  have counted := within.countP_le fun first => decide (first < element)
  omega

/-- Cutting first makes no difference. -/
theorem least_append_least (limit : Option Nat) (elements others : List α) :
    least limit (least limit elements ++ others) = least limit (elements ++ others) := by
  cases limit with
  | none => exact least_eq_of_perm none ((least_none elements).append_right others)
  | some limit =>
      have perm := List.perm_insertionSort (· ≤ ·) elements
      by_cases full : limit ≤ elements.length
      · have whole : (elements.insertionSort (· ≤ ·)) = least (some limit) elements ++
            (elements.insertionSort (· ≤ ·)).drop limit := (List.take_append_drop limit _).symm
        have parts : (elements ++ others).Perm
            ((least (some limit) elements ++ others) ++ (elements.insertionSort (· ≤ ·)).drop limit) := by
          rw [List.append_assoc]
          refine (perm.symm.append_right others).trans ?_
          nth_rewrite 1 [whole]
          rw [List.append_assoc]
          exact List.perm_append_comm.append_left _
        rw [least_eq_of_perm (some limit) parts]
        refine (least_append_of_full ?_ fun element kept other cutOff =>
          cut_behind full (List.sublist_append_left _ others).subperm kept cutOff).symm
        rw [List.length_append, least_length full]
        exact Nat.le_add_right _ _
      · refine least_eq_of_perm (some limit) (List.Perm.append_right others ?_)
        rw [least, cut, Option.elim_some, List.take_of_length_le]
        · exact perm
        · rw [List.length_insertionSort]
          exact (not_le.mp full).le

theorem least_least (limit : Option Nat) (elements : List α) :
    least limit (least limit elements) = least limit elements := by
  have cutTwice := least_append_least limit elements []
  rwa [List.append_nil, List.append_nil] at cutTwice

theorem least_append_congr {limit : Option Nat} (same : least limit left = least limit right) (others : List α) :
    least limit (left ++ others) = least limit (right ++ others) := by
  rw [← least_append_least, same, least_append_least]

theorem leastDistinct_append_of_full {others : List α} (full : limit ≤ elements.dedup.length)
    (behind : forall element, element ∈ leastDistinct (some limit) elements ->
      forall other, other ∈ others -> element ≤ other) :
    leastDistinct (some limit) (elements ++ others) = leastDistinct (some limit) elements := by
  have parts : (elements ++ others).dedup.Perm
      (elements.dedup ++ others.dedup.filter fun other => decide (other ∉ elements)) := by
    refine (List.perm_ext_iff_of_nodup (List.nodup_dedup _) ?_).mpr fun element => ?_
    · refine List.nodup_append.mpr
        ⟨List.nodup_dedup _, (List.nodup_dedup _).filter _, fun left isLeft right isRight same => ?_⟩
      exact of_decide_eq_true (List.mem_filter.mp isRight).2 (same ▸ List.mem_dedup.mp isLeft)
    · rw [List.mem_dedup, List.mem_append, List.mem_append, List.mem_filter, List.mem_dedup,
        List.mem_dedup, decide_eq_true_eq]
      tauto
  rw [leastDistinct, least_eq_of_perm (some limit) parts]
  exact least_append_of_full full fun element member other added =>
    behind element member other (List.mem_dedup.mp (List.mem_of_mem_filter added))

theorem leastDistinct_append_leastDistinct (limit : Option Nat) (elements others : List α) :
    leastDistinct limit (leastDistinct limit elements ++ others) =
      leastDistinct limit (elements ++ others) := by
  have distinct := strict_leastDistinct limit elements
  cases limit with
  | none =>
      refine leastDistinct_congr none fun element => ?_
      rw [List.mem_append, List.mem_append, mem_leastDistinct]
      simp only [reduceCtorEq, false_implies, implies_true, and_true]
  | some limit =>
      by_cases full : limit ≤ elements.dedup.length
      · have same : leastDistinct (some limit) (elements ++ others) =
            leastDistinct (some limit) ((leastDistinct (some limit) elements ++ others) ++
              (elements.dedup.insertionSort (· ≤ ·)).drop limit) := by
          refine leastDistinct_congr _ fun element => ?_
          have front : element ∈ elements <-> element ∈ leastDistinct (some limit) elements ∨
              element ∈ (elements.dedup.insertionSort (· ≤ ·)).drop limit := by
            rw [← List.mem_dedup, ← List.mem_insertionSort (· ≤ ·), ← List.mem_append]
            exact iff_of_eq (congrArg _ (List.take_append_drop limit _).symm)
          rw [List.mem_append, List.mem_append, List.mem_append, front]
          tauto
        rw [same]
        have within : (least (some limit) elements.dedup).Subperm
            (leastDistinct (some limit) elements ++ others).dedup := by
          have nodup : (least (some limit) elements.dedup).Nodup := distinct.imp fun before => before.ne
          exact List.Nodup.subperm nodup fun element member =>
            List.mem_dedup.mpr (List.mem_append_left _ member)
        refine (leastDistinct_append_of_full ?_ fun element kept other cutOff =>
          cut_behind full within kept cutOff).symm
        exact (least_length full).ge.trans within.length_le
      · refine leastDistinct_congr _ fun element => ?_
        rw [List.mem_append, List.mem_append, mem_leastDistinct]
        refine or_congr_left (and_iff_left_of_imp fun _ bound isBound => ?_)
        cases isBound
        exact lt_of_le_of_lt List.countP_le_length (not_le.mp full)

theorem leastDistinct_leastDistinct (limit : Option Nat) (elements : List α) :
    leastDistinct limit (leastDistinct limit elements) = leastDistinct limit elements := by
  have cutTwice := leastDistinct_append_leastDistinct limit elements []
  rwa [List.append_nil, List.append_nil] at cutTwice

theorem leastDistinct_append_congr {limit : Option Nat} (same : leastDistinct limit left = leastDistinct limit right)
    (others : List α) :
    leastDistinct limit (left ++ others) = leastDistinct limit (right ++ others) := by
  rw [← leastDistinct_append_leastDistinct, same, leastDistinct_append_leastDistinct]

end Least
end Telescope
