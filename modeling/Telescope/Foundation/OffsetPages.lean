import Mathlib.Data.List.Flatten
import Mathlib.Data.List.ReduceOption

namespace Telescope

universe u

/-!
# Following pages by offset

A client asks for pages at growing offsets until one is shorter than the page size.  When
the pages are the slices of a list this ends, and the pages put together are the list; when
no page is ever short it does not end.
-/

variable {α : Type u}

/-- The pages that are fetched from an offset on, the last of them the first short one. -/
inductive FollowsPages (fetch : Nat -> List α) (size : Nat) : Nat -> List (List α) -> Prop
  | last {offset : Nat} (short : (fetch offset).length < size) : FollowsPages fetch size offset [fetch offset]
  | more {offset : Nat} {pages : List (List α)} (full : size ≤ (fetch offset).length)
      (rest : FollowsPages fetch size (offset + size) pages) : FollowsPages fetch size offset (fetch offset :: pages)

namespace FollowsPages

variable {fetch : Nat -> List α} {size : Nat}

/-- Where every page is full there is no last one. -/
theorem not_of_full (full : forall offset, size ≤ (fetch offset).length) {offset : Nat} {pages : List (List α)} :
    ¬ FollowsPages fetch size offset pages := by
  intro follows
  induction follows with
  | last short => exact absurd (full _) (Nat.not_le.mpr short)
  | more _ _ inductionHypothesis => exact inductionHypothesis

/-- The slices of a list end, and put together are the list. -/
theorem exists_of_slices {rows : List α} (positive : 0 < size)
    (slices : forall offset, fetch offset = (rows.drop offset).take size) (offset : Nat) :
    Exists fun pages => FollowsPages fetch size offset pages ∧ pages.flatten = rows.drop offset := by
  have page := slices offset
  by_cases short : (fetch offset).length < size
  · refine ⟨[fetch offset], .last short, ?_⟩
    rw [List.flatten_singleton, page]
    rw [page, List.length_take] at short
    exact List.take_of_length_le (by omega)
  · have full : size ≤ (fetch offset).length := Nat.not_lt.mp short
    have remains : size ≤ (rows.drop offset).length := by
      rw [page, List.length_take] at full
      omega
    rcases exists_of_slices positive slices (offset + size) with ⟨pages, follows, isRest⟩
    refine ⟨fetch offset :: pages, .more full follows, ?_⟩
    rw [List.flatten_cons, isRest, page, <- List.drop_drop, List.take_append_drop]
termination_by rows.length - offset
decreasing_by
  rw [List.length_drop] at remains
  omega

end FollowsPages

/-! ## Pages by cursor -/

universe v

variable {κ : Type v}

/-- The pages that are fetched from a cursor on, each with the cursor of the next. -/
inductive FollowsCursor (fetch : κ -> List α × Option κ) : κ -> List (List α) -> Prop
  | last {cursor : κ} (done : (fetch cursor).2 = none) : FollowsCursor fetch cursor [(fetch cursor).1]
  | more {cursor next : κ} {pages : List (List α)} (continues : (fetch cursor).2 = some next)
      (rest : FollowsCursor fetch next pages) : FollowsCursor fetch cursor ((fetch cursor).1 :: pages)

namespace FollowsCursor

variable {fetch : κ -> List α × Option κ}

theorem unique {cursor : κ} {pages others : List (List α)} (follows : FollowsCursor fetch cursor pages)
    (again : FollowsCursor fetch cursor others) : pages = others := by
  induction follows generalizing others with
  | last done =>
      cases again with
      | last => rfl
      | more continues _ => rw [done] at continues; cases continues
  | more continues _ inductionHypothesis =>
      cases again with
      | last done => rw [continues] at done; cases done
      | more continuesToo rest =>
          rw [continues] at continuesToo
          cases continuesToo
          rw [inductionHypothesis rest]

end FollowsCursor

/-! ## Pages of a list with gaps -/

section Gaps

variable {size : Nat} {rows : List (Option α)}

/-- The page of so many rows from an offset on, with one row more fetched to see whether
there is a next page.  Rows that are missing are left out before they are counted. -/
def gappedPage (rows : List (Option α)) (size offset : Nat) : List α × Option Nat :=
  let present := ((rows.drop offset).take (size + 1)).reduceOption
  (present.take size, if size < present.length then some (offset + size) else none)

/-- Behind the first page that a missing row is fetched for there is no row. -/
def ReachesAll (rows : List (Option α)) (size : Nat) : Prop :=
  forall gap, rows[gap]? = some none -> forall place row, rows[place]? = some (some row) ->
    place ≤ ((gap - 1) / size + 1) * size

theorem reduceOption_take_drop (count : Nat) (rows : List (Option α)) :
    rows.reduceOption = (rows.take count).reduceOption ++ (rows.drop count).reduceOption := by
  rw [<- List.reduceOption_append, List.take_append_drop]

/-- Where as many rows are left as were fetched, all of them are there. -/
theorem present_of_full (full : size < (rows.take (size + 1)).reduceOption.length) :
    (rows.take (size + 1)).reduceOption.take size = (rows.take size).reduceOption ∧
      forall place, place ≤ size -> rows[place]? ≠ none ∧ rows[place]? ≠ some none := by
  have atMost : (rows.take (size + 1)).length ≤ size + 1 := List.length_take_le ..
  have fewer := List.reduceOption_length_le (rows.take (size + 1))
  have length : (rows.take (size + 1)).length = size + 1 := by omega
  have all := List.reduceOption_length_eq_iff.mp (by omega : (rows.take (size + 1)).reduceOption.length = _)
  have split : (rows.take (size + 1)).reduceOption =
      (rows.take size).reduceOption ++ ((rows.take (size + 1)).drop size).reduceOption := by
    have parts := reduceOption_take_drop size (rows.take (size + 1))
    rw [List.take_take, Nat.min_eq_left (Nat.le_succ size)] at parts
    exact parts
  have front : (rows.take size).reduceOption.length = (rows.take size).length := by
    refine List.reduceOption_length_eq_iff.mpr fun row member => all row ?_
    rw [List.take_add_one]
    exact List.mem_append_left _ member
  rw [List.length_take] at length
  rw [List.length_take] at front
  refine ⟨?_, fun place within => ⟨fun absent => ?_, fun gap => ?_⟩⟩
  · rw [split, List.take_left' (by omega)]
  · have := List.getElem?_eq_none_iff.mp absent
    omega
  · have isRow : none ∈ rows.take (size + 1) := by
      refine List.mem_of_getElem? (i := place) ?_
      rw [List.getElem?_take_of_lt (Nat.lt_succ_of_le within)]
      exact gap
    exact absurd (all none isRow) Bool.false_ne_true

/-- The rows of a full page have no part in what is reached. -/
theorem reachesAll_drop (positive : 0 < size)
    (present : forall place, place ≤ size -> rows[place]? ≠ none ∧ rows[place]? ≠ some none) :
    ReachesAll (rows.drop size) size <-> ReachesAll rows size := by
  have ends : forall gap, ((size + gap - 1) / size + 1) * size = ((gap - 1) / size + 1) * size + size ∨ gap = 0 := by
    intro gap
    rcases Nat.eq_zero_or_pos gap with none | some
    · exact .inr none
    · have shift : size + gap - 1 = gap - 1 + size := by omega
      rw [shift, Nat.add_div_right _ positive, Nat.succ_mul]
      exact .inl rfl
  constructor
  · intro reaches gap isGap place row isRow
    rcases Nat.lt_or_ge size gap with later | early
    · rcases Nat.exists_eq_add_of_le (Nat.le_of_lt later) with ⟨gap, rfl⟩
      rcases ends gap with same | first
      · by_cases before : place ≤ size
        · rw [same]
          omega
        · rcases Nat.exists_eq_add_of_le (Nat.le_of_not_le before) with ⟨place, rfl⟩
          have reached := reaches gap (by rw [List.getElem?_drop]; exact isGap) place row
            (by rw [List.getElem?_drop]; exact isRow)
          rw [same]
          omega
      · omega
    · exact ((present gap early).2 isGap).elim
  · intro reaches gap isGap place row isRow
    rw [List.getElem?_drop] at isGap isRow
    have reached := reaches (size + gap) isGap (size + place) row isRow
    rcases ends gap with same | first
    · rw [same] at reached
      omega
    · rw [first] at isGap
      exact ((present size (Nat.le_refl size)).2 isGap).elim

/-- On the last page that is fetched nothing is left behind it just where all is reached. -/
theorem rest_eq_nil_iff (positive : 0 < size) (last : ¬ size < (rows.take (size + 1)).reduceOption.length) :
    (rows.drop (size + 1)).reduceOption = [] <-> ReachesAll rows size := by
  constructor
  · intro nothing gap _isGap place row isRow
    have front : place ≤ size := by
      by_contra behind
      have member : row ∈ (rows.drop (size + 1)).reduceOption := by
        refine List.reduceOption_mem_iff.mpr (List.mem_of_getElem? (i := place - (size + 1)) ?_)
        rw [List.getElem?_drop, show size + 1 + (place - (size + 1)) = place by omega]
        exact isRow
      rw [nothing] at member
      exact List.not_mem_nil member
    rw [Nat.succ_mul]
    omega
  · intro reaches
    refine List.eq_nil_iff_forall_not_mem.mpr fun row member => ?_
    rcases List.mem_iff_getElem?.mp (List.reduceOption_mem_iff.mp member) with ⟨index, isRow⟩
    rw [List.getElem?_drop] at isRow
    have long : size + 1 + index < rows.length := (List.getElem?_eq_some_iff.mp isRow).1
    have length : (rows.take (size + 1)).length = size + 1 := by
      rw [List.length_take]
      omega
    have missing : (rows.take (size + 1)).reduceOption.length < (rows.take (size + 1)).length := by omega
    rcases List.mem_iff_getElem?.mp (List.reduceOption_length_lt_iff.mp missing) with ⟨gap, isGap⟩
    have within : gap < size + 1 := length ▸ (List.getElem?_eq_some_iff.mp isGap).1
    rw [List.getElem?_take_of_lt within] at isGap
    have reached := reaches gap isGap (size + 1 + index) row isRow
    rw [Nat.div_eq_of_lt (by omega : gap - 1 < size)] at reached
    omega

/-- Following the pages comes to an end.  They list the front rows, and all rows just where no
row stands behind the page of the first gap. -/
theorem exists_followsCursor (positive : 0 < size) (rows : List (Option α)) (offset : Nat) :
    Exists fun pages => FollowsCursor (gappedPage rows size) offset pages ∧
      pages.flatten <+: (rows.drop offset).reduceOption ∧
      (pages.flatten = (rows.drop offset).reduceOption <-> ReachesAll (rows.drop offset) size) := by
  by_cases full : size < ((rows.drop offset).take (size + 1)).reduceOption.length
  · have present := present_of_full full
    have remains : rows.length - (offset + size) < rows.length - offset := by
      have fewer := List.reduceOption_length_le ((rows.drop offset).take (size + 1))
      rw [List.length_take, List.length_drop] at fewer
      omega
    rcases exists_followsCursor positive rows (offset + size) with ⟨pages, follows, front, all⟩
    refine ⟨(gappedPage rows size offset).1 :: pages, .more (if_pos full) follows, ?_⟩
    have shown : (gappedPage rows size offset).1 = ((rows.drop offset).take size).reduceOption := present.1
    rw [<- reachesAll_drop positive present.2, List.drop_drop, <- all, List.flatten_cons,
      reduceOption_take_drop size (rows.drop offset), List.drop_drop, shown]
    exact ⟨(List.prefix_append_right_inj _).mpr front, (List.append_cancel_left_eq ..).to_iff⟩
  · refine ⟨[(gappedPage rows size offset).1], .last (if_neg full), ?_⟩
    have whole : (gappedPage rows size offset).1 = ((rows.drop offset).take (size + 1)).reduceOption :=
      List.take_of_length_le (Nat.not_lt.mp full)
    rw [List.flatten_singleton, whole, <- rest_eq_nil_iff positive full,
      reduceOption_take_drop (size + 1) (rows.drop offset)]
    exact ⟨List.prefix_append .., List.self_eq_append_right⟩
termination_by rows.length - offset

end Gaps
end Telescope
