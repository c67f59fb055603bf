import Mathlib.Algebra.GroupWithZero.Nat
import Mathlib.Algebra.BigOperators.Group.List.Basic

namespace Telescope
namespace Histogram

universe u

/-!
# Histograms

Samples are counted in cells.  Of samples in the order of their cells, the cell of a rank
is the first one at which the cumulative count reaches the rank.
-/

variable {α : Type u} (cellOf : α -> Nat)

/-- The number of samples in each of the first cells. -/
def cells (width : Nat) (samples : List α) : List Nat :=
  (List.range width).map fun cell => samples.countP fun sample => decide (cellOf sample = cell)

/-- The place of the first cell at which the cumulative count reaches a rank. -/
def locate (rank : Nat) : List Nat -> Nat -> Option Nat
  | [], _cumulative => none
  | count :: cells, cumulative =>
      if rank ≤ cumulative + count then some 0
      else (locate rank cells (cumulative + count)).map Nat.succ

theorem locate_eq_some {rank : Nat} {counts : List Nat} {cumulative place : Nat} (inRange : place < counts.length)
    (before : cumulative + (counts.take place).sum < rank)
    (reached : rank ≤ cumulative + (counts.take (place + 1)).sum) :
    locate rank counts cumulative = some place := by
  induction counts generalizing cumulative place with
  | nil => exact (Nat.not_lt_zero _ inRange).elim
  | cons count counts inductionHypothesis =>
      rw [locate]
      cases place with
      | zero =>
          rw [List.take_succ_cons, List.take_zero, List.sum_singleton] at reached
          exact if_pos reached
      | succ place =>
          rw [List.take_succ_cons, List.sum_cons] at before reached
          have later : locate rank counts (cumulative + count) = some place :=
            inductionHypothesis (Nat.lt_of_succ_lt_succ inRange) (by omega) (by omega)
          rw [if_neg (by omega), later]
          rfl

theorem locate_eq_none {rank : Nat} {counts : List Nat} {cumulative : Nat}
    (beyond : cumulative + counts.sum < rank) : locate rank counts cumulative = none := by
  induction counts generalizing cumulative with
  | nil => rfl
  | cons count counts inductionHypothesis =>
      rw [List.sum_cons] at beyond
      rw [locate, if_neg (by omega), inductionHypothesis (by omega)]
      rfl

variable {cellOf}

theorem length_cells (width : Nat) (samples : List α) : (cells cellOf width samples).length = width := by
  rw [cells, List.length_map, List.length_range]

theorem cells_perm {samples others : List α} (perm : samples.Perm others) (width : Nat) :
    cells cellOf width samples = cells cellOf width others :=
  List.map_congr_left fun _cell _member => perm.countP_eq _

/-- A cell more counts the samples of that cell. -/
theorem countP_lt_succ (samples : List α) (cell : Nat) :
    (samples.countP fun sample => decide (cellOf sample < cell + 1)) =
      (samples.countP fun sample => decide (cellOf sample < cell)) +
        samples.countP fun sample => decide (cellOf sample = cell) := by
  induction samples with
  | nil => rfl
  | cons sample samples inductionHypothesis =>
      rw [List.countP_cons, List.countP_cons, List.countP_cons, inductionHypothesis]
      simp only [decide_eq_true_eq]
      split <;> split <;> split <;> omega

theorem sum_take_cells {width places : Nat} (inRange : places ≤ width) (samples : List α) :
    ((cells cellOf width samples).take places).sum =
      samples.countP fun sample => decide (cellOf sample < places) := by
  rw [cells, ← List.map_take, List.take_range, Nat.min_eq_left inRange]
  clear inRange
  induction places with
  | zero => exact (List.countP_eq_zero.mpr fun _ _ => by simp).symm
  | succ places inductionHypothesis =>
      rw [List.range_succ, List.map_append, List.sum_append, inductionHypothesis, List.map_singleton,
        List.sum_singleton, countP_lt_succ]

theorem sum_cells {width : Nat} {samples : List α} (bounded : forall sample, sample ∈ samples -> cellOf sample < width) :
    (cells cellOf width samples).sum = samples.length := by
  have whole := @sum_take_cells α cellOf width width (Nat.le_refl width) samples
  rw [List.take_of_length_le (Nat.le_of_eq (length_cells width samples))] at whole
  rw [whole]
  exact List.countP_eq_length.mpr fun sample member => decide_eq_true (bounded sample member)

/-- The cell of a rank is that of the sample of that rank. -/
theorem locate_cells {width : Nat} {samples : List α}
    (bounded : forall sample, sample ∈ samples -> cellOf sample < width)
    (sorted : samples.Pairwise fun earlier later => cellOf earlier ≤ cellOf later)
    {place : Nat} {sample : α} (isSample : samples[place]? = some sample) :
    locate (place + 1) (cells cellOf width samples) 0 = some (cellOf sample) := by
  rcases List.getElem?_eq_some_iff.mp isSample with ⟨inRange, same⟩
  have split : samples = samples.take place ++ sample :: samples.drop (place + 1) := by
    rw [← same, ← List.drop_eq_getElem_cons inRange, List.take_append_drop]
  have isMember : sample ∈ samples := List.mem_of_getElem? isSample
  have within := bounded sample isMember
  have size : (samples.take place).length = place := by
    rw [List.length_take]
    omega
  rw [split] at sorted
  rcases List.pairwise_append.mp sorted with ⟨_, tail, across⟩
  have behind := (List.pairwise_cons.mp tail).1
  refine locate_eq_some (by rw [length_cells]; exact within) ?_ ?_
  · -- Nothing from the sample on is in an earlier cell.
    rw [sum_take_cells (Nat.le_of_lt within), split, List.countP_append]
    have none : ((sample :: samples.drop (place + 1)).countP fun other =>
        decide (cellOf other < cellOf sample)) = 0 := by
      refine List.countP_eq_zero.mpr fun other member => ?_
      rw [decide_eq_true_eq, Nat.not_lt]
      rcases List.mem_cons.mp member with rfl | later
      · exact Nat.le_refl _
      · exact behind other later
    have front : ((samples.take place).countP fun other => decide (cellOf other < cellOf sample)) ≤ place :=
      Nat.le_trans List.countP_le_length (Nat.le_of_eq size)
    omega
  · rw [sum_take_cells within, split, List.countP_append, List.countP_cons]
    have front : ((samples.take place).countP fun other => decide (cellOf other < cellOf sample + 1)) = place := by
      refine (List.countP_eq_length.mpr fun other member => ?_).trans size
      exact decide_eq_true (Nat.lt_succ_of_le (across other member sample (List.mem_cons_self ..)))
    rw [front, decide_eq_true (Nat.lt_succ_self _), if_pos rfl]
    omega

end Histogram
end Telescope
