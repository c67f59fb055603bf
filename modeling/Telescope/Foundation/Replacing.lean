import Mathlib.Data.List.Basic
import Mathlib.Data.List.Induction

namespace Telescope
namespace Replay

universe u v

/-!
# Writes that are sent again

A list of writes is sent, some or all of it lands, and the whole list is sent
again.  Where each write repeats without effect and the writes commute, the state
is the one that sending the list once leaves.
-/

variable {σ : Type u} {α : Type v} {write : σ -> α -> σ}

/-- Each write repeats without effect. -/
def Idempotent (write : σ -> α -> σ) (writes : List α) : Prop :=
  forall element, element ∈ writes -> forall state,
    write (write state element) element = write state element

/-- The writes have the same effect in either order. -/
def Commuting (write : σ -> α -> σ) (writes : List α) : Prop :=
  writes.Pairwise fun first second => forall state,
    write (write state first) second = write (write state second) first

/-- A write that commutes with a list may come before it. -/
theorem foldl_write {element : α} {writes : List α}
    (commutes : forall other, other ∈ writes -> forall state,
      write (write state element) other = write (write state other) element) (state : σ) :
    write (writes.foldl write state) element = writes.foldl write (write state element) := by
  induction writes generalizing state with
  | nil => rfl
  | cons first writes inductionHypothesis =>
      rw [List.foldl_cons, List.foldl_cons, commutes first (List.mem_cons_self ..)]
      exact inductionHypothesis (fun other member => commutes other (List.mem_cons_of_mem _ member)) _

/-- Sending a list twice is sending it once. -/
theorem foldl_foldl {writes : List α} (idempotent : Idempotent write writes)
    (commuting : Commuting write writes) (state : σ) :
    writes.foldl write (writes.foldl write state) = writes.foldl write state := by
  induction writes generalizing state with
  | nil => rfl
  | cons first writes inductionHypothesis =>
      rcases List.pairwise_cons.mp commuting with ⟨leads, rest⟩
      rw [List.foldl_cons, List.foldl_cons, foldl_write leads,
        idempotent first (List.mem_cons_self ..)]
      exact inductionHypothesis
        (fun element member => idempotent element (List.mem_cons_of_mem _ member)) rest _

end Replay
end Telescope

namespace Telescope
namespace Replacing

universe u v

/-!
# Tables that replace rows by version

Rows are only ever appended.  A read keeps for each key the row of the highest
version, the last one among equals, and hides it when it is a tombstone.  A row
that is newer than everything written under its key takes the place of what was
shown there.
-/

/-- A row under its sorting key. -/
structure Versioned (κ : Type u) (α : Type v) where
  key : κ
  version : Nat
  isDeleted : Bool
  value : α

variable {κ : Type u} {α : Type v} [DecidableEq κ]

/-- Merge a row into the rows that are kept, one for each key. -/
def replace (kept : List (Versioned κ α)) (row : Versioned κ α) : List (Versioned κ α) :=
  if kept.any fun other => decide (other.key = row.key) && decide (row.version < other.version) then kept
  else (kept.filter fun other => !decide (other.key = row.key)) ++ [row]

/-- The row kept for each key. -/
def latest (rows : List (Versioned κ α)) : List (Versioned κ α) := rows.foldl replace []

/-- A read with `FINAL`. -/
def final (rows : List (Versioned κ α)) : List (Versioned κ α) :=
  (latest rows).filter fun row => !row.isDeleted

variable {row : Versioned κ α}

theorem mem_replace {kept : List (Versioned κ α)} {other : Versioned κ α} (member : other ∈ replace kept row) :
    other ∈ kept ∨ other = row := by
  rw [replace] at member
  split at member
  · exact .inl member
  · rcases List.mem_append.mp member with before | isNew
    · exact .inl ((List.mem_filter.mp before).1)
    · exact .inr (List.mem_singleton.mp isNew)

theorem latest_append (rows : List (Versioned κ α)) (row : Versioned κ α) :
    latest (rows ++ [row]) = replace (latest rows) row := by
  rw [latest, List.foldl_append]
  rfl

variable {rows : List (Versioned κ α)}

theorem mem_of_mem_latest (member : row ∈ latest rows) : row ∈ rows := by
  induction rows using List.reverseRecOn with
  | nil => exact member
  | append_singleton rows last inductionHypothesis =>
      rw [latest_append] at member
      rcases mem_replace member with before | rfl
      · exact List.mem_append_left _ (inductionHypothesis before)
      · exact List.mem_append_right _ (List.mem_singleton_self _)

theorem mem_of_mem_final (member : row ∈ final rows) : row ∈ rows :=
  mem_of_mem_latest (List.mem_filter.mp member).1

/-- A row newer than all others under its key takes their place. -/
theorem final_append (newest : forall other, other ∈ rows -> other.key = row.key -> other.version ≤ row.version) :
    final (rows ++ [row]) =
      ((final rows).filter fun other => !decide (other.key = row.key)) ++
        if row.isDeleted then [] else [row] := by
  have unbeaten : ¬ ((latest rows).any fun other =>
      decide (other.key = row.key) && decide (row.version < other.version)) = true := by
    rw [List.any_eq_true]
    rintro ⟨other, member, beats⟩
    rw [Bool.and_eq_true, decide_eq_true_eq, decide_eq_true_eq] at beats
    exact Nat.not_lt.mpr (newest other (mem_of_mem_latest member) beats.1) beats.2
  rw [final, latest_append, replace, if_neg unbeaten, List.filter_append, final, List.filter_filter,
    List.filter_filter]
  congr 1
  · exact List.filter_congr fun _ _ => Bool.and_comm _ _
  · cases isDeleted : row.isDeleted with
    | true => rw [List.filter_cons, if_neg (by rw [isDeleted]; decide), if_pos rfl, List.filter_nil]
    | false =>
        rw [List.filter_cons, if_pos (by rw [isDeleted]; rfl), if_neg Bool.false_ne_true,
          List.filter_nil]

end Replacing
end Telescope
