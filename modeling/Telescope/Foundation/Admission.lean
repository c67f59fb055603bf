import Mathlib.Algebra.GroupWithZero.Nat
import Mathlib.Data.List.Induction
import Mathlib.Data.List.Nodup
import Mathlib.Algebra.BigOperators.Group.List.Basic

namespace Telescope

universe u

/-!
# Admission under a cap

Keys come in one after another.  A key that is new is admitted while there is room, and
what was admitted stays.  Whether a key is in is decided when it first comes, so the
items that are counted under the admitted keys and the items that are refused are all
the items.
-/

namespace Admission

variable {κ : Type u} [DecidableEq κ]

/-- The admitted keys after one more key. -/
def enrol (cap : Nat) (admitted : List κ) (key : κ) : List κ :=
  if key ∈ admitted then admitted else if cap ≤ admitted.length then admitted else admitted ++ [key]

/-- The keys that are admitted of those that came. -/
def admitted (cap : Nat) (keys : List κ) : List κ := keys.foldl (enrol cap) []

variable {cap : Nat} {keys : List κ} {key other : κ}

theorem admitted_snoc (cap : Nat) (keys : List κ) (key : κ) :
    admitted cap (keys ++ [key]) = enrol cap (admitted cap keys) key := by
  rw [admitted, List.foldl_append]
  rfl

theorem enrol_of_mem {admitted : List κ} (member : key ∈ admitted) : enrol cap admitted key = admitted :=
  if_pos member

theorem enrol_of_full {admitted : List κ} (full : cap ≤ admitted.length) : enrol cap admitted key = admitted := by
  rw [enrol, if_pos full, ite_self]

theorem enrol_of_new {admitted : List κ} (isNew : key ∉ admitted) (room : ¬ cap ≤ admitted.length) :
    enrol cap admitted key = admitted ++ [key] := by
  rw [enrol, if_neg isNew, if_neg room]

theorem nodup_admitted (cap : Nat) (keys : List κ) : (admitted cap keys).Nodup := by
  induction keys using List.reverseRecOn with
  | nil => exact List.nodup_nil
  | append_singleton keys key inductionHypothesis =>
      rw [admitted_snoc, enrol]
      split
      · exact inductionHypothesis
      · rename_i isNew
        split
        · exact inductionHypothesis
        · exact List.nodup_append.mpr ⟨inductionHypothesis, List.nodup_singleton key,
            fun first inFront second isKey same => isNew (List.mem_singleton.mp isKey ▸ same ▸ inFront)⟩

theorem length_admitted_le (cap : Nat) (keys : List κ) : (admitted cap keys).length ≤ cap := by
  induction keys using List.reverseRecOn with
  | nil => exact Nat.zero_le cap
  | append_singleton keys key inductionHypothesis =>
      rw [admitted_snoc, enrol]
      split
      · exact inductionHypothesis
      · split
        · exact inductionHypothesis
        · rename_i room
          rw [List.length_append, List.length_singleton]
          omega

/-- What was admitted stays. -/
theorem mem_admitted_snoc (member : key ∈ admitted cap keys) (last : κ) :
    key ∈ admitted cap (keys ++ [last]) := by
  rw [admitted_snoc, enrol]
  split
  · exact member
  · split
    · exact member
    · exact List.mem_append_left _ member

theorem mem_admitted_snoc_of_ne (different : key ≠ other) :
    key ∈ admitted cap (keys ++ [other]) <-> key ∈ admitted cap keys := by
  rw [admitted_snoc, enrol]
  split
  · rfl
  · split
    · rfl
    · rw [List.mem_append, List.mem_singleton, or_iff_left different]

/-- There is no room after a key was refused. -/
theorem full_of_refused (came : key ∈ keys) (refused : key ∉ admitted cap keys) :
    cap ≤ (admitted cap keys).length := by
  induction keys using List.reverseRecOn with
  | nil => exact (List.not_mem_nil came).elim
  | append_singleton keys last inductionHypothesis =>
      have before : key ∉ admitted cap keys := fun member => refused (mem_admitted_snoc member last)
      by_cases full : cap ≤ (admitted cap keys).length
      · rw [admitted_snoc, enrol_of_full full]
        exact full
      · rcases List.mem_append.mp came with earlier | isLast
        · exact (full (inductionHypothesis earlier before)).elim
        · rw [List.mem_singleton.mp isLast] at refused before
          rw [admitted_snoc, enrol_of_new before full] at refused
          exact (refused (List.mem_append_right _ (List.mem_singleton_self last))).elim

/-- The decision about a key that came is final. -/
theorem mem_admitted_snoc_iff (came : key ∈ keys) (last : κ) :
    key ∈ admitted cap (keys ++ [last]) <-> key ∈ admitted cap keys := by
  refine ⟨fun member => ?_, fun member => mem_admitted_snoc member last⟩
  by_contra refused
  rw [admitted_snoc, enrol_of_full (full_of_refused came refused)] at member
  exact refused member

/-- A key that is admitted now and was not before has not come before. -/
theorem not_mem_of_admitted_snoc {last : κ} (member : key ∈ admitted cap (keys ++ [last]))
    (before : key ∉ admitted cap keys) : key ∉ keys :=
  fun came => before ((mem_admitted_snoc_iff came last).mp member)

/-- How many items were refused. -/
def refused (cap : Nat) (keys : List κ) : Nat := keys.countP fun key => decide (key ∉ admitted cap keys)

/-- What one more item adds to the refused ones. -/
def refusal (cap : Nat) (keys : List κ) (last : κ) : Nat :=
  if last ∈ admitted cap (keys ++ [last]) then 0 else 1

theorem refusal_of_mem (member : key ∈ admitted cap (keys ++ [key])) : refusal cap keys key = 0 := if_pos member

theorem refusal_of_not_mem (out : key ∉ admitted cap (keys ++ [key])) : refusal cap keys key = 1 := if_neg out

theorem refused_snoc (cap : Nat) (keys : List κ) (last : κ) :
    refused cap (keys ++ [last]) = refused cap keys + refusal cap keys last := by
  rw [refusal, refused, List.countP_append, List.countP_singleton]
  have before : keys.countP (fun key => decide (key ∉ admitted cap (keys ++ [last]))) = refused cap keys :=
    List.countP_congr fun key came => by rw [decide_eq_true_iff, decide_eq_true_iff, mem_admitted_snoc_iff came]
  rw [before]
  by_cases member : last ∈ admitted cap (keys ++ [last])
  · rw [if_pos member, if_neg fun isOut => (of_decide_eq_true isOut : last ∉ _) member]
  · rw [if_neg member, if_pos (decide_eq_true member)]

/-- The items under the admitted keys and the refused ones are all items. -/
theorem sum_count_add_refused [BEq κ] [LawfulBEq κ] (cap : Nat) (keys : List κ) :
    ((admitted cap keys).map fun key => keys.count key).sum + refused cap keys = keys.length := by
  have nodup := nodup_admitted cap keys
  rw [refused]
  generalize admitted cap keys = inside at nodup
  induction keys with
  | nil =>
      have zeros : (inside.map fun key => ([] : List κ).count key).sum = 0 :=
        List.sum_eq_zero fun count member => by
          rcases List.mem_map.mp member with ⟨_key, _isIn, rfl⟩
          rfl
      rw [zeros]
      rfl
  | cons first keys inductionHypothesis =>
      have split : (inside.map fun key => (first :: keys).count key).sum =
          (inside.map fun key => keys.count key).sum + inside.count first := by
        clear inductionHypothesis nodup
        induction inside with
        | nil => rfl
        | cons key inside rest =>
            rw [List.map_cons, List.sum_cons, rest, List.map_cons, List.sum_cons, List.count_cons, List.count_cons]
            simp only [beq_iff_eq, eq_comm (a := first)]
            omega
      rw [split, List.countP_cons, List.length_cons]
      by_cases member : first ∈ inside
      · rw [List.count_eq_one_of_mem nodup member, if_neg (by simpa using member)]
        omega
      · simp only [List.count_eq_zero_of_not_mem member, member, not_false_eq_true, decide_true, if_true]
        omega

end Admission
end Telescope
