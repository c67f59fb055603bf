import Mathlib.Data.List.Nodup

namespace Telescope
namespace Recency

universe u v

/-!
# Maps ordered by last touch

Values under distinct keys, in the order in which they were last touched: to touch
a value is to take it out of the map and to insert it again at the end.  A bound on
the size is enforced from the front, where the values touched least recently are.
-/

variable {κ : Type u} {α : Type v} [DecidableEq κ]

section Keyed

variable (key : α -> κ)

def get (values : List α) (wanted : κ) : Option α := values.find? fun value => decide (key value = wanted)

def remove (values : List α) (wanted : κ) : List α :=
  values.filter fun value => !decide (key value = wanted)

/-- Delete and set again. -/
def touch (values : List α) (value : α) : List α := remove key values (key value) ++ [value]

variable {key} {values : List α} {wanted : κ} {value : α}

theorem mem_of_get (found : get key values wanted = some value) : value ∈ values :=
  List.mem_of_find?_eq_some found

theorem key_of_get (found : get key values wanted = some value) : key value = wanted :=
  of_decide_eq_true (@List.find?_some α (fun value => decide (key value = wanted)) value values found)

theorem ne_of_get_eq_none (absent : get key values wanted = none) {other : α}
    (member : other ∈ values) : key other ≠ wanted := by
  have different := List.find?_eq_none.mp absent other member
  rwa [decide_eq_true_eq] at different

theorem mem_remove {other : α} : other ∈ remove key values wanted <-> other ∈ values ∧ key other ≠ wanted := by
  rw [remove, List.mem_filter, Bool.not_eq_true', decide_eq_false_iff_not]

theorem remove_of_absent (absent : forall other, other ∈ values -> key other ≠ wanted) :
    remove key values wanted = values := by
  refine List.filter_eq_self.mpr fun other member => ?_
  rw [Bool.not_eq_true', decide_eq_false_iff_not]
  exact absent other member

/-- What a key finds is the one value removed with the key. -/
theorem perm_remove (distinct : (values.map key).Nodup) (found : get key values wanted = some value) :
    values.Perm (value :: remove key values wanted) := by
  induction values with
  | nil => cases found
  | cons first rest inductionHypothesis =>
      rw [List.map_cons, List.nodup_cons] at distinct
      by_cases same : key first = wanted
      · have isFirst : get key (first :: rest) wanted = some first :=
          @List.find?_cons_of_pos α (fun value => decide (key value = wanted)) first rest
            (decide_eq_true same)
        have isValue : first = value := Option.some.inj (isFirst.symm.trans found)
        have others : remove key (first :: rest) wanted = rest := by
          rw [remove, List.filter_cons_of_neg (by rw [decide_eq_true same]; decide)]
          exact remove_of_absent fun other member sameKey =>
            distinct.1 (same.trans sameKey.symm ▸ List.mem_map_of_mem member)
        rw [others, isValue]
      · have inRest : get key rest wanted = some value := by
          rwa [get, List.find?_cons_of_neg (by rwa [decide_eq_true_eq])] at found
        have others : remove key (first :: rest) wanted = first :: remove key rest wanted := by
          rw [remove, List.filter_cons_of_pos (by rw [decide_eq_false same]; rfl), remove]
        rw [others]
        exact ((inductionHypothesis distinct.2 inRest).cons first).trans (List.Perm.swap _ _ _)

theorem nodup_touch (distinct : (values.map key).Nodup) : ((touch key values value).map key).Nodup := by
  rw [touch, List.map_append, List.nodup_append]
  refine ⟨distinct.sublist (List.filter_sublist.map key), List.nodup_singleton _, ?_⟩
  intro kept isKept last isLast same
  rcases List.mem_map.mp isKept with ⟨other, member, rfl⟩
  rw [List.map_singleton, List.mem_singleton] at isLast
  exact (mem_remove.mp member).2 (same.trans isLast)

theorem mem_touch {other : α} (member : other ∈ touch key values value) :
    (other ∈ values ∧ key other ≠ key value) ∨ other = value := by
  rcases List.mem_append.mp member with before | isLast
  · exact .inl (mem_remove.mp before)
  · exact .inr (List.mem_singleton.mp isLast)

/-- The map stays in the order of touches. -/
theorem pairwise_touch {earlier : α -> α -> Prop} (ordered : values.Pairwise earlier)
    (latest : forall other, other ∈ values -> earlier other value) :
    (touch key values value).Pairwise earlier := by
  refine List.pairwise_append.mpr ⟨ordered.sublist List.filter_sublist, List.pairwise_singleton _ _, ?_⟩
  intro other member last isLast
  cases List.mem_singleton.mp isLast
  exact latest other (mem_remove.mp member).1

end Keyed

/-! ## A bound on the size -/

section Shedding

variable (exceeds : Nat -> Prop) [DecidablePred exceeds]

/-- Take values from the front while the size exceeds the bound: what was taken,
and what is kept. -/
def shed : List α -> List α × List α
  | [] => ([], [])
  | oldest :: rest =>
      if exceeds (rest.length + 1) then (oldest :: (shed rest).1, (shed rest).2) else ([], oldest :: rest)

theorem shed_append (values : List α) : (shed exceeds values).1 ++ (shed exceeds values).2 = values := by
  induction values with
  | nil => rfl
  | cons oldest rest inductionHypothesis =>
      rw [shed]
      split
      · rw [List.cons_append, inductionHypothesis]
      · rfl

theorem not_exceeds_kept (empty : ¬ exceeds 0) (values : List α) :
    ¬ exceeds (shed exceeds values).2.length := by
  induction values with
  | nil => exact empty
  | cons oldest rest inductionHypothesis =>
      rw [shed]
      split
      · exact inductionHypothesis
      · assumption

/-- A value is taken only while it and all behind it exceed the bound. -/
theorem exceeds_of_shed {values before after : List α} {oldest : α}
    (isShed : (shed exceeds values).1 = before ++ oldest :: after) :
    exceeds (oldest :: (after ++ (shed exceeds values).2)).length := by
  induction values generalizing before with
  | nil => cases before <;> cases isShed
  | cons first rest inductionHypothesis =>
      rw [shed] at isShed ⊢
      split at isShed
      · rename_i exceeded
        rw [if_pos exceeded]
        cases before with
        | nil =>
            rcases List.cons.inj isShed with ⟨rfl, rfl⟩
            rw [shed_append, List.length_cons]
            exact exceeded
        | cons skipped before =>
            exact inductionHypothesis (List.cons.inj isShed).2
      · cases before <;> cases isShed

theorem shed_eq_nil {values : List α} (within : ¬ exceeds values.length) :
    shed exceeds values = ([], values) := by
  cases values with
  | nil => rfl
  | cons oldest rest => exact if_neg within

end Shedding

end Recency
end Telescope
