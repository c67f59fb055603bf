import Mathlib.Data.List.Basic
import Mathlib.Data.Nat.ModEq

namespace Telescope

universe u

/-!
# A ring buffer of fixed capacity

Slots are addressed modulo the capacity.  The occupied ones are the `count`
slots that follow `head`, and every other slot is vacant: a well-formed ring
retains nothing outside its window.  The invariant is part of the type, so the
two operations below cannot produce a ring that violates it.

The abstract value of a ring is the list `toList` of its elements from the
oldest to the newest.  `push` appends to that list, dropping its first element
when the ring is full, and `drain` empties it.
-/

variable {α : Type u}

/-- The elements of the `count` slots that follow `head`, oldest first. -/
def ringWindow (capacity head : Nat) (slots : Nat -> Option α) (count : Nat) : List α :=
  (List.range count).filterMap (fun offset => slots ((head + offset) % capacity))

theorem ring_offset_injective {capacity head first second : Nat} (firstLt : first < capacity)
    (secondLt : second < capacity)
    (same : (head + first) % capacity = (head + second) % capacity) : first = second := by
  have congruent : first ≡ second [MOD capacity] := Nat.ModEq.add_left_cancel' head same
  rwa [Nat.ModEq, Nat.mod_eq_of_lt firstLt, Nat.mod_eq_of_lt secondLt] at congruent

theorem ring_offset_succ (capacity head offset : Nat) :
    ((head + 1) % capacity + offset) % capacity = (head + (offset + 1)) % capacity := by
  rw [Nat.mod_add_mod, Nat.add_assoc, Nat.add_comm 1 offset]

theorem ringWindow_succ (capacity head : Nat) (slots : Nat -> Option α) (count : Nat) :
    ringWindow capacity head slots (count + 1) =
      ringWindow capacity head slots count ++ (slots ((head + count) % capacity)).toList := by
  rw [ringWindow, List.range_succ, List.filterMap_append]
  cases selected : slots ((head + count) % capacity) <;> simp [ringWindow, selected]

/-- A write outside the window leaves its elements as they are. -/
theorem ringWindow_update_of_ne (capacity head : Nat) (slots : Nat -> Option α)
    (slot : Nat) (value : Option α) (count : Nat)
    (outside : forall offset, offset < count -> (head + offset) % capacity ≠ slot) :
    ringWindow capacity head (Function.update slots slot value) count =
      ringWindow capacity head slots count := by
  refine List.filterMap_congr fun offset member => ?_
  exact Function.update_of_ne (outside offset (List.mem_range.mp member)) value slots

/-- Advancing the head by one drops the oldest element of the window. -/
theorem ringWindow_tail (capacity head : Nat) (slots : Nat -> Option α) (count : Nat)
    (occupied : (slots (head % capacity)).isSome) :
    ringWindow capacity ((head + 1) % capacity) slots count =
      (ringWindow capacity head slots (count + 1)).tail := by
  rcases Option.isSome_iff_exists.mp occupied with ⟨oldest, found⟩
  rw [ringWindow, ringWindow, List.range_succ_eq_map, List.filterMap_cons]
  simp only [Nat.add_zero, found, List.tail_cons, List.filterMap_map]
  refine List.filterMap_congr fun offset _member => ?_
  rw [Function.comp_apply, ring_offset_succ]

theorem ringWindow_length (capacity head : Nat) (slots : Nat -> Option α) (count : Nat)
    (occupied : forall offset, offset < count -> (slots ((head + offset) % capacity)).isSome) :
    (ringWindow capacity head slots count).length = count := by
  induction count with
  | zero => rfl
  | succ count inductionHypothesis =>
      have earlier := inductionHypothesis fun offset bound =>
        occupied offset (Nat.lt_succ_of_lt bound)
      rcases Option.isSome_iff_exists.mp (occupied count (Nat.lt_succ_self count)) with
        ⟨newest, found⟩
      rw [ringWindow_succ, List.length_append, earlier, found]
      rfl

/-- Where every slot of the window is occupied, its elements are what the slots hold. -/
theorem ringWindow_map_some (capacity head : Nat) (slots : Nat -> Option α) (count : Nat)
    (occupied : forall offset, offset < count -> (slots ((head + offset) % capacity)).isSome) :
    (ringWindow capacity head slots count).map some =
      (List.range count).map fun offset => slots ((head + offset) % capacity) := by
  induction count with
  | zero => rfl
  | succ count inductionHypothesis =>
      have earlier := inductionHypothesis fun offset bound =>
        occupied offset (Nat.lt_succ_of_lt bound)
      rcases Option.isSome_iff_exists.mp (occupied count (Nat.lt_succ_self count)) with
        ⟨newest, found⟩
      rw [ringWindow_succ, List.map_append, earlier, found, List.range_succ, List.map_append,
        List.map_singleton, found]
      rfl

/-- A ring whose occupied slots are exactly the window of length `count`. -/
structure RingBuffer (α : Type u) (capacity : Nat) where
  slots : Nat -> Option α
  head : Nat
  count : Nat
  head_lt : head < capacity
  count_le : count ≤ capacity
  occupied : forall offset, offset < count -> (slots ((head + offset) % capacity)).isSome
  vacant : forall slot, (forall offset, offset < count -> (head + offset) % capacity ≠ slot) ->
    slots slot = none

namespace RingBuffer

variable {capacity : Nat}

/-- The elements held, oldest first. -/
def toList (ring : RingBuffer α capacity) : List α :=
  ringWindow capacity ring.head ring.slots ring.count

@[simp] theorem length_toList (ring : RingBuffer α capacity) :
    ring.toList.length = ring.count :=
  ringWindow_length capacity ring.head ring.slots ring.count ring.occupied

/-- The ring with every slot vacant. -/
def empty (positive : 0 < capacity) : RingBuffer α capacity where
  slots := fun _ => none
  head := 0
  count := 0
  head_lt := positive
  count_le := Nat.zero_le capacity
  occupied := fun offset bound => absurd bound (Nat.not_lt_zero offset)
  vacant := fun _ _ => rfl

/-- Write behind the newest element of a ring that is not full. -/
def pushVacant (ring : RingBuffer α capacity) (room : ring.count < capacity) (value : α) :
    RingBuffer α capacity where
  slots := Function.update ring.slots ((ring.head + ring.count) % capacity) (some value)
  head := ring.head
  count := ring.count + 1
  head_lt := ring.head_lt
  count_le := room
  occupied := by
    intro offset bound
    by_cases newest : offset = ring.count
    · rw [newest, Function.update_self]
      rfl
    · have earlier : offset < ring.count := by omega
      rw [Function.update_of_ne fun same => newest
        (ring_offset_injective (earlier.trans room) room same)]
      exact ring.occupied offset earlier
  vacant := by
    intro slot outside
    rw [Function.update_of_ne (outside ring.count (Nat.lt_succ_self _)).symm]
    exact ring.vacant slot fun offset bound => outside offset (Nat.lt_succ_of_lt bound)

theorem pushVacant_toList (ring : RingBuffer α capacity) (room : ring.count < capacity)
    (value : α) : (ring.pushVacant room value).toList = ring.toList ++ [value] := by
  change ringWindow capacity ring.head
    (Function.update ring.slots ((ring.head + ring.count) % capacity) (some value))
    (ring.count + 1) = _
  rw [ringWindow_succ, Function.update_self, ringWindow_update_of_ne]
  · rfl
  · intro offset bound same
    exact bound.ne (ring_offset_injective (bound.trans room) room same)

/-- Advance the head over the oldest element of a full ring and write the new
value into the slot this frees. -/
def pushEvicting (ring : RingBuffer α capacity) (full : ring.count = capacity) (value : α) :
    RingBuffer α capacity where
  slots := Function.update ring.slots
    (((ring.head + 1) % capacity + (ring.count - 1)) % capacity) (some value)
  head := (ring.head + 1) % capacity
  count := ring.count
  head_lt := Nat.mod_lt _ (Nat.zero_lt_of_lt ring.head_lt)
  count_le := ring.count_le
  occupied := by
    intro offset bound
    have positive := Nat.zero_lt_of_lt ring.head_lt
    by_cases newest : offset = ring.count - 1
    · rw [newest, Function.update_self]
      rfl
    · have earlier : offset + 1 < ring.count := by omega
      rw [Function.update_of_ne fun same => newest
        (ring_offset_injective (full ▸ bound) (by omega) same), ring_offset_succ]
      exact ring.occupied (offset + 1) earlier
  vacant := by
    intro slot outside
    have positive := Nat.zero_lt_of_lt ring.head_lt
    rw [Function.update_of_ne (outside (ring.count - 1) (by omega)).symm]
    refine ring.vacant slot fun offset bound => ?_
    cases offset with
    | zero =>
        -- The freed head slot is the one the last offset of the new window names.
        have wrapped := outside (ring.count - 1) (by omega)
        rw [ring_offset_succ, Nat.sub_add_cancel (by omega), full, Nat.add_mod_right] at wrapped
        exact wrapped
    | succ offset =>
        have shifted := outside offset (by omega)
        rwa [ring_offset_succ] at shifted

theorem pushEvicting_toList (ring : RingBuffer α capacity) (full : ring.count = capacity)
    (value : α) : (ring.pushEvicting full value).toList = ring.toList.tail ++ [value] := by
  have positive := Nat.zero_lt_of_lt ring.head_lt
  obtain ⟨before, size⟩ : Exists fun before => ring.count = before + 1 :=
    ⟨ring.count - 1, by omega⟩
  have oldest : (ring.slots (ring.head % capacity)).isSome := ring.occupied 0 (by omega)
  have last : ring.count - 1 = before := by omega
  change ringWindow capacity ((ring.head + 1) % capacity)
    (Function.update ring.slots (((ring.head + 1) % capacity + (ring.count - 1)) % capacity)
      (some value)) ring.count = _
  rw [last]
  conv_lhs => rw [size]
  rw [ringWindow_succ, Function.update_self, ringWindow_update_of_ne, ringWindow_tail _ _ _ _ oldest,
    toList, size]
  · rfl
  · intro offset bound same
    exact bound.ne (ring_offset_injective (by omega) (by omega) same)

/-- Append a value, evicting the oldest element when the ring is full. -/
def push (ring : RingBuffer α capacity) (value : α) : RingBuffer α capacity :=
  if room : ring.count < capacity then ring.pushVacant room value
  else ring.pushEvicting (Nat.le_antisymm ring.count_le (Nat.not_lt.mp room)) value

/-- The element that `push` gives up. -/
def evictedByPush (ring : RingBuffer α capacity) : List α :=
  if ring.count < capacity then [] else ring.toList.take 1

/-- Appending keeps every element except the evicted one, in order. -/
theorem evicted_append_push (ring : RingBuffer α capacity) (value : α) :
    ring.evictedByPush ++ (ring.push value).toList = ring.toList ++ [value] := by
  by_cases room : ring.count < capacity
  · simp only [evictedByPush, push, if_pos room, dif_pos room, List.nil_append,
      pushVacant_toList]
  · simp only [evictedByPush, push, if_neg room, dif_neg room, pushEvicting_toList,
      ← List.append_assoc, List.take_one, ← List.drop_one]
    congr 1
    rw [← List.take_one, List.take_append_drop]

theorem length_evictedByPush (ring : RingBuffer α capacity) :
    ring.evictedByPush.length = if ring.count < capacity then 0 else 1 := by
  have positive := Nat.zero_lt_of_lt ring.head_lt
  unfold evictedByPush
  split
  · rfl
  · rw [List.length_take, length_toList]
    omega

/-- Vacate the first `count` slots of the window, collecting what they held. -/
def drainSlots (capacity head : Nat) (slots : Nat -> Option α) :
    Nat -> List α × (Nat -> Option α)
  | 0 => ([], slots)
  | count + 1 =>
      let drained := drainSlots capacity head slots count
      let slot := (head + count) % capacity
      (drained.1 ++ (drained.2 slot).toList, Function.update drained.2 slot none)

theorem drainSlots_slot (capacity head : Nat) (slots : Nat -> Option α) (count slot : Nat) :
    (drainSlots capacity head slots count).2 slot =
      if Exists fun offset => offset < count ∧ (head + offset) % capacity = slot then none
      else slots slot := by
  induction count with
  | zero => simp [drainSlots]
  | succ count inductionHypothesis =>
      simp only [drainSlots]
      by_cases last : (head + count) % capacity = slot
      · rw [← last, Function.update_self, if_pos ⟨count, Nat.lt_succ_self count, rfl⟩]
      · rw [Function.update_of_ne (Ne.symm last), inductionHypothesis]
        congr 1
        apply propext
        constructor
        · rintro ⟨offset, bound, same⟩
          exact ⟨offset, Nat.lt_succ_of_lt bound, same⟩
        · rintro ⟨offset, bound, same⟩
          refine ⟨offset, lt_of_le_of_ne (Nat.lt_succ_iff.mp bound) ?_, same⟩
          rintro rfl
          exact last same

theorem drainSlots_collected (capacity head : Nat) (slots : Nat -> Option α) (count : Nat)
    (bound : count ≤ capacity) :
    (drainSlots capacity head slots count).1 = ringWindow capacity head slots count := by
  induction count with
  | zero => rfl
  | succ count inductionHypothesis =>
      have untouched : (drainSlots capacity head slots count).2 ((head + count) % capacity) =
          slots ((head + count) % capacity) := by
        rw [drainSlots_slot, if_neg]
        rintro ⟨offset, earlier, same⟩
        exact earlier.ne (ring_offset_injective (by omega) (by omega) same)
      simp only [drainSlots]
      rw [untouched, inductionHypothesis (by omega), ringWindow_succ]

/-- Take every element, oldest first, and leave the ring vacant. -/
def drain (ring : RingBuffer α capacity) : List α × RingBuffer α capacity :=
  let drained := drainSlots capacity ring.head ring.slots ring.count
  (drained.1,
    { slots := drained.2
      head := 0
      count := 0
      head_lt := Nat.zero_lt_of_lt ring.head_lt
      count_le := Nat.zero_le capacity
      occupied := fun offset bound => absurd bound (Nat.not_lt_zero offset)
      vacant := by
        intro slot _outside
        rw [drainSlots_slot]
        split
        · rfl
        · rename_i untouched
          exact ring.vacant slot fun offset bound same => untouched ⟨offset, bound, same⟩ })

@[simp] theorem drain_fst (ring : RingBuffer α capacity) : ring.drain.1 = ring.toList :=
  drainSlots_collected capacity ring.head ring.slots ring.count ring.count_le

@[simp] theorem drain_snd_toList (ring : RingBuffer α capacity) : ring.drain.2.toList = [] := rfl

end RingBuffer
end Telescope
