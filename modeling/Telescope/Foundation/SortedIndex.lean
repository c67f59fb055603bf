import Mathlib.Order.Lattice
import Telescope.Foundation.Keyset

namespace Telescope

universe u

/-!
# Bisection

The search for the end of the front that passes a test, by halving a half-open
interval.  Over a list whose front passes and whose rest does not it ends at the
length of the front; with it an element is inserted into a sorted list behind
everything that does not come after it.
-/

variable {α : Type u}

/-- Halve `[low, high)` until it is empty; the fuel bounds its length. -/
def bisect (passes : α -> Bool) (elements : List α) : Nat -> Nat -> Nat -> Nat
  | 0, low, _ => low
  | fuel + 1, low, high =>
      if low < high then
        let middle := (low + high) / 2
        if elements[middle]?.any passes then bisect passes elements fuel (middle + 1) high
        else bisect passes elements fuel low middle
      else low

variable {passes : α -> Bool} {elements : List α}

/-- The loop keeps the end of the front within its interval and closes on it. -/
theorem bisect_eq {front : Nat} (before : forall index, index < front -> elements[index]?.any passes = true)
    (behind : forall index, front ≤ index -> elements[index]?.any passes = false) {fuel low high : Nat}
    (reached : low ≤ front) (bounded : front ≤ high) (enough : high - low ≤ fuel) :
    bisect passes elements fuel low high = front := by
  induction fuel generalizing low high with
  | zero =>
      rw [bisect]
      omega
  | succ fuel inductionHypothesis =>
      rw [bisect]
      by_cases active : low < high
      · rw [if_pos active]
        by_cases early : (low + high) / 2 < front
        · rw [if_pos (before _ early)]
          exact inductionHypothesis early bounded (by omega)
        · have late := behind _ (Nat.le_of_not_lt early)
          rw [if_neg (by rw [late]; exact Bool.false_ne_true)]
          exact inductionHypothesis reached (Nat.le_of_not_lt early) (by omega)
      · rw [if_neg active]
        omega

/-- The whole list: how many elements lie in the front that passes. -/
def frontLength (passes : α -> Bool) (elements : List α) : Nat :=
  bisect passes elements elements.length 0 elements.length

theorem frontLength_append {front back : List α} (pass : forall element, element ∈ front -> passes element = true)
    (fail : forall element, element ∈ back -> passes element = false) :
    frontLength passes (front ++ back) = front.length := by
  have size : (front ++ back).length = front.length + back.length := List.length_append
  refine bisect_eq (fun index inside => ?_) (fun index outside => ?_) (Nat.zero_le _) (by omega)
    (by omega)
  · rw [List.getElem?_append_left inside, List.getElem?_eq_getElem inside, Option.any_some]
    exact pass _ (List.getElem_mem inside)
  · rw [List.getElem?_append_right outside]
    cases found : back[index - front.length]? with
    | none => rfl
    | some element =>
        rw [Option.any_some]
        exact fail element (List.mem_of_getElem? found)

/-- In a list that is in order, the elements that pass a test are a front when
the test, once it fails, fails from there on. -/
theorem eq_filter_append_filter
    (closed : elements.Pairwise fun earlier later => passes later = true -> passes earlier = true) :
    elements = elements.filter passes ++ elements.filter fun element => !passes element := by
  induction elements with
  | nil => rfl
  | cons first elements inductionHypothesis =>
      rcases List.pairwise_cons.mp closed with ⟨leads, rest⟩
      by_cases pass : passes first = true
      · rw [List.filter_cons_of_pos pass, List.filter_cons_of_neg (by rw [pass]; exact Bool.false_ne_true),
          List.cons_append, ← inductionHypothesis rest]
      · have none : elements.filter passes = [] :=
          List.filter_eq_nil_iff.mpr fun element member passed => pass (leads element member passed)
        have all : elements.filter (fun element => !passes element) = elements := by
          refine List.filter_eq_self.mpr fun element member => ?_
          rw [Bool.not_eq_true', Bool.eq_false_iff]
          exact fun passed => pass (leads element member passed)
        have kept : (!passes first) = true := by rw [Bool.eq_false_iff.mpr pass, Bool.not_false]
        rw [List.filter_cons_of_neg pass, List.filter_cons, if_pos kept, none, all, List.nil_append]

theorem frontLength_eq (closed : elements.Pairwise fun earlier later => passes later = true -> passes earlier = true) :
    frontLength passes elements = (elements.filter passes).length := by
  have parts := eq_filter_append_filter closed
  have pass : forall element, element ∈ elements.filter passes -> passes element = true :=
    fun element member => (List.mem_filter.mp member).2
  have fail : forall element, element ∈ (elements.filter fun element => !passes element) ->
      passes element = false :=
    fun element member => (Bool.not_eq_true' _).mp (List.mem_filter.mp member).2
  have found := frontLength_append pass fail
  rwa [← parts] at found

theorem take_frontLength
    (closed : elements.Pairwise fun earlier later => passes later = true -> passes earlier = true) :
    elements.take (frontLength passes elements) = elements.filter passes := by
  rw [frontLength_eq closed]
  nth_rewrite 2 [eq_filter_append_filter closed]
  exact List.take_left

theorem drop_frontLength
    (closed : elements.Pairwise fun earlier later => passes later = true -> passes earlier = true) :
    elements.drop (frontLength passes elements) = elements.filter fun element => !passes element := by
  rw [frontLength_eq closed]
  nth_rewrite 2 [eq_filter_append_filter closed]
  exact List.drop_left

end Telescope

namespace Telescope

universe u

/-!
# Sorted indexes

A sorted index is a set of keys kept as a strictly ascending list.  Keys enter
and leave one at a time; ranges between two bounds are read in ascending order.
The order of the keys is a field of the index, so that a range is sorted by
construction and two indexes with the same keys are equal.
-/

/-- A finite set of keys in strictly ascending order. -/
structure SortedIndex (κ : Type u) [LinearOrder κ] where
  members : List κ
  sorted : members.Pairwise (· < ·)

namespace SortedIndex

variable {κ : Type u} [LinearOrder κ]

instance : Membership κ (SortedIndex κ) where
  mem index key := key ∈ index.members

instance (key : κ) (index : SortedIndex κ) : Decidable (key ∈ index) :=
  inferInstanceAs (Decidable (key ∈ index.members))

variable {key : κ} {index : SortedIndex κ}

@[ext] theorem ext_members {left right : SortedIndex κ} (same : left.members = right.members) :
    left = right := by
  cases left
  cases right
  cases same
  rfl

/-- Two indexes with the same keys are equal. -/
theorem ext_mem {left right : SortedIndex κ} (same : forall key, key ∈ left <-> key ∈ right) :
    left = right := by
  have distinct : forall index : SortedIndex κ, index.members.Nodup :=
    fun index => index.sorted.imp fun {_ _} before => ne_of_lt before
  have perm := (List.perm_ext_iff_of_nodup (distinct left) (distinct right)).mpr same
  exact ext_members (perm.eq_of_pairwise
    (fun _ _ _ _ before after => (lt_asymm before after).elim) left.sorted right.sorted)

def empty : SortedIndex κ where
  members := []
  sorted := List.Pairwise.nil

@[simp] theorem not_mem_empty (key : κ) : key ∉ (empty : SortedIndex κ) :=
  List.not_mem_nil

/-- Insert a key into a list at its place, leaving the list alone when it is
there already. -/
def insertSorted (key : κ) : List κ -> List κ
  | [] => [key]
  | least :: keys =>
      if key < least then key :: least :: keys
      else if key = least then least :: keys
      else least :: insertSorted key keys

theorem mem_insertSorted {other : κ} {keys : List κ} :
    other ∈ insertSorted key keys <-> other = key ∨ other ∈ keys := by
  induction keys with
  | nil => simp only [insertSorted, List.mem_singleton, List.not_mem_nil, or_false]
  | cons least keys inductionHypothesis =>
      rw [insertSorted]
      split
      · exact List.mem_cons
      · split
        · rename_i same
          rw [same, List.mem_cons]
          exact ⟨Or.inr, fun found => found.elim Or.inl id⟩
        · rw [List.mem_cons, inductionHypothesis, List.mem_cons]
          exact or_left_comm

theorem insertSorted_sorted (key : κ) {keys : List κ} (sorted : keys.Pairwise (· < ·)) :
    (insertSorted key keys).Pairwise (· < ·) := by
  induction keys with
  | nil => exact List.pairwise_singleton _ _
  | cons least keys inductionHypothesis =>
      have above : forall other, other ∈ keys -> least < other :=
        (List.pairwise_cons.mp sorted).1
      rw [insertSorted]
      split
      · rename_i below
        refine List.pairwise_cons.mpr ⟨fun other member => ?_, sorted⟩
        rcases List.mem_cons.mp member with rfl | inKeys
        · exact below
        · exact lt_trans below (above other inKeys)
      · split
        · exact sorted
        · rename_i notBelow notSame
          refine List.pairwise_cons.mpr ⟨fun other member => ?_, inductionHypothesis sorted.of_cons⟩
          rcases mem_insertSorted.mp member with rfl | inKeys
          · exact lt_of_le_of_ne (not_lt.mp notBelow) (Ne.symm notSame)
          · exact above other inKeys

def insert (index : SortedIndex κ) (key : κ) : SortedIndex κ where
  members := insertSorted key index.members
  sorted := insertSorted_sorted key index.sorted

@[simp] theorem mem_insert {other : κ} :
    other ∈ index.insert key <-> other = key ∨ other ∈ index :=
  mem_insertSorted

/-- Keep the keys that satisfy a test. -/
def filter (index : SortedIndex κ) (keeps : κ -> Bool) : SortedIndex κ where
  members := index.members.filter keeps
  sorted := index.sorted.filter keeps

@[simp] theorem mem_filter {keeps : κ -> Bool} :
    key ∈ index.filter keeps <-> key ∈ index ∧ keeps key = true :=
  List.mem_filter

def erase (index : SortedIndex κ) (key : κ) : SortedIndex κ :=
  index.filter fun other => decide (other ≠ key)

@[simp] theorem mem_erase {other : κ} :
    other ∈ index.erase key <-> other ∈ index ∧ other ≠ key := by
  rw [erase, mem_filter, decide_eq_true_eq]

/-! ## Ranges -/

/-- One end of a range. -/
inductive Bound (κ : Type u)
  | lowest
  | highest
  | closed (key : κ)
  | strict (key : κ)

/-- The key lies above a lower bound. -/
def Bound.below : Bound κ -> κ -> Bool
  | .lowest, _ => true
  | .highest, _ => false
  | .closed least, key => decide (least ≤ key)
  | .strict least, key => decide (least < key)

/-- The key lies beneath an upper bound. -/
def Bound.above : Bound κ -> κ -> Bool
  | .lowest, _ => false
  | .highest, _ => true
  | .closed greatest, key => decide (key ≤ greatest)
  | .strict greatest, key => decide (key < greatest)

@[simp] theorem below_closed {least : κ} :
    (Bound.closed least).below key = true <-> least ≤ key :=
  decide_eq_true_iff

@[simp] theorem below_strict {least : κ} :
    (Bound.strict least).below key = true <-> least < key :=
  decide_eq_true_iff

@[simp] theorem above_strict {greatest : κ} :
    (Bound.strict greatest).above key = true <-> key < greatest :=
  decide_eq_true_iff

/-- The keys between two bounds, ascending. -/
def range (index : SortedIndex κ) (lower upper : Bound κ) : List κ :=
  index.members.filter fun key => lower.below key && upper.above key

theorem mem_range {lower upper : Bound κ} :
    key ∈ index.range lower upper <->
      key ∈ index ∧ lower.below key = true ∧ upper.above key = true := by
  rw [range, List.mem_filter, Bool.and_eq_true]
  rfl

theorem range_sorted (index : SortedIndex κ) (lower upper : Bound κ) :
    (index.range lower upper).Pairwise (· < ·) :=
  index.sorted.filter _

theorem below_of_lt {lower : Bound κ} {first second : κ} (below : lower.below first = true)
    (ascending : first < second) : lower.below second = true := by
  cases lower with
  | lowest => rfl
  | highest => cases below
  | closed least => exact below_closed.mpr (le_trans (below_closed.mp below) (le_of_lt ascending))
  | strict least => exact below_strict.mpr (lt_trans (below_strict.mp below) ascending)

/-- Reading on strictly above a key of a range gives the range behind it. -/
theorem range_strict {lower upper : Bound κ} {earlier later : List κ} {last : κ}
    (split : index.range lower upper = earlier ++ last :: later) :
    index.range (.strict last) upper = later := by
  have sorted := index.range_sorted lower upper
  have member : last ∈ index.range lower upper := by
    rw [split]
    exact List.mem_append_right _ (List.mem_cons_self ..)
  have lastBelow := (mem_range.mp member).2.1
  rw [split] at sorted
  have behind := Keyset.filter_after (fun _ _ => lt_asymm) sorted
  rw [← split, range, List.filter_filter] at behind
  refine Eq.trans (List.filter_congr fun key _ => ?_) behind
  rw [Bool.eq_iff_iff, Bool.and_eq_true, Bool.and_eq_true, Bool.and_eq_true, below_strict,
    decide_eq_true_eq]
  exact ⟨fun ⟨above, within⟩ => ⟨above, below_of_lt lastBelow above, within⟩,
    fun ⟨above, _, within⟩ => ⟨above, within⟩⟩

end SortedIndex
end Telescope
