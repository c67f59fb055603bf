import Mathlib.Algebra.Order.Field.Rat
import Mathlib.Data.Int.Cast.Lemmas
import Telescope.Foundation.SortedIndex
import Telescope.Foundation.Transition
import Telescope.Rollup.RollupStore

namespace Telescope
namespace Redis

open Rollup

/-!
# Rollups in Redis

A bucket is a hash: its counters grow by `HINCRBY`, its maximum is compared and set.  The
commands of a delta run in one script, one after the other; a command that fails ends the
script and leaves what the earlier ones did.  Scripts run one at a time, so the writers'
calls, however they overlap, are one list of deltas.

`HINCRBY` takes whole numbers of 64 bits.  The script adds the count before the sum, so a
delta whose sum is a fraction is rejected with its count already added.
-/

/-! ## Commands -/

/-- No integer of 64 bits reaches it. -/
def INT64_LIMIT : Nat := 2 ^ 63

/-- An integer of 64 bits. -/
def isInt64 (value : Int) : Bool := decide (-(INT64_LIMIT : Int) ≤ value ∧ value < INT64_LIMIT)

/-- A sum of integers of 64 bits, unless the text of the second number is no such integer
or the sum is none. -/
def addInt64 (current : Int) (increment : Rat) : Option Int :=
  let total := current + increment.num
  if increment.den = 1 ∧ isInt64 increment.num = true ∧ isInt64 total = true then some total else none

/-- `HINCRBY` by the text of a number: the field afterwards, unless the command fails. -/
def hincrby (field : Option Int) (increment : Rat) : Option Int :=
  match field with
  | none => addInt64 0 increment
  | some current => addInt64 current increment

/-- `HINCRBY` on a field that only natural numbers are added to. -/
def hincrbyCount (field : Option Nat) (increment : Nat) : Option Nat :=
  (hincrby (field.map Int.ofNat) increment).map Int.toNat

/-- The hash of a bucket.  A bucket from before the cells were fields has its histogram as
JSON. -/
structure RollupHash where
  count : Option Nat := none
  sum : Option Int := none
  max : Option Rat := none
  cells : Nat -> Option Nat := fun _cell => none
  histogram : Option (List Nat) := none

/-- Add to the cells from one on; a zero is skipped. -/
def addCells : Nat -> List Nat -> (Nat -> Option Nat) -> (Nat -> Option Nat) × Bool
  | _cell, [], cells => (cells, true)
  | cell, increment :: increments, cells =>
      if increment = 0 then addCells (cell + 1) increments cells
      else
        match hincrbyCount (cells cell) increment with
        | none => (cells, false)
        | some value => addCells (cell + 1) increments (Function.update cells cell (some value))

/-- The greater of the maximum so far and another. -/
def raiseMax (current : Option Rat) (value : Rat) : Rat :=
  match current with
  | none => value
  | some greatest => if greatest < value then value else greatest

/-- The commands of the script on the hash, and whether all succeeded. -/
def recordRollupHash (hash : RollupHash) (delta : RollupDelta) : RollupHash × Bool :=
  match hincrbyCount hash.count delta.count with
  | none => (hash, false)
  | some count =>
      match hincrby hash.sum delta.sum with
      | none => ({ hash with count := some count }, false)
      | some sum =>
          let added := addCells 0 (normalizeHistogram delta.histogram) hash.cells
          ({ hash with
            count := some count
            sum := some sum
            max := some (raiseMax hash.max delta.max)
            cells := added.1 }, added.2)

/-! ## The keys -/

/-- The hash of every metric and minute, and the registered minutes of every metric. -/
structure RollupKeyspace where
  hash : Text -> Int -> RollupHash
  index : Text -> SortedIndex Int

def RollupKeyspace.empty : RollupKeyspace where
  hash _metric _bucketStart := {}
  index _metric := SortedIndex.empty

/-- The script of a delta; the minute is registered at its end. -/
def recordRollup (keyspace : RollupKeyspace) (delta : RollupDelta) : RollupKeyspace × Bool :=
  let recorded := recordRollupHash (keyspace.hash delta.metric delta.bucketStart) delta
  ({ hash := fun metric bucketStart =>
      if metric = delta.metric ∧ bucketStart = delta.bucketStart then recorded.1
      else keyspace.hash metric bucketStart
     index := fun metric =>
      if recorded.2 = true ∧ metric = delta.metric then (keyspace.index metric).insert delta.bucketStart
      else keyspace.index metric }, recorded.2)

/-- The scripts of some deltas, in the order in which they run. -/
def recordRollups (keyspace : RollupKeyspace) (deltas : List RollupDelta) : RollupKeyspace :=
  deltas.foldl (fun keyspace delta => (recordRollup keyspace delta).1) keyspace

def RollupHash.isEmpty (hash : RollupHash) : Bool :=
  hash.count.isNone && hash.sum.isNone && hash.max.isNone && hash.histogram.isNone &&
    (List.range HISTOGRAM_BUCKET_COUNT).all fun cell => (hash.cells cell).isNone

/-- The cells of a hash, and what is left of the histogram from before they were fields. -/
def readHistogram (hash : RollupHash) : List Nat :=
  mergeHistograms ((List.range HISTOGRAM_BUCKET_COUNT).map fun cell => (hash.cells cell).getD 0)
    (hash.histogram.getD [])

/-- The bucket that a hash is read as, unless it has no fields. -/
def bucketOfHash (metric : Text) (bucketStart : Int) (hash : RollupHash) : Option RollupBucket :=
  if hash.isEmpty then none
  else some {
    metric := metric
    bucketStart := bucketStart
    count := hash.count.getD 0
    sum := hash.sum.getD 0
    max := hash.max.getD 0
    histogram := readHistogram hash }

def readBucket (keyspace : RollupKeyspace) (metric : Text) (bucketStart : Int) : Option RollupBucket :=
  bucketOfHash metric bucketStart (keyspace.hash metric bucketStart)

def queryRollups (keyspace : RollupKeyspace) (metrics : List Text) (fromBucket toBucket : Int) : List RollupBucket :=
  metrics.flatMap fun metric =>
    (((keyspace.index metric).filter fun bucketStart =>
      decide (fromBucket ≤ bucketStart ∧ bucketStart ≤ toBucket)).members).filterMap (readBucket keyspace metric)

/-! ## What the script adds -/

theorem isInt64_iff {value : Int} : isInt64 value = true <-> -(INT64_LIMIT : Int) ≤ value ∧ value < INT64_LIMIT :=
  decide_eq_true_iff

/-- A counter takes an increment while it stays below the bound. -/
theorem hincrbyCount_eq (field : Option Nat) (increment : Nat) : hincrbyCount field increment =
    if field.getD 0 + increment < INT64_LIMIT then some (field.getD 0 + increment) else none := by
  have whole : ((increment : Rat).den = 1) ∧ (increment : Rat).num = increment := ⟨rfl, rfl⟩
  have start : hincrby (field.map Int.ofNat) increment = addInt64 (field.getD 0 : Nat) increment := by
    cases field <;> rfl
  rw [hincrbyCount, start, addInt64, whole.1, whole.2]
  simp only [isInt64_iff, true_and]
  by_cases fits : field.getD 0 + increment < INT64_LIMIT
  · rw [if_pos fits, if_pos (by omega)]
    exact congrArg some (by omega)
  · rw [if_neg fits, if_neg (by omega)]
    rfl

/-- The loop over the cells goes through when every increment fits. -/
theorem addCells_ok (increments : List Nat) (start : Nat) (cells : Nat -> Option Nat) :
    (addCells start increments cells).2 = true <->
      forall place, place < increments.length -> increments.getD place 0 = 0 ∨
        (cells (start + place)).getD 0 + increments.getD place 0 < INT64_LIMIT := by
  induction increments generalizing start cells with
  | nil => exact iff_of_true rfl fun place within => (Nat.not_lt_zero place within).elim
  | cons increment increments inductionHypothesis =>
      have split : (forall place, place < (increment :: increments).length ->
          (increment :: increments).getD place 0 = 0 ∨
            (cells (start + place)).getD 0 + (increment :: increments).getD place 0 < INT64_LIMIT) <->
          (increment = 0 ∨ (cells start).getD 0 + increment < INT64_LIMIT) ∧
            forall place, place < increments.length -> increments.getD place 0 = 0 ∨
              (cells (start + 1 + place)).getD 0 + increments.getD place 0 < INT64_LIMIT := by
        constructor
        · intro fits
          refine ⟨fits 0 (Nat.succ_pos _), fun place within => ?_⟩
          rw [Nat.add_assoc, Nat.add_comm 1 place]
          exact fits (place + 1) (Nat.succ_lt_succ within)
        · rintro ⟨first, rest⟩ place within
          cases place with
          | zero => exact first
          | succ place =>
              have fits := rest place (Nat.lt_of_succ_lt_succ within)
              rwa [Nat.add_assoc, Nat.add_comm 1 place] at fits
      rw [split, addCells]
      by_cases zero : increment = 0
      · rw [if_pos zero, inductionHypothesis]
        exact ⟨fun rest => ⟨.inl zero, rest⟩, And.right⟩
      · rw [if_neg zero, hincrbyCount_eq]
        by_cases fits : (cells start).getD 0 + increment < INT64_LIMIT
        · rw [if_pos fits]
          dsimp only
          rw [inductionHypothesis]
          have untouched : forall place, Function.update cells start (some ((cells start).getD 0 + increment))
              (start + 1 + place) = cells (start + 1 + place) := fun place => Function.update_of_ne (by omega) _ _
          simp only [untouched]
          exact ⟨fun rest => ⟨.inr fits, rest⟩, And.right⟩
        · rw [if_neg fits]
          exact iff_of_false Bool.false_ne_true fun both => both.1.elim zero fits

/-- Every cell has grown by its increment. -/
theorem addCells_getD (increments : List Nat) (start : Nat) (cells : Nat -> Option Nat)
    (ok : (addCells start increments cells).2 = true) (cell : Nat) :
    ((addCells start increments cells).1 cell).getD 0 =
      (cells cell).getD 0 + if start ≤ cell then increments.getD (cell - start) 0 else 0 := by
  induction increments generalizing start cells with
  | nil => simp [addCells]
  | cons increment increments inductionHypothesis =>
      have next : (if start ≤ cell then (increment :: increments).getD (cell - start) 0 else 0) =
          (if cell = start then increment else 0) +
            if start + 1 ≤ cell then increments.getD (cell - (start + 1)) 0 else 0 := by
        rcases Nat.lt_trichotomy cell start with below | rfl | above
        · rw [if_neg (by omega), if_neg (by omega), if_neg (by omega)]
        · rw [if_pos le_rfl, if_pos rfl, if_neg (by omega), Nat.sub_self]
          rfl
        · rw [if_pos (by omega), if_neg (by omega), if_pos (by omega), Nat.zero_add,
            show cell - start = (cell - (start + 1)) + 1 by omega]
          rfl
      rw [next]
      rw [addCells] at ok ⊢
      by_cases zero : increment = 0
      · rw [if_pos zero] at ok ⊢
        rw [inductionHypothesis (start + 1) cells ok, zero, ite_self, Nat.zero_add]
      · rw [if_neg zero, hincrbyCount_eq] at ok ⊢
        by_cases fits : (cells start).getD 0 + increment < INT64_LIMIT
        · rw [if_pos fits] at ok ⊢
          dsimp only at ok ⊢
          rw [inductionHypothesis (start + 1) _ ok, ← Nat.add_assoc]
          refine congrArg (· + _) ?_
          by_cases same : cell = start
          · rw [same, Function.update_self, if_pos rfl]
            rfl
          · rw [Function.update_of_ne same, if_neg same, Nat.add_zero]
        · rw [if_neg fits] at ok
          exact (Bool.false_ne_true ok).elim

/-! ## What the commands accept -/

def CountFits (hash : RollupHash) (delta : RollupDelta) : Prop := hash.count.getD 0 + delta.count < INT64_LIMIT

/-- The sum is a whole number, and it and the total are of 64 bits. -/
def SumFits (hash : RollupHash) (delta : RollupDelta) : Prop :=
  delta.sum.den = 1 ∧ isInt64 delta.sum.num = true ∧ isInt64 (hash.sum.getD 0 + delta.sum.num) = true

def CellsFit (hash : RollupHash) (delta : RollupDelta) : Prop :=
  forall cell, cell < HISTOGRAM_BUCKET_COUNT ->
    delta.histogram.getD cell 0 = 0 ∨ (hash.cells cell).getD 0 + delta.histogram.getD cell 0 < INT64_LIMIT

/-- The first command fails, or none does. -/
def Whole (hash : RollupHash) (delta : RollupDelta) : Prop :=
  CountFits hash delta -> SumFits hash delta ∧ CellsFit hash delta

variable {hash : RollupHash} {delta : RollupDelta}

theorem cellsFit_iff :
    (addCells 0 (normalizeHistogram delta.histogram) hash.cells).2 = true <-> CellsFit hash delta := by
  rw [addCells_ok, length_normalizeHistogram, CellsFit]
  refine forall_congr' fun cell => forall_congr' fun inRange => ?_
  rw [getD_normalizeHistogram _ inRange, Nat.zero_add]

theorem hincrbyCount_of_fits (fits : CountFits hash delta) :
    hincrbyCount hash.count delta.count = some (hash.count.getD 0 + delta.count) :=
  (hincrbyCount_eq _ _).trans (if_pos fits)

/-- A hash whose count does not take a delta stays as it is. -/
theorem recordRollupHash_countless (full : ¬ CountFits hash delta) :
    recordRollupHash hash delta = (hash, false) := by
  rw [recordRollupHash, (hincrbyCount_eq _ _).trans (if_neg full)]

/-- Once the count is added it stays, whatever comes of the rest. -/
theorem count_recordRollupHash (fits : CountFits hash delta) :
    (recordRollupHash hash delta).1.count = some (hash.count.getD 0 + delta.count) := by
  rw [recordRollupHash, hincrbyCount_of_fits fits]
  dsimp only
  cases hincrby hash.sum delta.sum <;> rfl

theorem hincrby_sum_eq [Decidable (SumFits hash delta)] :
    hincrby hash.sum delta.sum = if SumFits hash delta then some (hash.sum.getD 0 + delta.sum.num) else none := by
  have start : hincrby hash.sum delta.sum = addInt64 (hash.sum.getD 0) delta.sum := by
    cases hash.sum <;> rfl
  rw [start, addInt64]
  by_cases fits : SumFits hash delta
  · rw [if_pos fits]
    exact if_pos fits
  · rw [if_neg fits]
    exact if_neg fits

/-- A delta is accepted when every command takes it. -/
theorem recordRollupHash_accepts :
    (recordRollupHash hash delta).2 = true <->
      CountFits hash delta ∧ SumFits hash delta ∧ CellsFit hash delta := by
  classical
  by_cases count : CountFits hash delta
  · rw [recordRollupHash, hincrbyCount_of_fits count]
    dsimp only
    rw [hincrby_sum_eq]
    by_cases sum : SumFits hash delta
    · rw [if_pos sum]
      dsimp only
      rw [cellsFit_iff]
      exact ⟨fun cells => ⟨count, sum, cells⟩, fun all => all.2.2⟩
    · rw [if_neg sum]
      exact iff_of_false Bool.false_ne_true fun all => sum all.2.1
  · rw [recordRollupHash_countless count]
    exact iff_of_false Bool.false_ne_true fun all => count all.1

/-- The hash after a delta that every command takes. -/
theorem recordRollupHash_eq (count : CountFits hash delta) (sum : SumFits hash delta) :
    (recordRollupHash hash delta).1 =
      { hash with
        count := some (hash.count.getD 0 + delta.count)
        sum := some (hash.sum.getD 0 + delta.sum.num)
        max := some (raiseMax hash.max delta.max)
        cells := (addCells 0 (normalizeHistogram delta.histogram) hash.cells).1 } := by
  classical
  rw [recordRollupHash, hincrbyCount_of_fits count]
  dsimp only
  rw [hincrby_sum_eq, if_pos sum]

/-! ## What is read -/

/-- Merge a delta into a bucket, or into none. -/
def mergeDelta (bucket : Option RollupBucket) (delta : RollupDelta) : RollupBucket :=
  match bucket with
  | none => bucketGroups.first delta
  | some existing => bucketGroups.change existing delta

/-- A hash has a maximum unless it has no fields. -/
def RollupHash.Sound (hash : RollupHash) : Prop := hash.max = none -> hash.isEmpty = true

theorem RollupHash.isEmpty_iff : hash.isEmpty = true <->
    hash.count = none ∧ hash.sum = none ∧ hash.max = none ∧ hash.histogram = none ∧
      forall cell, cell < HISTOGRAM_BUCKET_COUNT -> hash.cells cell = none := by
  simp only [RollupHash.isEmpty, Bool.and_eq_true, Option.isNone_iff_eq_none, List.all_eq_true, List.mem_range,
    and_assoc]

/-- Histograms of the canonical length are equal when their cells are. -/
theorem histogram_ext {left right : List Nat} (leftLength : left.length = HISTOGRAM_BUCKET_COUNT)
    (rightLength : right.length = HISTOGRAM_BUCKET_COUNT)
    (same : forall cell, cell < HISTOGRAM_BUCKET_COUNT -> left.getD cell 0 = right.getD cell 0) : left = right := by
  refine List.ext_getElem (leftLength.trans rightLength.symm) fun cell inLeft inRight => ?_
  have equal := same cell (leftLength ▸ inLeft)
  rwa [List.getD_eq_getElem?_getD, List.getD_eq_getElem?_getD, List.getElem?_eq_getElem inLeft,
    List.getElem?_eq_getElem inRight] at equal

theorem getD_readHistogram (hash : RollupHash) {cell : Nat} (inRange : cell < HISTOGRAM_BUCKET_COUNT) :
    (readHistogram hash).getD cell 0 = (hash.cells cell).getD 0 + (hash.histogram.getD []).getD cell 0 := by
  rw [readHistogram, getD_mergeHistograms _ _ inRange, List.getD_eq_getElem?_getD, List.getElem?_map,
    List.getElem?_range inRange]
  rfl

/-- The cells that are read have grown by those of the delta. -/
theorem getD_readHistogram_recorded (count : CountFits hash delta) (sum : SumFits hash delta)
    (cells : CellsFit hash delta) {cell : Nat} (inRange : cell < HISTOGRAM_BUCKET_COUNT) :
    (readHistogram (recordRollupHash hash delta).1).getD cell 0 =
      (readHistogram hash).getD cell 0 + delta.histogram.getD cell 0 := by
  rw [getD_readHistogram _ inRange, getD_readHistogram _ inRange, recordRollupHash_eq count sum]
  dsimp only
  rw [addCells_getD _ 0 _ (cellsFit_iff.mpr cells) cell, if_pos (Nat.zero_le cell), Nat.sub_zero,
    getD_normalizeHistogram _ inRange]
  exact Nat.add_right_comm _ _ _

theorem raiseMax_some (greatest value : Rat) : raiseMax (some greatest) value = max greatest value := by
  rw [raiseMax]
  split
  · rename_i less
    exact (max_eq_right less.le).symm
  · rename_i notLess
    exact (max_eq_left (not_lt.mp notLess)).symm

/-- An accepted delta is merged into the bucket. -/
theorem bucketOfHash_recorded (sound : hash.Sound) (count : CountFits hash delta) (sum : SumFits hash delta)
    (cells : CellsFit hash delta) :
    bucketOfHash delta.metric delta.bucketStart (recordRollupHash hash delta).1 =
      some (mergeDelta (bucketOfHash delta.metric delta.bucketStart hash) delta) := by
  have filled : (recordRollupHash hash delta).1.isEmpty = false := by
    refine Bool.eq_false_iff.mpr fun empty => ?_
    have missing := (RollupHash.isEmpty_iff.mp empty).1
    rw [count_recordRollupHash count] at missing
    cases missing
  have whole : ((delta.sum.num : Int) : Rat) = delta.sum := Rat.den_eq_one_iff _ |>.mp sum.1
  have histogram := @getD_readHistogram_recorded hash delta count sum cells
  rw [bucketOfHash, filled, recordRollupHash_eq count sum]
  rw [recordRollupHash_eq count sum] at histogram
  cases empty : hash.isEmpty with
  | true =>
      rcases RollupHash.isEmpty_iff.mp empty with ⟨noCount, noSum, noMax, noHistogram, noCells⟩
      have cellsRead : readHistogram { hash with
          count := some (hash.count.getD 0 + delta.count)
          sum := some (hash.sum.getD 0 + delta.sum.num)
          max := some (raiseMax hash.max delta.max)
          cells := (addCells 0 (normalizeHistogram delta.histogram) hash.cells).1 } =
          normalizeHistogram delta.histogram := by
        refine histogram_ext (length_mergeHistograms _ _) (length_normalizeHistogram _) fun cell inRange => ?_
        rw [histogram inRange, getD_readHistogram _ inRange, noCells cell inRange, noHistogram,
          getD_normalizeHistogram _ inRange]
        exact Nat.zero_add _
      rw [bucketOfHash, empty, cellsRead, noCount, noSum, noMax]
      simp only [Option.getD_none, Option.getD_some, Int.zero_add, Nat.zero_add, raiseMax, whole]
      rfl
  | false =>
      rcases Option.ne_none_iff_exists'.mp fun noMax => Bool.false_ne_true (empty ▸ sound noMax) with ⟨greatest, hasMax⟩
      have cellsRead : readHistogram { hash with
          count := some (hash.count.getD 0 + delta.count)
          sum := some (hash.sum.getD 0 + delta.sum.num)
          max := some (raiseMax hash.max delta.max)
          cells := (addCells 0 (normalizeHistogram delta.histogram) hash.cells).1 } =
          mergeHistograms (readHistogram hash) delta.histogram := by
        refine histogram_ext (length_mergeHistograms _ _) (length_mergeHistograms _ _) fun cell inRange => ?_
        rw [histogram inRange, getD_mergeHistograms _ _ inRange]
      rw [bucketOfHash, empty, cellsRead, hasMax, raiseMax_some]
      simp only [Option.getD_some, Int.cast_add, whole]
      rfl

/-! ## Runs of scripts -/

/-- Every bucket has a maximum and is registered. -/
def RollupKeyspace.Sound (keyspace : RollupKeyspace) : Prop :=
  forall metric bucketStart, (keyspace.hash metric bucketStart).Sound ∧
    ((keyspace.hash metric bucketStart).isEmpty = false -> bucketStart ∈ keyspace.index metric)

/-- The stored counters take the delta, or the count does not. -/
def Takes (keyspace : RollupKeyspace) (delta : RollupDelta) : Prop :=
  Whole (keyspace.hash delta.metric delta.bucketStart) delta

/-- The deltas whose scripts succeed. -/
def accepted : RollupKeyspace -> List RollupDelta -> List RollupDelta
  | _keyspace, [] => []
  | keyspace, delta :: deltas =>
      if (recordRollup keyspace delta).2 then delta :: accepted (recordRollup keyspace delta).1 deltas
      else accepted (recordRollup keyspace delta).1 deltas

/-- The deltas of a metric and a minute, merged one after the other. -/
def mergeAll (metric : Text) (bucketStart : Int) (bucket : Option RollupBucket) (deltas : List RollupDelta) :
    Option RollupBucket :=
  (deltas.filter fun delta => decide (delta.metric = metric ∧ delta.bucketStart = bucketStart)).foldl
    (fun bucket delta => some (mergeDelta bucket delta)) bucket

/-- Every bucket that is stored, and read, is the merge of the deltas accepted for it. -/
def MergesAccepted (start : RollupKeyspace) (deltas : List RollupDelta) : Prop :=
  forall metric bucketStart,
    readBucket (recordRollups start deltas) metric bucketStart =
        mergeAll metric bucketStart (readBucket start metric bucketStart) (accepted start deltas) ∧
      queryRollups (recordRollups start deltas) [metric] bucketStart bucketStart =
        (readBucket (recordRollups start deltas) metric bucketStart).toList

/-- A delta that is rejected leaves everything as it was. -/
def RejectsWhole (start : RollupKeyspace) (deltas : List RollupDelta) : Prop :=
  forall before delta after, deltas = before ++ delta :: after ->
    (recordRollup (recordRollups start before) delta).2 = false ->
      (recordRollup (recordRollups start before) delta).1 = recordRollups start before

/-! ## One script -/

theorem hash_recordRollup (keyspace : RollupKeyspace) (delta : RollupDelta) (metric : Text) (bucketStart : Int) :
    (recordRollup keyspace delta).1.hash metric bucketStart =
      if metric = delta.metric ∧ bucketStart = delta.bucketStart then
        (recordRollupHash (keyspace.hash delta.metric delta.bucketStart) delta).1
      else keyspace.hash metric bucketStart :=
  rfl

variable {keyspace : RollupKeyspace}

theorem accepts_iff :
    (recordRollup keyspace delta).2 = true <->
      CountFits (keyspace.hash delta.metric delta.bucketStart) delta ∧
        SumFits (keyspace.hash delta.metric delta.bucketStart) delta ∧
          CellsFit (keyspace.hash delta.metric delta.bucketStart) delta :=
  recordRollupHash_accepts

/-- A delta that the count does not take changes nothing. -/
theorem recordRollup_countless (full : ¬ CountFits (keyspace.hash delta.metric delta.bucketStart) delta) :
    recordRollup keyspace delta = (keyspace, false) := by
  rw [recordRollup, recordRollupHash_countless full]
  refine Prod.ext ?_ rfl
  change RollupKeyspace.mk _ _ = RollupKeyspace.mk _ _
  congr 1
  · funext metric bucketStart
    split
    · rename_i same
      rw [same.1, same.2]
    · rfl

/-- A script leaves everything as it was when it fails, exactly where its first command
fails or none does. -/
theorem rejects_iff (positive : 0 < delta.count) :
    ((recordRollup keyspace delta).2 = false -> (recordRollup keyspace delta).1 = keyspace) <->
      Takes keyspace delta := by
  constructor
  · intro harmless count
    by_contra unfit
    have rejected : (recordRollup keyspace delta).2 = false :=
      Bool.eq_false_iff.mpr fun ok => unfit (accepts_iff.mp ok).2
    have grown := count_recordRollupHash count
    have unchanged := congrArg (fun keyspace => (RollupKeyspace.hash keyspace delta.metric delta.bucketStart).count)
      (harmless rejected)
    rw [hash_recordRollup, if_pos ⟨rfl, rfl⟩, grown] at unchanged
    rw [← unchanged, Option.getD_some] at unchanged
    have same := Option.some.inj unchanged
    omega
  · intro takes rejected
    by_cases count : CountFits (keyspace.hash delta.metric delta.bucketStart) delta
    · have ok := accepts_iff.mpr ⟨count, takes count⟩
      rw [rejected] at ok
      cases ok
    · rw [recordRollup_countless count]

/-- An accepted delta is merged into its bucket, and the others stay. -/
theorem readBucket_recordRollup (sound : keyspace.Sound) (ok : (recordRollup keyspace delta).2 = true) (metric : Text)
    (bucketStart : Int) :
    readBucket (recordRollup keyspace delta).1 metric bucketStart =
      if delta.metric = metric ∧ delta.bucketStart = bucketStart then
        some (mergeDelta (readBucket keyspace metric bucketStart) delta)
      else readBucket keyspace metric bucketStart := by
  rcases accepts_iff.mp ok with ⟨count, sum, cells⟩
  rw [readBucket, hash_recordRollup]
  by_cases same : delta.metric = metric ∧ delta.bucketStart = bucketStart
  · rcases same with ⟨rfl, rfl⟩
    rw [if_pos ⟨rfl, rfl⟩, if_pos ⟨rfl, rfl⟩]
    exact bucketOfHash_recorded (sound _ _).1 count sum cells
  · rw [if_neg fun other => same ⟨other.1.symm, other.2.symm⟩, if_neg same]
    rfl

/-- A script that stored counters take leaves every bucket sound. -/
theorem sound_recordRollup (sound : keyspace.Sound) (takes : Takes keyspace delta) :
    (recordRollup keyspace delta).1.Sound := by
  by_cases count : CountFits (keyspace.hash delta.metric delta.bucketStart) delta
  · rcases takes count with ⟨sum, cells⟩
    have ok := accepts_iff.mpr ⟨count, sum, cells⟩
    intro metric bucketStart
    have registers : (recordRollup keyspace delta).1.index metric =
        if metric = delta.metric then (keyspace.index metric).insert delta.bucketStart else keyspace.index metric := by
      by_cases same : metric = delta.metric
      · exact (if_pos ⟨ok, same⟩).trans (if_pos same).symm
      · exact (if_neg fun both => same both.2).trans (if_neg same).symm
    rw [hash_recordRollup, registers]
    by_cases same : metric = delta.metric ∧ bucketStart = delta.bucketStart
    · rcases same with ⟨rfl, rfl⟩
      rw [if_pos ⟨rfl, rfl⟩, if_pos rfl, recordRollupHash_eq count sum]
      exact ⟨fun noMax => (by cases noMax), fun _ => SortedIndex.mem_insert.mpr (.inl rfl)⟩
    · rw [if_neg same]
      refine ⟨(sound metric bucketStart).1, fun filled => ?_⟩
      split
      · exact SortedIndex.mem_insert.mpr (.inr ((sound metric bucketStart).2 filled))
      · exact (sound metric bucketStart).2 filled
  · rw [recordRollup_countless count]
    exact sound

/-- A registered minute is read as its bucket, one that is not has none. -/
theorem queryRollups_singleton (sound : keyspace.Sound) (metric : Text) (bucketStart : Int) :
    queryRollups keyspace [metric] bucketStart bucketStart = (readBucket keyspace metric bucketStart).toList := by
  have only : ((keyspace.index metric).filter fun other =>
      decide (bucketStart ≤ other ∧ other ≤ bucketStart)) =
      if bucketStart ∈ keyspace.index metric then SortedIndex.empty.insert bucketStart else SortedIndex.empty := by
    refine SortedIndex.ext_mem fun other => ?_
    rw [SortedIndex.mem_filter, decide_eq_true_iff]
    split
    · rename_i registered
      rw [SortedIndex.mem_insert]
      constructor
      · rintro ⟨_, least, greatest⟩
        exact .inl (le_antisymm greatest least)
      · rintro (rfl | impossible)
        · exact ⟨registered, le_refl _, le_refl _⟩
        · exact (SortedIndex.not_mem_empty other impossible).elim
    · rename_i unregistered
      refine iff_of_false ?_ (SortedIndex.not_mem_empty other)
      rintro ⟨member, least, greatest⟩
      exact unregistered (le_antisymm greatest least ▸ member)
  rw [queryRollups, List.flatMap_singleton, only]
  split
  · change [bucketStart].filterMap (readBucket keyspace metric) = _
    cases found : readBucket keyspace metric bucketStart with
    | none => rw [List.filterMap_cons_none found]; rfl
    | some bucket => rw [List.filterMap_cons_some found]; rfl
  · rename_i unregistered
    have noFields : (keyspace.hash metric bucketStart).isEmpty = true := by
      by_contra filled
      exact unregistered ((sound metric bucketStart).2 (Bool.eq_false_iff.mpr filled))
    rw [readBucket, bucketOfHash, if_pos noFields]
    rfl

/-! ## Every run -/

/-- A script always runs; its outcome is in the state. -/
def rollupStep (keyspace : RollupKeyspace) (delta : RollupDelta) : Option RollupKeyspace :=
  some (recordRollup keyspace delta).1

/-- Every script of a run is taken by the counters, or not by the count. -/
def TakesAll (start : RollupKeyspace) (deltas : List RollupDelta) : Prop :=
  Transition.Along rollupStep Takes start deltas

variable {start : RollupKeyspace} {deltas : List RollupDelta}

theorem takesAll_cons :
    TakesAll start (delta :: deltas) <-> Takes start delta ∧ TakesAll (recordRollup start delta).1 deltas :=
  ⟨fun all => ⟨all.1, all.2 _ rfl⟩, fun both => Transition.along_cons rfl both.1 both.2⟩

theorem rejectsWhole_cons :
    RejectsWhole start (delta :: deltas) <->
      ((recordRollup start delta).2 = false -> (recordRollup start delta).1 = start) ∧
        RejectsWhole (recordRollup start delta).1 deltas := by
  constructor
  · intro harmless
    refine ⟨harmless [] delta deltas rfl, fun before next after split => ?_⟩
    exact harmless (delta :: before) next after (congrArg (delta :: ·) split)
  · rintro ⟨first, rest⟩ before next after split
    cases before with
    | nil =>
        rcases List.cons.inj split with ⟨rfl, _⟩
        exact first
    | cons head before =>
        rcases List.cons.inj split with ⟨rfl, sameRest⟩
        exact rest before next after sameRest

theorem rejectsWhole_iff (positive : forall delta, delta ∈ deltas -> 0 < delta.count) :
    RejectsWhole start deltas <-> TakesAll start deltas := by
  induction deltas generalizing start with
  | nil => exact iff_of_true (fun before _ _ split => (List.append_ne_nil_of_right_ne_nil before
      (List.cons_ne_nil _ _) split.symm).elim) trivial
  | cons delta deltas inductionHypothesis =>
      rcases List.forall_mem_cons.mp positive with ⟨first, rest⟩
      rw [rejectsWhole_cons, takesAll_cons, rejects_iff first, inductionHypothesis rest]

theorem mergeAll_cons (metric : Text) (bucketStart : Int) (bucket : Option RollupBucket) (delta : RollupDelta)
    (deltas : List RollupDelta) : mergeAll metric bucketStart bucket (delta :: deltas) =
      mergeAll metric bucketStart
        (if delta.metric = metric ∧ delta.bucketStart = bucketStart then some (mergeDelta bucket delta) else bucket)
        deltas := by
  rw [mergeAll, mergeAll, List.filter_cons]
  by_cases same : delta.metric = metric ∧ delta.bucketStart = bucketStart
  · rw [if_pos (decide_eq_true same), if_pos same]
    rfl
  · rw [if_neg (by rw [decide_eq_false same]; exact Bool.false_ne_true), if_neg same]

/-- Runs whose deltas the counters take merge what they accept. -/
theorem readBucket_recordRollups (sound : start.Sound) (takes : TakesAll start deltas) :
    (recordRollups start deltas).Sound ∧ forall metric bucketStart,
      readBucket (recordRollups start deltas) metric bucketStart =
        mergeAll metric bucketStart (readBucket start metric bucketStart) (accepted start deltas) := by
  induction deltas generalizing start with
  | nil => exact ⟨sound, fun _ _ => rfl⟩
  | cons delta deltas inductionHypothesis =>
      rcases takesAll_cons.mp takes with ⟨first, rest⟩
      rcases inductionHypothesis (sound_recordRollup sound first) rest with ⟨final, merged⟩
      refine ⟨final, fun metric bucketStart => (merged metric bucketStart).trans ?_⟩
      rw [accepted]
      cases outcome : (recordRollup start delta).2 with
      | true => rw [if_pos rfl, mergeAll_cons, readBucket_recordRollup sound outcome]
      | false =>
          rw [if_neg Bool.false_ne_true]
          by_cases count : CountFits (start.hash delta.metric delta.bucketStart) delta
          · rw [accepts_iff.mpr ⟨count, first count⟩] at outcome
            cases outcome
          · rw [recordRollup_countless count]

/-- Whatever the order in which scripts run, every bucket is the merge of the accepted
deltas and a rejected delta leaves no trace, exactly where every sum is a whole number and
the counters have room. -/
theorem merges_iff {start : RollupKeyspace} {deltas : List RollupDelta} (sound : start.Sound)
    (positive : forall delta, delta ∈ deltas -> 0 < delta.count) :
    MergesAccepted start deltas ∧ RejectsWhole start deltas <-> TakesAll start deltas := by
  constructor
  · intro both
    exact (rejectsWhole_iff positive).mp both.2
  · intro takes
    rcases readBucket_recordRollups sound takes with ⟨final, merged⟩
    refine ⟨fun metric bucketStart => ⟨merged metric bucketStart, ?_⟩, (rejectsWhole_iff positive).mpr takes⟩
    exact queryRollups_singleton final metric bucketStart

theorem sound_empty : RollupKeyspace.empty.Sound :=
  fun _metric _bucketStart => ⟨fun _ => rfl, fun filled => by cases filled⟩

/-- One profile of a duration. -/
def profiled (durationMs : Rat) : RollupDelta where
  metric := "cpu_profile".toList
  bucketStart := 0
  count := 1
  sum := durationMs
  max := durationMs
  histogram := incrementHistogram emptyHistogram durationMs

theorem merges_iff_profiled : RollupKeyspace.empty.Sound ∧
    (forall delta, delta ∈ [profiled 2, profiled 3] -> 0 < delta.count) ∧
      (MergesAccepted .empty [profiled 2, profiled 3] ∧ RejectsWhole .empty [profiled 2, profiled 3] <->
        TakesAll .empty [profiled 2, profiled 3]) := by
  have positive : forall delta, delta ∈ [profiled 2, profiled 3] -> 0 < delta.count :=
    List.forall_mem_cons.mpr ⟨Nat.one_pos, List.forall_mem_cons.mpr ⟨Nat.one_pos, List.forall_mem_nil _⟩⟩
  exact ⟨sound_empty, positive, merges_iff sound_empty positive⟩

/-- A profile of a millisecond and a half is rejected and counted. -/
theorem fraction_counted :
    ¬ (MergesAccepted .empty [profiled (3 / 2)] ∧ RejectsWhole .empty [profiled (3 / 2)]) := by
  rintro ⟨_, harmless⟩
  have rejected : (recordRollup .empty (profiled (3 / 2))).2 = false := by decide +kernel
  have counted : ((recordRollup .empty (profiled (3 / 2))).1.hash "cpu_profile".toList 0).count = some 1 := by
    decide +kernel
  have unchanged := harmless [] (profiled (3 / 2)) [] rfl rejected
  rw [show recordRollups .empty [] = .empty from rfl] at unchanged
  rw [unchanged] at counted
  cases counted

end Redis
end Telescope
