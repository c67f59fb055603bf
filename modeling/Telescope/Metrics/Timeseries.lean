import Mathlib.Algebra.Order.BigOperators.Group.List
import Telescope.Core.Date
import Telescope.Rollup.RollupStore

namespace Telescope
namespace Metrics

/-!
# Timeseries

A report has equal buckets from the start of its window on.  Every entry, or every
rollup with its count, goes to the bucket of its time; what is out of range goes to the
first or the last bucket.  The counts by type are properties of a plain object.  A type
that is the name of a method of all objects reads that method where the object has no
property of its own, and `+` then appends digits to its text; writing `__proto__` makes
no property.
-/

/-! ## Counts by type -/

/-- The value of a property: a number, or a text that digits are appended to. -/
inductive Tally
  | number (count : Nat)
  | text (written : Text)
  deriving DecidableEq

def Tally.plus : Tally -> Nat -> Tally
  | .number count, more => .number (count + more)
  | .text written, more => .text (written ++ Nat.toDigits 10 more)

/-- The names of the methods of `Object.prototype`. -/
def OBJECT_METHODS : List Text :=
  ["constructor".toList, "__defineGetter__".toList, "__defineSetter__".toList,
    "hasOwnProperty".toList, "__lookupGetter__".toList, "__lookupSetter__".toList,
    "isPrototypeOf".toList, "propertyIsEnumerable".toList, "toString".toList,
    "valueOf".toList, "toLocaleString".toList]

def PROTO : Text := "__proto__".toList

/-- The text of a built-in function. -/
def functionText (name : Text) : Text :=
  "function ".toList ++ (if name = "constructor".toList then "Object".toList else name) ++
    "() { [native code] }".toList

/-- `byType[type] ?? 0` where the object has no property of its own. -/
def inherited (type : Text) : Tally :=
  if type ∈ OBJECT_METHODS then .text (functionText type)
  else if type = PROTO then .text "[object Object]".toList
  else .number 0

/-- The own properties of `byType`. -/
abbrev ByType := Text -> Option Tally

/-- `byType[type] = (byType[type] ?? 0) + count`. -/
def ByType.add (byType : ByType) (type : Text) (count : Nat) : ByType :=
  if type = PROTO then byType
  else Function.update byType type (some (((byType type).getD (inherited type)).plus count))

/-! ## Reports -/

structure TimeseriesBucket where
  t : Text
  total : Nat := 0
  byType : ByType := fun _ => none

structure TimeseriesReport where
  windowStart : Text
  windowEnd : Text
  bucketMs : Int
  buckets : List TimeseriesBucket

def TimeseriesBucket.add (bucket : TimeseriesBucket) (type : Text) (count : Nat) : TimeseriesBucket :=
  { bucket with total := bucket.total + count, byType := bucket.byType.add type count }

/-- What is placed in a report: so many entries of a type at a time. -/
structure Placed where
  type : Text
  time : Int
  count : Nat

section Window

variable (windowStart windowEnd : TimeValue) (bucketCount : Rat)

def reportCount : Int := max 1 ⌊bucketCount⌋

def reportSpanMs : Int := max 1 (windowEnd.ms - windowStart.ms)

def reportBucketMs : Int := max 1 (reportSpanMs windowStart windowEnd / reportCount bucketCount)

/-- The bucket that a time falls in. -/
def reportIndex (time : Int) : Nat :=
  (min (reportCount bucketCount - 1)
    (max 0 ((time - windowStart.ms) / reportBucketMs windowStart windowEnd bucketCount))).toNat

/-- The starts of the buckets; `none` when one is no date. -/
def reportStarts : Option (List Text) :=
  (List.range (reportCount bucketCount).toNat).mapM fun (index : Nat) =>
    toISOString (newDate (.finite
      (windowStart.ms + index * reportBucketMs windowStart windowEnd bucketCount : Int)))

/-- Place one item. -/
def place (buckets : List TimeseriesBucket) (placed : Placed) : List TimeseriesBucket :=
  buckets.modify (reportIndex windowStart windowEnd bucketCount placed.time) fun bucket =>
    bucket.add placed.type placed.count

/-- The report of the placed items; `none` when a date is out of range. -/
def assemble (items : List Placed) : Option TimeseriesReport := do
  let starts <- reportStarts windowStart windowEnd bucketCount
  let buckets := items.foldl (place windowStart windowEnd bucketCount)
    (starts.map fun t => { t := t })
  let shownStart <- toISOString (some windowStart)
  let shownEnd <- toISOString (some windowEnd)
  pure
    { windowStart := shownStart
      windowEnd := shownEnd
      bucketMs := reportBucketMs windowStart windowEnd bucketCount
      buckets := buckets }

def placedEntry {C : Type*} (entry : Entry C) : Placed := ⟨entry.type, entry.createdAt, 1⟩

def bucketTimeseries {C : Type*} (entries : List (Entry C)) : Option TimeseriesReport :=
  assemble windowStart windowEnd bucketCount (entries.map placedEntry)

def placedRollup (rollup : Rollup.RollupBucket) : Placed := ⟨rollup.metric, rollup.bucketStart, rollup.count⟩

def timeseriesFromRollups (rollups : List Rollup.RollupBucket) : Option TimeseriesReport :=
  assemble windowStart windowEnd bucketCount (rollups.map placedRollup)

end Window

/-! ## What a bucket receives -/

/-- The property of a type after counts have been added to it one after another. -/
def tallied (type : Text) (own : Option Tally) (counts : List Nat) : Option Tally :=
  counts.foldl (fun own count =>
    if type = PROTO then own else some ((own.getD (inherited type)).plus count)) own

/-- The counts of the items of a type. -/
def countsOf (type : Text) (items : List Placed) : List Nat :=
  (items.filter fun placed => decide (placed.type = type)).map Placed.count

theorem countsOf_singleton (type : Text) (placed : Placed) :
    countsOf type [placed] = if placed.type = type then [placed.count] else [] := by
  rw [countsOf, List.filter_cons]
  simp only [decide_eq_true_eq, List.filter_nil]
  split <;> rfl

theorem add_byType (bucket : TimeseriesBucket) (placed : Placed) (type : Text) :
    (bucket.add placed.type placed.count).byType type =
      tallied type (bucket.byType type) (countsOf type [placed]) := by
  change bucket.byType.add placed.type placed.count type = _
  rw [ByType.add, countsOf_singleton]
  by_cases same : placed.type = type
  · rw [if_pos same, same]
    change (if type = PROTO then _ else _ : ByType) type = if type = PROTO then _ else _
    split
    · rfl
    · rw [Function.update_self]
  · rw [if_neg same]
    split
    · rfl
    · exact Function.update_of_ne (Ne.symm same) _ _

theorem tallied_append (type : Text) (own : Option Tally) (first second : List Nat) :
    tallied type own (first ++ second) = tallied type (tallied type own first) second :=
  List.foldl_append ..

theorem countsOf_cons (type : Text) (placed : Placed) (items : List Placed) :
    countsOf type (placed :: items) = countsOf type [placed] ++ countsOf type items := by
  rw [countsOf, countsOf, countsOf, ← List.map_append, ← List.filter_append]
  rfl

/-- A bucket after some items. -/
theorem foldl_add (items : List Placed) (bucket : TimeseriesBucket) :
    items.foldl (fun bucket placed => bucket.add placed.type placed.count) bucket =
      { t := bucket.t
        total := bucket.total + (items.map Placed.count).sum
        byType := fun type => tallied type (bucket.byType type) (countsOf type items) } := by
  induction items generalizing bucket with
  | nil => rfl
  | cons placed items inductionHypothesis =>
      rw [List.foldl_cons, inductionHypothesis, List.map_cons, List.sum_cons, ← Nat.add_assoc]
      congr 1
      funext type
      rw [countsOf_cons, tallied_append, add_byType]

theorem length_of_mapM {α β : Type*} {show' : α -> Option β} {items : List α} {results : List β}
    (shown : items.mapM show' = some results) : results.length = items.length := by
  induction items generalizing results with
  | nil =>
      cases shown
      rfl
  | cons item items inductionHypothesis =>
      rw [List.mapM_cons] at shown
      rcases Option.bind_eq_some_iff.mp shown with ⟨result, _, rest⟩
      rcases Option.bind_eq_some_iff.mp rest with ⟨results, later, isResults⟩
      cases isResults
      rw [List.length_cons, List.length_cons, inductionHypothesis later]

/-! ## Counts added up -/

theorem tallied_proto (own : Option Tally) (counts : List Nat) : tallied PROTO own counts = own := by
  induction counts generalizing own with
  | nil => rfl
  | cons count counts inductionHypothesis => exact inductionHypothesis own

theorem tallied_of_ne {type : Text} (notProto : type ≠ PROTO) (count : Nat) (counts : List Nat) :
    tallied type none (count :: counts) = some ((count :: counts).foldl Tally.plus (inherited type)) := by
  have started : forall tally, tallied type (some tally) counts = some (counts.foldl Tally.plus tally) := by
    induction counts with
    | nil => exact fun _ => rfl
    | cons next counts inductionHypothesis =>
        intro tally
        change tallied type (if type = PROTO then _ else _) counts = _
        rw [if_neg notProto]
        exact inductionHypothesis _
  change tallied type (if type = PROTO then _ else _) counts = _
  rw [if_neg notProto]
  exact started _

theorem foldl_plus_number (count : Nat) (counts : List Nat) :
    counts.foldl Tally.plus (.number count) = .number (count + counts.sum) := by
  induction counts generalizing count with
  | nil => rfl
  | cons next counts inductionHypothesis =>
      rw [List.foldl_cons, Tally.plus, inductionHypothesis, List.sum_cons, Nat.add_assoc]

theorem foldl_plus_text (written : Text) (counts : List Nat) :
    counts.foldl Tally.plus (.text written) = .text (written ++ counts.flatMap (Nat.toDigits 10)) := by
  induction counts generalizing written with
  | nil =>
      rw [List.flatMap_nil, List.append_nil]
      rfl
  | cons next counts inductionHypothesis =>
      rw [List.foldl_cons, Tally.plus, inductionHypothesis, List.flatMap_cons, List.append_assoc]

/-- A number has fewer digits than it counts, but for one. -/
theorem length_toDigits_lt {count : Nat} (large : 2 ≤ count) : (Nat.toDigits 10 count).length < count := by
  have power : count < 10 ^ (count - 1) := by
    obtain ⟨less, rfl⟩ := Nat.exists_eq_add_of_le' large
    have small : less < 10 ^ less := Nat.lt_pow_self (by decide)
    change less + 2 < 10 ^ (less + 1)
    rw [Nat.pow_succ]
    omega
  have fits := (Nat.length_toDigits_le_iff (b := 10) (by decide) (by omega : 0 < count - 1)).mpr power
  omega

/-- The digits of counts are as those of as many ones exactly where every count is one. -/
theorem digits_eq_ones_iff {counts : List Nat} (positive : forall count, count ∈ counts -> 1 ≤ count) :
    counts.flatMap (Nat.toDigits 10) = (List.replicate counts.sum 1).flatMap (Nat.toDigits 10) <->
      forall count, count ∈ counts -> count = 1 := by
  constructor
  · intro same count member
    refine Classical.byContradiction fun notOne => ?_
    have lengths := congrArg List.length same
    rw [List.length_flatMap, List.length_flatMap, List.map_replicate, List.sum_replicate,
      Nat.nsmul_eq_mul, show (Nat.toDigits 10 1).length = 1 from rfl, Nat.mul_one] at lengths
    have less : (counts.map fun count => (Nat.toDigits 10 count).length).sum < (counts.map id).sum := by
      refine List.sum_lt_sum _ _ (fun other isOther => ?_) ⟨count, member, ?_⟩
      · rcases Nat.lt_or_eq_of_le (positive other isOther) with large | one
        · exact (length_toDigits_lt large).le
        · rw [← one]
          exact le_refl 1
      · exact length_toDigits_lt (Nat.lt_of_le_of_ne (positive count member) (Ne.symm notOne))
    rw [List.map_id] at less
    exact absurd lengths less.ne
  · intro ones
    have counted := List.eq_replicate_of_mem ones
    rw [counted, List.sum_replicate, Nat.nsmul_eq_mul, Nat.mul_one]

theorem proto_not_method : PROTO ∉ OBJECT_METHODS := by decide

/-- Counts are added up as if they were ones, but for a type that inherits a method. -/
theorem tallied_eq_ones_iff (type : Text) {counts : List Nat}
    (positive : forall count, count ∈ counts -> 1 ≤ count) :
    tallied type none counts = tallied type none (List.replicate counts.sum 1) <->
      (type ∈ OBJECT_METHODS -> forall count, count ∈ counts -> count = 1) := by
  by_cases isProto : type = PROTO
  · rw [isProto, tallied_proto, tallied_proto]
    exact iff_of_true rfl fun isMethod => (proto_not_method isMethod).elim
  · cases counts with
    | nil => exact iff_of_true rfl fun _ _ member => (List.not_mem_nil member).elim
    | cons count counts =>
        have there : 1 ≤ (count :: counts).sum := by
          have first := positive count (List.mem_cons_self ..)
          rw [List.sum_cons]
          omega
        obtain ⟨more, isSum⟩ := Nat.exists_eq_add_of_le' there
        have ones : List.replicate (count :: counts).sum 1 = 1 :: List.replicate more 1 := by
          rw [isSum, List.replicate_succ]
        rw [ones, tallied_of_ne isProto, tallied_of_ne isProto, ← ones, Option.some_inj, inherited]
        by_cases isMethod : type ∈ OBJECT_METHODS
        · rw [if_pos isMethod, foldl_plus_text, foldl_plus_text, Tally.text.injEq,
            List.append_cancel_left_eq, digits_eq_ones_iff positive]
          exact ⟨fun ones _ => ones, fun ones => ones isMethod⟩
        · rw [if_neg isMethod, if_neg isProto, foldl_plus_number, foldl_plus_number, List.sum_replicate,
            Nat.nsmul_eq_mul, Nat.mul_one]
          exact iff_of_true rfl fun member => (isMethod member).elim

section Window

variable (windowStart windowEnd : TimeValue) (bucketCount : Rat)

/-- The items that a bucket receives. -/
def received (index : Nat) (items : List Placed) : List Placed :=
  items.filter fun placed => decide (reportIndex windowStart windowEnd bucketCount placed.time = index)

theorem received_cons (index : Nat) (placed : Placed) (items : List Placed) :
    received windowStart windowEnd bucketCount index (placed :: items) =
      if reportIndex windowStart windowEnd bucketCount placed.time = index
      then placed :: received windowStart windowEnd bucketCount index items
      else received windowStart windowEnd bucketCount index items := by
  rw [received, List.filter_cons]
  simp only [decide_eq_true_eq]
  rfl

theorem getElem?_foldl_place (items : List Placed) (buckets : List TimeseriesBucket) (index : Nat) :
    (items.foldl (place windowStart windowEnd bucketCount) buckets)[index]? =
      buckets[index]?.map fun bucket =>
        (received windowStart windowEnd bucketCount index items).foldl
          (fun bucket placed => bucket.add placed.type placed.count) bucket := by
  induction items generalizing buckets with
  | nil => exact Option.map_id'.symm
  | cons placed items inductionHypothesis =>
      rw [List.foldl_cons, inductionHypothesis, place, List.getElem?_modify, Option.map_eq_map,
        Option.map_map, received_cons]
      congr 1
      funext bucket
      rw [Function.comp_apply]
      split <;> rfl

theorem reportIndex_lt (time : Int) :
    reportIndex windowStart windowEnd bucketCount time < (reportCount bucketCount).toNat := by
  have positive : 1 ≤ reportCount bucketCount := le_max_left _ _
  rw [reportIndex]
  omega

theorem length_of_reportStarts {starts : List Text}
    (shown : reportStarts windowStart windowEnd bucketCount = some starts) :
    starts.length = (reportCount bucketCount).toNat :=
  (length_of_mapM shown).trans List.length_range

/-- Two lists of items make the same report where every bucket receives as many, in all and
by type, or a date is out of range. -/
theorem assemble_eq_iff (items others : List Placed) :
    assemble windowStart windowEnd bucketCount items = assemble windowStart windowEnd bucketCount others <->
      reportStarts windowStart windowEnd bucketCount = none ∨
        forall index, index < (reportCount bucketCount).toNat ->
          ((received windowStart windowEnd bucketCount index items).map Placed.count).sum =
              ((received windowStart windowEnd bucketCount index others).map Placed.count).sum ∧
            forall type,
              tallied type none (countsOf type (received windowStart windowEnd bucketCount index items)) =
                tallied type none (countsOf type (received windowStart windowEnd bucketCount index others)) := by
  cases shown : reportStarts windowStart windowEnd bucketCount with
  | none =>
      refine iff_of_true ?_ (.inl rfl)
      rw [assemble, assemble, shown]
      rfl
  | some starts =>
      have length := length_of_reportStarts windowStart windowEnd bucketCount shown
      rw [or_iff_right (fun isNone => by cases isNone), assemble, assemble, shown]
      change some (TimeseriesReport.mk _ _ _ _) = some (TimeseriesReport.mk _ _ _ _) <-> _
      rw [Option.some_inj, TimeseriesReport.mk.injEq]
      simp only [true_and]
      constructor
      · intro same index bound
        have there : (starts.map fun t => ({ t := t } : TimeseriesBucket))[index]? = some { t := starts[index] } := by
          rw [List.getElem?_map, List.getElem?_eq_getElem (length ▸ bound)]
          rfl
        have buckets := congrArg (·[index]?) same
        simp only [getElem?_foldl_place, there, Option.map_some, foldl_add, Option.some_inj,
          TimeseriesBucket.mk.injEq, true_and, Nat.zero_add] at buckets
        exact ⟨buckets.1, fun type => congrFun buckets.2 type⟩
      · intro same
        refine List.ext_getElem? fun index => ?_
        rw [getElem?_foldl_place, getElem?_foldl_place, List.getElem?_map]
        cases isStart : starts[index]? with
        | none => rfl
        | some start =>
            have bound := (List.getElem?_eq_some_iff.mp isStart).1
            rcases same index (length ▸ bound) with ⟨totals, byTypes⟩
            rw [Option.map_some, Option.map_some, Option.map_some, foldl_add, foldl_add, totals]
            congr 3
            funext type
            exact byTypes type

end Window

end Metrics
end Telescope
