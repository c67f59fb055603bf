import Mathlib.Data.Prod.Lex
import Telescope.Core.CapturedEntry
import Telescope.Foundation.Nesting
import Telescope.Foundation.NumberLine

namespace Telescope
namespace Metrics

open Nesting

/-!
# The waterfall of a trace

Entries carry no link to their parent, so nesting is read off their times.  The intervals
are put in order, those that start first and among them the longest first, and nested with
a stack: an entry hangs below the last one before it that contains it.

Where every entry has a date and a duration, the order puts what contains an entry before
it, and an interval that is closed contains nothing later that the one which closed it does
not contain.  A duration that is not a number passes the check of its type and its
clamping: an interval with such an end is contained in none, contains none and still closes
the open ones.
-/

/-! ## Intervals -/

/-- An entry with its start, its duration and its end.  Entries are told apart by their
place in the input. -/
structure Interval where
  index : Nat
  entry : CapturedEntry
  startMs : Number
  durationMs : Number
  endMs : Number

/-- The duration of an entry; what is missing or negative counts as zero. -/
def durationOf (entry : CapturedEntry) : Number :=
  match entry.durationMs with
  | some durationMs => durationMs.maxZero
  | none => .finite 0

def intervalOf (index : Nat) (entry : CapturedEntry) : Interval where
  index := index
  entry := entry
  startMs := getTime entry.createdAt
  durationMs := durationOf entry
  endMs := (getTime entry.createdAt).add (durationOf entry)

def intervals (entries : List CapturedEntry) : List Interval := entries.mapIdx intervalOf

/-- The outer interval contains the inner one and is larger on a side. -/
def contains (outer inner : Interval) : Bool :=
  (outer.startMs.le inner.startMs && inner.endMs.le outer.endMs) &&
    (outer.startMs.lt inner.startMs || inner.endMs.lt outer.endMs)

/-- `left || right` of two numbers. -/
def orFalsy (left right : Int) : Int := if left = 0 then right else left

/-- The earliest start first, then the longest, then by sequence. -/
def compareIntervals (left right : Interval) : Int :=
  orFalsy (Number.sign left.startMs right.startMs)
    (orFalsy (Number.sign right.durationMs left.durationMs) (left.entry.sequence - right.entry.sequence))

/-- The intervals in order.  Intervals that compare as equal keep the order of the input;
of comparisons that contradict each other the language promises no order. -/
def inOrder (items : List Interval) : List Interval := items.insertionSort fun left right => compareIntervals left right ≤ 0

/-! ## Spans -/

/-- The label of an entry, by what its content shows. -/
def labelFor (entry : CapturedEntry) : Units :=
  let record := entry.content
  let withMethod := fun (address : Units) => match record.getString (units "method") with
    | some method => method ++ units " " ++ address
    | none => address
  if record.isRecord then
    match record.getString (units "uri") with
    | some uri => withMethod uri
    | none =>
        match record.getString (units "sql") with
        | some sql => sql
        | none =>
            match record.getString (units "queue"), record.getString (units "name") with
            | some queue, some name => queue ++ units ":" ++ name
            | _, _ =>
                match if entry.type = EntryType.httpClient then record.getString (units "url") else none with
                | some url => withMethod url
                | none =>
                    match record.getString (units "lib"), record.getString (units "event") with
                    | some library, some event => library ++ units ":" ++ event
                    | _, _ => (record.getString (units "name")).getD entry.type
  else entry.type

/-- What a node of the waterfall shows, besides its depth and its children. -/
structure WaterfallSpan where
  id : Units
  type : Units
  label : Units
  offsetMs : Number
  durationMs : Number
  sequence : Int

def spanOf (traceStartMs : Number) (interval : Interval) : WaterfallSpan where
  id := interval.entry.id
  type := interval.entry.type
  label := labelFor interval.entry
  offsetMs := interval.startMs.sub traceStartMs
  durationMs := interval.durationMs
  sequence := interval.entry.sequence

structure Waterfall where
  traceStartMs : Number
  totalDurationMs : Number
  spans : List (Branch WaterfallSpan)

/-! ## The forest -/

/-- Siblings by their offset, then by their sequence. -/
def byOffset (traceStartMs : Number) (left right : Branch Interval) : Int :=
  orFalsy (Number.sign (left.value.startMs.sub traceStartMs) (right.value.startMs.sub traceStartMs))
    (left.value.entry.sequence - right.value.entry.sequence)

def sortByOffset (traceStartMs : Number) (trees : List (Branch Interval)) : List (Branch Interval) :=
  trees.insertionSort fun left right => byOffset traceStartMs left right ≤ 0

/-- The node that a map by id holds in the end. -/
def lastWithId (ordered : List Interval) (interval : Interval) : Bool :=
  ((ordered.reverse.find? fun other => other.entry.id = interval.entry.id).map Interval.index) = some interval.index

/-- The children of every node that the map holds are sorted. -/
def sortChildren (traceStartMs : Number) (ordered : List Interval) (parent : Interval)
    (children : List (Branch Interval)) : List (Branch Interval) :=
  if lastWithId ordered parent then sortByOffset traceStartMs children else children

def traceStart (entries : List CapturedEntry) : Number := Number.minAll ((intervals entries).map Interval.startMs)

/-- The entries, nested. -/
def forestOf (entries : List CapturedEntry) : List (Branch Interval) :=
  let ordered := inOrder (intervals entries)
  sortByOffset (traceStart entries)
    ((nestAll contains ordered).map (Branch.arrange (sortChildren (traceStart entries) ordered)))

def buildWaterfall (entries : List CapturedEntry) : Option Waterfall :=
  if entries.isEmpty then none
  else
    let traceStartMs := traceStart entries
    let traceEndMs := Number.maxAll ((intervals entries).map Interval.endMs)
    some {
      traceStartMs := traceStartMs
      totalDurationMs := (traceEndMs.sub traceStartMs).maxZero
      spans := (forestOf entries).map (Branch.map (spanOf traceStartMs)) }

/-! ## The order of intervals -/

/-- The interval has a start, a duration and an end. -/
structure Interval.Timed (interval : Interval) : Prop where
  start : Exists fun ms : Rat => interval.startMs = .finite ms
  duration : interval.durationMs ≠ .nan
  ends : interval.endMs = interval.startMs.add interval.durationMs

theorem Interval.Timed.start_ne {interval : Interval} (timed : interval.Timed) : interval.startMs ≠ .nan := by
  rcases timed.start with ⟨ms, started⟩
  rw [started]
  exact fun impossible => by cases impossible

theorem Interval.Timed.end_ne {interval : Interval} (timed : interval.Timed) : interval.endMs ≠ .nan := by
  rcases timed.start with ⟨ms, started⟩
  rw [timed.ends, started]
  exact Number.add_ne_nan timed.duration

/-- Every entry has a valid date and none a duration that is not a number. -/
def Timed (entries : List CapturedEntry) : Prop :=
  forall entry, entry ∈ entries -> entry.createdAt.isSome = true ∧ entry.durationMs ≠ some .nan

theorem durationOf_ne {entry : CapturedEntry} (timed : entry.durationMs ≠ some .nan) : durationOf entry ≠ .nan := by
  rw [durationOf]
  cases duration : entry.durationMs with
  | none => exact fun impossible => by cases impossible
  | some durationMs =>
      cases durationMs with
      | nan => exact (timed duration).elim
      | infinity negative => cases negative <;> exact fun impossible => by cases impossible
      | finite value => exact fun impossible => by cases impossible

theorem mem_intervals {entries : List CapturedEntry} {interval : Interval} :
    interval ∈ intervals entries <->
      Exists fun index => Exists fun entry => entries[index]? = some entry ∧ interval = intervalOf index entry := by
  rw [intervals, List.mem_mapIdx]
  constructor
  · rintro ⟨index, bound, rfl⟩
    exact ⟨index, entries[index], List.getElem?_eq_getElem bound, rfl⟩
  · rintro ⟨index, entry, found, rfl⟩
    rcases List.getElem?_eq_some_iff.mp found with ⟨bound, rfl⟩
    exact ⟨index, bound, rfl⟩

theorem timed_of_mem {entries : List CapturedEntry} (timed : Timed entries) {interval : Interval}
    (member : interval ∈ intervals entries) : interval.Timed := by
  rcases mem_intervals.mp member with ⟨index, entry, found, rfl⟩
  rcases timed entry (List.mem_of_getElem? found) with ⟨dated, lasting⟩
  rcases Option.isSome_iff_exists.mp dated with ⟨time, created⟩
  exact ⟨⟨time.ms, congrArg getTime created⟩, durationOf_ne lasting, rfl⟩

/-- Where an interval stands: by its start, then the longest first, then by its
sequence. -/
def Interval.key (interval : Interval) :
    Lex (WithBot (WithTop Rat) × Lex ((WithBot (WithTop Rat))ᵒᵈ × Int)) :=
  toLex (interval.startMs.place, toLex (OrderDual.toDual interval.durationMs.place, interval.entry.sequence))

theorem orFalsy_sign {left right : Number} (leftNumber : left ≠ .nan) (rightNumber : right ≠ .nan) (rest : Int) :
    orFalsy (Number.sign left right) rest ≤ 0 <->
      left.place < right.place ∨ left.place = right.place ∧ rest ≤ 0 := by
  rw [Number.sign]
  by_cases before : left.lt right = true
  · have strictly := (Number.lt_iff leftNumber rightNumber).mp before
    rw [if_pos before]
    exact iff_of_true (show (-1 : Int) ≤ 0 by decide) (.inl strictly)
  · have notBefore := (Number.lt_iff leftNumber rightNumber).not.mp before
    rw [if_neg before]
    by_cases behind : right.lt left = true
    · have strictly := (Number.lt_iff rightNumber leftNumber).mp behind
      rw [if_pos behind]
      refine iff_of_false (show ¬ (1 : Int) ≤ 0 by decide) ?_
      rintro (first | ⟨same, _⟩)
      · exact notBefore first
      · exact strictly.ne' same
    · have notBehind := (Number.lt_iff rightNumber leftNumber).not.mp behind
      have same := le_antisymm (not_lt.mp notBehind) (not_lt.mp notBefore)
      rw [if_neg behind, orFalsy, if_pos rfl]
      exact ⟨fun atMost => .inr ⟨same, atMost⟩, fun either => (either.resolve_left notBefore).2⟩

theorem compareIntervals_iff {left right : Interval} (leftTimed : left.Timed) (rightTimed : right.Timed) :
    compareIntervals left right ≤ 0 <-> left.key ≤ right.key := by
  rw [compareIntervals, orFalsy_sign leftTimed.start_ne rightTimed.start_ne,
    orFalsy_sign rightTimed.duration leftTimed.duration, Interval.key, Interval.key, Prod.Lex.toLex_le_toLex,
    Prod.Lex.toLex_le_toLex, sub_nonpos, @eq_comm _ right.durationMs.place]
  exact Iff.rfl

theorem inOrder_perm (items : List Interval) : (inOrder items).Perm items :=
  List.perm_insertionSort _ items

theorem inOrder_pairwise {items : List Interval} (timed : forall item, item ∈ items -> item.Timed) :
    (inOrder items).Pairwise fun left right => left.key ≤ right.key := by
  have byKey : inOrder items = items.insertionSort fun left right => left.key ≤ right.key := by
    have same := List.map_insertionSort (fun left right => compareIntervals left right ≤ 0)
      (fun left right => left.key ≤ right.key) id items fun left leftIn right rightIn =>
        compareIntervals_iff (timed left leftIn) (timed right rightIn)
    rwa [List.map_id, List.map_id] at same
  rw [byKey]
  have total : Std.Total fun left right : Interval => left.key ≤ right.key := ⟨fun left right => le_total _ _⟩
  have transitive : IsTrans Interval fun left right => left.key ≤ right.key := ⟨fun left middle right => le_trans⟩
  exact List.pairwise_insertionSort _ items

/-! ## Containment -/

theorem contains_iff {outer inner : Interval} (outerTimed : outer.Timed) (innerTimed : inner.Timed) :
    contains outer inner = true <->
      (outer.startMs.place ≤ inner.startMs.place ∧ inner.endMs.place ≤ outer.endMs.place) ∧
        (outer.startMs.place < inner.startMs.place ∨ inner.endMs.place < outer.endMs.place) := by
  rw [contains, Bool.and_eq_true, Bool.and_eq_true, Bool.or_eq_true,
    Number.le_iff outerTimed.start_ne innerTimed.start_ne, Number.le_iff innerTimed.end_ne outerTimed.end_ne,
    Number.lt_iff outerTimed.start_ne innerTimed.start_ne, Number.lt_iff innerTimed.end_ne outerTimed.end_ne]

/-- No interval contains itself. -/
theorem contains_irrefl (interval : Interval) : contains interval interval = false := by
  have notBelow : forall number : Number, number.lt number = false := by
    intro number
    cases number with
    | nan => rfl
    | infinity negative => cases negative <;> rfl
    | finite value => exact decide_eq_false (lt_irrefl value)
  rw [contains, notBelow, notBelow, Bool.or_false, Bool.and_false]

theorem start_le_of_key_le {left right : Interval} (before : left.key ≤ right.key) :
    left.startMs.place ≤ right.startMs.place := by
  rw [Interval.key, Interval.key, Prod.Lex.toLex_le_toLex] at before
  rcases before with first | ⟨same, _⟩
  · exact first.le
  · exact same.le

/-- What ends later and starts at the same time lasts longer. -/
theorem duration_lt_of_end_lt {left right : Interval} (leftTimed : left.Timed) (rightTimed : right.Timed)
    (sameStart : left.startMs.place = right.startMs.place) (endsBefore : left.endMs.place < right.endMs.place) :
    left.durationMs.place < right.durationMs.place := by
  rcases leftTimed.start with ⟨leftStart, leftStarted⟩
  rcases rightTimed.start with ⟨rightStart, rightStarted⟩
  have same : leftStart = rightStart := by
    rw [leftStarted, rightStarted] at sameStart
    exact le_antisymm (Number.place_finite_le.mp sameStart.le) (Number.place_finite_le.mp sameStart.ge)
  refine lt_of_not_ge fun atLeast => endsBefore.not_ge ?_
  rw [leftTimed.ends, rightTimed.ends, leftStarted, rightStarted, same]
  exact Number.add_mono rightTimed.duration leftTimed.duration atLeast

/-- What contains an interval stands before it. -/
theorem key_lt_of_contains {outer inner : Interval} (outerTimed : outer.Timed) (innerTimed : inner.Timed)
    (surrounds : contains outer inner = true) : outer.key < inner.key := by
  rcases (contains_iff outerTimed innerTimed).mp surrounds with ⟨⟨startsFirst, endsLast⟩, larger⟩
  rw [Interval.key, Interval.key, Prod.Lex.toLex_lt_toLex, Prod.Lex.toLex_lt_toLex]
  rcases startsFirst.lt_or_eq with first | same
  · exact .inl first
  · have endsLater := larger.resolve_left same.not_lt
    exact .inr ⟨same, .inl (OrderDual.toDual_lt_toDual.mpr
      (duration_lt_of_end_lt innerTimed outerTimed same.symm endsLater))⟩

/-- What an interval closes contains nothing later that the interval does not contain. -/
theorem crossing {closed item later : Interval} (closedTimed : closed.Timed) (itemTimed : item.Timed)
    (laterTimed : later.Timed) (itemAfter : closed.key ≤ item.key) (laterAfter : item.key ≤ later.key)
    (notInside : contains closed item = false) (inside : contains closed later = true) :
    contains item later = true := by
  have itemStart := start_le_of_key_le itemAfter
  have laterStart := start_le_of_key_le laterAfter
  rcases (contains_iff closedTimed laterTimed).mp inside with ⟨⟨_, endsLast⟩, larger⟩
  have outside := (contains_iff closedTimed itemTimed).not.mp (Bool.eq_false_iff.mp notInside)
  rw [contains_iff itemTimed laterTimed]
  rcases lt_or_ge closed.endMs.place item.endMs.place with beyond | within
  · exact ⟨⟨laterStart, endsLast.trans beyond.le⟩, .inr (endsLast.trans_lt beyond)⟩
  · have notLarger := fun either => outside ⟨⟨itemStart, within⟩, either⟩
    have sameStart := le_antisymm (not_lt.mp fun first => notLarger (.inl first)) itemStart
    have sameEnd := le_antisymm within (not_lt.mp fun last => notLarger (.inr last))
    rw [sameStart, sameEnd]
    exact ⟨⟨sameStart ▸ laterStart, endsLast⟩, larger⟩

end Metrics
end Telescope
