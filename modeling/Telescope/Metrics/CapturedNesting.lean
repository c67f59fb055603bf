import Telescope.Metrics.WaterfallForest
import Telescope.Recorder.Enrich

namespace Telescope
namespace Otel

/-!
# The span of an entry

The exporter turns every entry it flushes into a span that starts where the entry is dated
and lasts as long as its duration says.
-/

/-- The value of an attribute. -/
inductive AttributeValue
  | text (text : Units)
  | number (number : Number)

structure SpanShape where
  name : Units
  startMs : Number
  endMs : Number
  attributes : List (Units × AttributeValue)
  traceId : Option Units
  spanId : Option Units

/-- The attributes of an entry, in the order of their assignment. -/
def attributesOf (entry : CapturedEntry) : List (Units × AttributeValue) :=
  let attributes := Fields.assign (Fields.assign [] (units "telescope.type") (.text entry.type))
    (units "telescope.batch_id") (.text entry.batchId)
  let attributes := match entry.durationMs with
    | some durationMs => Fields.assign attributes (units "telescope.duration_ms") (.number durationMs)
    | none => attributes
  entry.tags.foldl
    (fun attributes tag => Fields.assign attributes (units "telescope.tag." ++ tag) (.number (.finite 1))) attributes

def entryToSpan (entry : CapturedEntry) : SpanShape :=
  let startMs := getTime entry.createdAt
  { name := units "telescope." ++ entry.type
    startMs := startMs
    endMs := startMs.add (entry.durationMs.getD (.finite 0))
    attributes := attributesOf entry
    traceId := entry.traceId
    spanId := entry.spanId }

/-- One span lies within another. -/
def SpanShape.Within (inner outer : SpanShape) : Prop :=
  outer.startMs.le inner.startMs = true ∧ inner.endMs.le outer.endMs = true

end Otel
end Telescope

namespace Telescope
namespace Metrics

open Nesting

/-!
# Captured operations

Watchers record an operation once it has finished and say how long it took.  The entry is dated
by the clock at that time, so its date is where the operation ended.  The waterfall and the span
exporter read the date as the start: what ran inside another operation ended before it, and so
seems to start before it.
-/

/-! ## What a waterfall shows -/

/-- Somewhere below the node of one entry stands that of another. -/
def Waterfall.ShowsBelow (waterfall : Waterfall) (outer inner : Units) : Prop :=
  Exists fun node => node ∈ waterfall.spans.flatMap Branch.nodes ∧ node.value.id = outer ∧
    Exists fun span => span ∈ node.descendants ∧ span.id = inner

variable {entries : List CapturedEntry}

theorem contains_of_edge {edge : (Interval × Nat) × (Interval × Nat)}
    (member : edge ∈ (forestOf entries).flatMap Branch.edges) : contains edge.1.1 edge.2.1 = true := by
  rcases mem_edges_nestAll.mp (mem_edges_forestOf.mp member) with ⟨before, after, _, found, _⟩
  exact List.find?_some (p := fun outer : Interval × Nat => contains outer.1 edge.2.1) found

theorem start_le_of_contains {outer inner : Interval} (surrounds : contains outer inner = true) :
    outer.startMs.le inner.startMs = true := by
  rw [contains, Bool.and_eq_true, Bool.and_eq_true] at surrounds
  exact surrounds.1.1

/-- Identifiers tell the entries apart. -/
theorem entry_of_id (distinct : (entries.map CapturedEntry.id).Nodup) {entry : CapturedEntry} (member : entry ∈ entries)
    {interval : Interval} (isInterval : interval ∈ intervals entries) (same : interval.entry.id = entry.id) :
    interval.startMs = getTime entry.createdAt := by
  rcases mem_intervals.mp isInterval with ⟨index, own, found, rfl⟩
  have isEntry : own = entry :=
    List.inj_on_of_nodup_map distinct (List.mem_of_getElem? found) member same
  rw [← isEntry]
  rfl

/-- What stands below an entry is dated no earlier. -/
theorem date_le_of_showsBelow (distinct : (entries.map CapturedEntry.id).Nodup) {outer inner : CapturedEntry}
    (outerIn : outer ∈ entries) (innerIn : inner ∈ entries) {waterfall : Waterfall}
    (built : buildWaterfall entries = some waterfall) (shown : waterfall.ShowsBelow outer.id inner.id) :
    (getTime outer.createdAt).le (getTime inner.createdAt) = true := by
  have spans : waterfall.spans = (forestOf entries).map (Branch.map (spanOf (traceStart entries))) := by
    rw [buildWaterfall] at built
    split at built
    · cases built
    · cases built
      rfl
  rcases shown with ⟨node, isNode, outerId, span, isBelow, innerId⟩
  rw [spans, List.flatMap_map] at isNode
  rcases List.mem_flatMap.mp isNode with ⟨tree, isTree, inTree⟩
  rw [Branch.nodes_map] at inTree
  rcases List.mem_map.mp inTree with ⟨inside, isInside, rfl⟩
  rw [Branch.descendants_map] at isBelow
  rcases List.mem_map.mp isBelow with ⟨lower, isLower, rfl⟩
  rw [Branch.value_map] at outerId
  have follows := Branch.forall_descendants_of_edges
    (fun left right : Interval => left.startMs.le right.startMs = true) (fun _ _ _ => Number.le_trans) tree
    (fun edge member => start_le_of_contains (contains_of_edge (List.mem_flatMap.mpr ⟨tree, isTree, member⟩)))
    inside isInside lower isLower
  have among : forall interval, interval ∈ inside.values -> interval ∈ intervals entries := fun interval member =>
    values_forestOf.mem_iff.mp (List.mem_flatMap.mpr ⟨tree, isTree, Branch.values_of_node isInside member⟩)
  rw [Branch.values_eq] at among
  rw [entry_of_id distinct outerIn (among _ (List.mem_cons_self ..)) outerId,
    entry_of_id distinct innerIn (among _ (List.mem_cons_of_mem _ isLower)) innerId] at follows
  exact follows

/-! ## Operations -/

/-- An operation, by the clock, and what its producer hands to the recorder beside its times. -/
structure Operation where
  input : RecordInput
  started : TimeValue
  ended : TimeValue
  ordered : started.ms ≤ ended.ms

namespace Operation

/-- What the producer hands over when the operation is complete. -/
def recordInput (operation : Operation) : RecordInput :=
  { operation.input with
    durationMs := some ((Number.finite operation.ended.ms).sub (.finite operation.started.ms))
    startedAt := none }

/-- One operation started after another and ended before it. -/
def StrictlyInside (inner outer : Operation) : Prop :=
  outer.started.ms < inner.started.ms ∧ inner.ended.ms < outer.ended.ms

instance (inner outer : Operation) : Decidable (inner.StrictlyInside outer) := inferInstanceAs (Decidable (_ ∧ _))

end Operation

/-- An operation that is recorded at its completion. -/
structure Completion where
  operation : Operation
  surroundings : Recorder.Surroundings
  atEnd : surroundings.now = some operation.ended

/-- The entry that the recorder makes of it. -/
def Completion.entry (toLowerCase : Units -> Units) (options : Recorder.EnrichOptions) (completion : Completion) :
    CapturedEntry :=
  Recorder.enrich toLowerCase options completion.surroundings completion.operation.recordInput

variable {toLowerCase : Units -> Units} {options : Recorder.EnrichOptions}

theorem createdAt_entry (completion : Completion) :
    (completion.entry toLowerCase options).createdAt = some completion.operation.ended :=
  (Recorder.createdAt_enrich rfl).trans completion.atEnd

/-- Whatever ran strictly inside another operation is shown below it and has its span within. -/
def NestsAsRun (toLowerCase : Units -> Units) (options : Recorder.EnrichOptions) (trace : List Completion) : Prop :=
  forall inner, inner ∈ trace -> forall outer, outer ∈ trace ->
    inner.operation.StrictlyInside outer.operation ->
      (Exists fun waterfall => buildWaterfall (trace.map (Completion.entry toLowerCase options)) = some waterfall ∧
        waterfall.ShowsBelow (outer.entry toLowerCase options).id (inner.entry toLowerCase options).id) ∧
      (Otel.entryToSpan (inner.entry toLowerCase options)).Within (Otel.entryToSpan (outer.entry toLowerCase options))

theorem ended_of_le {inner outer : Completion} (dated : (getTime (outer.entry toLowerCase options).createdAt).le
      (getTime (inner.entry toLowerCase options).createdAt) = true) :
    outer.operation.ended.ms ≤ inner.operation.ended.ms := by
  rw [createdAt_entry, createdAt_entry] at dated
  exact Int.cast_le.mp (of_decide_eq_true dated)

/-- An operation that ran strictly inside another is neither shown below it nor has it a span
within. -/
theorem never_nested {trace : List Completion}
    (distinct : ((trace.map (Completion.entry toLowerCase options)).map CapturedEntry.id).Nodup)
    {inner outer : Completion} (innerIn : inner ∈ trace) (outerIn : outer ∈ trace)
    (inside : inner.operation.StrictlyInside outer.operation) :
    (forall waterfall, buildWaterfall (trace.map (Completion.entry toLowerCase options)) = some waterfall ->
      ¬ waterfall.ShowsBelow (outer.entry toLowerCase options).id (inner.entry toLowerCase options).id) ∧
    ¬ (Otel.entryToSpan (inner.entry toLowerCase options)).Within
      (Otel.entryToSpan (outer.entry toLowerCase options)) := by
  constructor
  · intro waterfall built shown
    have dated := date_le_of_showsBelow distinct (List.mem_map_of_mem outerIn) (List.mem_map_of_mem innerIn) built shown
    exact absurd (ended_of_le dated) (not_le.mpr inside.2)
  · intro within
    exact absurd (ended_of_le within.1) (not_le.mpr inside.2)

/-- The entries of a trace nest as their operations did exactly when none of these ran strictly
inside another. -/
theorem nestsAsRun_iff {toLowerCase : Units -> Units} {options : Recorder.EnrichOptions} {trace : List Completion}
    (distinct : ((trace.map (Completion.entry toLowerCase options)).map CapturedEntry.id).Nodup) :
    NestsAsRun toLowerCase options trace <->
      forall inner, inner ∈ trace -> forall outer, outer ∈ trace ->
        ¬ inner.operation.StrictlyInside outer.operation := by
  constructor
  · intro nests inner innerIn outer outerIn inside
    exact (never_nested distinct innerIn outerIn inside).2 (nests inner innerIn outer outerIn inside).2
  · intro flat inner innerIn outer outerIn inside
    exact (flat inner innerIn outer outerIn inside).elim

/-! ## A query in a request -/

def atMs (ms : Fin 100) : TimeValue where
  ms := ms
  inRange := inRange_fin ms

/-- An operation of a type between two times, under an identifier. -/
def completed (id type : Units) (started ended : Fin 100) (ordered : started ≤ ended) : Completion where
  operation :=
    { input := { type := type, content := .object [] }
      started := atMs started
      ended := atMs ended
      ordered := Int.ofNat_le.mpr ordered }
  surroundings := { batchId := units "batch", id := id, sequence := 0, now := some (atMs ended) }
  atEnd := rfl

def plainOptions : Recorder.EnrichOptions := { instanceId := units "app" }

/-- A query after another. -/
def queriesInTurn : List Completion :=
  [completed (units "first") EntryType.query 2 5 (by decide), completed (units "second") EntryType.query 6 9 (by decide)]

theorem queriesInTurn_nest : NestsAsRun id plainOptions queriesInTurn :=
  (nestsAsRun_iff (by decide)).mpr (by decide)

/-- A request, and a query that it has made. -/
def queryInRequest : List Completion :=
  [completed (units "query") EntryType.query 2 5 (by decide),
    completed (units "request") EntryType.request 0 10 (by decide)]

/-- The query is not shown below the request. -/
theorem queryInRequest_not_nested :
    ¬ forall (toLowerCase : Units -> Units) (options : Recorder.EnrichOptions) (trace : List Completion),
      ((trace.map (Completion.entry toLowerCase options)).map CapturedEntry.id).Nodup ->
        NestsAsRun toLowerCase options trace := by
  intro always
  have distinct : ((queryInRequest.map (Completion.entry id plainOptions)).map CapturedEntry.id).Nodup := by decide
  have queryIn : completed (units "query") EntryType.query 2 5 (by decide) ∈ queryInRequest := List.mem_cons_self ..
  have requestIn : completed (units "request") EntryType.request 0 10 (by decide) ∈ queryInRequest :=
    List.mem_cons_of_mem _ (List.mem_cons_self ..)
  have inside : (completed (units "query") EntryType.query 2 5 (by decide)).operation.StrictlyInside
      (completed (units "request") EntryType.request 0 10 (by decide)).operation := by decide
  have nested := always id plainOptions queryInRequest distinct _ queryIn _ requestIn inside
  exact (never_nested distinct queryIn requestIn inside).2 nested.2

end Metrics
end Telescope
