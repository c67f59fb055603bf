import Mathlib.Data.List.Flatten
import Telescope.Observe.Encode

namespace Telescope
namespace Observe

/-!
# No entry is billed twice

Observe bills for every record that it ingests.  Each entry of an exported batch is at
most one of a log line, the root of a record, the error of a record and a span, except
that a failed run whose children name no failure shows the reason that its own entry
gives.
-/

/-- Where an entry can contribute to what is sent. -/
inductive Place
  | pendingLogs
  | root
  | error
  | spans
  deriving DecidableEq

structure Contribution where
  entry : CapturedEntry
  place : Place

/-- The entries that contribute at a place, in order. -/
def entriesAt (place : Place) (contributed : List Contribution) : List CapturedEntry :=
  (contributed.filter fun contribution => decide (contribution.place = place)).map Contribution.entry

/-- The places at which an entry contributes. -/
def placesOf (id : Units) (contributed : List Contribution) : List Place :=
  (contributed.filter fun contribution => decide (contribution.entry.id = id)).map Contribution.place

/-! ## What a batch contributes -/

/-- The entry whose error a job shows: a child, or the root itself by its reason. -/
def jobErrorSource (root : CapturedEntry) (children : List CapturedEntry) : Option CapturedEntry :=
  (jobConsumed children).orElse fun _absent => (reasonError root.content).map fun _reason => root

section Contributions

variable (toLowerCase : Units -> Units) (included : Include)

def errorContributions (source : Option CapturedEntry) : List Contribution :=
  source.toList.map fun entry => ⟨entry, .error⟩

def spanContributions (consumed : Option CapturedEntry) (children : List CapturedEntry) : List Contribution :=
  if included.spans then (children.filter (isChildSpan consumed)).map fun child => ⟨child, .spans⟩ else []

/-- What the entries of a batch contribute to a record over them. -/
def drawn (root : CapturedEntry) (source consumed : Option CapturedEntry) (children : List CapturedEntry) :
    List Contribution :=
  ⟨root, .root⟩ :: (errorContributions source ++ spanContributions included consumed children)

def logContributions (children : List CapturedEntry) : List Contribution :=
  if included.logs then (children.filter fun child => (encodeLog toLowerCase child).isSome).map
    fun child => ⟨child, .pendingLogs⟩
  else []

/-- What the entries of a batch contribute to its snapshot or job, if there is one. -/
def recordContributions (batch : CapturedBatch) : List Contribution :=
  match batch.root with
  | none => []
  | some root =>
      if included.requests = true ∧ (encodeSnapshot included batch).join.isSome = true then
        drawn included root (snapshotConsumed batch.children) (snapshotConsumed batch.children) batch.children
      else if included.jobs = true ∧ (encodeJob included batch).join.isSome = true then
        drawn included root (jobErrorSource root batch.children) (jobConsumed batch.children) batch.children
      else []

def contributions (batch : CapturedBatch) : List Contribution :=
  logContributions toLowerCase included batch.children ++ recordContributions included batch

end Contributions

/-! ## The records show what is contributed -/

abbrev WireRecord := Record WireLog WireSnapshot WireJob

def lineOf : WireRecord -> Option WireLog
  | .log line => some line
  | _ => none

def isRooted : WireRecord -> Bool
  | .log _line => false
  | _ => true

def spansOf : WireRecord -> List WireSpan
  | .log _line => []
  | .snapshot snapshot => snapshot.t
  | .job job => job.t

def errorOf : WireRecord -> Option WireError
  | .log _line => none
  | .snapshot snapshot => snapshot.e
  | .job job => job.e

/-- The error that an entry contributes: its own, or the reason of a failed run. -/
def contributedError (entry : CapturedEntry) : Option WireError :=
  (toWireError entry).orElse fun _absent => reasonError entry.content

/-- Every line, record, error and span of a batch is contributed, each by one entry and
in the order of the entries. -/
structure Accounts (toLowerCase : Units -> Units) (batch : CapturedBatch) (records : List WireRecord)
    (contributed : List Contribution) : Prop where
  lines : (records.filterMap lineOf).map some = (entriesAt .pendingLogs contributed).map (encodeLog toLowerCase)
  roots : (entriesAt .root contributed).length = (records.filter isRooted).length
  root : forall entry, entry ∈ entriesAt .root contributed -> batch.root = some entry
  errors : (records.filterMap errorOf).map some = (entriesAt .error contributed).map contributedError
  spans : records.flatMap spansOf =
    (entriesAt .spans contributed).map (entryToSpan (batch.root.elim .nan entryStartMs))

/-- With spans on, a child beside a record that is no log line, no record of its own and
not the error is one span, and the spans come in the order of the children. -/
structure Covers (included : Include) (batch : CapturedBatch) (contributed : List Contribution) : Prop where
  ordered : (entriesAt .spans contributed).Sublist batch.children
  spanned : included.spans = true -> entriesAt .root contributed ≠ [] ->
    forall child, child ∈ batch.children -> child.type ≠ EntryType.log -> child.type ≠ EntryType.request ->
      child.type ≠ EntryType.job -> child ∉ entriesAt .error contributed ->
      placesOf child.id contributed = [.spans]

/-- A failed run without a failure among its children, and with a reason. -/
structure GivesReason (batch : CapturedBatch) (root : CapturedEntry) : Prop where
  isRoot : batch.root = some root
  isJob : root.type = EntryType.job
  unexplained : jobConsumed batch.children = none
  hasReason : (reasonError root.content).isSome = true

/-! ## Places -/

theorem placesOf_append (id : Units) (first second : List Contribution) :
    placesOf id (first ++ second) = placesOf id first ++ placesOf id second := by
  rw [placesOf, List.filter_append, List.map_append, placesOf, placesOf]

theorem placesOf_eq_nil {id : Units} {contributed : List Contribution}
    (others : forall contribution, contribution ∈ contributed -> contribution.entry.id ≠ id) :
    placesOf id contributed = [] := by
  rw [placesOf, List.filter_eq_nil_iff.mpr fun contribution member same =>
    others contribution member (of_decide_eq_true same)]
  rfl

theorem entriesAt_append (place : Place) (first second : List Contribution) :
    entriesAt place (first ++ second) = entriesAt place first ++ entriesAt place second := by
  rw [entriesAt, List.filter_append, List.map_append, entriesAt, entriesAt]

theorem entriesAt_map (place other : Place) (entries : List CapturedEntry) :
    entriesAt place (entries.map fun entry => ⟨entry, other⟩) = if other = place then entries else [] := by
  induction entries with
  | nil => exact (ite_self _).symm
  | cons entry entries inductionHypothesis =>
      rw [List.map_cons, ← List.singleton_append, entriesAt_append, inductionHypothesis]
      by_cases same : other = place
      · rw [if_pos same, if_pos same, entriesAt, List.filter_cons, if_pos (decide_eq_true same)]
        rfl
      · rw [if_neg same, if_neg same, entriesAt, List.filter_cons,
          if_neg fun holds => same (of_decide_eq_true holds)]
        rfl

/-- A child contributes once at a place that chooses it. -/
theorem placesOf_children {children : List CapturedEntry} (distinct : (children.map CapturedEntry.id).Nodup)
    (chosen : CapturedEntry -> Bool) (place : Place) {child : CapturedEntry} (member : child ∈ children) :
    placesOf child.id ((children.filter chosen).map fun entry => ⟨entry, place⟩) =
      if chosen child = true then [place] else [] := by
  induction children with
  | nil => exact (List.not_mem_nil member).elim
  | cons first children inductionHypothesis =>
      rw [List.map_cons, List.nodup_cons] at distinct
      have split : placesOf child.id (((first :: children).filter chosen).map fun entry => ⟨entry, place⟩) =
          (if first.id = child.id ∧ chosen first = true then [place] else []) ++
            placesOf child.id ((children.filter chosen).map fun entry => ⟨entry, place⟩) := by
        by_cases isChosen : chosen first = true
        · rw [List.filter_cons, if_pos isChosen, List.map_cons, ← List.singleton_append, placesOf_append]
          congr 1
          by_cases same : first.id = child.id
          · rw [if_pos ⟨same, isChosen⟩, placesOf, List.filter_cons, if_pos (decide_eq_true same)]
            rfl
          · rw [if_neg fun both => same both.1, placesOf, List.filter_cons,
              if_neg fun holds => same (of_decide_eq_true holds)]
            rfl
        · rw [List.filter_cons, if_neg isChosen, if_neg fun both => isChosen both.2, List.nil_append]
      rw [split]
      rcases List.mem_cons.mp member with isFirst | inRest
      · rw [isFirst, placesOf_eq_nil, List.append_nil]
        · by_cases isChosen : chosen first = true
          · rw [if_pos ⟨rfl, isChosen⟩, if_pos isChosen]
          · rw [if_neg fun both => isChosen both.2, if_neg isChosen]
        · intro contribution isMember same
          rcases List.mem_map.mp isMember with ⟨entry, isEntry, isContribution⟩
          rw [← isContribution] at same
          refine distinct.1 ?_
          rw [← same]
          exact List.mem_map_of_mem (List.mem_of_mem_filter isEntry)
      · have different : first.id ≠ child.id := fun same =>
          distinct.1 (same ▸ List.mem_map_of_mem inRest)
        rw [if_neg fun both => different both.1, List.nil_append]
        exact inductionHypothesis distinct.2 inRest

/-! ## A batch -/

variable {toLowerCase : Units -> Units} {included : Include} {root child : CapturedEntry}
  {source consumed : Option CapturedEntry} {children : List CapturedEntry} {batch : CapturedBatch}

/-- Only a failure among the children is consumed, and the error of a record comes from
it or from the root. -/
structure Lifts (root : CapturedEntry) (source consumed : Option CapturedEntry) (children : List CapturedEntry) :
    Prop where
  isChild : forall child, consumed = some child -> child ∈ children
  isFailure : forall child, consumed = some child -> isFailureEntry child = true
  isSource : source = consumed ∨ consumed = none ∧ source = some root

theorem type_of_encodeLog (shipped : (encodeLog toLowerCase child).isSome = true) : child.type = EntryType.log := by
  by_contra other
  rw [encodeLog, if_neg other] at shipped
  cases shipped

theorem isFailureEntry_of_log (isLog : child.type = EntryType.log) : isFailureEntry child = false := by
  rw [isFailureEntry, isLog]
  decide

theorem isChildSpan_of_log (consumed : Option CapturedEntry) (isLog : child.type = EntryType.log) :
    isChildSpan consumed child = false := by
  rw [isChildSpan, decide_eq_false (fun other => other isLog)]
  rfl

theorem placesOf_logs {id : Units} (isNew : forall child, child ∈ children -> child.id ≠ id) :
    placesOf id (logContributions toLowerCase included children) = [] := by
  refine placesOf_eq_nil fun contribution member same => ?_
  rw [logContributions] at member
  split at member
  · rcases List.mem_map.mp member with ⟨entry, isEntry, isContribution⟩
    rw [← isContribution] at same
    exact isNew entry (List.mem_of_mem_filter isEntry) same
  · exact List.not_mem_nil member

theorem placesOf_logs_child (distinct : (children.map CapturedEntry.id).Nodup) (member : child ∈ children) :
    placesOf child.id (logContributions toLowerCase included children) =
      if included.logs = true ∧ (encodeLog toLowerCase child).isSome = true then [.pendingLogs] else [] := by
  rw [logContributions]
  by_cases logs : included.logs = true
  · rw [if_pos logs, placesOf_children distinct _ _ member]
    by_cases shipped : (encodeLog toLowerCase child).isSome = true
    · rw [if_pos shipped, if_pos ⟨logs, shipped⟩]
    · rw [if_neg shipped, if_neg fun both => shipped both.2]
  · rw [if_neg logs, if_neg fun both => logs both.1]
    rfl

theorem placesOf_singleton (id : Units) (entry : CapturedEntry) (place : Place) :
    placesOf id [⟨entry, place⟩] = if entry.id = id then [place] else [] := by
  by_cases same : entry.id = id
  · rw [if_pos same, placesOf, List.filter_cons, if_pos (decide_eq_true same)]
    rfl
  · rw [if_neg same, placesOf, List.filter_cons, if_neg fun holds => same (of_decide_eq_true holds)]
    rfl

theorem placesOf_error (id : Units) (source : Option CapturedEntry) :
    placesOf id (errorContributions source) =
      if source.any (fun entry => decide (entry.id = id)) then [.error] else [] := by
  cases source with
  | none => rfl
  | some entry =>
      rw [errorContributions, Option.toList_some, List.map_singleton, placesOf_singleton, Option.any_some]
      by_cases same : entry.id = id
      · rw [if_pos same, if_pos (decide_eq_true same)]
      · rw [if_neg same, if_neg fun holds => same (of_decide_eq_true holds)]

theorem placesOf_drawn (id : Units) :
    placesOf id (drawn included root source consumed children) =
      (if root.id = id then [.root] else []) ++
        ((if source.any (fun entry => decide (entry.id = id)) then [.error] else []) ++
          placesOf id (spanContributions included consumed children)) := by
  rw [drawn, ← List.singleton_append, placesOf_append, placesOf_append, placesOf_singleton, placesOf_error]

theorem placesOf_spans_child (distinct : (children.map CapturedEntry.id).Nodup) (member : child ∈ children) :
    placesOf child.id (spanContributions included consumed children) =
      if included.spans = true ∧ isChildSpan consumed child = true then [.spans] else [] := by
  rw [spanContributions]
  by_cases spans : included.spans = true
  · rw [if_pos spans, placesOf_children distinct _ _ member]
    by_cases isSpan : isChildSpan consumed child = true
    · rw [if_pos isSpan, if_pos ⟨spans, isSpan⟩]
    · rw [if_neg isSpan, if_neg fun both => isSpan both.2]
  · rw [if_neg spans, if_neg fun both => spans both.1]
    rfl

theorem placesOf_spans {id : Units} (isNew : forall child, child ∈ children -> child.id ≠ id) :
    placesOf id (spanContributions included consumed children) = [] := by
  refine placesOf_eq_nil fun contribution member same => ?_
  rw [spanContributions] at member
  split at member
  · rcases List.mem_map.mp member with ⟨entry, isEntry, isContribution⟩
    rw [← isContribution] at same
    exact isNew entry (List.mem_of_mem_filter isEntry) same
  · exact List.not_mem_nil member

/-- The root of a record is nothing else, unless it gives the reason itself. -/
theorem places_root (lifts : Lifts root source consumed children)
    (isNew : forall child, child ∈ children -> child.id ≠ root.id) :
    placesOf root.id (logContributions toLowerCase included children ++
        drawn included root source consumed children) = [.root] ∨
      (consumed = none ∧ source = some root) ∧
        placesOf root.id (logContributions toLowerCase included children ++
          drawn included root source consumed children) = [.root, .error] := by
  rw [placesOf_append, placesOf_logs isNew, placesOf_drawn, placesOf_spans isNew, if_pos rfl, List.nil_append,
    List.append_nil]
  rcases lifts.isSource with same | own
  · refine .inl ?_
    rw [if_neg fun isRoot => ?_, List.append_nil]
    rcases (Option.any_eq_true _ _).mp isRoot with ⟨entry, isEntry, sameId⟩
    rw [same] at isEntry
    exact isNew entry (lifts.isChild entry isEntry) (of_decide_eq_true sameId)
  · refine .inr ⟨own, ?_⟩
    rw [own.2, Option.any_some, if_pos (decide_eq_true rfl)]
    rfl

/-- The entry of a batch that has an identifier. -/
theorem eq_of_id (distinct : (children.map CapturedEntry.id).Nodup) {left right : CapturedEntry}
    (isLeft : left ∈ children) (isRight : right ∈ children) (same : left.id = right.id) : left = right :=
  List.inj_on_of_nodup_map distinct isLeft isRight same

/-- A child beside a record is one of a log line, the error and a span. -/
theorem places_child (distinct : (children.map CapturedEntry.id).Nodup) (lifts : Lifts root source consumed children)
    (isNew : forall child, child ∈ children -> child.id ≠ root.id) (member : child ∈ children) :
    placesOf child.id (logContributions toLowerCase included children ++
        drawn included root source consumed children) =
      if included.logs = true ∧ (encodeLog toLowerCase child).isSome = true then [.pendingLogs]
      else if consumed.any (fun consumed => decide (consumed.id = child.id)) then [.error]
      else if included.spans = true ∧ isChildSpan consumed child = true then [.spans]
      else [] := by
  have fromConsumed : source.any (fun entry => decide (entry.id = child.id)) =
      consumed.any fun consumed => decide (consumed.id = child.id) := by
    rcases lifts.isSource with same | own
    · rw [same]
    · rw [own.1, own.2, Option.any_some, Option.any_none]
      exact decide_eq_false fun same => isNew child member same.symm
  rw [placesOf_append, placesOf_logs_child distinct member, placesOf_drawn,
    if_neg fun same => isNew child member (Eq.symm same), List.nil_append, fromConsumed,
    placesOf_spans_child distinct member]
  by_cases lifted : consumed.any (fun consumed => decide (consumed.id = child.id)) = true
  · rcases (Option.any_eq_true _ _).mp lifted with ⟨entry, isConsumed, same⟩
    have isEntry := eq_of_id distinct (lifts.isChild entry isConsumed) member (of_decide_eq_true same)
    have isFailure := lifts.isFailure entry isConsumed
    rw [isEntry] at isFailure isConsumed
    have notLog : ¬ (included.logs = true ∧ (encodeLog toLowerCase child).isSome = true) := by
      rintro ⟨_logs, shipped⟩
      rw [isFailureEntry_of_log (type_of_encodeLog shipped)] at isFailure
      cases isFailure
    have notSpan : ¬ (included.spans = true ∧ isChildSpan consumed child = true) := by
      rintro ⟨_spans, isSpan⟩
      rw [isChildSpan, isConsumed, Option.any_some, decide_eq_true rfl, Bool.not_true, Bool.and_false] at isSpan
      cases isSpan
    rw [if_neg notLog, if_neg notLog, if_pos lifted, if_pos lifted, if_neg notSpan]
    rfl
  · rw [if_neg lifted, if_neg lifted, List.nil_append]
    by_cases shipped : included.logs = true ∧ (encodeLog toLowerCase child).isSome = true
    · rw [if_pos shipped, if_pos shipped, if_neg, List.append_nil]
      rintro ⟨_spans, isSpan⟩
      rw [isChildSpan_of_log consumed (type_of_encodeLog shipped.2)] at isSpan
      cases isSpan
    · rw [if_neg shipped, if_neg shipped, List.nil_append]

theorem pickFailureFrom_eq_some {clientFailure : Option CapturedEntry} {failure : CapturedEntry}
    (picked : pickFailureFrom clientFailure children = some failure) :
    clientFailure = some failure ∨ failure ∈ children ∧ isFailureEntry failure = true := by
  induction children generalizing clientFailure with
  | nil => exact .inl picked
  | cons first children inductionHypothesis =>
      rw [pickFailureFrom] at picked
      split at picked
      · rename_i isException
        cases picked
        refine .inr ⟨List.mem_cons_self .., ?_⟩
        rw [isFailureEntry, decide_eq_true isException, Bool.true_or]
      · split at picked
        · rename_i isClient
          rcases inductionHypothesis picked with isFirst | later
          · cases isFirst
            refine .inr ⟨List.mem_cons_self .., ?_⟩
            rw [isFailureEntry, decide_eq_true isClient.1, Bool.or_true]
          · exact .inr ⟨List.mem_cons_of_mem _ later.1, later.2⟩
        · rcases inductionHypothesis picked with earlier | later
          · exact .inl earlier
          · exact .inr ⟨List.mem_cons_of_mem _ later.1, later.2⟩

theorem snapshotConsumed_spec (consumes : snapshotConsumed children = some child) :
    (child ∈ children ∧ isFailureEntry child = true) ∧ (toWireError child).isSome = true := by
  rcases Option.filter_eq_some_iff.mp consumes with ⟨picked, usable⟩
  rcases pickFailureFrom_eq_some picked with earlier | later
  · cases earlier
  · exact ⟨later, usable⟩

theorem jobConsumed_spec (consumes : jobConsumed children = some child) :
    (child ∈ children ∧ isFailureEntry child = true) ∧ (toWireError child).isSome = true := by
  have holds := List.find?_some consumes
  rw [Bool.and_eq_true] at holds
  exact ⟨⟨List.mem_of_find?_eq_some consumes, holds.1⟩, holds.2⟩

theorem lifts_snapshot (root : CapturedEntry) (children : List CapturedEntry) :
    Lifts root (snapshotConsumed children) (snapshotConsumed children) children where
  isChild _child consumes := (snapshotConsumed_spec consumes).1.1
  isFailure _child consumes := (snapshotConsumed_spec consumes).1.2
  isSource := .inl rfl

theorem lifts_job (root : CapturedEntry) (children : List CapturedEntry) :
    Lifts root (jobErrorSource root children) (jobConsumed children) children where
  isChild _child consumes := (jobConsumed_spec consumes).1.1
  isFailure _child consumes := (jobConsumed_spec consumes).1.2
  isSource := by
    rw [jobErrorSource]
    cases jobConsumed children with
    | some child => exact .inl rfl
    | none =>
        cases reasonError root.content with
        | none => exact .inl rfl
        | some reason => exact .inr ⟨rfl, rfl⟩

variable {contribution : Contribution}

theorem mem_drawn_logs (member : contribution ∈ logContributions toLowerCase included children) :
    contribution.entry ∈ children := by
  rw [logContributions] at member
  split at member
  · rcases List.mem_map.mp member with ⟨entry, isEntry, isContribution⟩
    rw [← isContribution]
    exact List.mem_of_mem_filter isEntry
  · exact (List.not_mem_nil member).elim

theorem mem_drawn (lifts : Lifts root source consumed children)
    (member : contribution ∈ drawn included root source consumed children) :
    contribution.entry = root ∨ contribution.entry ∈ children := by
  rw [drawn, List.mem_cons, List.mem_append] at member
  rcases member with isRoot | isError | isSpan
  · exact .inl (congrArg Contribution.entry isRoot)
  · rcases List.mem_map.mp isError with ⟨entry, isSource, isContribution⟩
    rw [← isContribution]
    rcases lifts.isSource with same | own
    · rw [same] at isSource
      exact .inr (lifts.isChild entry (Option.mem_toList.mp isSource))
    · rw [own.2] at isSource
      exact .inl (List.mem_singleton.mp isSource)
  · rw [spanContributions] at isSpan
    split at isSpan
    · rcases List.mem_map.mp isSpan with ⟨entry, isEntry, isContribution⟩
      rw [← isContribution]
      exact .inr (List.mem_of_mem_filter isEntry)
    · exact (List.not_mem_nil isSpan).elim

/-- The record of a batch is drawn from its root and its children, if there is one. -/
theorem recordContributions_cases (included : Include) (batch : CapturedBatch) :
    recordContributions included batch = [] ∨
      Exists fun root => Exists fun source => Exists fun consumed =>
        batch.root = some root ∧ Lifts root source consumed batch.children ∧
          recordContributions included batch = drawn included root source consumed batch.children ∧
            (consumed = none ∧ source = some root -> GivesReason batch root) := by
  rw [recordContributions]
  cases isRoot : batch.root with
  | none => exact .inl rfl
  | some root =>
      dsimp only
      split
      · refine .inr ⟨root, _, _, rfl, lifts_snapshot root batch.children, rfl, ?_⟩
        rintro ⟨none, some⟩
        rw [none] at some
        cases some
      · split
        · rename_i encoded
          refine .inr ⟨root, _, _, rfl, lifts_job root batch.children, rfl, ?_⟩
          rintro ⟨unexplained, own⟩
          refine ⟨isRoot, ?_, unexplained, ?_⟩
          · by_contra other
            rw [encodeJob, isRoot] at encoded
            dsimp only at encoded
            rw [if_neg other] at encoded
            cases encoded.2
          · rw [jobErrorSource, unexplained] at own
            cases reason : reasonError root.content with
            | some reason => rfl
            | none =>
                rw [reason] at own
                cases own
        · exact .inl rfl

theorem distinct_children (distinct : (batch.entries.map CapturedEntry.id).Nodup) :
    (batch.children.map CapturedEntry.id).Nodup := by
  rw [CapturedBatch.entries, List.map_append] at distinct
  exact (List.nodup_append.mp distinct).2.1

theorem children_ne_root (distinct : (batch.entries.map CapturedEntry.id).Nodup) (isRoot : batch.root = some root)
    (member : child ∈ batch.children) : child.id ≠ root.id := by
  rw [CapturedBatch.entries, isRoot, Option.toList_some, List.singleton_append, List.map_cons,
    List.nodup_cons] at distinct
  intro same
  rw [← same] at distinct
  exact distinct.1 (List.mem_map_of_mem member)

/-- Every entry that contributes belongs to the batch. -/
theorem entry_mem_of_contributes (member : contribution ∈ contributions toLowerCase included batch) :
    contribution.entry ∈ batch.entries := by
  rw [contributions, List.mem_append] at member
  rcases member with isLog | inRecord
  · exact List.mem_append_right _ (mem_drawn_logs isLog)
  · rcases recordContributions_cases included batch with none | ⟨root, source, consumed, isRoot, lifts, isDrawn, _⟩
    · rw [none] at inRecord
      exact (List.not_mem_nil inRecord).elim
    · rw [isDrawn] at inRecord
      rcases mem_drawn lifts inRecord with same | isChild
      · rw [same, CapturedBatch.entries, isRoot]
        exact List.mem_cons_self ..
      · exact List.mem_append_right _ isChild

/-- An entry of a batch contributes once, or it is a root that gives the reason of its
run. -/
theorem contributes_once (distinct : (batch.entries.map CapturedEntry.id).Nodup) (id : Units) :
    (placesOf id (contributions toLowerCase included batch)).length ≤ 1 ∨
      placesOf id (contributions toLowerCase included batch) = [.root, .error] ∧
        Exists fun root => root.id = id ∧ GivesReason batch root := by
  by_cases known : Exists fun entry => entry ∈ batch.entries ∧ entry.id = id
  · rcases known with ⟨entry, member, isId⟩
    subst isId
    rw [contributions]
    have distinctChildren := distinct_children distinct
    rcases recordContributions_cases included batch with none | ⟨root, source, consumed, isRoot, lifts, isDrawn, reason⟩
    · refine .inl ?_
      rw [none, List.append_nil]
      by_cases isChild : entry ∈ batch.children
      · rw [placesOf_logs_child distinctChildren isChild]
        split <;> decide
      · rw [placesOf_logs]
        · exact Nat.zero_le _
        · intro child childMember same
          rcases List.mem_append.mp member with inRoot | inChildren
          · exact children_ne_root distinct (Option.mem_toList.mp inRoot) childMember same
          · exact isChild inChildren
    · rw [isDrawn]
      have isNew : forall child, child ∈ batch.children -> child.id ≠ root.id :=
        fun child childMember => children_ne_root distinct isRoot childMember
      rw [CapturedBatch.entries, isRoot, Option.toList_some, List.singleton_append, List.mem_cons] at member
      rcases member with isEntry | isChild
      · rw [isEntry]
        rcases @places_root toLowerCase included root source consumed batch.children lifts isNew with
          once | ⟨own, both⟩
        · rw [once]
          exact .inl (Nat.le_refl 1)
        · exact .inr ⟨both, root, rfl, reason own⟩
      · rw [places_child distinctChildren lifts isNew isChild]
        refine .inl ?_
        split
        · exact Nat.le_refl 1
        · split
          · exact Nat.le_refl 1
          · split <;> decide
  · refine .inl ?_
    rw [placesOf_eq_nil fun contribution member same => known ⟨_, entry_mem_of_contributes member, same⟩]
    exact Nat.zero_le _

/-! ## What the places hold -/

theorem entriesAt_logs (place : Place) (children : List CapturedEntry) :
    entriesAt place (logContributions toLowerCase included children) =
      if included.logs = true ∧ place = .pendingLogs then
        children.filter fun child => (encodeLog toLowerCase child).isSome
      else [] := by
  rw [logContributions]
  by_cases logs : included.logs = true
  · rw [if_pos logs, entriesAt_map]
    by_cases same : Place.pendingLogs = place
    · rw [if_pos same, if_pos ⟨logs, same.symm⟩]
    · rw [if_neg same, if_neg fun both => same both.2.symm]
  · rw [if_neg logs, if_neg fun both => logs both.1]
    rfl

theorem entriesAt_drawn (place : Place) :
    entriesAt place (drawn included root source consumed children) =
      (if Place.root = place then [root] else []) ++ ((if Place.error = place then source.toList else []) ++
        if included.spans = true ∧ place = .spans then children.filter (isChildSpan consumed) else []) := by
  have spans : entriesAt place (spanContributions included consumed children) =
      if included.spans = true ∧ place = .spans then children.filter (isChildSpan consumed) else [] := by
    rw [spanContributions]
    by_cases on : included.spans = true
    · rw [if_pos on, entriesAt_map]
      by_cases same : Place.spans = place
      · rw [if_pos same, if_pos ⟨on, same.symm⟩]
      · rw [if_neg same, if_neg fun both => same both.2.symm]
    · rw [if_neg on, if_neg fun both => on both.1]
      rfl
  rw [drawn, ← List.singleton_append, entriesAt_append, entriesAt_append, spans, errorContributions, entriesAt_map]
  exact congrArg (· ++ _) (entriesAt_map place .root [root])

/-- Besides the lines, what a batch contributes is its record. -/
theorem entriesAt_contributions {place : Place} (elsewhere : place ≠ .pendingLogs) :
    entriesAt place (contributions toLowerCase included batch) =
      entriesAt place (recordContributions included batch) := by
  rw [contributions, entriesAt_append, entriesAt_logs, if_neg fun both => elsewhere both.2, List.nil_append]

theorem entriesAt_error_drawn : entriesAt .error (drawn included root source consumed children) = source.toList := by
  rw [entriesAt_drawn, if_neg (by decide), if_pos rfl, if_neg (fun both => by cases both.2), List.append_nil]
  rfl

theorem entriesAt_spans_drawn : entriesAt .spans (drawn included root source consumed children) =
    if included.spans = true then children.filter (isChildSpan consumed) else [] := by
  rw [entriesAt_drawn, if_neg (by decide), if_neg (by decide), List.nil_append, List.nil_append]
  by_cases spans : included.spans = true
  · rw [if_pos spans, if_pos ⟨spans, rfl⟩]
  · rw [if_neg spans, if_neg fun both => spans both.1]

theorem ordered_contributions : (entriesAt .spans (contributions toLowerCase included batch)).Sublist batch.children := by
  rw [entriesAt_contributions (by decide)]
  rcases recordContributions_cases included batch with none | ⟨root, source, consumed, _isRoot, _lifts, isDrawn, _⟩
  · rw [none]
    exact List.nil_sublist _
  · rw [isDrawn, entriesAt_spans_drawn]
    split
    · exact List.filter_sublist
    · exact List.nil_sublist _

theorem isChildSpan_of (consumed : Option CapturedEntry) (notLog : child.type ≠ EntryType.log)
    (notRequest : child.type ≠ EntryType.request) (notJob : child.type ≠ EntryType.job)
    (notConsumed : consumed.any (fun consumed => decide (consumed.id = child.id)) ≠ true) :
    isChildSpan consumed child = true := by
  have other : child.type ∉ RECORD_TYPES := by
    intro member
    rcases List.mem_cons.mp member with isRequest | isJob
    · exact notRequest isRequest
    · exact notJob (List.mem_singleton.mp isJob)
  rw [isChildSpan, decide_eq_true notLog, decide_eq_true other, Bool.and_self, Bool.true_and, Bool.not_eq_true']
  rw [← Bool.eq_false_iff.mpr notConsumed]
  congr 1
  funext consumed
  exact decide_eq_decide.mpr eq_comm

/-- The children of a record that are held back nowhere are its spans. -/
theorem covers (distinct : (batch.entries.map CapturedEntry.id).Nodup) :
    Covers included batch (contributions toLowerCase included batch) where
  ordered := ordered_contributions
  spanned := by
    intro spans rooted child member notLog notRequest notJob notError
    rw [entriesAt_contributions (by decide)] at rooted notError
    rw [contributions]
    rcases recordContributions_cases included batch with none | ⟨root, source, consumed, isRoot, lifts, isDrawn, _⟩
    · rw [none] at rooted
      exact (rooted rfl).elim
    · rw [isDrawn, entriesAt_error_drawn] at notError
      have notConsumed : consumed.any (fun consumed => decide (consumed.id = child.id)) ≠ true := by
        intro lifted
        rcases (Option.any_eq_true _ _).mp lifted with ⟨entry, isConsumed, same⟩
        have isEntry := eq_of_id (distinct_children distinct) (lifts.isChild entry isConsumed) member
          (of_decide_eq_true same)
        rw [isEntry] at isConsumed
        rcases lifts.isSource with isSource | own
        · rw [isSource, isConsumed] at notError
          exact notError (List.mem_singleton_self child)
        · rw [own.1] at isConsumed
          cases isConsumed
      rw [isDrawn, places_child (distinct_children distinct) lifts
        (fun other isChild => children_ne_root distinct isRoot isChild) member]
      rw [if_neg fun both => notLog (type_of_encodeLog both.2), if_neg notConsumed,
        if_pos ⟨spans, isChildSpan_of consumed notLog notRequest notJob notConsumed⟩]

/-! ## What is pushed -/

/-- The record of a batch, if there is one. -/
def recordOf (included : Include) (batch : CapturedBatch) : Option WireRecord :=
  if included.requests = true ∧ (encodeSnapshot included batch).join.isSome = true then
    (encodeSnapshot included batch).join.map .snapshot
  else if included.jobs = true ∧ (encodeJob included batch).join.isSome = true then
    (encodeJob included batch).join.map .job
  else none

theorem jobError_snd (content : Value) (children : List CapturedEntry) :
    (jobError content children).2 = jobConsumed children := by
  rw [jobError]
  cases jobConsumed children <;> rfl

theorem spec_encodeSnapshot {snapshot : WireSnapshot} (encoded : encodeSnapshot included batch = some (some snapshot)) :
    Exists fun root => batch.root = some root ∧
      snapshot.t = (if included.spans then
        toChildSpans batch.children (entryStartMs root) (snapshotConsumed batch.children) else []) ∧
      snapshot.e = (snapshotConsumed batch.children).bind toWireError := by
  rw [encodeSnapshot] at encoded
  cases isRoot : batch.root with
  | none =>
      rw [isRoot] at encoded
      cases encoded
  | some root =>
      rw [isRoot] at encoded
      dsimp only at encoded
      split at encoded
      · split at encoded
        · cases encoded
        · rcases Option.map_eq_some_iff.mp encoded with ⟨_ct, _shown, isSnapshot⟩
          cases isSnapshot
          exact ⟨root, rfl, rfl, rfl⟩
      · cases encoded

theorem spec_encodeJob {job : WireJob} (encoded : encodeJob included batch = some (some job)) :
    Exists fun root => (batch.root = some root ∧ root.type = EntryType.job) ∧
      job.t = (if included.spans then
        toChildSpans batch.children (entryStartMs root) (jobConsumed batch.children) else []) ∧
      job.e = (jobError root.content batch.children).1 := by
  rw [encodeJob] at encoded
  cases isRoot : batch.root with
  | none =>
      rw [isRoot] at encoded
      cases encoded
  | some root =>
      rw [isRoot] at encoded
      dsimp only at encoded
      split at encoded
      · rename_i isJob
        split at encoded
        · cases encoded
        · rename_i content isContent
          split at encoded
          · cases encoded
          · rcases Option.bind_eq_some_iff.mp encoded with ⟨_ea, _known, started⟩
            rcases Option.map_eq_some_iff.mp started with ⟨_c, _shown, isJobRecord⟩
            have same : root.content = content := by
              rw [asRecord, Value.record?] at isContent
              split at isContent
              · exact Option.some.inj isContent
              · cases isContent
            cases isJobRecord
            refine ⟨root, ⟨rfl, isJob⟩, ?_, ?_⟩
            · dsimp only
              rw [jobError_snd]
            · rw [same]
      · cases encoded

/-- A batch whose snapshot cannot be shown is no job. -/
theorem encodeJob_of_thrown (thrown : encodeSnapshot included batch = none) :
    encodeJob included batch = some none := by
  rw [encodeSnapshot] at thrown
  rw [encodeJob]
  cases isRoot : batch.root with
  | none => rfl
  | some root =>
      rw [isRoot] at thrown
      dsimp only at thrown ⊢
      split at thrown
      · rename_i isRequest
        rw [if_neg]
        rw [isRequest]
        decide
      · cases thrown

section Pushed

variable (toLowerCase : Units -> Units) (included : Include) (sampleRate : Number)

theorem isLog_wireEncoders (child : CapturedEntry) :
    (wireEncoders toLowerCase included sampleRate).isLog child = decide (child.type = EntryType.log) := rfl

theorem encodeLog_wireEncoders (child : CapturedEntry) :
    (wireEncoders toLowerCase included sampleRate).encodeLog child = some (encodeLog toLowerCase child) := rfl

theorem children_wireEncoders (batch : CapturedBatch) :
    (wireEncoders toLowerCase included sampleRate).children batch = batch.children := rfl

theorem encodeSnapshot_wireEncoders (batch : CapturedBatch) :
    (wireEncoders toLowerCase included sampleRate).encodeSnapshot batch = encodeSnapshot included batch := rfl

theorem encodeJob_wireEncoders (batch : CapturedBatch) :
    (wireEncoders toLowerCase included sampleRate).encodeJob batch = encodeJob included batch := rfl

theorem encodeLogs_eq (children : List CapturedEntry) :
    encodeLogs (wireEncoders toLowerCase included sampleRate) children =
      (children.filterMap (encodeLog toLowerCase), true) := by
  induction children with
  | nil => rfl
  | cons child children inductionHypothesis =>
      rw [encodeLogs, inductionHypothesis, List.filterMap_cons, isLog_wireEncoders, encodeLog_wireEncoders]
      by_cases isLog : child.type = EntryType.log
      · rw [if_pos (decide_eq_true isLog)]
        cases encodeLog toLowerCase child <;> rfl
      · rw [if_neg fun holds => isLog (of_decide_eq_true holds), encodeLog, if_neg isLog]

theorem encodeBatch_eq (batch : CapturedBatch) :
    (encodeBatch included (wireEncoders toLowerCase included sampleRate) batch).1 =
      (if included.logs then batch.children.filterMap (encodeLog toLowerCase) else []).map .log ++
        (recordOf included batch).toList := by
  have logs : (if included.logs then encodeLogs (wireEncoders toLowerCase included sampleRate) batch.children
      else ([], true)) = (if included.logs then batch.children.filterMap (encodeLog toLowerCase) else [], true) := by
    rw [encodeLogs_eq]
    split <;> rfl
  rw [encodeBatch, children_wireEncoders, encodeSnapshot_wireEncoders, encodeJob_wireEncoders, logs, recordOf]
  dsimp only
  rw [if_pos rfl]
  generalize (if included.logs then batch.children.filterMap (encodeLog toLowerCase) else []).map Record.log = lines
  have noRecord : forall jobs : Bool, ¬ (jobs = true ∧ ((some none : Option (Option WireJob)).join.isSome = true)) :=
    fun _jobs both => Bool.false_ne_true both.2
  have asJob : (match if included.jobs then encodeJob included batch else some none with
      | none => (lines, false)
      | some (some job) => (lines ++ [Record.job job], true)
      | some none => (lines, true)).1 =
        lines ++ (if included.jobs = true ∧ (encodeJob included batch).join.isSome = true then
          (encodeJob included batch).join.map (Record.job : WireJob -> WireRecord) else none).toList := by
    cases jobs : included.jobs with
    | false => exact (List.append_nil lines).symm
    | true =>
        rw [if_pos rfl]
        rcases encodeJob included batch with _ | _ | job
        · exact (List.append_nil lines).symm
        · exact (List.append_nil lines).symm
        · rfl
  cases requests : included.requests with
  | false =>
      have notSnapshot : ¬ (false = true ∧ (encodeSnapshot included batch).join.isSome = true) :=
        fun both => Bool.false_ne_true both.1
      rw [if_neg Bool.false_ne_true, if_neg notSnapshot, ← asJob]
      cases included.jobs with
      | false => rfl
      | true => rcases encodeJob included batch with _ | _ | job <;> rfl
  | true =>
      rw [if_pos rfl]
      rcases encoded : encodeSnapshot included batch with _ | _ | snapshot
      · rw [encodeJob_of_thrown encoded, if_neg (noRecord _)]
        exact (List.append_nil lines).symm
      · have notSnapshot : ¬ (true = true ∧ (some none : Option (Option WireSnapshot)).join.isSome = true) :=
          fun both => Bool.false_ne_true both.2
        rw [if_neg notSnapshot, ← asJob]
        cases included.jobs with
        | false => rfl
        | true => rcases encodeJob included batch with _ | _ | job <;> rfl
      · rfl

end Pushed

/-- Filtering for the entries that encode, and encoding them. -/
theorem map_some_filterMap {α β : Type*} (change : α -> Option β) (items : List α) :
    (items.filterMap change).map some = (items.filter fun item => (change item).isSome).map change := by
  induction items with
  | nil => rfl
  | cons item items inductionHypothesis =>
      rw [List.filterMap_cons, List.filter_cons]
      cases changed : change item with
      | none => exact inductionHypothesis
      | some result =>
          change some result :: (items.filterMap change).map some =
            change item :: (items.filter fun item => (change item).isSome).map change
          rw [inductionHypothesis, changed]

/-- The record of a batch shows what is contributed to it. -/
structure Shows (batch : CapturedBatch) (record : Option WireRecord) (contributed : List Contribution) : Prop where
  isRooted : forall shown, record = some shown -> lineOf shown = none ∧ isRooted shown = true
  root : entriesAt .root contributed = if record.isSome = true then batch.root.toList else []
  rooted : record.isSome = true -> batch.root.isSome = true
  errors : ((record.bind errorOf).toList).map some = (entriesAt .error contributed).map contributedError
  spans : (record.elim [] spansOf) =
    (entriesAt .spans contributed).map (entryToSpan (batch.root.elim .nan entryStartMs))

theorem entriesAt_root_drawn : entriesAt .root (drawn included root source consumed children) = [root] := by
  rw [entriesAt_drawn, if_pos rfl, if_neg (by decide), if_neg (fun both => by cases both.2)]
  rfl

theorem toChildSpans_drawn (children : List CapturedEntry) (start : Number) (consumed : Option CapturedEntry) :
    (if included.spans then toChildSpans children start consumed else []) =
      (if included.spans = true then children.filter (isChildSpan consumed) else []).map (entryToSpan start) := by
  split <;> rfl

theorem contributedError_of_usable (usable : (toWireError child).isSome = true) :
    contributedError child = toWireError child := by
  rw [contributedError]
  cases error : toWireError child with
  | none =>
      rw [error] at usable
      cases usable
  | some error => rfl

/-- The error of a child that has one. -/
theorem errors_of_usable (usable : (toWireError child).isSome = true) :
    (toWireError child).toList.map some = [contributedError child] := by
  rw [contributedError_of_usable usable]
  rcases Option.isSome_iff_exists.mp usable with ⟨wireError, isError⟩
  rw [isError]
  rfl

theorem toWireError_of_job (isJob : root.type = EntryType.job) : toWireError root = none := by
  rw [toWireError]
  cases asRecord root.content with
  | none => rfl
  | some content =>
      dsimp only
      rw [isJob, if_neg (by decide), if_neg (by decide)]

theorem errors_job (isJob : root.type = EntryType.job) (children : List CapturedEntry) :
    ((jobError root.content children).1.toList).map some =
      (jobErrorSource root children).toList.map contributedError := by
  rw [jobError, jobErrorSource]
  cases consumes : jobConsumed children with
  | some child => exact errors_of_usable (jobConsumed_spec consumes).2
  | none =>
      cases reason : reasonError root.content with
      | none => rfl
      | some wireError =>
          change [some wireError] = [contributedError root]
          rw [contributedError, toWireError_of_job isJob, reason]
          rfl

theorem shows_record (included : Include) (batch : CapturedBatch) :
    Shows batch (recordOf included batch) (recordContributions included batch) := by
  have nothing : Shows batch none [] :=
    ⟨fun _shown isNone => (by cases isNone), rfl, fun isNone => (Bool.false_ne_true isNone).elim, rfl, rfl⟩
  rw [recordOf, recordContributions]
  by_cases snapshots : included.requests = true ∧ (encodeSnapshot included batch).join.isSome = true
  · rcases Option.isSome_iff_exists.mp snapshots.2 with ⟨snapshot, isSnapshot⟩
    rcases spec_encodeSnapshot (Option.join_eq_some_iff.mp isSnapshot) with ⟨root, isRoot, spans, error⟩
    rw [isRoot]
    dsimp only
    rw [if_pos snapshots, if_pos snapshots, isSnapshot]
    refine ⟨?_, ?_, fun _isSome => ?_, ?_, ?_⟩
    · intro shown isShown
      cases isShown
      exact ⟨rfl, rfl⟩
    · rw [entriesAt_root_drawn, isRoot]
      rfl
    · rw [isRoot]
      rfl
    · rw [entriesAt_error_drawn]
      change (snapshot.e.toList).map some = _
      rw [error]
      cases consumes : snapshotConsumed batch.children with
      | none => rfl
      | some child => exact errors_of_usable (snapshotConsumed_spec consumes).2
    · rw [entriesAt_spans_drawn, isRoot]
      exact spans.trans (toChildSpans_drawn _ _ _)
  · cases isRoot : batch.root with
    | none =>
        dsimp only
        rw [if_neg snapshots, if_neg]
        · exact nothing
        · rintro ⟨_jobs, encoded⟩
          rw [encodeJob, isRoot] at encoded
          cases encoded
    | some root =>
        dsimp only
        rw [if_neg snapshots, if_neg snapshots]
        by_cases jobs : included.jobs = true ∧ (encodeJob included batch).join.isSome = true
        · rcases Option.isSome_iff_exists.mp jobs.2 with ⟨job, isJob⟩
          rcases spec_encodeJob (Option.join_eq_some_iff.mp isJob) with ⟨other, ⟨isOther, jobType⟩, spans, error⟩
          rw [isRoot] at isOther
          cases isOther
          rw [if_pos jobs, if_pos jobs, isJob]
          refine ⟨?_, ?_, fun _isSome => ?_, ?_, ?_⟩
          · intro shown isShown
            cases isShown
            exact ⟨rfl, rfl⟩
          · rw [entriesAt_root_drawn, isRoot]
            rfl
          · rw [isRoot]
            rfl
          · rw [entriesAt_error_drawn]
            change (job.e.toList).map some = _
            rw [error]
            exact errors_job jobType batch.children
          · rw [entriesAt_spans_drawn, isRoot]
            exact spans.trans (toChildSpans_drawn _ _ _)
        · rw [if_neg jobs, if_neg jobs]
          exact nothing

theorem filterMap_lines {α : Type*} (part : WireRecord -> Option α) (lines : List WireLog)
    (none : forall line, part (.log line) = none) : (lines.map (Record.log : WireLog -> WireRecord)).filterMap part = [] := by
  refine List.filterMap_eq_nil_iff.mpr fun record member => ?_
  rcases List.mem_map.mp member with ⟨line, _isLine, isRecord⟩
  rw [← isRecord]
  exact none line

theorem filterMap_lineOf (lines : List WireLog) :
    (lines.map (Record.log : WireLog -> WireRecord)).filterMap lineOf = lines := by
  rw [List.filterMap_map]
  exact List.filterMap_some

theorem filter_isRooted_lines (lines : List WireLog) :
    (lines.map (Record.log : WireLog -> WireRecord)).filter isRooted = [] := by
  refine List.filter_eq_nil_iff.mpr fun record member => ?_
  rcases List.mem_map.mp member with ⟨line, _isLine, isRecord⟩
  rw [← isRecord]
  exact Bool.false_ne_true

theorem flatMap_spansOf_lines (lines : List WireLog) :
    (lines.map (Record.log : WireLog -> WireRecord)).flatMap spansOf = [] := by
  refine List.flatMap_eq_nil_iff.mpr fun record member => ?_
  rcases List.mem_map.mp member with ⟨line, _isLine, isRecord⟩
  rw [← isRecord]
  rfl

theorem filterMap_toList {α β : Type*} (part : α -> Option β) (item : Option α) :
    item.toList.filterMap part = (item.bind part).toList := by
  cases item with
  | none => rfl
  | some item =>
      rw [Option.toList_some, List.filterMap_cons, Option.bind_some]
      cases part item <;> rfl

/-- What a batch pushes is what its entries contribute. -/
theorem accounts (toLowerCase : Units -> Units) (included : Include) (sampleRate : Number) (batch : CapturedBatch) :
    Accounts toLowerCase batch (encodeBatch included (wireEncoders toLowerCase included sampleRate) batch).1
      (contributions toLowerCase included batch) := by
  have shows := shows_record included batch
  rw [encodeBatch_eq]
  constructor
  · have noLine : (recordOf included batch).toList.filterMap lineOf = [] := by
      rw [filterMap_toList]
      cases isRecord : recordOf included batch with
      | none => rfl
      | some record =>
          rw [Option.bind_some, (shows.isRooted record isRecord).1]
          rfl
    have noneInRecord : entriesAt .pendingLogs (recordContributions included batch) = [] := by
      rcases recordContributions_cases included batch with none | ⟨root, source, consumed, _, _, isDrawn, _⟩
      · rw [none]
        rfl
      · rw [isDrawn, entriesAt_drawn, if_neg (by decide), if_neg (by decide), if_neg (fun both => by cases both.2)]
        rfl
    rw [List.filterMap_append, noLine, List.append_nil, contributions, entriesAt_append, noneInRecord,
      List.append_nil, entriesAt_logs, filterMap_lineOf]
    by_cases logs : included.logs = true
    · rw [if_pos logs, if_pos ⟨logs, rfl⟩]
      exact map_some_filterMap _ _
    · rw [if_neg logs, if_neg fun both => logs both.1]
      rfl
  · rw [entriesAt_contributions (by decide), shows.root, List.filter_append, filter_isRooted_lines, List.nil_append]
    cases isRecord : recordOf included batch with
    | none => rfl
    | some record =>
        have rooted := shows.rooted (by rw [isRecord]; rfl)
        rcases Option.isSome_iff_exists.mp rooted with ⟨root, isRoot⟩
        rw [Option.toList_some, List.filter_cons, if_pos (shows.isRooted record isRecord).2, isRoot]
        rfl
  · intro entry member
    rw [entriesAt_contributions (by decide), shows.root] at member
    split at member
    · exact Option.mem_toList.mp member
    · exact (List.not_mem_nil member).elim
  · rw [entriesAt_contributions (by decide), ← shows.errors, List.filterMap_append,
      filterMap_lines errorOf _ fun _line => rfl, List.nil_append, filterMap_toList]
  · rw [entriesAt_contributions (by decide), ← shows.spans, List.flatMap_append, flatMap_spansOf_lines,
      List.nil_append]
    cases recordOf included batch with
    | none => rfl
    | some record => exact List.append_nil _

/-! ## Drains -/

/-- The ripe batches of a drain, and the buffers that it finds. -/
structure Drain where
  buffers : Sections WireLog WireSnapshot WireJob
  batches : List CapturedBatch

section Drains

variable (toLowerCase : Units -> Units) (included : Include) (sampleRate : Number) (caps : Caps)

def Drain.collection (drain : Drain) : Collection CapturedBatch WireLog WireSnapshot WireJob :=
  collect included caps (wireEncoders toLowerCase included sampleRate) drain.buffers drain.batches

/-- The batches that a sequence of drains exports. -/
def exported (drains : List Drain) : List CapturedBatch :=
  drains.flatMap fun drain => (drain.collection toLowerCase included sampleRate caps).encoded

def entryIds (batches : List CapturedBatch) : List Units :=
  (batches.flatMap CapturedBatch.entries).map CapturedEntry.id

/-- Every entry contributes at one place at most. -/
def BilledOnce (drains : List Drain) : Prop :=
  (entryIds (drains.flatMap Drain.batches)).Nodup -> forall id,
    (placesOf id ((exported toLowerCase included sampleRate caps drains).flatMap
      (contributions toLowerCase included))).length ≤ 1

/-- Every entry contributes at one place at most, but for a root that gives the reason of
its run; and what is pushed is what the entries contribute. -/
structure Billed (batches : List CapturedBatch) : Prop where
  once : forall id, (placesOf id (batches.flatMap (contributions toLowerCase included))).length ≤ 1 ∨
    placesOf id (batches.flatMap (contributions toLowerCase included)) = [.root, .error] ∧
      Exists fun batch => batch ∈ batches ∧ Exists fun root => root.id = id ∧ GivesReason batch root
  accounts : forall batch, batch ∈ batches -> Accounts toLowerCase batch
    (encodeBatch included (wireEncoders toLowerCase included sampleRate) batch).1
    (contributions toLowerCase included batch)
  covers : forall batch, batch ∈ batches -> Covers included batch (contributions toLowerCase included batch)

end Drains

theorem entryIds_cons (batch : CapturedBatch) (batches : List CapturedBatch) :
    entryIds (batch :: batches) = batch.entries.map CapturedEntry.id ++ entryIds batches := by
  rw [entryIds, List.flatMap_cons, List.map_append, entryIds]

variable {batches : List CapturedBatch}

theorem mem_entryIds {entry : CapturedEntry} (isBatch : batch ∈ batches) (member : entry ∈ batch.entries) :
    entry.id ∈ entryIds batches :=
  List.mem_map_of_mem (List.mem_flatMap.mpr ⟨batch, isBatch, member⟩)

theorem placesOf_other {id : Units} (isNew : id ∉ entryIds batches) :
    placesOf id (batches.flatMap (contributions toLowerCase included)) = [] := by
  refine placesOf_eq_nil fun contribution member same => ?_
  rcases List.mem_flatMap.mp member with ⟨batch, isBatch, inBatch⟩
  rw [← same] at isNew
  exact isNew (mem_entryIds isBatch (entry_mem_of_contributes inBatch))

/-- In batches with distinct entries each entry contributes in its own batch only. -/
theorem contribute_once (distinct : (entryIds batches).Nodup) (id : Units) :
    (placesOf id (batches.flatMap (contributions toLowerCase included))).length ≤ 1 ∨
      placesOf id (batches.flatMap (contributions toLowerCase included)) = [.root, .error] ∧
        Exists fun batch => batch ∈ batches ∧ Exists fun root => root.id = id ∧ GivesReason batch root := by
  induction batches with
  | nil => exact .inl (Nat.zero_le 1)
  | cons batch batches inductionHypothesis =>
      rw [entryIds_cons, List.nodup_append] at distinct
      rw [List.flatMap_cons, placesOf_append]
      by_cases known : id ∈ batch.entries.map CapturedEntry.id
      · have isNew : id ∉ entryIds batches := fun later => distinct.2.2 id known id later rfl
        rw [placesOf_other isNew, List.append_nil]
        rcases @contributes_once toLowerCase included batch distinct.1 id with once | ⟨both, reason⟩
        · exact .inl once
        · exact .inr ⟨both, batch, List.mem_cons_self .., reason⟩
      · have isNew : id ∉ entryIds [batch] := by
          rw [entryIds_cons]
          exact fun member => known ((List.mem_append.mp member).resolve_right List.not_mem_nil)
        have nothing := @placesOf_other toLowerCase included [batch] id isNew
        rw [List.flatMap_singleton] at nothing
        rw [nothing, List.nil_append]
        rcases inductionHypothesis distinct.2.1 with once | ⟨both, later, isLater, reason⟩
        · exact .inl once
        · exact .inr ⟨both, later, List.mem_cons_of_mem _ isLater, reason⟩

theorem nodup_entries (distinct : (entryIds batches).Nodup) (member : batch ∈ batches) :
    (batch.entries.map CapturedEntry.id).Nodup := by
  rw [entryIds, List.map_flatMap, List.nodup_flatMap] at distinct
  exact distinct.1 batch member

theorem sublist_encoded {buffers : Sections WireLog WireSnapshot WireJob} {caps : Caps}
    {encoders : Encoders CapturedBatch CapturedEntry WireLog WireSnapshot WireJob} :
    (collect included caps encoders buffers batches).encoded.Sublist batches := by
  induction batches generalizing buffers with
  | nil => exact List.Sublist.refl []
  | cons batch batches inductionHypothesis =>
      rw [collect]
      split
      · split
        · exact inductionHypothesis.cons_cons batch
        · exact (List.nil_sublist batches).cons_cons batch
      · exact inductionHypothesis.cons batch

theorem entryIds_sublist {some : List CapturedBatch} (kept : some.Sublist batches) :
    (entryIds some).Sublist (entryIds batches) :=
  (kept.flatMap _).map _

/-- Every record that drains push or drop is of a batch that they export, and it is
billed as its entries contribute to it. -/
theorem drains_billed (toLowerCase : Units -> Units) (included : Include) (sampleRate : Number) (caps : Caps)
    (drains : List Drain) (distinct : (entryIds (drains.flatMap Drain.batches)).Nodup) :
    (forall drain, drain ∈ drains ->
      ((drain.collection toLowerCase included sampleRate caps).buffers.records ++
          (drain.collection toLowerCase included sampleRate caps).dropped).Perm
        (drain.buffers.records ++ (drain.collection toLowerCase included sampleRate caps).encoded.flatMap
          fun batch => (encodeBatch included (wireEncoders toLowerCase included sampleRate) batch).1)) ∧
      Billed toLowerCase included sampleRate (exported toLowerCase included sampleRate caps drains) := by
  have kept : (exported toLowerCase included sampleRate caps drains).Sublist (drains.flatMap Drain.batches) := by
    clear distinct
    induction drains with
    | nil => exact List.Sublist.refl []
    | cons drain drains inductionHypothesis => exact sublist_encoded.append inductionHypothesis
  have distinctExported := distinct.sublist (entryIds_sublist kept)
  refine ⟨fun drain _member => collect_records drain.buffers drain.batches, ?_, ?_, ?_⟩
  · exact contribute_once distinctExported
  · exact fun batch _member => accounts toLowerCase included sampleRate batch
  · exact fun batch member => covers (nodup_entries distinctExported member)

def emittedEntry (id type : Units) (content : Value) : CapturedEntry where
  id := id
  batchId := [98]
  type := type
  familyHash := none
  content := content
  tags := []
  sequence := 0
  durationMs := none
  origin := .queue
  instanceId := []
  traceId := none
  spanId := none
  createdAt := some ⟨0, inRange_zero⟩

/-- A run that failed with a reason and without an exception. -/
def failedRun : CapturedEntry :=
  emittedEntry [49] EntryType.job (.object [(units "status", .string (units "failed")),
    (units "failureReason", .string (units "timeout"))])

/-- A request that threw, with a query and a line in the log. -/
def failedRequest : CapturedBatch where
  batchId := [98]
  origin := .http
  root := some (emittedEntry [50] EntryType.request (.object []))
  children := [emittedEntry [51] EntryType.query (.object []),
    emittedEntry [52] EntryType.exception (.object [(units "message", .string (units "refused"))]),
    emittedEntry [53] EntryType.log (.object [(units "message", .string (units "retry"))])]

def everySection : Include := ⟨true, true, true, true, false, false⟩

def oneRecord : Caps := ⟨1, 1, by decide, by decide⟩

theorem drains_billed_failures :
    Billed id everySection (.finite 1) (exported id everySection (.finite 1) oneRecord
      [⟨.empty, [⟨[98], .queue, some failedRun, []⟩]⟩, ⟨.empty, [failedRequest]⟩]) :=
  (drains_billed id everySection (.finite 1) oneRecord
    [⟨.empty, [⟨[98], .queue, some failedRun, []⟩]⟩, ⟨.empty, [failedRequest]⟩] (by decide +kernel)).2

/-- The reason of a failed run makes its root the error as well. -/
theorem not_billedOnce : ¬ BilledOnce id everySection (.finite 1) oneRecord
    [⟨.empty, [⟨[98], .queue, some failedRun, []⟩]⟩] := by
  intro once
  exact absurd (once (by decide +kernel) [49]) (by decide +kernel)

end Observe
end Telescope
