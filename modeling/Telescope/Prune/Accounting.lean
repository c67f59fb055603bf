import Mathlib.Algebra.GroupWithZero.Nat
import Mathlib.Algebra.Order.BigOperators.Group.List
import Mathlib.Algebra.Order.Group.Nat
import Telescope.Prune.ArchiveSafety

namespace Telescope
namespace Prune

/-!
# What a cycle records

A cycle adds up what its steps report.  A step whose delete is rejected reports nothing,
neither what its earlier batches had removed nor what its export had handed over.
-/

variable {C : Type}

/-- A request of the pruner with its reply. -/
abbrev Answered (C : Type) := Protocol.Exchange (World C) (Request C) Reply

namespace Answered

/-- The entries it has removed from the store. -/
def removedEntries (exchange : Answered C) : List (Entry C) :=
  exchange.after.deleted.drop exchange.before.deleted.length

/-- The entries the sink has accepted. -/
def acceptedEntries (exchange : Answered C) : List (Entry C) :=
  exchange.after.exported.drop exchange.before.exported.length

def removed (exchange : Answered C) : Nat := exchange.removedEntries.length

def accepted (exchange : Answered C) : Nat := exchange.acceptedEntries.length

/-- The type whose scope it deletes, none for the bulk. -/
def deletes? (exchange : Answered C) : Option (Option Text) :=
  match exchange.request with
  | .pruneScopedBatch input => some input.type
  | .pruneScoped input => some input.type
  | .prune _ _ => some none
  | .get _ => none
  | .sink _ => none

/-- What it has removed from the scope of a type. -/
def removedFrom (scope : Option Text) (exchange : Answered C) : Nat :=
  if exchange.deletes? = some scope then exchange.removed else 0

/-- What the sink has accepted of the type of a scope. -/
def archivedFrom (scope : Option Text) (exchange : Answered C) : Nat :=
  exchange.acceptedEntries.countP fun entry => decide (scope = some entry.type)

/-- A delete that was rejected. -/
def rejected (exchange : Answered C) : Bool :=
  match exchange.request, exchange.reply with
  | .pruneScopedBatch _, .error _ => true
  | .pruneScoped _, .error _ => true
  | .prune _ _, .error _ => true
  | _, _ => false

end Answered

/-- A number summed over a trace. -/
def total (weight : Answered C -> Nat) (trace : List (Answered C)) : Nat := (trace.map weight).sum

@[simp] theorem total_cons (weight : Answered C -> Nat) (exchange : Answered C) (trace : List (Answered C)) :
    total weight (exchange :: trace) = weight exchange + total weight trace := List.sum_cons

@[simp] theorem total_append (weight : Answered C -> Nat) (first second : List (Answered C)) :
    total weight (first ++ second) = total weight first + total weight second := by
  rw [total, List.map_append, List.sum_append]
  rfl

theorem total_eq_zero {weight : Answered C -> Nat} {trace : List (Answered C)}
    (zero : forall exchange, exchange ∈ trace -> weight exchange = 0) : total weight trace = 0 := by
  induction trace with
  | nil => rfl
  | cons exchange trace inductionHypothesis =>
      rw [List.forall_mem_cons] at zero
      rw [total_cons, zero.1, inductionHypothesis zero.2]

theorem total_congr {first second : Answered C -> Nat} {trace : List (Answered C)}
    (same : forall exchange, exchange ∈ trace -> first exchange = second exchange) :
    total first trace = total second trace :=
  congrArg List.sum (List.map_congr_left same)

/-! ## Exchanges of one scope -/

/-- An exchange in the step of a scope: it deletes nothing outside, and what it archives
is of the type. -/
structure Of (scope : Option Text) (exchange : Answered C) : Prop where
  ownScope : forall other, exchange.deletes? = some other -> other = scope
  removes : exchange.deletes? = none -> exchange.removed = 0
  archives : forall entry, entry ∈ exchange.acceptedEntries -> scope = some entry.type

namespace Of

variable {scope other : Option Text} {exchange : Answered C}

theorem removedFrom_eq (own : Of scope exchange) : exchange.removedFrom scope = exchange.removed := by
  rw [Answered.removedFrom]
  split
  · rfl
  · rename_i elsewhere
    refine (own.removes ?_).symm
    cases deletes : exchange.deletes? with
    | none => rfl
    | some other => exact (elsewhere (own.ownScope other deletes ▸ deletes)).elim

theorem removedFrom_other (own : Of scope exchange) (different : other ≠ scope) :
    exchange.removedFrom other = 0 :=
  if_neg fun deletes => different (own.ownScope other deletes)

theorem archivedFrom_eq (own : Of scope exchange) : exchange.archivedFrom scope = exchange.accepted :=
  List.countP_eq_length.mpr fun entry member => decide_eq_true (own.archives entry member)

theorem archivedFrom_other (own : Of scope exchange) (different : other ≠ scope) :
    exchange.archivedFrom other = 0 :=
  List.countP_eq_zero.mpr fun entry member same =>
    different ((of_decide_eq_true same).trans (own.archives entry member).symm)

end Of

/-! ## Replies -/

section Replies

variable [JsonContent C] {reads : Text -> Option Position} {before after : World C} {scope : Option Text}

omit [JsonContent C] in
theorem removedEntries_delete (world : World C) (gone : List (Entry C)) (request : Request C)
    (reply : Reply request) :
    Answered.removedEntries ⟨world, request, reply, world.delete gone⟩ = gone := List.drop_left

omit [JsonContent C] in
theorem acceptedEntries_delete (world : World C) (gone : List (Entry C)) (request : Request C)
    (reply : Reply request) :
    Answered.acceptedEntries ⟨world, request, reply, world.delete gone⟩ = [] := List.drop_length

/-- A get neither removes nor archives. -/
theorem of_get {query : EntryQuery} {reply : Except Text (Page C)}
    (replied : replies reads before (.get query) reply after) :
    Of scope (⟨before, .get query, reply, after⟩ : Answered C) ∧
      Answered.accepted ⟨before, .get query, reply, after⟩ = 0 := by
  cases replied.1
  have none : Answered.acceptedEntries ⟨before, .get query, reply, before.use query⟩ = [] := List.drop_length
  refine ⟨⟨nofun, fun _ => ?_, fun entry member => ?_⟩, ?_⟩
  · exact congrArg List.length (List.drop_length : before.deleted.drop before.deleted.length = [])
  · rw [none] at member
    exact (List.not_mem_nil member).elim
  · exact congrArg List.length none

theorem of_sink {entries : List (Entry C)} {reply : Except Text Unit}
    (replied : replies reads before (.sink entries) reply after)
    (typed : forall entry, entry ∈ entries -> scope = some entry.type) :
    Of scope (⟨before, .sink entries, reply, after⟩ : Answered C) ∧
      Answered.accepted ⟨before, .sink entries, reply, after⟩ = if reply.isOk then entries.length else 0 := by
  cases reply with
  | error message =>
      cases replied
      have none : Answered.acceptedEntries ⟨before, .sink entries, .error message, before⟩ = [] := List.drop_length
      refine ⟨⟨nofun, fun _ => ?_, fun entry member => ?_⟩, congrArg List.length none⟩
      · exact congrArg List.length (List.drop_length : before.deleted.drop before.deleted.length = [])
      · rw [none] at member
        exact (List.not_mem_nil member).elim
  | ok resolved =>
      cases replied
      have all : Answered.acceptedEntries ⟨before, .sink entries, .ok resolved, before.accept entries⟩ = entries :=
        List.drop_left
      refine ⟨⟨nofun, fun _ => ?_, fun entry member => ?_⟩, congrArg List.length all⟩
      · exact congrArg List.length (List.drop_length : before.deleted.drop before.deleted.length = [])
      · rw [all] at member
        exact typed entry member

omit [JsonContent C] in
/-- A delete archives nothing, and reports what it has removed unless it is rejected. -/
theorem of_delete {exchange : Answered C} (deletes : exchange.deletes? = some scope)
    (removes : Exists fun gone => exchange.after = exchange.before.delete gone) :
    Of scope exchange ∧ exchange.accepted = 0 := by
  rcases exchange with ⟨before, request, reply, after⟩
  rcases removes with ⟨gone, isAfter⟩
  change after = before.delete gone at isAfter
  subst isAfter
  refine ⟨⟨fun other isOther => Option.some.inj (isOther.symm.trans deletes), fun none => ?_, fun entry member => ?_⟩, ?_⟩
  · cases none.symm.trans deletes
  · rw [acceptedEntries_delete] at member
    exact (List.not_mem_nil member).elim
  · rw [Answered.accepted, acceptedEntries_delete]
    rfl

theorem batch_replied {input : BoundedPruneScope} {reply : Except Text BoundedPruneResult}
    (replied : replies reads before (.pruneScopedBatch input) reply after) :
    (Exists fun gone => after = before.delete gone) ∧
      forall result, reply = .ok result ->
        Answered.removed ⟨before, .pruneScopedBatch input, reply, after⟩ = result.deleted := by
  cases reply with
  | ok result =>
      rcases replied with ⟨gone, answers, rfl⟩
      refine ⟨⟨gone, rfl⟩, ?_⟩
      rintro _ ⟨⟩
      rw [Answered.removed, removedEntries_delete, answers.deleted]
  | error message =>
      rcases replied with ⟨gone, _, _, rfl⟩
      exact ⟨⟨gone, rfl⟩, nofun⟩

theorem scoped_replied {input : PruneScope} {reply : Except Text Nat}
    (replied : replies reads before (.pruneScoped input) reply after) :
    (Exists fun gone => after = before.delete gone) ∧
      forall deleted, reply = .ok deleted ->
        Answered.removed ⟨before, .pruneScoped input, reply, after⟩ = deleted := by
  cases reply with
  | ok deleted =>
      rcases replied with ⟨rfl, rfl⟩
      refine ⟨⟨_, rfl⟩, ?_⟩
      rintro _ ⟨⟩
      rw [Answered.removed, removedEntries_delete]
  | error message =>
      rcases replied with ⟨gone, _, rfl⟩
      exact ⟨⟨gone, rfl⟩, nofun⟩

theorem prune_replied {olderThan : Int} {keepLast : Option Int} {reply : Except Text Nat}
    (replied : replies reads before (.prune olderThan keepLast) reply after) :
    (Exists fun gone => after = before.delete gone) ∧
      forall deleted, reply = .ok deleted ->
        Answered.removed ⟨before, .prune olderThan keepLast, reply, after⟩ = deleted := by
  cases reply with
  | ok deleted =>
      rcases replied with ⟨rfl, rfl⟩
      refine ⟨⟨_, rfl⟩, ?_⟩
      rintro _ ⟨⟩
      rw [Answered.removed, removedEntries_delete]
  | error message =>
      rcases replied with ⟨gone, _, rfl⟩
      exact ⟨⟨gone, rfl⟩, nofun⟩

end Replies

/-! ## Programs -/

section Programs

variable [JsonContent C] {reads : Text -> Option Position} {scope : Option Text} {world last : World C}
  {trace : List (Answered C)}

/-- The exchanges of a step are those of its scope. -/
def AllOf (scope : Option Text) (trace : List (Answered C)) : Prop :=
  forall exchange, exchange ∈ trace -> Of scope exchange

/-- No delete is rejected. -/
def Accepts (trace : List (Answered C)) : Prop :=
  forall exchange, exchange ∈ trace -> exchange.rejected = false

/-- A page of an export holds entries of its type. -/
theorem type_of_page {archive : ArchiveOptions} {type : Text} {before : Int} {cursor : Option Text}
    {contents : List (Entry C)} {page : Page C}
    (answers : AnswersGet reads contents (archiveQuery archive type before cursor) page) :
    forall entry, entry ∈ page.data -> some type = some entry.type := by
  intro entry member
  rcases answers archive.batchSize rfl archive.batchSize_pos with ⟨listed, _, _, opens⟩
  rw [opens.data] at member
  have listedEntry := List.mem_of_mem_filter (List.mem_of_mem_take member)
  rw [results_listed listed rfl] at listedEntry
  have asks := of_decide_eq_true (List.mem_filter.mp (mem_sortNewestFirst.mp listedEntry)).2
  exact congrArg some (asks.1 type rfl).symm

/-- Exchanges of an export, between two counts of what was archived. -/
structure Counts (scope : Option Text) (trace : List (Answered C)) (count reached : Nat) : Prop where
  own : AllOf scope trace
  accepts : Accepts trace
  keeps : total Answered.removed trace = 0
  reached : reached = count + total Answered.accepted trace

omit [JsonContent C] in
theorem Counts.nil (scope : Option Text) (count : Nat) : Counts (C := C) scope [] count count :=
  ⟨List.forall_mem_nil _, List.forall_mem_nil _, rfl, rfl⟩

omit [JsonContent C] in
theorem Counts.cons {exchange : Answered C} {count reached : Nat} (own : Of scope exchange)
    (keeps : exchange.deletes? = none) (accepts : exchange.rejected = false)
    (rest : Counts scope trace (count + exchange.accepted) reached) :
    Counts scope (exchange :: trace) count reached := by
  refine ⟨List.forall_mem_cons.mpr ⟨own, rest.own⟩, List.forall_mem_cons.mpr ⟨accepts, rest.accepts⟩, ?_, ?_⟩
  · rw [total_cons, own.removes keeps, rest.keeps]
  · rw [rest.reached, total_cons, Nat.add_assoc]

/-- An export counts what the sink accepts. -/
theorem archiveLoop_traced {archive : ArchiveOptions} {type : Text} {before : Int} {batches : Nat}
    {cursor : Option Text} {archived : Nat} {ending : ArchiveEnd × Nat}
    (traced : (storageProtocol reads).Traced (archiveLoop archive type before batches cursor archived) world
      trace ending last) :
    Counts (some type) trace archived ending.2 := by
  induction batches generalizing cursor archived world trace with
  | zero =>
      rcases traced.of_done with ⟨rfl, rfl⟩
      exact Counts.nil _ _
  | succ batches inductionHypothesis =>
      rcases traced.of_call with ⟨now, reply, after, rest, rfl, _, replied, traced⟩
      have own : Of (some type) _ ∧ _ := of_get replied
      refine Counts.cons own.1 rfl rfl ?_
      rw [own.2, Nat.add_zero]
      cases reply with
      | error message =>
          rcases traced.of_done with ⟨rfl, rfl⟩
          exact Counts.nil _ _
      | ok page =>
          change (storageProtocol reads).Traced (if page.data.isEmpty then _ else _) _ _ _ _ at traced
          by_cases nothing : page.data.isEmpty = true
          · rw [if_pos nothing] at traced
            rcases traced.of_done with ⟨rfl, rfl⟩
            exact Counts.nil _ _
          · rw [if_neg nothing] at traced
            rcases traced.of_call with ⟨_, reply, _, rest, rfl, _, sunk, traced⟩
            have handed := of_sink sunk (type_of_page (replied.2 page rfl))
            refine Counts.cons handed.1 rfl rfl ?_
            rw [handed.2]
            cases reply with
            | error message =>
                rcases traced.of_done with ⟨rfl, rfl⟩
                exact Counts.nil _ _
            | ok resolved =>
                dsimp only [archiveLoop] at traced
                cases next : page.nextCursor with
                | none =>
                    rw [next] at traced
                    rcases traced.of_done with ⟨rfl, rfl⟩
                    exact Counts.nil _ _
                | some cursor =>
                    rw [next] at traced
                    change (storageProtocol reads).Traced (if batches = 0 then _ else _) _ _ _ _ at traced
                    by_cases cap : batches = 0
                    · rw [if_pos cap] at traced
                      rcases traced.of_done with ⟨rfl, rfl⟩
                      exact Counts.nil _ _
                    · rw [if_neg cap] at traced
                      exact inductionHypothesis traced

theorem archived_settleArchive (memory : Memory) (type : Text) (before : Int) (resumed : Bool)
    (ending : ArchiveEnd × Nat) : (settleArchive memory type before resumed ending).2.archived = ending.2 := by
  rcases ending with ⟨ending, archived⟩
  cases ending with
  | drained => rfl
  | capped cursor => rfl
  | failed cursor => cases cursor <;> rfl

theorem archiveScope_traced {config : Config} {memory : Memory} {scope : PruneScope}
    {outcome : Memory × ArchiveResult}
    (traced : (storageProtocol reads).Traced (archiveScope config memory scope scope.type) world trace outcome
      last) : Counts scope.type trace 0 outcome.2.archived := by
  unfold archiveScope at traced
  split at traced
  · rename_i archive type _ isType
    split at traced
    · rcases traced.of_bind with ⟨first, ending, now, second, rfl, exported, settled⟩
      rcases settled.of_done with ⟨rfl, rfl⟩
      rw [List.append_nil, archived_settleArchive, isType]
      exact archiveLoop_traced exported
    · rcases traced.of_done with ⟨rfl, rfl⟩
      exact Counts.nil _ _
  · rcases traced.of_done with ⟨rfl, rfl⟩
    exact Counts.nil _ _

/-- What a delete reports of its exchanges. -/
def Reports (trace : List (Answered C)) (count : Nat) : Except Text DeleteResult -> Prop
  | .ok result => Accepts trace ∧ result.deleted = count + total Answered.removed trace
  | .error _ => ¬ Accepts trace

/-- Exchanges of a delete that goes on from a count. -/
structure Deletes (scope : Option Text) (trace : List (Answered C)) (count : Nat)
    (result : Except Text DeleteResult) : Prop where
  own : AllOf scope trace
  archives : total Answered.accepted trace = 0
  reports : Reports trace count result

omit [JsonContent C] in
theorem Deletes.nil (scope : Option Text) {count : Nat} {result : DeleteResult} (same : result.deleted = count) :
    Deletes (C := C) scope [] count (.ok result) :=
  ⟨List.forall_mem_nil _, rfl, List.forall_mem_nil _, same⟩

omit [JsonContent C] in
theorem Deletes.cons {exchange : Answered C} {count : Nat} {result : Except Text DeleteResult}
    (own : Of scope exchange ∧ exchange.accepted = 0) (accepts : exchange.rejected = false)
    (rest : Deletes scope trace (count + exchange.removed) result) :
    Deletes scope (exchange :: trace) count result := by
  refine ⟨List.forall_mem_cons.mpr ⟨own.1, rest.own⟩, ?_, ?_⟩
  · rw [total_cons, own.2, rest.archives]
  · have reports := rest.reports
    cases result with
    | ok result =>
        refine ⟨List.forall_mem_cons.mpr ⟨accepts, reports.1⟩, ?_⟩
        rw [reports.2, total_cons, Nat.add_assoc]
    | error message => exact fun all => reports (List.forall_mem_cons.mp all).2

omit [JsonContent C] in
theorem Deletes.of_rejected {exchange : Answered C} {count : Nat} {message : Text}
    (own : Of scope exchange ∧ exchange.accepted = 0) (rejected : exchange.rejected = true) :
    Deletes scope [exchange] count (.error message) := by
  refine ⟨List.forall_mem_singleton.mpr own.1, ?_, fun all => ?_⟩
  · rw [total_cons, own.2]
    rfl
  · rw [List.forall_mem_singleton.mp all] at rejected
    cases rejected

theorem deleteBatches_traced {bounded : BoundedPruneScope} {batches count : Nat}
    {result : Except Text DeleteResult}
    (traced : (storageProtocol reads).Traced (deleteBatches bounded batches count) world trace result last) :
    Deletes bounded.type trace count result := by
  induction batches generalizing count world trace with
  | zero =>
      rcases traced.of_done with ⟨rfl, rfl⟩
      exact Deletes.nil _ rfl
  | succ batches inductionHypothesis =>
      rcases traced.of_call with ⟨now, reply, after, rest, rfl, _, replied, traced⟩
      have removes := batch_replied replied
      have own : Of bounded.type ⟨now, .pruneScopedBatch bounded, reply, after⟩ ∧ _ := of_delete rfl removes.1
      cases reply with
      | error message =>
          rcases traced.of_done with ⟨rfl, rfl⟩
          exact Deletes.of_rejected own rfl
      | ok reported =>
          change (storageProtocol reads).Traced (if reported.hasMore then _ else _) _ _ _ _ at traced
          refine Deletes.cons own rfl ?_
          rw [removes.2 reported rfl]
          split at traced
          · exact inductionHypothesis traced
          · rcases traced.of_done with ⟨rfl, rfl⟩
            exact Deletes.nil _ rfl

theorem deleteScope_traced {prune : PruneOptions} {capabilities : Capabilities} {scope : PruneScope}
    {fallbackOlderThan : Int} {fallbackKeepLast : Option Int} {result : Except Text DeleteResult}
    (traced : (storageProtocol reads).Traced
      (deleteScope prune capabilities scope fallbackOlderThan fallbackKeepLast) world trace result last) :
    Deletes scope.type trace 0 result := by
  unfold deleteScope at traced
  split at traced
  · exact deleteBatches_traced traced
  · split at traced
    · rcases traced.of_call with ⟨now, reply, after, rest, rfl, _, replied, traced⟩
      have removes := scoped_replied replied
      have own : Of scope.type ⟨now, .pruneScoped scope, reply, after⟩ ∧ _ := of_delete rfl removes.1
      rcases traced.of_done with ⟨rfl, rfl⟩
      cases reply with
      | error message => exact Deletes.of_rejected own rfl
      | ok deleted =>
          refine Deletes.cons own rfl (Deletes.nil _ ?_)
          rw [removes.2 deleted rfl, Nat.zero_add]
    · split at traced
      · rename_i global
        rcases traced.of_call with ⟨now, reply, after, rest, rfl, _, replied, traced⟩
        have removes := prune_replied replied
        have own : Of scope.type ⟨now, .prune fallbackOlderThan fallbackKeepLast, reply, after⟩ ∧ _ :=
          of_delete (congrArg some (Option.isNone_iff_eq_none.mp global).symm) removes.1
        rcases traced.of_done with ⟨rfl, rfl⟩
        cases reply with
        | error message => exact Deletes.of_rejected own rfl
        | ok deleted =>
            refine Deletes.cons own rfl (Deletes.nil _ ?_)
            rw [removes.2 deleted rfl, Nat.zero_add]
      · rcases traced.of_done with ⟨rfl, rfl⟩
        exact Deletes.nil _ rfl

/-! ## Steps -/

/-- What a step reports of its exchanges: everything, or nothing if a delete was
rejected. -/
structure StepCounts (scope : Option Text) (trace : List (Answered C)) (step : PruneStepResult) : Prop where
  own : AllOf scope trace
  whole : Accepts trace -> step.deleted = total Answered.removed trace ∧
    step.archived = total Answered.accepted trace
  lost : ¬ Accepts trace -> step.deleted = 0 ∧ step.archived = 0

theorem pruneArchivedThenDelete_traced {config : Config} {capabilities : Capabilities} {memory : Memory}
    {fallbackOlderThan : Int} {fallbackKeepLast : Option Int} {scope : PruneScope}
    {outcome : Memory × PruneStepResult}
    (traced : (storageProtocol reads).Traced (pruneArchivedThenDelete config capabilities memory
      fallbackOlderThan fallbackKeepLast scope scope.type) world trace outcome last) :
    StepCounts scope.type trace outcome.2 := by
  rcases traced.of_bind with ⟨first, archiving, now, second, rfl, exported, traced⟩
  have counts := archiveScope_traced exported
  have reached := counts.reached
  rw [Nat.zero_add] at reached
  change (storageProtocol reads).Traced (if !archiving.2.proceed then _ else _) _ _ _ _ at traced
  split at traced
  · rcases traced.of_done with ⟨rfl, rfl⟩
    rw [List.append_nil]
    exact ⟨counts.own, fun _ => ⟨counts.keeps.symm, reached⟩, fun rejected => (rejected counts.accepts).elim⟩
  · rcases traced.of_bind with ⟨third, result, later, fourth, rfl, deleted, traced⟩
    have deletes := deleteScope_traced deleted
    rw [effectiveScope_type] at deletes
    have own : AllOf scope.type (first ++ third) := List.forall_mem_append.mpr ⟨counts.own, deletes.own⟩
    have accepts : Accepts (first ++ third) <-> Accepts third :=
      List.forall_mem_append.trans (and_iff_right counts.accepts)
    have reports := deletes.reports
    cases result with
    | ok result =>
        rcases traced.of_done with ⟨rfl, rfl⟩
        rw [List.append_nil]
        refine ⟨own, fun _ => ⟨?_, ?_⟩, fun rejected => (rejected (accepts.mpr reports.1)).elim⟩
        · rw [total_append, counts.keeps]
          exact reports.2
        · rw [total_append, deletes.archives]
          exact reached
    | error message =>
        rcases traced.of_done with ⟨rfl, rfl⟩
        rw [List.append_nil]
        exact ⟨own, fun all => (reports (accepts.mp all)).elim, fun _ => ⟨rfl, rfl⟩⟩

end Programs

/-! ## A cycle -/

/-- One step of a cycle: its scope, what it asked, and what it reported. -/
structure Part (C : Type) where
  scope : Option Text
  trace : List (Answered C)
  step : PruneStepResult
  counts : StepCounts scope trace step

/-- The totals after some steps. -/
def addAll (totals : Totals) (parts : List (Part C)) : Totals :=
  parts.foldl (fun totals part => totals.add part.step part.scope) totals

section Cycle

variable [JsonContent C] {reads : Text -> Option Position} {config : Config} {capabilities : Capabilities}
  {startedAtMs : Int} {memory : Memory} {world last : World C} {trace : List (Answered C)}

theorem pruneTypes_traced {types : List Text} {totals : Totals} {outcome : Memory × Totals}
    (traced : (storageProtocol reads).Traced
      (pruneTypes config capabilities startedAtMs types memory totals) world trace outcome last) :
    Exists fun parts : List (Part C) => trace = parts.flatMap Part.trace ∧
      parts.map Part.scope = types.map some ∧ outcome.2 = addAll totals parts := by
  induction types generalizing memory totals world trace with
  | nil =>
      rcases traced.of_done with ⟨rfl, rfl⟩
      exact ⟨[], rfl, rfl, rfl⟩
  | cons type types inductionHypothesis =>
      rcases traced.of_bind with ⟨first, stepped, now, second, rfl, ofStep, rest⟩
      rcases inductionHypothesis rest with ⟨parts, rfl, scopes, totalled⟩
      have counts := pruneArchivedThenDelete_traced ofStep
      exact ⟨⟨some type, first, stepped.2, counts⟩ :: parts, rfl, congrArg (some type :: ·) scopes, totalled⟩

/-- A cycle records the totals of its steps: the bulk delete, and one for each type with
a scope of its own. -/
theorem runGuardedCycle_traced {trigger : PruneTrigger} {outcome : Memory × Nat}
    (traced : (storageProtocol reads).Traced
      (runGuardedCycle config capabilities startedAtMs trigger memory) world trace outcome last) :
    Exists fun parts : List (Part C) => trace = parts.flatMap Part.trace ∧
      parts.map Part.scope = none :: (individualTypes config).map some ∧
      outcome.1.runs.head? = some (runOf startedAtMs trigger (addAll {} parts)) ∧
      outcome.2 = (addAll {} parts).deletedTotal := by
  rcases traced.of_bind with ⟨cycle, ended, now, nothing, rfl, ran, rest⟩
  rcases rest.of_done with ⟨rfl, rfl⟩
  rw [List.append_nil]
  rcases ran.of_bind with ⟨first, bulk, now, second, rfl, ofBulk, rest⟩
  rcases rest.of_bind with ⟨third, types, now, fourth, rfl, ofTypes, rest⟩
  rcases rest.of_done with ⟨rfl, rfl⟩
  rw [List.append_nil]
  rcases pruneTypes_traced ofTypes with ⟨parts, rfl, scopes, totalled⟩
  have counts := pruneArchivedThenDelete_traced ofBulk
  refine ⟨⟨none, first, bulk.2, counts⟩ :: parts, rfl, congrArg (none :: ·) scopes, ?_, ?_⟩
  · exact congrArg (fun totals => some (runOf startedAtMs trigger totals)) totalled
  · exact congrArg Totals.deletedTotal totalled

omit [JsonContent C] in
theorem lookup_addDeleted (type other : Text) (deleted : Nat) (counts : List (Text × Nat)) :
    ((addDeleted type deleted counts).lookup other).getD 0 =
      (counts.lookup other).getD 0 + if other = type then deleted else 0 := by
  induction counts with
  | nil =>
      rw [addDeleted, List.lookup_cons, List.lookup_nil, Option.getD_none, Nat.zero_add]
      by_cases same : other = type
      · rw [if_pos same, same, beq_self_eq_true]
        rfl
      · rw [if_neg same, beq_eq_false_iff_ne.mpr same]
        rfl
  | cons first counts inductionHypothesis =>
      rcases first with ⟨own, count⟩
      rw [addDeleted]
      split
      · rename_i isOwn
        subst isOwn
        rw [List.lookup_cons, List.lookup_cons]
        by_cases same : other = own
        · rw [if_pos same, same, beq_self_eq_true]
          rfl
        · rw [if_neg same, beq_eq_false_iff_ne.mpr same]
          rfl
      · rename_i different
        rw [List.lookup_cons, List.lookup_cons]
        by_cases same : other = own
        · rw [if_neg fun isType => different (same ▸ isType), same, beq_self_eq_true]
          rfl
        · rw [beq_eq_false_iff_ne.mpr same]
          exact inductionHypothesis

omit [JsonContent C] in
/-- A step adds to the count of its own type alone. -/
theorem lookup_add (totals : Totals) (step : PruneStepResult) (scope : Option Text) (type : Text) :
    ((totals.add step scope).deletedByType.lookup type).getD 0 =
      (totals.deletedByType.lookup type).getD 0 + if scope = some type then step.deleted else 0 := by
  cases scope with
  | none => exact (Nat.add_zero _).symm
  | some own =>
      change ((if step.deleted > 0 then addDeleted own step.deleted totals.deletedByType
        else totals.deletedByType).lookup type).getD 0 = _
      by_cases some : step.deleted > 0
      · rw [if_pos some, lookup_addDeleted]
        refine congrArg (_ + ·) (if_congr ?_ rfl rfl)
        exact ⟨fun same => congrArg _ same.symm, fun same => (Option.some.inj same).symm⟩
      · rw [if_neg some, Nat.eq_zero_of_not_pos some, ite_self, Nat.add_zero]

/-- A number summed over the steps of a cycle. -/
def sumOf (number : Part C -> Nat) (parts : List (Part C)) : Nat := (parts.map number).sum

omit [JsonContent C] in
theorem addAll_totals (totals : Totals) (parts : List (Part C)) :
    (addAll totals parts).deletedTotal = totals.deletedTotal + sumOf (fun part => part.step.deleted) parts ∧
      (addAll totals parts).archivedTotal = totals.archivedTotal + sumOf (fun part => part.step.archived) parts ∧
      forall type, ((addAll totals parts).deletedByType.lookup type).getD 0 =
        (totals.deletedByType.lookup type).getD 0 +
          sumOf (fun part => if part.scope = some type then part.step.deleted else 0) parts := by
  induction parts generalizing totals with
  | nil => exact ⟨rfl, rfl, fun _ => rfl⟩
  | cons part parts inductionHypothesis =>
      rcases inductionHypothesis (totals.add part.step part.scope) with ⟨deleted, archived, byType⟩
      have step : forall number : Part C -> Nat, sumOf number (part :: parts) = number part + sumOf number parts :=
        fun _ => List.sum_cons
      have whole : addAll totals (part :: parts) = addAll (totals.add part.step part.scope) parts := rfl
      rw [whole]
      refine ⟨?_, ?_, fun type => ?_⟩
      · rw [deleted, step]
        exact Nat.add_assoc ..
      · rw [archived, step]
        exact Nat.add_assoc ..
      · rw [byType, step, ← Nat.add_assoc]
        exact congrArg (· + _) (lookup_add totals part.step part.scope type)

omit [JsonContent C] in
/-- Numbers that are nowhere exceeded have the same sum only if they are the same. -/
theorem eq_of_sumOf_eq {parts : List (Part C)} {first second : Part C -> Nat}
    (within : forall part, part ∈ parts -> first part ≤ second part)
    (same : sumOf first parts = sumOf second parts) {part : Part C} (member : part ∈ parts) :
    first part = second part := by
  by_contra different
  exact absurd same (List.sum_lt_sum first second within
    ⟨part, member, Nat.lt_of_le_of_ne (within part member) different⟩).ne

omit [JsonContent C] in
theorem total_flatMap (weight : Answered C -> Nat) (parts : List (Part C)) :
    total weight (parts.flatMap Part.trace) = sumOf (fun part => total weight part.trace) parts := by
  induction parts with
  | nil => rfl
  | cons part parts inductionHypothesis =>
      rw [List.flatMap_cons, total_append, inductionHypothesis]
      exact List.sum_cons.symm

/-- The record of a cycle tells what was removed and archived in it, in all and by scope. -/
structure Accounts (trace : List (Answered C)) (run : PruneRun) : Prop where
  deletedTotal : run.deletedTotal = total Answered.removed trace
  deletedByType : forall type, (run.deletedByType.lookup type).getD 0 =
    total (Answered.removedFrom (some type)) trace
  archivedTotal : run.archivedTotal.getD 0 = total Answered.accepted trace

/-- A delete of a scope is rejected only where nothing of the scope has been removed, not
by the delete itself either, nor archived. -/
def RejectsEmptyHanded (trace : List (Answered C)) : Prop :=
  forall exchange, exchange ∈ trace -> exchange.rejected = true ->
    forall scope, exchange.deletes? = some scope ->
      total (Answered.removedFrom scope) trace = 0 ∧ total (Answered.archivedFrom scope) trace = 0

omit [JsonContent C] in
theorem exists_deletes_of_rejected {exchange : Answered C} (rejected : exchange.rejected = true) :
    Exists fun scope => exchange.deletes? = some scope := by
  rcases exchange with ⟨before, request, reply, after⟩
  cases request with
  | get query => cases rejected
  | sink entries => cases rejected
  | pruneScopedBatch input => exact ⟨_, rfl⟩
  | pruneScoped input => exact ⟨_, rfl⟩
  | prune olderThan keepLast => exact ⟨_, rfl⟩

namespace Part

variable {part : Part C}

/-- The step reports what happened in it. -/
def Reported (part : Part C) : Prop :=
  part.step.deleted = total Answered.removed part.trace ∧ part.step.archived = total Answered.accepted part.trace

omit [JsonContent C] in
theorem reported_le (part : Part C) :
    part.step.deleted ≤ total Answered.removed part.trace ∧
      part.step.archived ≤ total Answered.accepted part.trace := by
  by_cases accepts : Accepts part.trace
  · have whole := part.counts.whole accepts
    exact ⟨whole.1.le, whole.2.le⟩
  · have lost := part.counts.lost accepts
    rw [lost.1, lost.2]
    exact ⟨Nat.zero_le _, Nat.zero_le _⟩

omit [JsonContent C] in
theorem reported_iff (part : Part C) :
    part.Reported <-> (¬ Accepts part.trace -> total Answered.removed part.trace = 0 ∧
      total Answered.accepted part.trace = 0) := by
  by_cases accepts : Accepts part.trace
  · exact ⟨fun _ rejected => (rejected accepts).elim, fun _ => part.counts.whole accepts⟩
  · have lost := part.counts.lost accepts
    rw [Reported, lost.1, lost.2]
    exact ⟨fun same _ => ⟨same.1.symm, same.2.symm⟩, fun nothing => ⟨(nothing accepts).1.symm, (nothing accepts).2.symm⟩⟩

end Part

omit [JsonContent C] in
theorem sumOf_eq_zero {parts : List (Part C)} {number : Part C -> Nat}
    (zero : forall part, part ∈ parts -> number part = 0) : sumOf number parts = 0 := by
  refine List.sum_eq_zero fun value member => ?_
  rcases List.mem_map.mp member with ⟨part, isPart, rfl⟩
  exact zero part isPart

omit [JsonContent C] in
/-- A number that only the step of one scope has. -/
theorem sumOf_eq_single {parts : List (Part C)} (distinct : (parts.map Part.scope).Nodup) {part : Part C}
    (member : part ∈ parts) {number : Part C -> Nat}
    (others : forall other, other ∈ parts -> part.scope ≠ other.scope -> number other = 0) :
    sumOf number parts = number part := by
  induction parts with
  | nil => exact (List.not_mem_nil member).elim
  | cons first parts inductionHypothesis =>
      rcases List.nodup_cons.mp distinct with ⟨fresh, rest⟩
      rw [List.forall_mem_cons] at others
      have step : sumOf number (first :: parts) = number first + sumOf number parts := List.sum_cons
      rw [step]
      rcases List.mem_cons.mp member with rfl | later
      · rw [sumOf_eq_zero fun other isOther => others.2 other isOther fun same => ?_, Nat.add_zero]
        exact fresh (same ▸ List.mem_map_of_mem isOther)
      · rw [others.1 fun same => fresh (same ▸ List.mem_map_of_mem later), Nat.zero_add]
        exact inductionHypothesis rest later others.2

omit [JsonContent C] in
/-- Of all the steps only that of a scope deletes from it and archives its type. -/
theorem total_scope {parts : List (Part C)} (distinct : (parts.map Part.scope).Nodup) {part : Part C}
    (member : part ∈ parts) :
    total (Answered.removedFrom part.scope) (parts.flatMap Part.trace) = total Answered.removed part.trace ∧
      total (Answered.archivedFrom part.scope) (parts.flatMap Part.trace) = total Answered.accepted part.trace := by
  rw [total_flatMap, total_flatMap]
  constructor
  · rw [sumOf_eq_single distinct member fun other _ different => total_eq_zero fun exchange asked =>
      (other.counts.own exchange asked).removedFrom_other different]
    exact total_congr fun exchange asked => (part.counts.own exchange asked).removedFrom_eq
  · rw [sumOf_eq_single distinct member fun other _ different => total_eq_zero fun exchange asked =>
      (other.counts.own exchange asked).archivedFrom_other different]
    exact total_congr fun exchange asked => (part.counts.own exchange asked).archivedFrom_eq

omit [JsonContent C] in
theorem reported_all_iff {parts : List (Part C)} (distinct : (parts.map Part.scope).Nodup) :
    (forall part, part ∈ parts -> part.Reported) <-> RejectsEmptyHanded (parts.flatMap Part.trace) := by
  constructor
  · intro reported exchange asked rejected scope deletes
    rcases List.mem_flatMap.mp asked with ⟨part, member, inPart⟩
    cases (part.counts.own exchange inPart).ownScope scope deletes
    rw [(total_scope distinct member).1, (total_scope distinct member).2]
    refine part.reported_iff.mp (reported part member) fun accepts => ?_
    rw [accepts exchange inPart] at rejected
    cases rejected
  · intro emptyHanded part member
    refine part.reported_iff.mpr fun rejects => ?_
    rw [Accepts, not_forall] at rejects
    rcases rejects with ⟨exchange, rejects⟩
    rw [Classical.not_imp, Bool.not_eq_false] at rejects
    rcases exists_deletes_of_rejected rejects.2 with ⟨scope, deletes⟩
    have lost := emptyHanded exchange (List.mem_flatMap.mpr ⟨part, member, rejects.1⟩) rejects.2 scope deletes
    cases (part.counts.own exchange rejects.1).ownScope scope deletes
    rwa [(total_scope distinct member).1, (total_scope distinct member).2] at lost

omit [JsonContent C] in
theorem accounts_iff {parts : List (Part C)} {trigger : PruneTrigger} :
    Accounts (parts.flatMap Part.trace) (runOf startedAtMs trigger (addAll {} parts)) <->
      forall part, part ∈ parts -> part.Reported := by
  rcases addAll_totals ({} : Totals) parts with ⟨deleted, archived, byType⟩
  rw [Nat.zero_add] at deleted archived
  have isArchived : (runOf startedAtMs trigger (addAll {} parts)).archivedTotal.getD 0 =
      (addAll {} parts).archivedTotal := by
    change (if (addAll {} parts).archivedTotal > 0 then some (addAll {} parts).archivedTotal else none).getD 0 = _
    split
    · rfl
    · rename_i none
      exact (Nat.eq_zero_of_not_pos none).symm
  constructor
  · intro accounts part member
    have deletedTotal := accounts.deletedTotal
    have archivedTotal := accounts.archivedTotal
    rw [isArchived, archived, total_flatMap] at archivedTotal
    change (addAll {} parts).deletedTotal = _ at deletedTotal
    rw [deleted, total_flatMap] at deletedTotal
    exact ⟨eq_of_sumOf_eq (fun part _ => part.reported_le.1) deletedTotal member,
      eq_of_sumOf_eq (fun part _ => part.reported_le.2) archivedTotal member⟩
  · intro reported
    refine ⟨?_, fun type => ?_, ?_⟩
    · change (addAll {} parts).deletedTotal = _
      rw [deleted, total_flatMap]
      exact congrArg List.sum (List.map_congr_left fun part member => (reported part member).1)
    · change ((addAll {} parts).deletedByType.lookup type).getD 0 = _
      rw [byType, total_flatMap]
      refine (Nat.zero_add _).trans (congrArg List.sum (List.map_congr_left fun part member => ?_))
      split
      · rename_i own
        rw [(reported part member).1, ← own]
        exact (total_congr fun exchange asked => (part.counts.own exchange asked).removedFrom_eq).symm
      · rename_i other
        exact (total_eq_zero fun exchange asked =>
          (part.counts.own exchange asked).removedFrom_other fun same => other same.symm).symm
    · rw [isArchived, archived, total_flatMap]
      exact congrArg List.sum (List.map_congr_left fun part member => (reported part member).2)

end Cycle

/-! ## A delete that fails in its second batch -/

/-- Batches of one entry, two a cycle. -/
def singleBatches : Config where
  prune :=
    { afterMs := 0
      perTypeMs := []
      keepLast := none
      batchSize := 1
      maxBatchesPerCycle := 2
      batchSize_pos := Nat.one_pos
      maxBatchesPerCycle_pos := Nat.two_pos }
  archive := none

def byBatch : Capabilities := ⟨true, true⟩

def olderJob : Entry Text := plainEntry ['1'] ['j', 'o', 'b'] 1

def newerJob : Entry Text := plainEntry ['2'] ['j', 'o', 'b'] 2

/-- The bounded scope of the bulk delete at 10. -/
def bulkBatch : BoundedPruneScope := { before := 10, limit := 1 }

theorem oldest_answered (hasMore : Bool) (contents : List (Entry Text)) (drained : hasMore = false -> contents = [olderJob])
    (both : contents = [olderJob] ∨ contents = [olderJob, newerJob]) :
    AnswersBatch contents bulkBatch ⟨1, hasMore⟩ [olderJob] := by
  refine ⟨⟨fun entry member => ?_, by decide⟩, fun entry member => ?_, rfl, le_rfl, ?_, fun ended entry member _ => ?_⟩
  · cases List.mem_singleton.mp member
    rcases both with rfl | rfl <;> exact List.mem_cons_self ..
  · cases List.mem_singleton.mp member
    decide
  · intro entry member other isOther _ _
    cases List.mem_singleton.mp member
    rcases both with rfl | rfl
    · cases List.mem_singleton.mp isOther
      decide
    · rcases List.mem_cons.mp isOther with rfl | isNewer
      · decide
      · cases List.mem_singleton.mp isNewer
        decide
  · exact drained ended ▸ member

/-- The store with its two entries, or with the older one alone. -/
def jobs (entries : List (Entry Text)) : World Text := { contents := entries }

end Prune
end Telescope
