import Telescope.Prune.Pruner

namespace Telescope
namespace Prune

/-!
# The rules of a cycle

What a prune cycle ensures follows from what its requests do to an assertion.
Here is one rule for each program of the pruner, over any protocol in which its
requests are answered: the export with its loop, the delete with its batches, and
the cycle with its types.
-/

variable {C World : Type} {protocol : Protocol World (Request C) Reply} {invariant : World -> Prop}

/-! ## The export -/

/-- The assertions along an export: where it may go on, with a page at hand, where
it may be resumed in a later cycle, where it has failed, and where nothing is
left. -/
structure Exporting (protocol : Protocol World (Request C) Reply) (invariant : World -> Prop)
    (query : Option Text -> EntryQuery) (going : Option Text -> World -> Prop)
    (listed : Option Text -> Page C -> World -> Prop) (resumable : Text -> World -> Prop)
    (failed : Option Text -> World -> Prop) (drained : World -> Prop) : Prop where
  goingStable : forall cursor, protocol.Stable (going cursor)
  listedStable : forall cursor page, protocol.Stable (listed cursor page)
  resumableStable : forall cursor, protocol.Stable (resumable cursor)
  failedStable : forall cursor, protocol.Stable (failed cursor)
  drainedStable : protocol.Stable drained
  resumes : forall cursor world, resumable cursor world -> going (some cursor) world
  get : forall cursor, protocol.Answers invariant (going cursor) (.get (query cursor))
    fun reply next =>
      match reply with
      | .ok page => listed cursor page next
      | .error _ => failed cursor next
  empty : forall cursor page world, listed cursor page world -> page.data = [] -> drained world
  sink : forall cursor page, page.data ≠ [] ->
    protocol.Answers invariant (listed cursor page) (.sink page.data) fun reply next =>
      match reply, page.nextCursor with
      | .ok _, some cursor => resumable cursor next
      | .ok _, none => drained next
      | .error _, _ => failed cursor next

/-- What the end of an export has reached. -/
def Reached (resumable : Text -> World -> Prop) (failed : Option Text -> World -> Prop)
    (drained : World -> Prop) : ArchiveEnd -> World -> Prop
  | .drained => drained
  | .capped cursor => resumable cursor
  | .failed cursor => failed cursor

section Export

variable {going : Option Text -> World -> Prop} {listed : Option Text -> Page C -> World -> Prop}
  {resumable : Text -> World -> Prop} {failed : Option Text -> World -> Prop}
  {drained : World -> Prop} {archive : ArchiveOptions} {type : Text} {before : Int}

/-- The rule of the export loop. -/
theorem archiveLoop_ensures
    (exporting : Exporting protocol invariant (archiveQuery archive type before) going listed
      resumable failed drained)
    {batches : Nat} (positive : 0 < batches) {cursor : Option Text} (archived : Nat) {world : World}
    (holds : going cursor world) :
    protocol.Ensures invariant
      (fun ending now => Reached resumable failed drained ending.1 now)
      (archiveLoop archive type before batches cursor archived) world := by
  induction batches generalizing cursor archived world with
  | zero => exact (lt_irrefl 0 positive).elim
  | succ batches inductionHypothesis =>
      refine Protocol.Ensures.answered (exporting.goingStable cursor) (exporting.get cursor)
        (fun reply now met => ?_) holds
      cases reply with
      | error message => exact Protocol.Ensures.done (exporting.failedStable cursor) met
      | ok page =>
          change protocol.Ensures invariant _ (if page.data.isEmpty then _ else _) now
          by_cases nothing : page.data.isEmpty = true
          · rw [if_pos nothing]
            exact Protocol.Ensures.done exporting.drainedStable
              (exporting.empty cursor page now met (List.isEmpty_iff.mp nothing))
          · rw [if_neg nothing]
            refine Protocol.Ensures.answered (exporting.listedStable cursor page)
              (exporting.sink cursor page fun empty => nothing (List.isEmpty_iff.mpr empty))
              (fun reply now met => ?_) met
            cases reply with
            | error message => exact Protocol.Ensures.done (exporting.failedStable cursor) met
            | ok accepted =>
                cases next : page.nextCursor with
                | none =>
                    simp only [next] at met
                    exact Protocol.Ensures.done exporting.drainedStable met
                | some cursor =>
                    simp only [next] at met
                    change protocol.Ensures invariant _ (if batches = 0 then _ else _) now
                    by_cases cap : batches = 0
                    · rw [if_pos cap]
                      exact Protocol.Ensures.done (exporting.resumableStable cursor) met
                    · rw [if_neg cap]
                      exact inductionHypothesis (Nat.pos_of_ne_zero cap) _
                        (exporting.resumes cursor now met)

end Export

variable {config : Config} {capabilities : Capabilities} {memory : Memory} {world : World}
  {scope : PruneScope} {archivableType : Option Text}

/-- The rule of `archiveScope`: types that are not archived proceed at once, the
others settle what their loop has reached. -/
theorem archiveScope_ensures {post : Memory × ArchiveResult -> World -> Prop}
    (stable : forall outcome, protocol.Stable (post outcome))
    (skips : (forall type, archivableType = some type -> type ∉ config.archivedTypes) ->
      post (memory, { proceed := true, archived := 0 }) world)
    (exports : forall archive type, config.archivedTypes = archive.types ->
      archivableType = some type -> type ∈ config.archivedTypes ->
      forall before, before = ((memory.archiveResume type).map Resume.before).getD scope.before ->
        protocol.Ensures invariant
          (fun ending now =>
            post (settleArchive memory type before (memory.archiveResume type).isSome ending) now)
          (archiveLoop archive type before archive.maxBatchesPerCycle
            ((memory.archiveResume type).map Resume.cursor) 0) world) :
    protocol.Ensures invariant post (archiveScope config memory scope archivableType) world := by
  cases isArchive : config.archive with
  | none =>
      simp only [archiveScope, isArchive]
      refine Protocol.Ensures.done (stable _) (skips fun type _ => ?_)
      rw [Config.archivedTypes, isArchive]
      exact List.not_mem_nil
  | some archive =>
      have types : config.archivedTypes = archive.types := by rw [Config.archivedTypes, isArchive]; rfl
      cases archivableType with
      | none =>
          simp only [archiveScope, isArchive]
          exact Protocol.Ensures.done (stable _) (skips fun type found => by cases found)
      | some type =>
          simp only [archiveScope, isArchive]
          by_cases ofArchive : type ∈ archive.types
          · rw [if_pos ofArchive]
            refine Protocol.Ensures.bind
              ((exports archive type types rfl (types ▸ ofArchive) _ rfl).weaken
                fun ending now reached => ?_)
            exact Protocol.Ensures.done (stable _) reached
          · rw [if_neg ofArchive]
            refine Protocol.Ensures.done (stable _) (skips fun other same => ?_)
            cases same
            rwa [types]

/-! ## The delete -/

/-- The rule of the batches: each of them reaches the postcondition, and may be
followed by another. -/
theorem deleteBatches_ensures {pre post : World -> Prop} (preStable : protocol.Stable pre)
    (postStable : protocol.Stable post) (again : forall world, post world -> pre world)
    (bounded : BoundedPruneScope)
    (answers : protocol.Answers invariant pre (.pruneScopedBatch bounded) fun _ => post)
    {batches : Nat} (positive : 0 < batches) (deletedTotal : Nat) (holds : pre world) :
    protocol.Ensures invariant (fun _ => post) (deleteBatches bounded batches deletedTotal) world := by
  induction batches generalizing deletedTotal world with
  | zero => exact (lt_irrefl 0 positive).elim
  | succ batches inductionHypothesis =>
      refine Protocol.Ensures.answered preStable answers (fun reply now met => ?_) holds
      cases reply with
      | error message => exact Protocol.Ensures.done postStable met
      | ok result =>
          change protocol.Ensures invariant _ (if result.hasMore then _ else _) now
          split
          · cases batches with
            | zero => exact Protocol.Ensures.done postStable met
            | succ batches => exact inductionHypothesis (Nat.succ_pos batches) _ (again now met)
          · exact Protocol.Ensures.done postStable met

/-- The rule of `deleteScope`, by the three ways to delete. -/
theorem deleteScope_ensures {pre post : World -> Prop} (preStable : protocol.Stable pre)
    (postStable : protocol.Stable post) (again : forall world, post world -> pre world)
    {fallbackOlderThan : Int} {fallbackKeepLast : Option Int}
    (batch : capabilities.pruneScopedBatch = true -> scope.keepLast = none -> forall limit,
      protocol.Answers invariant pre (.pruneScopedBatch ⟨scope.toTypeScope, limit⟩) fun _ => post)
    (single : capabilities.pruneScoped = true ->
      protocol.Answers invariant pre (.pruneScoped scope) fun _ => post)
    (whole : capabilities.pruneScoped = false ->
      (capabilities.pruneScopedBatch = true -> scope.keepLast ≠ none) -> scope.type = none ->
      protocol.Answers invariant pre (.prune fallbackOlderThan fallbackKeepLast) fun _ => post)
    (nothing : capabilities.pruneScoped = false ->
      (capabilities.pruneScopedBatch = true -> scope.keepLast ≠ none) -> scope.type ≠ none ->
      pre world -> post world)
    (holds : pre world) :
    protocol.Ensures invariant (fun _ => post)
      (deleteScope config.prune capabilities scope fallbackOlderThan fallbackKeepLast) world := by
  unfold deleteScope
  split
  · rename_i batched
    rcases Bool.and_eq_true _ _ ▸ batched with ⟨byBatch, unset⟩
    exact deleteBatches_ensures preStable postStable again _
      (batch byBatch (Option.isNone_iff_eq_none.mp unset) _) config.prune.maxBatchesPerCycle_pos 0 holds
  · rename_i notBatched
    have keeps : capabilities.pruneScopedBatch = true -> scope.keepLast ≠ none :=
      fun byBatch unset => notBatched (by rw [byBatch, unset]; rfl)
    split
    · rename_i byScope
      exact Protocol.Ensures.answered preStable (single byScope)
        (fun _ _ met => Protocol.Ensures.done postStable met) holds
    · rename_i notByScope
      have lacks := Bool.eq_false_iff.mpr notByScope
      split
      · rename_i global
        exact Protocol.Ensures.answered preStable
          (whole lacks keeps (Option.isNone_iff_eq_none.mp global))
          (fun _ _ met => Protocol.Ensures.done postStable met) holds
      · rename_i typed
        refine Protocol.Ensures.done postStable (nothing lacks keeps (fun global => ?_) holds)
        rw [global] at typed
        exact typed rfl

/-! ## The cycle -/

/-- The rule of one step: an export that says to proceed is followed by a delete. -/
theorem pruneArchivedThenDelete_ensures {fallbackOlderThan : Int} {fallbackKeepLast : Option Int}
    {archived : Memory × ArchiveResult -> World -> Prop}
    {post : (Text -> Option Resume) -> World -> Prop}
    (stable : forall resumes, protocol.Stable (post resumes))
    (exports : protocol.Ensures invariant archived
      (archiveScope config memory scope archivableType) world)
    (stops : forall outcome now, archived outcome now -> outcome.2.proceed = false ->
      post outcome.1.archiveResume now)
    (deletes : forall outcome now, archived outcome now -> outcome.2.proceed = true ->
      protocol.Ensures invariant (fun _ => post outcome.1.archiveResume)
        (deleteScope config.prune capabilities (effectiveScope scope outcome.2.before)
          fallbackOlderThan fallbackKeepLast) now) :
    protocol.Ensures invariant (fun outcome => post outcome.1.archiveResume)
      (pruneArchivedThenDelete config capabilities memory fallbackOlderThan fallbackKeepLast scope
        archivableType) world := by
  refine Protocol.Ensures.bind (exports.weaken fun outcome now met => ?_)
  rcases outcome with ⟨memory, outcome⟩
  change protocol.Ensures invariant _ (if !outcome.proceed then _ else _) now
  cases proceeds : outcome.proceed with
  | false => exact Protocol.Ensures.done (stable _) (stops _ now met proceeds)
  | true =>
      refine Protocol.Ensures.bind ((deletes _ now met proceeds).weaken fun result later done => ?_)
      cases result with
      | ok result =>
          refine Protocol.Ensures.done (stable _) ?_
          rw [Memory.archiveResume_countCeiling]
          exact done
      | error message => exact Protocol.Ensures.done (stable _) done

/-- A step of a cycle ensures an assertion about what the pruner remembers. -/
def StepEnsures (protocol : Protocol World (Request C) Reply) (invariant : World -> Prop)
    (config : Config) (capabilities : Capabilities) (scope : PruneScope)
    (archivableType : Option Text) (pre post : (Text -> Option Resume) -> World -> Prop) : Prop :=
  forall memory world, pre memory.archiveResume world ->
    protocol.Ensures invariant (fun outcome => post outcome.1.archiveResume)
      (pruneArchivedThenDelete config capabilities memory scope.before config.prune.keepLast scope
        archivableType) world

/-- The rule of the types, with an assertion for those that are still to come. -/
theorem pruneTypes_ensures {startedAtMs : Int}
    {holds : List Text -> (Text -> Option Resume) -> World -> Prop}
    (stable : forall resumes, protocol.Stable (holds [] resumes))
    (step : forall type types, StepEnsures protocol invariant config capabilities
      (typeScope config.prune startedAtMs type) (some type) (holds (type :: types)) (holds types))
    (types : List Text) (totals : Totals) (met : holds types memory.archiveResume world) :
    protocol.Ensures invariant (fun outcome => holds [] outcome.1.archiveResume)
      (pruneTypes config capabilities startedAtMs types memory totals) world := by
  induction types generalizing memory totals world with
  | nil => exact Protocol.Ensures.done (stable _) met
  | cons type types inductionHypothesis =>
      refine Protocol.Ensures.bind ((step type types memory world met).weaken
        fun outcome now met => ?_)
      exact inductionHypothesis _ met

/-- The rule of the cycle. -/
theorem runGuardedCycle_ensures {startedAtMs : Int} {trigger : PruneTrigger}
    (pre : (Text -> Option Resume) -> World -> Prop)
    (holds : List Text -> (Text -> Option Resume) -> World -> Prop)
    (stable : forall resumes, protocol.Stable (holds [] resumes))
    (bulk : StepEnsures protocol invariant config capabilities (bulkScope config startedAtMs) none
      pre (holds (individualTypes config)))
    (step : forall type types, StepEnsures protocol invariant config capabilities
      (typeScope config.prune startedAtMs type) (some type) (holds (type :: types)) (holds types))
    (met : pre memory.archiveResume world) :
    protocol.Ensures invariant (fun outcome => holds [] outcome.1.archiveResume)
      (runGuardedCycle config capabilities startedAtMs trigger memory) world := by
  refine Protocol.Ensures.bind ?_
  refine Protocol.Ensures.bind ((bulk memory world met).weaken fun outcome now met => ?_)
  refine Protocol.Ensures.bind ((pruneTypes_ensures stable step _ _ met).weaken
    fun outcome now met => ?_)
  refine Protocol.Ensures.done (fun first second changed => ?_) ?_
  · exact fun ensured later more => ensured later (protocol.interferes_trans changed more)
  · refine Protocol.Ensures.done (stable _) ?_
    cases trigger with
    | scheduled => exact met
    | manual => exact met

theorem mem_individualTypes {type : Text} :
    type ∈ individualTypes config <->
      type ∈ config.prune.perTypeMs.map Prod.fst ∨ type ∈ config.archivedTypes := by
  rw [individualTypes, List.mem_eraseDups, List.mem_append]

/-- The bulk scope selects the types without a scope of their own. -/
theorem bulkScope_selects_iff {startedAtMs : Int} {type : Text} :
    (bulkScope config startedAtMs).Selects type <-> type ∉ individualTypes config := by
  change type ∉ (if individualTypes config = [] then none else some (individualTypes config)).getD [] <-> _
  by_cases none : individualTypes config = []
  · rw [if_pos none, none]
    rfl
  · rw [if_neg none]
    rfl

/-- The bulk scope selects no archived type. -/
theorem bulkScope_selects {startedAtMs : Int} {type : Text}
    (selected : (bulkScope config startedAtMs).Selects type) : type ∉ config.archivedTypes :=
  fun ofArchive => bulkScope_selects_iff.mp selected (mem_individualTypes.mpr (.inr ofArchive))

end Prune
end Telescope
