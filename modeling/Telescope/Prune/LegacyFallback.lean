import Telescope.Prune.ArchiveSafety

namespace Telescope
namespace Prune

/-!
# The legacy fallback

A provider without `pruneScoped` gets a global prune where the bulk scope cannot
be batched: always when it implements neither scoped method, and with `keepLast`
set also when it implements `pruneScopedBatch`.  The global prune ignores the
carve-out of the archived types and comes before their export.  Runs in which it
happens to doom nothing unexported are safe; the first cycle over an old entry of
an archived type is not.
-/

variable {C : Type} [JsonContent C]

/-! ## Providers that delete by type -/

/-- The condition for a provider that deletes by type: partial pages leave out
nothing it could delete, and the global fallback is not reached or spares what
is not exported. -/
def ScopedCondition (config : Config) (capabilities : Capabilities)
    (reads : Text -> Option Position) (world : World C) :
    (request : Request C) -> Reply request -> Prop
  | .get query, .ok page => page.partialRead = true -> ReadsAll reads world.contents query page
  | .prune olderThan keepLast, _ =>
      capabilities.pruneScoped = true ∨ config.prune.keepLast = none ∨
        SparesUnexported config.archivedTypes world olderThan keepLast
  | _, _ => True

theorem scopedCondition_permits {config : Config} {capabilities : Capabilities}
    (byType : capabilities.ByType) (reads : Text -> Option Position) :
    Permits config capabilities reads (ScopedCondition (C := C) config capabilities reads) where
  get := fun _ _ _ _ allowed => allowed
  prune := by
    intro notByScope batchKeeps world olderThan keepLast reply allowed
    rcases allowed with byScope | unset | spares
    · exact absurd byScope (Bool.eq_false_iff.mp notByScope)
    · exact absurd unset (batchKeeps (byType.resolve_left (Bool.eq_false_iff.mp notByScope)))
    · exact spares

/-- With a provider that deletes by type, whatever the contents, the cycles, the
replies and the interference: under the condition, an entry of an archived type
is deleted only after the sink has accepted it. -/
theorem archived_deleted_after_export (config : Config) (capabilities : Capabilities)
    (byType : capabilities.ByType) (reads : Text -> Option Position) (contents : List (Entry C))
    (distinct : Entry.DistinctIds contents)
    (process : Protocol.Process (World C) (Request C) Reply Memory Nat)
    (run : ((storageProtocol reads).meeting (ScopedCondition config capabilities reads)).Run
      (Starts config capabilities) ⟨{ contents := contents }, Memory.initial, none⟩ process) :
    ArchiveSafe config.archivedTypes process.world :=
  (invariant_of_run (scopedCondition_permits byType reads) distinct run).safe

/-! ## Providers that only prune -/

/-- The condition for a provider without scoped methods: each of its prunes
spares what is not exported. -/
def LegacyCondition (config : Config) (world : World C) : (request : Request C) -> Reply request -> Prop
  | .prune olderThan keepLast, _ => SparesUnexported config.archivedTypes world olderThan keepLast
  | _, _ => True

theorem legacyCondition_permits {config : Config} {capabilities : Capabilities}
    (legacy : ¬ capabilities.ByType) (reads : Text -> Option Position) :
    Permits config capabilities reads (LegacyCondition (C := C) config) where
  get := fun byType => (legacy byType).elim
  prune := fun _ _ _ _ _ _ allowed => allowed

/-- An archive of jobs, one at a time. -/
def jobArchive : ArchiveOptions where
  types := [['j', 'o', 'b']]
  batchSize := 1
  maxBatchesPerCycle := 1
  batchSize_pos := Nat.one_pos
  maxBatchesPerCycle_pos := Nat.one_pos

/-- Retention with an override for jobs. -/
def archivingJobs (afterMs : Int) (perTypeMs : List (Text × Int)) (keepLast : Option Int) : Config where
  prune :=
    { afterMs := afterMs
      perTypeMs := perTypeMs
      keepLast := keepLast
      batchSize := 1
      maxBatchesPerCycle := 1
      batchSize_pos := Nat.one_pos
      maxBatchesPerCycle_pos := Nat.one_pos }
  archive := some jobArchive

def oldJob : Entry Text := plainEntry ['e'] ['j', 'o', 'b'] 5

/-- The page that lists the old job alone. -/
def jobPage : Page Text where
  data := [oldJob]
  nextCursor := none

/-- A provider that has nothing but the old job answers the export with it. -/
theorem jobPage_answers {contents : List (Entry Text)}
    (only : forall entry, entry ∈ contents -> entry ∈ [oldJob]) {before : Int} (older : 5 < before) :
    AnswersGet decodeCursor contents (archiveQuery jobArchive ['j', 'o', 'b'] before none) jobPage := by
  intro limit asked positive
  have single : limit = 1 := by
    have same : ((1 : Nat) : Int) = limit := Option.some.inj asked
    omega
  have listed : ((archiveQuery jobArchive ['j', 'o', 'b'] before none).results [oldJob]).filter
      (behindCursor none) = [oldJob] := by
    have asked : ([oldJob].filter fun entry => decide
        ((archiveQuery jobArchive ['j', 'o', 'b'] before none).Matches entry)) = [oldJob] := by
      refine List.filter_eq_self.mpr fun entry member => ?_
      rw [List.mem_singleton.mp member]
      exact decide_eq_true (archiveQuery_matches rfl older)
    rw [results_listed _ rfl, asked]
    rfl
  rw [single]
  refine ⟨[oldJob], List.nodup_singleton _, fun _ => only, ?_, ?_, fun _ next => by cases next⟩
  · exact (congrArg (List.take 1) listed).symm
  · exact fun _ => Nat.le_of_eq (congrArg List.length listed)

/-- A process that has just started. -/
def started (contents : List (Entry Text)) :
    Protocol.Process (World Text) (Request Text) Reply Memory Nat :=
  ⟨{ contents := contents }, Memory.initial, none⟩

/-- A cycle that exports the old job, deletes it by type and ends. -/
theorem archived_deleted_after_export_oldJob :
    Exists fun process =>
      ((storageProtocol decodeCursor).meeting
          (ScopedCondition (archivingJobs 10 [] none) ⟨true, false⟩ decodeCursor)).Run
        (Starts (archivingJobs 10 [] none) ⟨true, false⟩) (started [oldJob]) process ∧
      process.running = none ∧ oldJob ∈ process.world.deleted ∧ oldJob ∈ process.world.exported := by
  let config := archivingJobs 10 [] none
  let protocol := (storageProtocol (C := Text) decodeCursor).meeting
    (ScopedCondition config ⟨true, false⟩ decodeCursor)
  let unpruned : World Text := World.delete { contents := [oldJob] }
    ((bulkScope config 100).doomed [oldJob])
  let query := archiveQuery jobArchive ['j', 'o', 'b'] (100 - 10) none
  let exported := (unpruned.use query).accept [oldJob]
  let scope := effectiveScope (typeScope config.prune 100 ['j', 'o', 'b']) none
  have start : protocol.Run (Starts config ⟨true, false⟩) (started [oldJob])
      ⟨{ contents := [oldJob] }, Memory.initial,
        some (runGuardedCycle config ⟨true, false⟩ 100 .manual Memory.initial)⟩ :=
    .single (.start ⟨100, .manual, rfl⟩)
  have bulk : protocol.replies { contents := [oldJob] } (.pruneScoped (bulkScope config 100))
      (.ok _) unpruned := ⟨trivial, rfl, rfl⟩
  have page : protocol.replies unpruned (.get query) (.ok jobPage) (unpruned.use query) := by
    have only : forall entry, entry ∈ unpruned.contents -> entry ∈ [oldJob] :=
      fun entry member => (mem_without.mp member).1
    refine ⟨(fun partly => by cases partly), rfl, ?_⟩
    rintro _ ⟨⟩
    exact jobPage_answers only (show (5 : Int) < 100 - 10 by decide)
  have accepted : protocol.replies (unpruned.use query) (.sink [oldJob]) (.ok ()) exported :=
    ⟨trivial, rfl⟩
  have deleted : protocol.replies exported (.pruneScoped scope) (.ok _)
      (exported.delete (scope.doomed exported.contents)) := ⟨trivial, rfl, rfl⟩
  have run := ((((start.tail (.reply bulk)).tail (.reply page)).tail (.reply accepted)).tail
    (.reply deleted)).tail .finish
  have distinct : Entry.DistinctIds [oldJob] := List.nodup_singleton _
  have gone : oldJob ∈ (exported.delete (scope.doomed exported.contents)).deleted := by decide
  exact ⟨_, run, rfl, gone, archived_deleted_after_export config ⟨true, false⟩ (.inl rfl) decodeCursor
    [oldJob] distinct _ run oldJob gone (List.mem_singleton_self _)⟩

/-- A provider that batches but has no `pruneScoped` deletes an unexported job as
soon as `keepLast` is set. -/
theorem keepLast_deletes_unexported :
    ¬ forall (config : Config) (capabilities : Capabilities), capabilities.ByType ->
      forall (reads : Text -> Option Position) (contents : List (Entry Text)),
        Entry.DistinctIds contents ->
        forall process, (storageProtocol reads).Run (Starts config capabilities)
          (started contents) process -> ArchiveSafe config.archivedTypes process.world := by
  intro always
  have start : (storageProtocol decodeCursor).Run
      (Starts (archivingJobs 10 [] (some 0)) ⟨false, true⟩) (started [oldJob])
      ⟨{ contents := [oldJob] }, Memory.initial,
        some (runGuardedCycle (archivingJobs 10 [] (some 0)) ⟨false, true⟩ 100 .manual Memory.initial)⟩ :=
    .single (.start ⟨100, .manual, rfl⟩)
  have replied : (storageProtocol decodeCursor).replies { contents := [oldJob] }
      (.prune (100 - 10) (some 0)) (.ok 1) (World.delete { contents := [oldJob] } [oldJob]) :=
    ⟨rfl, rfl⟩
  have distinct : Entry.DistinctIds [oldJob] := List.nodup_singleton _
  have safe := always _ _ (.inr rfl) _ _ distinct _ (start.tail (.reply replied))
  exact List.not_mem_nil (safe oldJob (List.mem_singleton_self _) (List.mem_singleton_self _))

end Prune
end Telescope
