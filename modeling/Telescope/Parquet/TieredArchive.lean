import Telescope.Parquet.HotDrains
import Telescope.Prune.LegacyFallback

namespace Telescope
namespace Parquet

open Prune

/-!
# The tiered archive

A cycle that begins where the last one has drained reads the cold tier from the
newest entry under the cutoff again, and hands over what it holds.  Only as long
as what it lists is still hot is an entry handed over once.
-/

/-- Whatever the contents and the cycles: while the pages of the export list no
cold entry that has left the hot store, no entry is handed over twice and none
that is not hot; and in any state, an entry of an archived type is deleted after
finitely many cycles that find it past its cutoff while nothing is stored. -/
theorem tiered_archive_once {C : Type} [JsonContent C] (options : TieredStorageOptions C)
    (config : Config) (capabilities : Capabilities) (byType : capabilities.ByType)
    (unset : config.prune.keepLast = none) (hot : List (Entry C)) (files : List (ColdFile C))
    (distinct : Entry.DistinctIds hot) :
    (forall process, (onceProtocol options).Run (Prune.Starts config capabilities)
        ⟨{ hot := hot, cold := files }, Memory.initial, none⟩ process ->
      process.world.HandedOnce) ∧
    (forall (tiers last : Tiers C) (memory ended : Memory) (entry : Entry C) (rounds : Nat),
      entry.type ∈ config.archivedTypes ->
      2 * (tiers.hot.length + (coldRows tiers.cold).length) + 2 ≤ rounds ->
      (quietProtocol options).Rounds (StartsPast config capabilities entry) rounds tiers memory
        last ended ->
      last.unfinished = none -> entry ∉ last.hot) :=
  ⟨fun _ run => (tidy_of_run byType unset distinct run).handedOnce,
    fun _ _ _ _ _ _ archived enough run completed =>
      not_mem_hot_of_rounds byType unset archived enough run completed⟩

/-! ## Runs -/

/-- An engine that reads all rows of the files. -/
def rowEngine : ColdEngine Text where
  read files filter _ :=
    ((coldRows files).filter fun row => decide (filter.Matches row)).map filter.project
  sound := by
    intro files filter limit entry found
    rcases List.mem_map.mp found with ⟨row, matching, rfl⟩
    rcases List.mem_filter.mp matching with ⟨isRow, isMatch⟩
    exact ⟨row, isRow, of_decide_eq_true isMatch, rfl⟩

/-- Contents that JSON keeps as they are. -/
def textTiers : TieredStorageOptions Text where
  hotReads := decodeCursor
  engine := rowEngine
  readBack := id

/-- The tiered read over a hot store that answers from its list. -/
def tieredPage (tiers : Tiers Text) (asked : EntryQuery) : Page Text :=
  Tiered.get (listingGet tiers.hot)
    (fun asked limit => some (query rowEngine tiers.cold (some limit) asked)) asked

theorem get_replies {tiers : Tiers Text} (completed : tiers.unfinished = none) (asked : EntryQuery) :
    (tieredProtocol textTiers).replies tiers (.get asked) (.ok (tieredPage tiers asked)) tiers :=
  ⟨(fun _ pending => by cases completed.symm.trans pending), rfl, listingGet tiers.hot,
    fun _ _ isLimit positive => opensPage_listingGet tiers.hot isLimit positive, rfl⟩

theorem sink_replies {tiers : Tiers Text} (completed : tiers.unfinished = none)
    (entries : List (Entry Text)) :
    (tieredProtocol textTiers).replies tiers (.sink entries) (.ok ()) (tiers.hand id entries) :=
  ⟨(fun _ pending => by cases completed.symm.trans pending), rfl, rfl⟩

theorem prune_replies {tiers : Tiers Text} (completed : tiers.unfinished = none) (scope : PruneScope)
    {cold : List (ColdFile Text)} (maintains : Maintains tiers.cold cold) :
    (tieredProtocol textTiers).replies tiers (.pruneScoped scope)
      (.ok (scope.doomed tiers.hot).length) (tiers.remove (scope.doomed tiers.hot) cold none) :=
  ⟨(fun _ pending => by cases completed.symm.trans pending), cold, rfl, maintains, rfl⟩

/-- One old job in the hot store. -/
def unarchived : Tiers Text := { hot := [oldJob], cold := [] }

/-- The same job once it has been handed over and deleted. -/
def archivedOnce : Tiers Text :=
  { hot := []
    cold := [⟨⟨['j', 'o', 'b'], 0⟩, [oldJob]⟩]
    handed := [oldJob] }

/-- The requests of a cycle over the old job, each with its reply. -/
theorem jobCycle_replies :
    (tieredProtocol textTiers).replies unarchived
        (.pruneScoped (bulkScope (archivingJobs 10 [] none) 100)) (.ok 0) unarchived ∧
      (tieredProtocol textTiers).replies unarchived
        (.get (archiveQuery jobArchive ['j', 'o', 'b'] (100 - 10) none)) (.ok jobPage) unarchived ∧
      (tieredProtocol textTiers).replies unarchived (.sink [oldJob]) (.ok ())
        (unarchived.hand id [oldJob]) ∧
      (tieredProtocol textTiers).replies (unarchived.hand id [oldJob])
        (.pruneScoped (effectiveScope
          (typeScope (archivingJobs 10 [] none).prune 100 ['j', 'o', 'b']) none)) (.ok 1)
        archivedOnce :=
  ⟨prune_replies rfl _ fun _ => id, get_replies rfl _, sink_replies rfl _, prune_replies rfl _ fun _ => id⟩

/-- The job handed over and deleted, and then expired from the cold tier. -/
def expired : Tiers Text := { hot := [], cold := [], handed := [oldJob] }

/-- A cycle that finds nothing ends where it began. -/
theorem idleCycle_ends (memory : Memory) (forgotten : memory.archiveResume ['j', 'o', 'b'] = none) :
    Exists fun ended : Memory => Exists fun deletedTotal =>
      (quietProtocol textTiers).Ends
        (runGuardedCycle (archivingJobs 10 [] none) ⟨true, false⟩ 100 .manual memory) expired
        (ended, deletedTotal) expired ∧ ended.archiveResume ['j', 'o', 'b'] = none := by
  rcases memory with ⟨resumes, ceilingHits, runs, lastRun⟩
  have bulk : (tieredProtocol textTiers).replies expired
      (.pruneScoped (bulkScope (archivingJobs 10 [] none) 100)) (.ok 0) expired :=
    prune_replies rfl _ fun _ => id
  have page : (tieredProtocol textTiers).replies expired
      (.get (archiveQuery jobArchive ['j', 'o', 'b']
        (((resumes ['j', 'o', 'b']).map Resume.before).getD (100 - 10))
        ((resumes ['j', 'o', 'b']).map Resume.cursor)))
      (.ok { data := [], nextCursor := none }) expired := by
    change resumes ['j', 'o', 'b'] = none at forgotten
    rw [forgotten]
    exact get_replies rfl _
  have deleted : forall cutoff, (tieredProtocol textTiers).replies expired
      (.pruneScoped (effectiveScope
        (typeScope (archivingJobs 10 [] none).prune 100 ['j', 'o', 'b']) cutoff)) (.ok 0) expired := by
    intro cutoff
    cases cutoff with
    | none => exact prune_replies rfl _ fun _ => id
    | some before => exact prune_replies rfl _ fun _ => id
  exact ⟨_, _, .ask rfl bulk (.ask rfl page (.ask rfl (deleted _) (.done rfl))), rfl⟩

/-- A cycle that hands the old job over once, and cycles after which it is gone. -/
theorem tiered_archive_once_oldJob :
    (Exists fun process =>
      (onceProtocol textTiers).Run (Prune.Starts (archivingJobs 10 [] none) ⟨true, false⟩)
        ⟨{ hot := [oldJob], cold := [] }, Memory.initial, none⟩ process ∧
      process.world.handed = [oldJob] ∧ process.world.HandedOnce) ∧
    Exists fun last => Exists fun ended =>
      (quietProtocol textTiers).Rounds (StartsPast (archivingJobs 10 [] none) ⟨true, false⟩ oldJob) 4
        { hot := [oldJob], cold := [] } Memory.initial last ended ∧
      oldJob ∉ last.hot := by
  have drains := tiered_archive_once textTiers (archivingJobs 10 [] none) ⟨true, false⟩ (.inl rfl) rfl
    [oldJob] [] (List.nodup_singleton _)
  rcases jobCycle_replies with ⟨bulk, page, handed, deleted⟩
  constructor
  · have nothing : ListsHotCopies unarchived
        (.get (archiveQuery jobArchive ['j', 'o', 'b'] (100 - 10) none)) (.ok jobPage) :=
      fun _ member => by cases member
    have start : (onceProtocol textTiers).Run (Prune.Starts (archivingJobs 10 [] none) ⟨true, false⟩)
        ⟨unarchived, Memory.initial, none⟩
        ⟨unarchived, Memory.initial,
          some (runGuardedCycle (archivingJobs 10 [] none) ⟨true, false⟩ 100 .manual Memory.initial)⟩ :=
      .single (.start ⟨100, .manual, rfl⟩)
    have run := (((start.tail (.reply ⟨trivial, bulk⟩)).tail (.reply ⟨nothing, page⟩)).tail
      (.reply ⟨trivial, handed⟩)).tail (.reply ⟨trivial, deleted⟩)
    exact ⟨_, run, rfl, drains.1 _ run⟩
  · have deletedAll : (tieredProtocol textTiers).replies (unarchived.hand id [oldJob])
        (.pruneScoped (effectiveScope
          (typeScope (archivingJobs 10 [] none).prune 100 ['j', 'o', 'b']) none)) (.ok 1) expired :=
      prune_replies rfl _ fun _ member => by cases member
    have past : oldJob.createdAt < typeCutoff (archivingJobs 10 [] none).prune 100 oldJob.type := by
      decide
    have first : Exists fun ended : Memory => Exists fun deletedTotal =>
        (quietProtocol textTiers).Ends
          (runGuardedCycle (archivingJobs 10 [] none) ⟨true, false⟩ 100 .manual Memory.initial) unarchived
          (ended, deletedTotal) expired ∧ ended.archiveResume ['j', 'o', 'b'] = none :=
      ⟨_, _, .ask rfl bulk (.ask rfl page (.ask rfl handed (.ask rfl deletedAll (.done rfl)))), rfl⟩
    rcases first with ⟨afterFirst, _, firstEnds, firstForgets⟩
    rcases idleCycle_ends afterFirst firstForgets with ⟨afterSecond, _, secondEnds, secondForgets⟩
    rcases idleCycle_ends afterSecond secondForgets with ⟨afterThird, _, thirdEnds, thirdForgets⟩
    rcases idleCycle_ends afterThird thirdForgets with ⟨afterFourth, _, fourthEnds, _⟩
    have rounds : (quietProtocol textTiers).Rounds
        (StartsPast (archivingJobs 10 [] none) ⟨true, false⟩ oldJob) 4
        { hot := [oldJob], cold := [] } Memory.initial expired afterFourth :=
      .succ (.succ (.succ (.succ .zero ⟨100, .manual, past, rfl⟩ firstEnds)
        ⟨100, .manual, past, rfl⟩ secondEnds) ⟨100, .manual, past, rfl⟩ thirdEnds)
        ⟨100, .manual, past, rfl⟩ fourthEnds
    exact ⟨expired, afterFourth, rounds, drains.2 unarchived expired Memory.initial afterFourth oldJob 4
      (List.mem_singleton_self _) (by decide) rounds rfl⟩

/-- A second cycle hands the job over again, from the cold tier. -/
theorem tiered_archive_exports_again :
    ¬ forall (options : TieredStorageOptions Text) (config : Config) (capabilities : Capabilities),
      capabilities.ByType -> config.prune.keepLast = none ->
      forall (hot : List (Entry Text)) (files : List (ColdFile Text)), Entry.DistinctIds hot ->
      forall process, (tieredProtocol options).Run (Prune.Starts config capabilities)
        ⟨{ hot := hot, cold := files }, Memory.initial, none⟩ process ->
        process.world.HandedOnce := by
  intro always
  rcases jobCycle_replies with ⟨bulk, page, handed, deleted⟩
  have start : (tieredProtocol textTiers).Run (Prune.Starts (archivingJobs 10 [] none) ⟨true, false⟩)
      ⟨unarchived, Memory.initial, none⟩
      ⟨unarchived, Memory.initial,
        some (runGuardedCycle (archivingJobs 10 [] none) ⟨true, false⟩ 100 .manual Memory.initial)⟩ :=
    .single (.start ⟨100, .manual, rfl⟩)
  have archived := ((((start.tail (.reply bulk)).tail (.reply page)).tail (.reply handed)).tail
    (.reply deleted)).tail .finish
  have bulkAgain : (tieredProtocol textTiers).replies archivedOnce
      (.pruneScoped (bulkScope (archivingJobs 10 [] none) 100)) (.ok 0) archivedOnce :=
    prune_replies rfl _ fun _ => id
  have pageAgain : (tieredProtocol textTiers).replies archivedOnce
      (.get (archiveQuery jobArchive ['j', 'o', 'b'] (100 - 10) none)) (.ok jobPage) archivedOnce :=
    get_replies rfl _
  have run := (((archived.tail (.start ⟨100, .manual, rfl⟩)).tail (.reply bulkAgain)).tail
    (.reply pageAgain)).tail (.reply (sink_replies rfl [oldJob]))
  have once := (always textTiers _ ⟨true, false⟩ (.inl rfl) rfl [oldJob] []
    (List.nodup_singleton _) _ run).once
  revert once
  decide

end Parquet
end Telescope
