import Telescope.Ai.DiagnosisCoordinator

namespace Telescope
namespace Ai

open Alerts (Thrown)

/-!
# Interleavings of the calls and the answers

The calls of the coordinator only look into the cache and start diagnoses; the answers end
them. The map of the running automatic diagnoses is at every time the list of those that
run, each under a family of its own, and the cache holds nothing but what a provider has
answered.
-/

namespace DiagnosisCache

variable {options : CacheOptions} {entries : DiagnosisCache} {familyHash : Text} {markdown : Units} {now : Int}

/-- What a look finds is in the cache, and is not expired. -/
theorem of_get_eq_some (found : (entries.get options familyHash now).1 = some markdown) :
    Exists fun entry => entry ∈ entries ∧ entry.familyHash = familyHash ∧ entry.markdown = markdown ∧
      now - entry.storedAt < options.ttlMs := by
  rw [get] at found
  split at found
  · cases found
  · rename_i entry isEntry
    split at found
    · cases found
    · rename_i fresh
      exact ⟨entry, Recency.mem_of_get isEntry, Recency.key_of_get isEntry, Option.some.inj found,
        not_le.mp fresh⟩

theorem get_sublist : List.Sublist (entries.get options familyHash now).2 entries := by
  rw [get]
  split
  · exact List.Sublist.refl entries
  · split
    · exact List.filter_sublist
    · exact List.Sublist.refl entries

theorem mem_set {entry : CacheEntry} (member : entry ∈ entries.set options familyHash markdown now) :
    entry ∈ entries ∨ entry = ⟨familyHash, markdown, now⟩ := by
  have whole := Recency.shed_append (options.maxEntries < ·)
    (Recency.touch CacheEntry.familyHash entries ⟨familyHash, markdown, now⟩)
  have touched : entry ∈ Recency.touch CacheEntry.familyHash entries ⟨familyHash, markdown, now⟩ := by
    rw [← whole]
    exact List.mem_append_right _ member
  exact (Recency.mem_touch touched).imp_left And.left

theorem length_set_le : (entries.set options familyHash markdown now).length ≤ options.maxEntries :=
  not_lt.mp (Recency.not_exceeds_kept (options.maxEntries < ·) (Nat.not_lt_zero _) _)

end DiagnosisCache

namespace Coordinator

variable {options : CoordinatorOptions} {state next : Coordinator}

/-! ## What the calls do -/

/-- The steps that a call is made of. -/
inductive Move (options : CoordinatorOptions) : Coordinator -> Coordinator -> Prop
  | lookup (state : Coordinator) (familyHash : Text) (now : Int) :
      Move options state (state.lookup options familyHash now).2
  | observe (state : Coordinator) (seen : List (Text × Int)) : Move options state { state with seen := seen }
  | automatic (state : Coordinator) (entry : Entry Value) (occurrenceCount : Nat) (familyHash : Text)
      (absent : Recency.get Prod.fst state.inFlight familyHash = none) :
      Move options state
        { state.start entry occurrenceCount (.automatic familyHash) with
          inFlight := Recency.touch Prod.fst state.inFlight (familyHash, state.nextTask) }
  | manual (state : Coordinator) (entry : Entry Value) (occurrenceCount : Nat) :
      Move options state (state.start entry occurrenceCount .manual)

abbrev Moves (options : CoordinatorOptions) : Coordinator -> Coordinator -> Prop :=
  Relation.ReflTransGen (Move options)

theorem moves_onNewFamily (stored : Stored) (occurrenceCount : Nat) :
    Moves options state (state.onNewFamily options stored occurrenceCount).2 := by
  rw [onNewFamily]
  split
  · exact .refl
  · rename_i familyHash _isFamily
    have looked : Moves options state (state.lookup options familyHash stored.hasTime).2 :=
      .single (.lookup state familyHash stored.hasTime)
    dsimp only
    split
    · exact looked.tail (.lookup _ familyHash stored.getTime)
    · split
      · exact looked
      · rename_i absent
        exact looked.tail (.automatic _ stored.entry occurrenceCount familyHash absent)

theorem moves_observeEntry (nowMs : Int) (stored : Stored) :
    Moves options state (state.observeEntry options nowMs stored) := by
  rw [observeEntry]
  split
  · exact .refl
  · split
    · exact .refl
    · rename_i familyHash _isFamily
      have observed : Move options state _ := .observe state
        (Alerts.observe options.maxFamilies familyHash nowMs newFamilyWindowMs state.seen).2
      dsimp only
      split
      · exact (moves_onNewFamily stored 1).head observed
      · exact .single observed

theorem moves_observeFlush (storedEntries : List Stored) (nowMs : Int) :
    Moves options state (state.observeFlush options storedEntries nowMs) := by
  rw [observeFlush]
  split
  · exact .refl
  · induction storedEntries generalizing state with
    | nil => exact .refl
    | cons stored storedEntries inductionHypothesis =>
        exact (moves_observeEntry nowMs stored).trans inductionHypothesis

theorem moves_diagnose (entry : Entry Value) (occurrenceCount : Nat) (force : Bool) (now : Int) :
    Moves options state (state.diagnose options entry occurrenceCount force now).2 := by
  rw [diagnose]
  dsimp only
  split
  · exact .single (.manual state entry occurrenceCount)
  · rename_i familyHash _isFamily
    split
    · exact .single (.manual state entry occurrenceCount)
    · have looked : Moves options state (state.lookup options familyHash now).2 :=
        .single (.lookup state familyHash now)
      split
      · exact looked
      · exact looked.tail (.manual _ entry occurrenceCount)

theorem moves_peekCached (entry : Entry Value) (now : Int) :
    Moves options state (state.peekCached options entry now).2 := by
  rw [peekCached]
  split
  · exact .refl
  · exact .single (.lookup state _ now)

theorem moves_awaitForAlert (familyHash : Text) (now : Int) :
    Moves options state (state.awaitForAlert options familyHash now).2 := by
  have looked : Moves options state (state.lookup options familyHash now).2 :=
    .single (.lookup state familyHash now)
  rw [awaitForAlert]
  split
  · exact looked
  · split
    · exact looked
    · exact looked

/-! ## The running diagnoses -/

/-- The map holds the automatic diagnoses that run, at most one of each family. -/
structure Tracked (state : Coordinator) : Prop where
  inFlight_eq : state.inFlight = state.running.filterMap Task.automatic
  families : (state.inFlight.map Prod.fst).Nodup
  ids : (state.running.map Task.id).Nodup
  issued : forall task, task ∈ state.running -> task.id < state.nextTask

theorem automatic_eq_some {task : Task} {familyHash : Text} {id : Nat}
    (isAutomatic : task.automatic = some (familyHash, id)) :
    task.origin = .automatic familyHash ∧ task.id = id := by
  rw [Task.automatic] at isAutomatic
  split at isAutomatic
  · rename_i isOrigin
    cases isAutomatic
    exact ⟨isOrigin, rfl⟩
  · cases isAutomatic

theorem tracked_start (tracked : Tracked state) (entry : Entry Value) (occurrenceCount : Nat) (origin : Origin)
    {inFlight : List (Text × Nat)}
    (isInFlight : inFlight = state.inFlight ++
      [(⟨state.nextTask, entry, occurrenceCount, origin, .reading⟩ : Task)].filterMap Task.automatic)
    (families : (inFlight.map Prod.fst).Nodup) :
    Tracked { state.start entry occurrenceCount origin with inFlight := inFlight } := by
  refine ⟨?_, families, ?_, ?_⟩
  · change inFlight = (state.running ++ [_]).filterMap Task.automatic
    rw [List.filterMap_append, ← tracked.inFlight_eq, isInFlight]
  · change ((state.running ++ [_]).map Task.id).Nodup
    rw [List.map_append, List.nodup_append]
    refine ⟨tracked.ids, List.nodup_singleton _, ?_⟩
    intro id isRunning last isLast same
    rcases List.mem_map.mp isRunning with ⟨task, member, rfl⟩
    rw [List.map_singleton, List.mem_singleton] at isLast
    have before := tracked.issued task member
    rw [same, isLast] at before
    exact lt_irrefl _ before
  · intro task member
    change task.id < state.nextTask + 1
    rcases List.mem_append.mp member with isRunning | isLast
    · exact Nat.lt_succ_of_lt (tracked.issued task isRunning)
    · rw [List.mem_singleton.mp isLast]
      exact Nat.lt_succ_self _

theorem Tracked.move (tracked : Tracked state) (move : Move options state next) : Tracked next := by
  cases move with
  | lookup familyHash now => exact ⟨tracked.1, tracked.2, tracked.3, tracked.4⟩
  | observe seen => exact ⟨tracked.1, tracked.2, tracked.3, tracked.4⟩
  | automatic entry occurrenceCount familyHash absent =>
      have isNew : forall other, other ∈ state.inFlight -> other.1 ≠ familyHash := fun other member =>
        Recency.ne_of_get_eq_none absent member
      refine tracked_start tracked entry occurrenceCount (.automatic familyHash) ?_
        (Recency.nodup_touch tracked.families)
      rw [Recency.touch, Recency.remove_of_absent isNew]
      rfl
  | manual entry occurrenceCount =>
      exact tracked_start tracked entry occurrenceCount .manual (List.append_nil _).symm tracked.families

section Ending

variable {running : List Task} {task : Task}

theorem eq_of_id_eq (ids : (running.map Task.id).Nodup) {other : Task} (member : task ∈ running)
    (isOther : other ∈ running) (same : other.id = task.id) : other = task :=
  List.inj_on_of_nodup_map ids isOther member same

theorem eq_of_family_eq (families : ((running.filterMap Task.automatic).map Prod.fst).Nodup)
    {familyHash : Text} {left right : Nat}
    (isLeft : (familyHash, left) ∈ running.filterMap Task.automatic)
    (isRight : (familyHash, right) ∈ running.filterMap Task.automatic) : left = right :=
  congrArg Prod.snd (List.inj_on_of_nodup_map families isLeft isRight rfl)

/-- To take out a task by its number is to take out its promise by its family. -/
theorem filterMap_remove_automatic (ids : (running.map Task.id).Nodup)
    (families : ((running.filterMap Task.automatic).map Prod.fst).Nodup) (member : task ∈ running)
    {familyHash : Text} (isAutomatic : task.origin = .automatic familyHash) :
    (Recency.remove Task.id running task.id).filterMap Task.automatic =
      Recency.remove Prod.fst (running.filterMap Task.automatic) familyHash := by
  have own : task.automatic = some (familyHash, task.id) := by rw [Task.automatic, isAutomatic]
  rw [Recency.remove, Recency.remove, List.filterMap_filter, List.filter_filterMap]
  refine List.filterMap_congr fun other isOther => ?_
  cases isPromise : other.automatic with
  | none => rw [ite_self]; rfl
  | some promise =>
      rcases promise with ⟨family, id⟩
      rw [Option.filter_some]
      have id_eq := (automatic_eq_some isPromise).2
      have sameTask : other.id = task.id <-> family = familyHash := by
        constructor
        · intro same
          rw [eq_of_id_eq ids member isOther same, own] at isPromise
          exact (congrArg Prod.fst (Option.some.inj isPromise)).symm
        · rintro rfl
          have left := List.mem_filterMap.mpr ⟨other, isOther, isPromise⟩
          have right := List.mem_filterMap.mpr ⟨task, member, own⟩
          exact id_eq.trans (eq_of_family_eq families left right)
      rw [decide_eq_decide.mpr sameTask]

theorem filterMap_remove_manual (ids : (running.map Task.id).Nodup) (member : task ∈ running)
    (isManual : task.origin = .manual) :
    (Recency.remove Task.id running task.id).filterMap Task.automatic = running.filterMap Task.automatic := by
  have own : task.automatic = none := by rw [Task.automatic, isManual]
  rw [Recency.remove, List.filterMap_filter]
  refine List.filterMap_congr fun other isOther => ?_
  by_cases same : other.id = task.id
  · rw [eq_of_id_eq ids member isOther same, own, ite_self]
  · rw [decide_eq_false same]
    rfl

end Ending

theorem tracked_finish (tracked : Tracked state) {task : Task} (member : task ∈ state.running) :
    Tracked (state.finish task) := by
  have removed : (state.finish task).inFlight = (state.finish task).running.filterMap Task.automatic := by
    have families := tracked.families
    rw [tracked.inFlight_eq] at families
    rw [finish]
    dsimp only
    cases isOrigin : task.origin with
    | automatic familyHash =>
        rw [filterMap_remove_automatic tracked.ids families member isOrigin, ← tracked.inFlight_eq]
    | manual => rw [filterMap_remove_manual tracked.ids member isOrigin, ← tracked.inFlight_eq]
  refine ⟨removed, ?_, tracked.ids.sublist (List.filter_sublist.map _), ?_⟩
  · rw [finish]
    dsimp only
    split
    · exact tracked.families.sublist (List.filter_sublist.map _)
    · exact tracked.families
  · exact fun other isOther => tracked.issued other (List.mem_of_mem_filter isOther)

theorem task_mem {id : Nat} {task : Task} (found : state.task id = some task) : task ∈ state.running :=
  Recency.mem_of_get found

theorem tracked_batchRead (tracked : Tracked state) {id : Nat} {batch : List (Entry Value)}
    (stepped : state.batchRead id batch = some next) : Tracked next := by
  rw [batchRead, Option.bind_eq_some_iff] at stepped
  rcases stepped with ⟨task, _found, read⟩
  split at read
  · cases read
  · cases read
    have kept : forall change : Task -> Task,
        (forall other, (change other).id = other.id ∧ (change other).automatic = other.automatic) ->
        Tracked { state with running := state.running.map change } := by
      intro change unchanged
      refine ⟨?_, tracked.families, ?_, ?_⟩
      · rw [List.filterMap_map, tracked.inFlight_eq]
        exact List.filterMap_congr fun other _member => (unchanged other).2.symm
      · rw [List.map_map]
        have ids : Task.id ∘ change = Task.id := funext fun other => (unchanged other).1
        rw [ids]
        exact tracked.ids
      · intro other member
        rcases List.mem_map.mp member with ⟨before, isRunning, rfl⟩
        rw [(unchanged before).1]
        exact tracked.issued before isRunning
    refine kept _ fun other => ?_
    split
    · exact ⟨rfl, rfl⟩
    · exact ⟨rfl, rfl⟩

/-! ## The cache -/

/-- The cache is bounded, and holds only diagnoses that were stored. -/
structure Cached (options : CoordinatorOptions) (state : Coordinator) : Prop where
  stored : forall entry, entry ∈ state.cache -> entry ∈ state.diagnosed
  bounded : state.cache.length ≤ options.cache.maxEntries

theorem Cached.move (cached : Cached options state) (move : Move options state next) : Cached options next := by
  cases move with
  | lookup familyHash now =>
      have smaller := @DiagnosisCache.get_sublist options.cache state.cache familyHash now
      exact ⟨fun entry member => cached.stored entry (smaller.subset member),
        smaller.length_le.trans cached.bounded⟩
  | observe seen => exact ⟨cached.stored, cached.bounded⟩
  | automatic entry occurrenceCount familyHash absent => exact ⟨cached.stored, cached.bounded⟩
  | manual entry occurrenceCount => exact ⟨cached.stored, cached.bounded⟩

theorem cached_store (cached : Cached options state) (familyHash : Text) (markdown : Units) (now : Int) :
    Cached options (state.store options familyHash markdown now) := by
  refine ⟨fun entry member => ?_, DiagnosisCache.length_set_le⟩
  rcases DiagnosisCache.mem_set member with before | isNew
  · exact List.mem_append_left _ (cached.stored entry before)
  · exact List.mem_append_right _ (List.mem_singleton.mpr isNew)

/-! ## Every step -/

/-- What holds in every state of every run. -/
structure Kept (options : CoordinatorOptions) (state : Coordinator) : Prop where
  tracked : Tracked state
  cached : Cached options state

theorem Kept.moves (kept : Kept options state) (moves : Moves options state next) : Kept options next := by
  induction moves with
  | refl => exact kept
  | tail _before move inductionHypothesis =>
      exact ⟨inductionHypothesis.tracked.move move, inductionHypothesis.cached.move move⟩

theorem rejected_of_moves (moves : Moves options state next) : next.rejected = state.rejected := by
  induction moves with
  | refl => rfl
  | tail _before move inductionHypothesis =>
      rw [← inductionHypothesis]
      cases move with
      | lookup familyHash now => rfl
      | observe seen => rfl
      | automatic entry occurrenceCount familyHash absent => rfl
      | manual entry occurrenceCount => rfl

theorem kept_finish (kept : Kept options state) {task : Task} (member : task ∈ state.running) :
    Kept options (state.finish task) :=
  ⟨tracked_finish kept.tracked member, kept.cached.stored, kept.cached.bounded⟩

theorem kept_store (kept : Kept options state) (familyHash : Text) (markdown : Units) (now : Int) :
    Kept options (state.store options familyHash markdown now) :=
  ⟨⟨kept.tracked.1, kept.tracked.2, kept.tracked.3, kept.tracked.4⟩,
    cached_store kept.cached familyHash markdown now⟩

theorem kept_batchRead (kept : Kept options state) {id : Nat} {batch : List (Entry Value)}
    (stepped : state.batchRead id batch = some next) : Kept options next ∧ next.rejected = state.rejected := by
  have tracked := tracked_batchRead kept.tracked stepped
  rw [batchRead, Option.bind_eq_some_iff] at stepped
  rcases stepped with ⟨task, _found, read⟩
  split at read
  · cases read
  · cases read
    exact ⟨⟨tracked, kept.cached.stored, kept.cached.bounded⟩, rfl⟩

theorem kept_answered (kept : Kept options state) {id : Nat} {markdown : Units} {now : Int}
    (stepped : state.answered options id markdown now = some next) :
    Kept options next ∧ next.rejected = state.rejected := by
  rw [answered, Option.bind_eq_some_iff] at stepped
  rcases stepped with ⟨task, found, read⟩
  have member := task_mem found
  split at read
  · cases read
  · split at read
    · cases read
      exact ⟨kept_finish kept member, rfl⟩
    · rename_i familyHash _isFamily
      cases read
      exact ⟨kept_finish (kept_store kept familyHash markdown now) member, rfl⟩

/-- The value that a diagnosis of the flush hook is rejected with has a message. -/
def Describable (state : Coordinator) : Event -> Prop
  | .failed id reason => forall task, state.task id = some task -> task.origin ≠ .manual -> reason.Readable
  | _ => True

theorem kept_failed (kept : Kept options state) {id : Nat} {reason : Thrown}
    (stepped : state.failed id reason = some next) :
    Kept options next ∧
      (next.rejected = [] <-> state.rejected = [] ∧ Describable state (.failed id reason)) := by
  rw [failed, Option.map_eq_some_iff] at stepped
  rcases stepped with ⟨task, found, ended⟩
  have member := task_mem found
  have describable : Describable state (.failed id reason) <->
      (task.origin ≠ .manual -> reason.Readable) := by
    constructor
    · exact fun all => all task found
    · intro readable other isOther
      cases found.symm.trans isOther
      exact readable
  rw [describable]
  split at ended
  · rename_i isManual
    cases ended
    refine ⟨kept_finish kept member, ⟨fun none => ⟨none, fun other => absurd isManual other⟩, And.left⟩⟩
  · rename_i familyHash isAutomatic
    have notManual : task.origin ≠ .manual := by rw [isAutomatic]; exact fun same => by cases same
    split at ended
    · rename_i message isMessage
      cases ended
      have noted : Kept options { state with logged := state.logged ++ [failedWarning familyHash message] } :=
        ⟨⟨kept.tracked.1, kept.tracked.2, kept.tracked.3, kept.tracked.4⟩,
          ⟨kept.cached.stored, kept.cached.bounded⟩⟩
      exact ⟨kept_finish noted member, ⟨fun none => ⟨none, fun _ => ⟨message, isMessage⟩⟩, And.left⟩⟩
    · rename_i thrown isThrown
      cases ended
      have noted : Kept options { state with rejected := state.rejected ++ [(id, thrown)] } :=
        ⟨⟨kept.tracked.1, kept.tracked.2, kept.tracked.3, kept.tracked.4⟩,
          ⟨kept.cached.stored, kept.cached.bounded⟩⟩
      refine ⟨kept_finish noted member, ⟨fun none => ?_, fun both => ?_⟩⟩
      · exact absurd none (List.append_ne_nil_of_right_ne_nil _ (List.cons_ne_nil _ _))
      · rcases both.2 notManual with ⟨message, isMessage⟩
        cases isThrown.symm.trans isMessage

theorem kept_step {event : Event} (kept : Kept options state) (stepped : state.step options event = some next) :
    Kept options next ∧ (next.rejected = [] <-> state.rejected = [] ∧ Describable state event) := by
  have unchanged : Kept options next ∧ next.rejected = state.rejected -> Describable state event ->
      Kept options next ∧ (next.rejected = [] <-> state.rejected = [] ∧ Describable state event) := by
    rintro ⟨keptNext, same⟩ describable
    rw [same]
    exact ⟨keptNext, ⟨fun none => ⟨none, describable⟩, And.left⟩⟩
  have moved : Moves options state next -> Kept options next ∧ next.rejected = state.rejected := fun moves =>
    ⟨kept.moves moves, rejected_of_moves moves⟩
  cases event with
  | observeFlush storedEntries nowMs =>
      cases stepped
      exact unchanged (moved (moves_observeFlush storedEntries nowMs)) trivial
  | onNewFamily stored occurrenceCount =>
      cases stepped
      exact unchanged (moved (moves_onNewFamily stored occurrenceCount)) trivial
  | diagnose entry occurrenceCount force now =>
      cases stepped
      exact unchanged (moved (moves_diagnose entry occurrenceCount force now)) trivial
  | peekCached entry now =>
      cases stepped
      exact unchanged (moved (moves_peekCached entry now)) trivial
  | awaitForAlert familyHash now =>
      cases stepped
      exact unchanged (moved (moves_awaitForAlert familyHash now)) trivial
  | batchRead id batch => exact unchanged (kept_batchRead kept stepped) trivial
  | answered id markdown now => exact unchanged (kept_answered kept stepped) trivial
  | failed id reason => exact kept_failed kept stepped

/-! ## Every run -/

/-- The coordination of the diagnoses: the automatic ones run one at a time for a family,
and leave the map when they end; the cache answers with diagnoses that were stored, and not
longer ago than they live, and keeps to its cap; no promise of the flush hook is rejected. -/
structure Coordinated (options : CoordinatorOptions) (state : Coordinator) : Prop where
  single : forall familyHash,
    state.running.countP (fun task => task.automatic.map Prod.fst == some familyHash) ≤ 1
  settled : (forall task, task ∈ state.running -> task.origin = .manual) -> state.inFlight = []
  fresh : forall familyHash now markdown, (state.lookup options familyHash now).1 = some markdown ->
    Exists fun entry => entry ∈ state.diagnosed ∧ entry.familyHash = familyHash ∧ entry.markdown = markdown ∧
      now - entry.storedAt < options.cache.ttlMs
  bounded : state.cache.length ≤ options.cache.maxEntries
  unrejected : state.rejected = []

theorem Kept.coordinated_iff_unrejected (kept : Kept options state) : Coordinated options state <-> state.rejected = [] := by
  refine ⟨Coordinated.unrejected, fun unrejected => ⟨?_, ?_, ?_, kept.cached.bounded, unrejected⟩⟩
  · intro familyHash
    have families := kept.tracked.families
    rw [kept.tracked.inFlight_eq, List.map_filterMap] at families
    rw [← List.count_filterMap]
    exact List.nodup_iff_count_le_one.mp families familyHash
  · intro manual
    rw [kept.tracked.inFlight_eq, List.filterMap_eq_nil_iff]
    intro task member
    rw [Task.automatic, manual task member]
  · intro familyHash now markdown found
    rcases DiagnosisCache.of_get_eq_some found with ⟨entry, member, isEntry⟩
    exact ⟨entry, kept.cached.stored entry member, isEntry⟩

theorem kept_initial : Kept options {} :=
  ⟨⟨rfl, List.nodup_nil, List.nodup_nil, fun _task member => (by cases member)⟩,
    ⟨fun _entry member => (by cases member), Nat.zero_le _⟩⟩

/-- A run is coordinated to its end exactly when every automatic diagnosis that failed did so
with a value whose message can be read. -/
theorem coordinated_iff (events : List Event) (final : Coordinator)
    (ran : Transition.runFrom (step options) {} events = some final) :
    Coordinated options final <-> Transition.Along (step options) Describable {} events := by
  have steps := @Transition.final_iff_along _ _ (step options) Describable (Kept options) (Coordinated options)
    (fun _state _event _next kept stepped => (kept_step kept stepped).1)
    (fun _state _event _next kept stepped => by
      have after := kept_step kept stepped
      rw [after.1.coordinated_iff_unrejected, kept.coordinated_iff_unrejected, after.2]) _ _ _ kept_initial ran
  rw [steps, kept_initial.coordinated_iff_unrejected]
  exact and_iff_right rfl

def autoOptions : CoordinatorOptions where
  mode := .auto
  cache := { maxEntries := 500, ttlMs := 86400000 }
  maxFamilies := 10000

def exceptionEntry : Entry Value where
  id := ['e']
  batchId := ['b']
  type := EXCEPTION
  familyHash := some ['f']
  content := .null
  tags := []
  sequence := 0
  durationMs := none
  origin := .http
  instanceId := []
  traceId := none
  spanId := none
  createdAt := 0

/-- A new family is seen by a flush, and the provider rejects. -/
def failedDiagnosis (reason : Thrown) : List Event :=
  [.observeFlush [⟨exceptionEntry, 0, 0⟩] 0, .batchRead 0 [], .failed 0 reason]

theorem coordinated_after_error :
    Exists fun final =>
      Transition.runFrom (step autoOptions) {} (failedDiagnosis (Thrown.typeError (units "timeout"))) = some final ∧
        Coordinated autoOptions final := by
  refine ⟨_, rfl, (coordinated_iff (failedDiagnosis (Thrown.typeError (units "timeout"))) _ rfl).mpr ?_⟩
  refine ⟨trivial, fun _next _stepped => ⟨trivial, fun _next _stepped => ⟨?_, fun _next _stepped => trivial⟩⟩⟩
  exact fun _task _found _automatic => Alerts.Thrown.readable_typeError _

/-- A provider that rejects with `undefined` leaves a rejected promise. -/
theorem undefined_not_coordinated :
    ¬ forall options events final, Transition.runFrom (step options) {} events = some final ->
      Coordinated options final := by
  intro all
  have unrejected := (all autoOptions (failedDiagnosis .undefined) _ rfl).unrejected
  exact List.cons_ne_nil _ _ unrejected

end Coordinator
end Ai
end Telescope
