import Telescope.Observe.Payloads

namespace Telescope
namespace Observe

universe u v w x y

/-!
# Every record leaves in one payload

With limits of at least one, every turn of the loop takes a record, and the payloads
together hold the buffers in their order.  The runtime snapshot and the metrics ride on
the first payload.  A limit below one takes nothing, and a buffer that it should empty
keeps the loop going for ever.
-/

variable {Log : Type u} {Snapshot : Type v} {Job : Type w} {Runtime : Type x} {Custom : Type y} {α : Type*}
  {options : ResolvedObserveOptions} {limit : Rat} {items : List α}

namespace WireTelemetryBatch

def snapshotRecords (payload : WireTelemetryBatch Log Snapshot Job Runtime Custom) : List Snapshot :=
  payload.snapshots.getD []

def jobRecords (payload : WireTelemetryBatch Log Snapshot Job Runtime Custom) : List Job := payload.jobs.getD []

def logRecords (payload : WireTelemetryBatch Log Snapshot Job Runtime Custom) : List Log := payload.logs.getD []

/-- Every section is within its limit. -/
structure Within (options : ResolvedObserveOptions)
    (payload : WireTelemetryBatch Log Snapshot Job Runtime Custom) : Prop where
  snapshots : (payload.snapshotRecords.length : Rat) ≤ options.maxRecordsPerRequest
  jobs : (payload.jobRecords.length : Rat) ≤ options.maxRecordsPerRequest
  logs : (payload.logRecords.length : Rat) ≤ options.maxLogsPerRequest

end WireTelemetryBatch

open WireTelemetryBatch (snapshotRecords jobRecords logRecords)

/-- What the payloads hold of the buffers, the runtime snapshot and the metrics. -/
structure Sliced (options : ResolvedObserveOptions) (outbox : Outbox Log Snapshot Job)
    (reading : Reading Runtime Custom) (payloads : List (WireTelemetryBatch Log Snapshot Job Runtime Custom))
    (next : Outbox Log Snapshot Job) : Prop where
  emptied : next.buffers = .empty
  snapshots : payloads.flatMap snapshotRecords = outbox.buffers.snapshots
  jobs : payloads.flatMap jobRecords = outbox.buffers.jobs
  logs : payloads.flatMap logRecords = outbox.buffers.logs
  within : forall payload, payload ∈ payloads -> payload.Within options
  runtime : payloads.filterMap WireTelemetryBatch.runtime =
    (dueRuntime options outbox.lastRuntimeAt reading).1.toList
  custom : payloads.filterMap WireTelemetryBatch.custom = (present (collectedCustom options outbox reading)).toList

/-- The loop ends, and the payloads are as they should be. -/
def Builds (options : ResolvedObserveOptions) (outbox : Outbox Log Snapshot Job)
    (reading : Reading Runtime Custom) : Prop :=
  Exists fun enough => Exists fun payloads => Exists fun next => Sliced options outbox reading payloads next ∧
    forall turns, enough ≤ turns -> buildPayloads options turns outbox reading = some (payloads, next)

/-- No buffer waits for a limit that takes nothing of it. -/
structure Progresses (options : ResolvedObserveOptions) (buffers : Sections Log Snapshot Job) : Prop where
  records : 1 ≤ options.maxRecordsPerRequest ∨ buffers.snapshots = [] ∧ buffers.jobs = []
  logs : 1 ≤ options.maxLogsPerRequest ∨ buffers.logs = []

/-! ## Slices -/

theorem spliced_append (limit : Rat) (items : List α) : (spliced limit items).1 ++ (spliced limit items).2 = items :=
  List.take_append_drop _ items

theorem length_spliced_le (isPositive : 0 < limit) (items : List α) :
    ((spliced limit items).1.length : Rat) ≤ limit := by
  have whole : ((⌊limit⌋.toNat : Int) : Rat) ≤ limit := by
    rw [Int.toNat_of_nonneg (Int.floor_nonneg.mpr isPositive.le)]
    exact Int.floor_le limit
  refine le_trans ?_ whole
  rw [Int.cast_natCast, Nat.cast_le]
  exact List.length_take_le _ _

theorem length_spliced_lt (whole : 1 ≤ limit) (filled : items ≠ []) :
    (spliced limit items).2.length < items.length := by
  have taken : 1 ≤ ⌊limit⌋ := Int.le_floor.mpr (by rwa [Int.cast_one])
  have present := List.length_pos_iff.mpr filled
  rw [spliced, List.length_drop]
  omega

theorem length_spliced_rest_le (limit : Rat) (items : List α) : (spliced limit items).2.length ≤ items.length := by
  rw [spliced, List.length_drop]
  exact Nat.sub_le _ _

theorem spliced_nil (limit : Rat) : (spliced limit ([] : List α)).2 = [] := List.drop_nil

/-- A limit below one takes nothing. -/
theorem spliced_of_lt (isPositive : 0 < limit) (fraction : limit < 1) (items : List α) :
    (spliced limit items).2 = items := by
  have nothing : ⌊limit⌋ = 0 := Int.floor_eq_zero_iff.mpr ⟨isPositive.le, fraction⟩
  rw [spliced, nothing]
  rfl

theorem present_getD (items : List α) : (present items).getD [] = items := by
  rw [present]
  split
  · rfl
  · rename_i empty
    exact (List.eq_nil_of_length_eq_zero (Nat.eq_zero_of_not_pos empty)).symm

/-! ## The loop -/

variable {buffers rest : Sections Log Snapshot Job} {counters after : SentCounters} {turns : Nat}
  {payloads : List (WireTelemetryBatch Log Snapshot Job Runtime Custom)}

theorem hasTraffic_eq_false : buffers.hasTraffic = false <-> buffers = .empty := by
  rcases buffers with ⟨logs, snapshots, jobs⟩
  rw [Sections.hasTraffic, decide_eq_false_iff_not, Sections.empty, Sections.mk.injEq]
  constructor
  · intro none
    refine ⟨?_, ?_, ?_⟩ <;> refine List.eq_nil_of_length_eq_zero ?_ <;> dsimp only at none <;> omega
  · rintro ⟨rfl, rfl, rfl⟩ traffic
    rcases traffic with some | some | some <;> exact absurd some (Nat.lt_irrefl 0)

theorem drain_of_traffic (traffic : buffers.hasTraffic = true) :
    (drain options (turns + 1) buffers counters : Option (Drained Log Snapshot Job Runtime Custom)) =
      (drain options turns (buffers.cut options).2 (counters.count (buffers.cut options).1)).map
        fun drained => (payload options (buffers.cut options).1 :: drained.1, drained.2) := by
  rw [drain, if_pos traffic]

theorem drain_of_quiet (quiet : buffers.hasTraffic = false) (turns : Nat) :
    (drain options turns buffers counters : Option (Drained Log Snapshot Job Runtime Custom)) =
      some ([], buffers, counters) := by
  cases turns <;> rw [drain, quiet, if_neg Bool.false_ne_true]

/-- A payload of the loop. -/
structure FromLoop (options : ResolvedObserveOptions)
    (payload : WireTelemetryBatch Log Snapshot Job Runtime Custom) : Prop where
  within : payload.Within options
  runtime : payload.runtime = none
  custom : payload.custom = none

theorem fromLoop_payload (options : ResolvedObserveOptions) (buffers : Sections Log Snapshot Job) :
    FromLoop options (payload options (buffers.cut options).1 : WireTelemetryBatch Log Snapshot Job Runtime Custom) where
  within := by
    constructor
    · rw [snapshotRecords, payload, present_getD]
      exact length_spliced_le options.maxRecordsPerRequest_pos _
    · rw [jobRecords, payload, present_getD]
      exact length_spliced_le options.maxRecordsPerRequest_pos _
    · rw [logRecords, payload, present_getD]
      exact length_spliced_le options.maxLogsPerRequest_pos _
  runtime := rfl
  custom := rfl

/-- What the loop leaves when it ends. -/
structure Emptied (options : ResolvedObserveOptions) (buffers : Sections Log Snapshot Job)
    (drained : Drained Log Snapshot Job Runtime Custom) : Prop where
  empty : drained.2.1 = .empty
  snapshots : drained.1.flatMap snapshotRecords = buffers.snapshots
  jobs : drained.1.flatMap jobRecords = buffers.jobs
  logs : drained.1.flatMap logRecords = buffers.logs
  fromLoop : forall payload, payload ∈ drained.1 -> FromLoop options payload

variable {drained : Drained Log Snapshot Job Runtime Custom}

theorem Emptied.cons (emptied : Emptied options (buffers.cut options).2 drained) :
    Emptied options buffers (payload options (buffers.cut options).1 :: drained.1, drained.2) where
  empty := emptied.empty
  snapshots := by
    rw [List.flatMap_cons, emptied.snapshots, snapshotRecords, payload, present_getD]
    exact spliced_append _ _
  jobs := by
    rw [List.flatMap_cons, emptied.jobs, jobRecords, payload, present_getD]
    exact spliced_append _ _
  logs := by
    rw [List.flatMap_cons, emptied.logs, logRecords, payload, present_getD]
    exact spliced_append _ _
  fromLoop := List.forall_mem_cons.mpr ⟨fromLoop_payload options buffers, emptied.fromLoop⟩

theorem emptied_of_drain (isDrained : drain options turns buffers counters = some drained) :
    Emptied options buffers drained := by
  induction turns generalizing buffers counters drained with
  | zero =>
      cases traffic : buffers.hasTraffic with
      | true =>
          rw [drain, traffic, if_pos rfl] at isDrained
          cases isDrained
      | false =>
          rw [drain_of_quiet traffic] at isDrained
          cases isDrained
          rw [hasTraffic_eq_false.mp traffic]
          exact ⟨rfl, rfl, rfl, rfl, fun _ member => (List.not_mem_nil member).elim⟩
  | succ turns inductionHypothesis =>
      cases traffic : buffers.hasTraffic with
      | true =>
          rw [drain_of_traffic traffic] at isDrained
          rcases Option.map_eq_some_iff.mp isDrained with ⟨later, isLater, rfl⟩
          exact (inductionHypothesis isLater).cons
      | false =>
          rw [drain_of_quiet traffic] at isDrained
          cases isDrained
          rw [hasTraffic_eq_false.mp traffic]
          exact ⟨rfl, rfl, rfl, rfl, fun _ member => (List.not_mem_nil member).elim⟩

/-- More turns than suffice change nothing. -/
theorem drain_succ (isDrained : drain options turns buffers counters = some drained) :
    drain options (turns + 1) buffers counters = some drained := by
  induction turns generalizing buffers counters drained with
  | zero =>
      cases traffic : buffers.hasTraffic with
      | true =>
          rw [drain, traffic, if_pos rfl] at isDrained
          cases isDrained
      | false => rwa [drain_of_quiet traffic] at isDrained ⊢
  | succ turns inductionHypothesis =>
      cases traffic : buffers.hasTraffic with
      | true =>
          rw [drain_of_traffic traffic] at isDrained ⊢
          rcases Option.map_eq_some_iff.mp isDrained with ⟨later, isLater, rfl⟩
          rw [inductionHypothesis isLater, Option.map_some]
      | false => rwa [drain_of_quiet traffic] at isDrained ⊢

theorem drain_of_le {more : Nat} (enough : turns ≤ more)
    (isDrained : drain options turns buffers counters = some drained) :
    drain options more buffers counters = some drained := by
  induction enough with
  | refl => exact isDrained
  | step _ inductionHypothesis => exact drain_succ inductionHypothesis

/-! ## Progress -/

theorem Progresses.cut (progresses : Progresses options buffers) : Progresses options (buffers.cut options).2 where
  records := by
    refine progresses.records.imp_right fun empty => ?_
    rw [Sections.cut]
    dsimp only
    rw [empty.1, empty.2]
    exact ⟨spliced_nil _, spliced_nil _⟩
  logs := by
    refine progresses.logs.imp_right fun empty => ?_
    rw [Sections.cut]
    dsimp only
    rw [empty]
    exact spliced_nil _

/-- A turn takes a record. -/
theorem Progresses.size_lt (progresses : Progresses options buffers) (traffic : buffers.hasTraffic = true) :
    (buffers.cut options).2.size < buffers.size := by
  have snapshots := length_spliced_rest_le options.maxRecordsPerRequest buffers.snapshots
  have jobs := length_spliced_rest_le options.maxRecordsPerRequest buffers.jobs
  have logs := length_spliced_rest_le options.maxLogsPerRequest buffers.logs
  rw [Sections.size, Sections.size, Sections.cut]
  dsimp only
  by_cases someLogs : buffers.logs = []
  · by_cases someSnapshots : buffers.snapshots = []
    · by_cases someJobs : buffers.jobs = []
      · rw [hasTraffic_eq_false.mpr (by rw [Sections.empty, ← someLogs, ← someSnapshots, ← someJobs])] at traffic
        cases traffic
      · have fewer := length_spliced_lt (progresses.records.resolve_right fun empty => someJobs empty.2) someJobs
        omega
    · have fewer := length_spliced_lt (progresses.records.resolve_right fun empty => someSnapshots empty.1)
        someSnapshots
      omega
  · have fewer := length_spliced_lt (progresses.logs.resolve_right someLogs) someLogs
    omega

theorem Progresses.exists_drained (progresses : Progresses options buffers) (enough : buffers.size ≤ turns) :
    Exists fun drained : Drained Log Snapshot Job Runtime Custom =>
      drain options turns buffers counters = some drained := by
  induction turns generalizing buffers counters with
  | zero =>
      cases traffic : buffers.hasTraffic with
      | true => exact absurd (progresses.size_lt traffic) (by omega)
      | false => exact ⟨_, drain_of_quiet traffic 0⟩
  | succ turns inductionHypothesis =>
      cases traffic : buffers.hasTraffic with
      | true =>
          have fewer := progresses.size_lt traffic
          rcases @inductionHypothesis _ (counters.count (buffers.cut options).1) progresses.cut (by omega) with ⟨later, isLater⟩
          exact ⟨_, (drain_of_traffic traffic).trans (congrArg _ isLater)⟩
      | false => exact ⟨_, drain_of_quiet traffic _⟩

/-! ## Whole limits -/

/-- The sections of a payload. -/
def WireTelemetryBatch.sections (payload : WireTelemetryBatch Log Snapshot Job Runtime Custom) :
    Sections Log Snapshot Job := ⟨payload.logRecords, payload.snapshotRecords, payload.jobRecords⟩

/-! ## No progress -/

theorem hasTraffic_of_filled (filled : buffers.snapshots ≠ [] ∨ buffers.jobs ≠ [] ∨ buffers.logs ≠ []) :
    buffers.hasTraffic = true := by
  refine (Bool.eq_false_or_eq_true _).resolve_right fun quiet => ?_
  rw [hasTraffic_eq_false.mp quiet] at filled
  rcases filled with some | some | some <;> exact some rfl

/-- The limit of records takes nothing of the snapshots or jobs. -/
theorem drain_of_records (fraction : options.maxRecordsPerRequest < 1)
    (filled : buffers.snapshots ≠ [] ∨ buffers.jobs ≠ []) :
    (drain options turns buffers counters : Option (Drained Log Snapshot Job Runtime Custom)) = none := by
  have traffic := hasTraffic_of_filled (filled.imp_right Or.inl)
  induction turns generalizing buffers counters with
  | zero => rw [drain, if_pos traffic]
  | succ turns inductionHypothesis =>
      have stays : (buffers.cut options).2.snapshots = buffers.snapshots ∧
          (buffers.cut options).2.jobs = buffers.jobs :=
        ⟨spliced_of_lt options.maxRecordsPerRequest_pos fraction _,
          spliced_of_lt options.maxRecordsPerRequest_pos fraction _⟩
      have still : (buffers.cut options).2.snapshots ≠ [] ∨ (buffers.cut options).2.jobs ≠ [] := by
        rwa [stays.1, stays.2]
      rw [drain_of_traffic traffic, inductionHypothesis still (hasTraffic_of_filled (still.imp_right Or.inl)),
        Option.map_none]

/-- The limit of logs takes nothing of the logs. -/
theorem drain_of_logs (fraction : options.maxLogsPerRequest < 1) (filled : buffers.logs ≠ []) :
    (drain options turns buffers counters : Option (Drained Log Snapshot Job Runtime Custom)) = none := by
  have traffic := hasTraffic_of_filled (.inr (.inr filled))
  induction turns generalizing buffers counters with
  | zero => rw [drain, if_pos traffic]
  | succ turns inductionHypothesis =>
      have stays : (buffers.cut options).2.logs = buffers.logs :=
        spliced_of_lt options.maxLogsPerRequest_pos fraction _
      have still : (buffers.cut options).2.logs ≠ [] := by rwa [stays]
      rw [drain_of_traffic traffic, inductionHypothesis still (hasTraffic_of_filled (.inr (.inr still))),
        Option.map_none]

theorem not_drained (stuck : ¬ Progresses options buffers) :
    (drain options turns buffers counters : Option (Drained Log Snapshot Job Runtime Custom)) = none := by
  by_cases records : 1 ≤ options.maxRecordsPerRequest ∨ buffers.snapshots = [] ∧ buffers.jobs = []
  · have logs : ¬ (1 ≤ options.maxLogsPerRequest ∨ buffers.logs = []) := fun logs => stuck ⟨records, logs⟩
    rw [not_or, not_le] at logs
    exact drain_of_logs logs.1 logs.2
  · rw [not_or, not_le, not_and_or] at records
    exact drain_of_records records.1 records.2

/-! ## The first payload -/

variable {runtime : Option Runtime} {custom : List Custom}

/-- Riding changes neither the sections nor their limits. -/
theorem ride_records (runtime : Option Runtime) (custom : List Custom)
    (payloads : List (WireTelemetryBatch Log Snapshot Job Runtime Custom)) (counters : SentCounters) :
    (ride runtime custom (payloads, counters)).1.flatMap snapshotRecords = payloads.flatMap snapshotRecords ∧
      (ride runtime custom (payloads, counters)).1.flatMap jobRecords = payloads.flatMap jobRecords ∧
      (ride runtime custom (payloads, counters)).1.flatMap logRecords = payloads.flatMap logRecords := by
  cases payloads with
  | nil => exact ⟨rfl, rfl, rfl⟩
  | cons first others => exact ⟨rfl, rfl, rfl⟩

theorem within_ride (within : forall payload, payload ∈ payloads -> payload.Within options) :
    forall payload, payload ∈ (ride runtime custom (payloads, counters)).1 -> payload.Within options := by
  cases payloads with
  | nil => exact within
  | cons first others =>
      rw [List.forall_mem_cons] at within
      exact List.forall_mem_cons.mpr ⟨⟨within.1.snapshots, within.1.jobs, within.1.logs⟩, within.2⟩

theorem filterMap_eq_nil {β : Type*} {field : WireTelemetryBatch Log Snapshot Job Runtime Custom -> Option β}
    (absent : forall payload, payload ∈ payloads -> field payload = none) : payloads.filterMap field = [] :=
  List.filterMap_eq_nil_iff.mpr absent

/-- The snapshot and the metrics are on the first payload only. -/
theorem ride_riders (plain : forall payload, payload ∈ payloads -> payload.runtime = none ∧ payload.custom = none)
    (nonempty : payloads = [] -> runtime = none ∧ custom = []) (counters : SentCounters) :
    (ride runtime custom (payloads, counters)).1.filterMap WireTelemetryBatch.runtime = runtime.toList ∧
      (ride runtime custom (payloads, counters)).1.filterMap WireTelemetryBatch.custom =
        (present custom).toList := by
  cases payloads with
  | nil =>
      rcases nonempty rfl with ⟨rfl, rfl⟩
      exact ⟨rfl, rfl⟩
  | cons first others =>
      rw [List.forall_mem_cons] at plain
      have noRuntime := filterMap_eq_nil fun payload member => (plain.2 payload member).1
      have noCustom := filterMap_eq_nil fun payload member => (plain.2 payload member).2
      rw [ride]
      dsimp only
      rw [List.filterMap_cons, List.filterMap_cons, noRuntime, noCustom, plain.1.1, plain.1.2, present]
      constructor
      · cases runtime <;> rfl
      · by_cases some : 0 < custom.length
        · rw [if_pos some]
          rfl
        · rw [if_neg some]
          rfl

theorem fromLoop_envelope (options : ResolvedObserveOptions) :
    FromLoop options (envelope options : WireTelemetryBatch Log Snapshot Job Runtime Custom) where
  within := by
    have nonnegative := options.maxRecordsPerRequest_pos.le
    constructor
    · exact nonnegative
    · exact nonnegative
    · exact options.maxLogsPerRequest_pos.le
  runtime := rfl
  custom := rfl

/-! ## The payloads -/

variable {outbox : Outbox Log Snapshot Job} {reading : Reading Runtime Custom}

/-- The payloads before anything rides on them. -/
def loaded (options : ResolvedObserveOptions) (outbox : Outbox Log Snapshot Job) (reading : Reading Runtime Custom)
    (drained : Drained Log Snapshot Job Runtime Custom) :
    List (WireTelemetryBatch Log Snapshot Job Runtime Custom) :=
  if drained.1.length = 0 ∧ ((dueRuntime options outbox.lastRuntimeAt reading).1.isSome ∨
    0 < (collectedCustom options outbox reading).length) then [envelope options] else drained.1

theorem buildPayloads_eq (options : ResolvedObserveOptions) (turns : Nat) (outbox : Outbox Log Snapshot Job)
    (reading : Reading Runtime Custom) :
    buildPayloads options turns outbox reading =
      (drain options turns outbox.buffers outbox.counters).map fun drained =>
        let ridden := ride (dueRuntime options outbox.lastRuntimeAt reading).1 (collectedCustom options outbox reading)
          (loaded options outbox reading drained, drained.2.2)
        (ridden.1, ⟨drained.2.1, (dueRuntime options outbox.lastRuntimeAt reading).2, ridden.2⟩) := rfl

theorem sliced_of_emptied (emptied : Emptied options outbox.buffers drained) (counters : SentCounters)
    (lastRuntimeAt : Rat) :
    let ridden := ride (dueRuntime options outbox.lastRuntimeAt reading).1 (collectedCustom options outbox reading)
      (loaded options outbox reading drained, counters)
    Sliced options outbox reading ridden.1 ⟨drained.2.1, lastRuntimeAt, ridden.2⟩ := by
  intro ridden
  have sections : (loaded options outbox reading drained).flatMap snapshotRecords = outbox.buffers.snapshots ∧
      (loaded options outbox reading drained).flatMap jobRecords = outbox.buffers.jobs ∧
      (loaded options outbox reading drained).flatMap logRecords = outbox.buffers.logs := by
    rw [← emptied.snapshots, ← emptied.jobs, ← emptied.logs, loaded]
    split
    · rename_i alone
      rw [List.eq_nil_of_length_eq_zero alone.1]
      exact ⟨rfl, rfl, rfl⟩
    · exact ⟨rfl, rfl, rfl⟩
  have fromLoop : forall payload, payload ∈ loaded options outbox reading drained -> FromLoop options payload := by
    rw [loaded]
    split
    · exact List.forall_mem_singleton.mpr (fromLoop_envelope options)
    · exact emptied.fromLoop
  have nonempty : loaded options outbox reading drained = [] ->
      (dueRuntime options outbox.lastRuntimeAt reading).1 = none ∧ collectedCustom options outbox reading = [] := by
    rw [loaded]
    split
    · exact fun isNil => by cases isNil
    · rename_i riders
      intro isNil
      rw [isNil, not_and_or, not_or, Option.not_isSome_iff_eq_none, not_lt, Nat.le_zero] at riders
      have absent := riders.resolve_left fun filled => filled rfl
      exact ⟨absent.1, List.eq_nil_of_length_eq_zero absent.2⟩
  have records := ride_records (dueRuntime options outbox.lastRuntimeAt reading).1
    (collectedCustom options outbox reading) (loaded options outbox reading drained) counters
  have riders := ride_riders (fun payload member => ⟨(fromLoop payload member).runtime, (fromLoop payload member).custom⟩)
    nonempty counters
  exact ⟨emptied.empty, records.1.trans sections.1, records.2.1.trans sections.2.1, records.2.2.trans sections.2.2,
    within_ride fun payload member => (fromLoop payload member).within, riders.1, riders.2⟩

theorem progresses_of_builds (builds : Builds options outbox reading) : Progresses options outbox.buffers := by
  rcases builds with ⟨enough, payloads, next, _, isBuilt⟩
  by_contra stuck
  have built := isBuilt enough le_rfl
  rw [buildPayloads_eq, not_drained stuck] at built
  cases built

theorem Progresses.builds (progresses : Progresses options outbox.buffers) : Builds options outbox reading := by
  have drains : Exists fun drained : Drained Log Snapshot Job Runtime Custom =>
      drain options outbox.buffers.size outbox.buffers outbox.counters = some drained :=
    progresses.exists_drained le_rfl
  rcases drains with ⟨drained, isDrained⟩
  refine ⟨outbox.buffers.size, _, _, sliced_of_emptied (emptied_of_drain isDrained) drained.2.2
    (dueRuntime options outbox.lastRuntimeAt reading).2, fun turns enough => ?_⟩
  rw [buildPayloads_eq, drain_of_le enough isDrained]
  rfl

/-- Whatever the options of the host resolve to, whatever the buffers hold and whatever the
runtime collector and the metrics answer: the payloads are built as they should be if and
only if no buffer waits for a limit below one. -/
theorem builds_iff_progresses (options : ResolvedObserveOptions) (outbox : Outbox Log Snapshot Job)
    (reading : Reading Runtime Custom) :
    Builds options outbox reading <-> Progresses options outbox.buffers :=
  ⟨progresses_of_builds, Progresses.builds⟩

/-- A host that allows half a record in a request. -/
def halfRecords : ObserveExporterOptions where
  serviceId := units "shop"
  serviceVersion := none
  included := ⟨true, true, true, true, true, true⟩
  maxRecordsPerRequest := some (.finite (1 / 2))
  maxLogsPerRequest := none
  runtimeIntervalMs := none

/-- The exporter with the first snapshot that was pushed. -/
def firstSnapshot : Outbox Units Units Units where
  buffers := ⟨[], (push [] (units "GET /") ((resolveObserveOptions halfRecords).maxRecordsPerRequest * 4)).1, []⟩
  lastRuntimeAt := 0
  counters := ⟨0, 0, 0, 0, 0⟩

theorem not_builds_halfRecords :
    ¬ Builds (resolveObserveOptions halfRecords) firstSnapshot (⟨0, none, []⟩ : Reading Units Units) := by
  intro builds
  have progresses := progresses_of_builds builds
  have stuck : ¬ (1 ≤ (resolveObserveOptions halfRecords).maxRecordsPerRequest ∨
      firstSnapshot.buffers.snapshots = [] ∧ firstSnapshot.buffers.jobs = []) := by decide +kernel
  exact stuck progresses.records

end Observe
end Telescope
