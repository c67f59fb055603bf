import Telescope.Parquet.ExportOnce

namespace Telescope
namespace Parquet

open Prune

/-!
# The hot tier drains

While nothing new is stored, an entry of an archived type that is older than the
cutoffs is deleted after finitely many cycles, whatever the cold tier holds.  A
cycle that reaches the cap moves the cursor strictly on, and the positions it can
move over are those of the two tiers, to which an export adds none; a cycle that
drains is followed by the delete, at the cutoff of the export or, when that was
begun before the entry came under it, at a newer one.
-/

variable {C : Type} [JsonContent C] {options : TieredStorageOptions C} {config : Config}
  {capabilities : Capabilities} {positions : List Position}

/-- The tiers while nothing is stored. -/
def quietProtocol (options : TieredStorageOptions C) : Protocol (Tiers C) (Request C) Reply where
  interferes := Eq
  interferes_refl := fun _ => rfl
  interferes_trans := Eq.trans
  replies := (tieredProtocol options).replies

theorem stable_of_eq (assertion : Tiers C -> Prop) :
    (quietProtocol options).Stable assertion :=
  fun _ _ same holds => same ▸ holds

/-! ## What is left behind a cursor -/

/-- A position strictly behind a cursor; without one, any. -/
def isBehind (cursor : Option Text) (position : Position) : Bool :=
  (cursor.bind decodeCursor).all fun cursor => decide (cursor.Newer position)

/-- The number of positions behind a cursor. -/
def left (positions : List Position) (cursor : Option Text) : Nat :=
  positions.countP (isBehind cursor)

theorem left_le (positions : List Position) (cursor : Option Text) :
    left positions cursor ≤ positions.length :=
  List.countP_le_length

/-- Moving a cursor to a position behind it leaves fewer. -/
theorem left_lt {cursor : Option Text} {next : Text} {position : Position}
    (member : position ∈ positions) (behind : isBehind cursor position = true)
    (decodes : decodeCursor next = some position) :
    left positions (some next) < left positions cursor := by
  refine Keyset.countP_lt_of_imp (fun other later => ?_) member behind ?_
  · rw [isBehind, Option.bind_some, decodes] at later
    rw [isBehind] at behind ⊢
    cases decoded : cursor.bind decodeCursor with
    | none => rfl
    | some reached =>
        rw [decoded] at behind
        exact decide_eq_true
          (Position.newer_trans (of_decide_eq_true behind) (of_decide_eq_true later))
  · rw [isBehind, Option.bind_some, decodes]
    exact decide_eq_false fun reached => Position.newer_asymm reached reached

/-- The positions of both tiers are among these. -/
structure Within (positions : List Position) (tiers : Tiers C) : Prop where
  hot : forall entry, entry ∈ tiers.hot -> entry.position ∈ positions
  cold : forall row, row ∈ coldRows tiers.cold -> row.position ∈ positions

/-- A page that an export may hand over: entries at these positions behind the
cursor. -/
structure PageWithin (positions : List Position) (cursor : Option Text) (page : Page C) : Prop where
  listed : forall entry, entry ∈ page.data ->
    entry.position ∈ positions ∧ isBehind cursor entry.position = true
  last : forall next, page.nextCursor = some next -> Exists fun last =>
    page.data.getLast? = some last ∧ decodeCursor next = some last.position

variable {tiers : Tiers C}

theorem pageWithin_of_merges (within : Within positions tiers) {archive : ArchiveOptions} {type : Text} {before : Int}
    {cursor : Option Text} {merged : List (Entry C)} {page : Page C}
    (merges : Tiered.Merges tiers.hot (coldRows tiers.cold) (archiveQuery archive type before cursor)
      merged page) : PageWithin positions cursor page := by
  refine ⟨fun entry member => ?_, fun next => merges.last⟩
  rcases merges.sound entry (merges.sublist.subset member) with found | found
  · rcases found with ⟨_, stored, _, behind, rfl⟩
    exact ⟨within.hot entry stored, behind⟩
  · rcases found with ⟨_, stored, _, behind, rfl⟩
    exact ⟨within.cold entry stored, behind⟩

omit [JsonContent C] in
/-- Handing over a page adds no positions. -/
theorem Within.hand (within : Within positions tiers) {cursor : Option Text} {page : Page C}
    (pageWithin : PageWithin positions cursor page) (readBack : C -> C) :
    Within positions (tiers.hand readBack page.data) where
  hot := within.hot
  cold := by
    intro row member
    rcases mem_coldRows_write member with before | ⟨entry, handed, rfl⟩
    · exact within.cold row before
    · exact (pageWithin.listed entry handed).1

variable {cold : List (ColdFile C)}

omit [JsonContent C] in
theorem Within.remove (within : Within positions tiers) {gone : List (Entry C)} (maintains : Maintains tiers.cold cold)
    (unfinished : Option TypeScope) : Within positions (tiers.remove gone cold unfinished) where
  hot := fun entry member => within.hot entry (mem_without.mp member).1
  cold := fun row member => within.cold row (maintains row member)

/-! ## The export -/

/-- An export that is capped has moved its cursor on. -/
theorem exporting_moves (archive : ArchiveOptions) (type : Text) (before : Int) (most : Nat) :
    Exporting (quietProtocol options) (Within positions) (archiveQuery archive type before)
      (fun cursor (_ : Tiers C) => left positions cursor ≤ most)
      (fun cursor page _ => left positions cursor ≤ most ∧ PageWithin positions cursor page)
      (fun cursor _ => left positions (some cursor) < most) (fun _ _ => False)
      (fun _ => True) where
  goingStable := fun _ => stable_of_eq _
  listedStable := fun _ _ => stable_of_eq _
  resumableStable := fun _ => stable_of_eq _
  failedStable := fun _ => stable_of_eq _
  drainedStable := stable_of_eq _
  resumes := fun _ _ => Nat.le_of_lt
  get := by
    intro cursor tiers reply next most within replied
    rcases replied with ⟨_, rfl, hotGet, hotAnswers, rfl⟩
    rcases Tiered.exists_merges_get hotAnswers (Tiered.coldAnswers_query options.engine next.cold)
      (archiveQuery archive type before cursor) with ⟨merged, merges⟩
    exact ⟨within, most, pageWithin_of_merges within merges⟩
  empty := fun _ _ _ _ _ => trivial
  sink := by
    intro cursor page _ tiers reply next listed within replied
    rcases replied with ⟨_, rfl, rfl⟩
    refine ⟨within.hand listed.2 options.readBack, ?_⟩
    cases isNext : page.nextCursor with
    | none => trivial
    | some cursor =>
        rcases listed.2.last cursor isNext with ⟨last, isLast, decodes⟩
        rcases listed.2.listed last (List.mem_of_getLast? isLast) with ⟨isPosition, behind⟩
        exact Nat.lt_of_lt_of_le (left_lt isPosition behind decodes) listed.1

/-- What `archiveScope` makes of the resumes: it moves the cursor of an archived
type on or forgets it, and leaves the other types alone. -/
structure Moves (config : Config) (positions : List Position) (memory : Memory) (scope : PruneScope)
    (type : Text) (outcome : Memory × ArchiveResult) : Prop where
  others : forall other, other ≠ type ->
    outcome.1.archiveResume other = memory.archiveResume other
  moved : outcome.2.proceed = false -> Exists fun cursor =>
    outcome.1.archiveResume type =
      some ⟨((memory.archiveResume type).map Resume.before).getD scope.before, cursor⟩ ∧
    left positions (some cursor) <
      left positions ((memory.archiveResume type).map Resume.cursor)
  forgotten : type ∈ config.archivedTypes -> outcome.2.proceed = true ->
    outcome.1.archiveResume type = none ∧
      outcome.2.before.getD scope.before =
        ((memory.archiveResume type).map Resume.before).getD scope.before

variable {memory : Memory} {scope : PruneScope}

omit [JsonContent C] in
theorem settleArchive_moves {type : Text} {before : Int}
    (isBefore : before = ((memory.archiveResume type).map Resume.before).getD scope.before) {ending : ArchiveEnd × Nat}
    (reached : Reached (fun cursor (_ : Tiers C) => left positions (some cursor) <
        left positions ((memory.archiveResume type).map Resume.cursor))
      (fun _ _ => False) (fun _ => True) ending.1 tiers) :
    Moves config positions memory scope type
      (settleArchive memory type before (memory.archiveResume type).isSome ending) := by
  rcases ending with ⟨ending, archived⟩
  cases ending with
  | drained =>
      refine ⟨fun other different => Function.update_of_ne different .., (fun stops => by cases stops),
        fun _ _ => ⟨Function.update_self .., ?_⟩⟩
      cases found : memory.archiveResume type with
      | none => rfl
      | some resume =>
          rw [found] at isBefore
          exact isBefore
  | capped cursor =>
      refine ⟨fun other different => Function.update_of_ne different .., fun _ => ⟨cursor, ?_, reached⟩,
        fun _ proceeds => by cases proceeds⟩
      rw [← isBefore]
      exact Function.update_self ..
  | failed cursor => exact reached.elim

theorem archiveScope_moves (memory : Memory) (scope : PruneScope) (type : Text) (tiers : Tiers C) :
    (quietProtocol options).Ensures (Within positions)
      (fun outcome _ => Moves config positions memory scope type outcome)
      (archiveScope config memory scope (some type)) tiers := by
  refine archiveScope_ensures (fun _ => stable_of_eq _) (fun notArchived => ?_) ?_
  · exact ⟨fun _ _ => rfl, (fun stops => by cases stops),
      fun ofArchive => (notArchived type rfl ofArchive).elim⟩
  · intro archive _ _ isType _ before isBefore
    cases isType
    exact (archiveLoop_ensures (exporting_moves (C := C) archive type before
      (left positions ((memory.archiveResume type).map Resume.cursor)))
      archive.maxBatchesPerCycle_pos 0 (Nat.le_refl _)).weaken fun ending now reached =>
        settleArchive_moves isBefore reached

/-! ## The delete -/

/-- An entry that is not in the hot store any more, or that a delete in progress
is about to reach. -/
def Gone (entry : Entry C) (tiers : Tiers C) : Prop :=
  entry ∈ tiers.hot -> Exists fun scope => tiers.unfinished = some scope ∧ scope.InScope entry

variable {entry : Entry C}

omit [JsonContent C] in
/-- Deletes do not bring an entry back. -/
theorem Gone.remove {request : Request C} (gone : Gone entry tiers) (completes : tiers.Completes request)
    (scope : TypeScope) (goesOn : forall {other limit}, request = .pruneScopedBatch ⟨other, limit⟩ -> other = scope)
    {removed : List (Entry C)} {unfinished : Option TypeScope}
    (reached : scope.InScope entry -> Gone entry (tiers.remove removed cold unfinished)) :
    Gone entry (tiers.remove removed cold unfinished) := by
  intro inHot
  rcases gone (mem_without.mp inHot).1 with ⟨other, pending, inOther⟩
  rcases completes other pending with ⟨limit, asked⟩
  exact reached (goesOn asked ▸ inOther) inHot

omit [JsonContent C] in
theorem gone_of_removed {removed : List (Entry C)} {unfinished : Option TypeScope}
    (isRemoved : entry ∈ tiers.hot -> entry ∈ removed) :
    Gone entry (tiers.remove removed cold unfinished) := by
  intro inHot
  rcases mem_without.mp inHot with ⟨stored, spared⟩
  exact (spared (List.mem_map_of_mem (isRemoved stored))).elim

omit [JsonContent C] in
/-- A batch that has more to delete is going to delete what is in its scope. -/
theorem gone_of_batch {input : BoundedPruneScope} {result : BoundedPruneResult} {removed : List (Entry C)}
    (answers : AnswersBatch tiers.hot input result removed) (inScope : input.InScope entry) :
    Gone entry (tiers.remove removed cold
      (if result.hasMore then some input.toTypeScope else none)) := by
  cases more : result.hasMore with
  | false => exact gone_of_removed fun stored => answers.drained more entry stored inScope
  | true => exact fun _ => ⟨input.toTypeScope, rfl, inScope⟩

omit [JsonContent C] in
/-- Where anything but a bounded delete is asked, what is gone is deleted. -/
theorem Gone.not_mem {request : Request C} (gone : Gone entry tiers) (completes : tiers.Completes request)
    (other : forall input, request ≠ .pruneScopedBatch input) : entry ∉ tiers.hot := by
  intro inHot
  rcases gone inHot with ⟨scope, pending, _⟩
  rcases completes scope pending with ⟨limit, asked⟩
  exact other _ asked

/-- No reply brings an entry back. -/
theorem gone_of_replies {next : Tiers C} {request : Request C} {reply : Reply request}
    (replied : (quietProtocol options).replies tiers request reply next) (gone : Gone entry tiers) :
    Gone entry next := by
  rcases replied with ⟨completes, replied⟩
  cases request with
  | get asked =>
      rcases replied with ⟨rfl, _⟩
      exact gone
  | sink entries =>
      rcases replied with ⟨_, rfl⟩
      exact gone
  | pruneScopedBatch input =>
      rcases replied with ⟨result, removed, cold, _, answers, _, rfl⟩
      refine gone.remove completes input.toTypeScope (fun same => ?_) (gone_of_batch answers)
      cases same
      rfl
  | pruneScoped input =>
      rcases replied with ⟨cold, _, _, rfl⟩
      exact gone_of_removed fun stored => (gone.not_mem completes (fun _ => nofun) stored).elim
  | prune olderThan keepLast =>
      rcases replied with ⟨cold, _, _, rfl⟩
      exact gone_of_removed fun stored => (gone.not_mem completes (fun _ => nofun) stored).elim

/-- What was gone is gone. -/
def KeepsGone (entry : Entry C) (first now : Tiers C) : Prop := Gone entry first -> Gone entry now

/-- What is gone stays gone while a program runs. -/
theorem Ensures.keepingGone {α : Type} {post : α -> Tiers C -> Prop} {program : Step C α} (entry : Entry C)
    (ensures : (quietProtocol options).Ensures (Within positions) post program tiers) :
    (quietProtocol options).Ensures (Within positions)
      (fun value now => post value now ∧ KeepsGone entry tiers now) program tiers := by
  refine Protocol.Ensures.frame (fun earlier later gone => later (earlier gone)) (fun same => ?_)
    (fun replied => gone_of_replies replied) ensures id
  subst same
  exact id

/-- A delete of a scope reaches what is in it. -/
theorem deleteScope_gone (byType : capabilities.ByType) (unset : scope.keepLast = none) {fallbackOlderThan : Int}
    {fallbackKeepLast : Option Int} (entry : Entry C) (tiers : Tiers C) :
    (quietProtocol options).Ensures (Within positions)
      (fun _ now => scope.InScope entry -> Gone entry now)
      (deleteScope config.prune capabilities scope fallbackOlderThan fallbackKeepLast) tiers := by
  have never : capabilities.pruneScoped = false ->
      (capabilities.pruneScopedBatch = true -> scope.keepLast ≠ none) -> False := by
    intro lacks keeps
    rcases byType with byScope | byBatch
    · rw [lacks] at byScope
      cases byScope
    · exact keeps byBatch unset
  refine deleteScope_ensures (stable_of_eq fun _ => True) (stable_of_eq _) (fun _ _ => trivial) ?_ ?_
    (fun lacks keeps => (never lacks keeps).elim) (fun lacks keeps => (never lacks keeps).elim) trivial
  · intro _ _ limit tiers reply next _ within replied
    rcases replied with ⟨_, result, removed, cold, _, answers, maintains, rfl⟩
    exact ⟨within.remove maintains _, gone_of_batch answers⟩
  · intro _ tiers reply next _ within replied
    rcases replied with ⟨_, cold, _, maintains, rfl⟩
    exact ⟨within.remove maintains _,
      fun inScope => gone_of_removed fun stored => mem_doomed unset stored inScope⟩

/-! ## The cycle -/

/-- A bound on the cycles an entry may still wait for its delete. -/
def potential (positions : List Position) (entry : Entry C) : Option Resume -> Nat
  | none => positions.length + 1
  | some resume =>
      left positions (some resume.cursor) + 1 +
        if entry.createdAt < resume.before then 0 else positions.length + 1

omit [JsonContent C] in
theorem potential_pos (positions : List Position) (entry : Entry C) (resume : Option Resume) :
    0 < potential positions entry resume := by
  cases resume with
  | none => exact Nat.succ_pos _
  | some resume => exact Nat.add_pos_left (Nat.succ_pos _) _

omit [JsonContent C] in
theorem potential_le (entry : Entry C) (resume : Option Resume) :
    potential positions entry resume ≤ 2 * positions.length + 2 := by
  cases resume with
  | none =>
      rw [potential]
      omega
  | some resume =>
      have most := left_le positions (some resume.cursor)
      rw [potential]
      split <;> omega

omit [JsonContent C] in
/-- A capped cycle brings an entry that was past its cutoff closer to its delete. -/
theorem Moves.potential_capped {type : Text} {outcome : Memory × ArchiveResult}
    (moves : Moves config positions memory scope type outcome) (past : entry.createdAt < scope.before)
    (stops : outcome.2.proceed = false) :
    potential positions entry (outcome.1.archiveResume type) <
      potential positions entry (memory.archiveResume type) := by
  rcases moves.moved stops with ⟨cursor, resumes, fewer⟩
  rw [resumes]
  cases found : memory.archiveResume type with
  | none =>
      rw [found] at fewer
      have most := left_le positions none
      simp only [potential, Option.map_none, Option.getD_none, if_pos past] at fewer ⊢
      omega
  | some resume =>
      rw [found] at fewer
      simp only [potential, Option.map_some, Option.getD_some] at fewer ⊢
      omega

omit [JsonContent C] in
/-- So does one that drains an export begun before the entry was past its cutoff. -/
theorem Moves.potential_drained {type : Text} {outcome : Memory × ArchiveResult}
    (moves : Moves config positions memory scope type outcome) (ofArchive : type ∈ config.archivedTypes)
    (past : entry.createdAt < scope.before) (proceeds : outcome.2.proceed = true)
    (spared : ¬ entry.createdAt < outcome.2.before.getD scope.before) :
    potential positions entry (outcome.1.archiveResume type) <
      potential positions entry (memory.archiveResume type) := by
  rcases moves.forgotten ofArchive proceeds with ⟨resumes, cutoff⟩
  rw [cutoff] at spared
  rw [resumes]
  cases found : memory.archiveResume type with
  | none =>
      rw [found] at spared
      exact (spared past).elim
  | some resume =>
      rw [found] at spared
      simp only [Option.map_some, Option.getD_some] at spared
      simp only [potential, if_neg spared]
      omega

/-- An entry of an archived type that the next cycles find past its cutoff. -/
structure Awaited (config : Config) (startedAtMs : Int) (entry : Entry C) : Prop where
  archived : entry.type ∈ config.archivedTypes
  past : entry.createdAt < typeCutoff config.prune startedAtMs entry.type

/-- Gone, or with a potential that the cycle lowers once it has come to the type
of the entry. -/
def Pending (positions : List Position) (entry : Entry C) (bound : Nat) (types : List Text)
    (resumes : Text -> Option Resume) (tiers : Tiers C) : Prop :=
  Gone entry tiers ∨ potential positions entry (resumes entry.type) ≤
    if entry.type ∈ types then bound else bound - 1

theorem step_pending (byType : capabilities.ByType) (unset : config.prune.keepLast = none) {startedAtMs : Int}
    (awaited : Awaited config startedAtMs entry) (bound : Nat) (type : Text) (types : List Text) :
    StepEnsures (quietProtocol options) (Within positions) config capabilities
      (typeScope config.prune startedAtMs type) (some type)
      (Pending positions entry bound (type :: types)) (Pending positions entry bound types) := by
  intro memory tiers pending
  let advances : (Text -> Option Resume) -> Tiers C -> Prop := fun resumes now =>
    (entry.type ≠ type -> resumes entry.type = memory.archiveResume entry.type) ∧
      (entry.type = type -> Gone entry now ∨ potential positions entry (resumes entry.type) <
        potential positions entry (memory.archiveResume entry.type))
  have step : (quietProtocol options).Ensures (Within positions)
      (fun outcome => advances outcome.1.archiveResume)
      (pruneArchivedThenDelete config capabilities memory
        (typeScope config.prune startedAtMs type).before config.prune.keepLast
        (typeScope config.prune startedAtMs type) (some type)) tiers := by
    refine pruneArchivedThenDelete_ensures (fun _ => stable_of_eq _)
      (archiveScope_moves memory (typeScope config.prune startedAtMs type) type tiers)
      (fun outcome now moves stops => ?_) fun outcome now moves proceeds => ?_
    · refine ⟨moves.others entry.type, fun ofType => .inr ?_⟩
      subst ofType
      exact moves.potential_capped awaited.past stops
    · refine (deleteScope_gone byType ((effectiveScope_keepLast _ _).trans unset) entry now).weaken
        fun _ later gone => ⟨moves.others entry.type, fun ofType => ?_⟩
      subst ofType
      by_cases covered : entry.createdAt <
          outcome.2.before.getD (typeScope config.prune startedAtMs entry.type).before
      · refine .inl (gone ⟨?_, ?_⟩)
        · rw [effectiveScope_before]
          exact covered
        · rw [TypeScope.Selects, effectiveScope_type]
          rfl
      · exact .inr (moves.potential_drained awaited.archived awaited.past proceeds covered)
  refine (Ensures.keepingGone entry step).weaken fun outcome now both => ?_
  rcases both with ⟨⟨others, own⟩, keeps⟩
  rcases pending with gone | within
  · exact .inl (keeps gone)
  · by_cases ofType : entry.type = type
    · rcases own ofType with gone | lower
      · exact .inl gone
      · rw [if_pos (ofType ▸ List.mem_cons_self ..)] at within
        refine .inr ?_
        split <;> omega
    · refine .inr ?_
      rw [others ofType]
      simpa only [List.mem_cons, ofType, false_or] using within

theorem bulk_pending {startedAtMs : Int} (byType : capabilities.ByType) (unset : config.prune.keepLast = none)
    (awaited : Awaited config startedAtMs entry) (bound : Nat) :
    StepEnsures (quietProtocol options) (Within positions) config capabilities
      (bulkScope config startedAtMs) none
      (fun resumes tiers => Gone entry tiers ∨ potential positions entry (resumes entry.type) ≤ bound)
      (Pending positions entry bound (individualTypes config)) := by
  intro memory tiers pending
  let same : (Text -> Option Resume) -> Tiers C -> Prop := fun resumes _ =>
    resumes = memory.archiveResume
  have step : (quietProtocol options).Ensures (Within positions)
      (fun outcome => same outcome.1.archiveResume)
      (pruneArchivedThenDelete config capabilities memory (bulkScope config startedAtMs).before
        config.prune.keepLast (bulkScope config startedAtMs) none) tiers := by
    let kept : Memory × ArchiveResult -> Tiers C -> Prop := fun outcome _ =>
      outcome.1.archiveResume = memory.archiveResume
    have exports : (quietProtocol options).Ensures (Within positions) kept
        (archiveScope config memory (bulkScope config startedAtMs) none) tiers :=
      archiveScope_ensures (fun _ => stable_of_eq _) (fun _ => rfl) fun _ _ _ found => by cases found
    refine pruneArchivedThenDelete_ensures (fun _ => stable_of_eq _) exports
      (fun _ _ isSame _ => isSame) fun outcome now isSame _ => ?_
    exact (deleteScope_gone byType ((effectiveScope_keepLast _ _).trans unset) entry now).weaken
      fun _ _ _ => isSame
  refine (Ensures.keepingGone entry step).weaken fun outcome now both => ?_
  rcases pending with gone | within
  · exact .inl (both.2 gone)
  · refine .inr ?_
    have isSame : outcome.1.archiveResume = memory.archiveResume := both.1
    rw [isSame, if_pos (mem_individualTypes.mpr (.inr awaited.archived))]
    exact within

/-- A cycle lowers the bound. -/
theorem runGuardedCycle_lowers (byType : capabilities.ByType) (unset : config.prune.keepLast = none) {startedAtMs : Int}
    (trigger : PruneTrigger) (awaited : Awaited config startedAtMs entry) {bound : Nat} (holds : Gone entry tiers ∨
      potential positions entry (memory.archiveResume entry.type) ≤ bound) :
    (quietProtocol options).Ensures (Within positions)
      (fun outcome now => Gone entry now ∨
        potential positions entry (outcome.1.archiveResume entry.type) ≤ bound - 1)
      (runGuardedCycle config capabilities startedAtMs trigger memory) tiers := by
  have cycle : (quietProtocol options).Ensures (Within positions)
      (fun outcome => Pending positions entry bound [] outcome.1.archiveResume)
      (runGuardedCycle config capabilities startedAtMs trigger memory) tiers :=
    runGuardedCycle_ensures
      (fun resumes now => Gone entry now ∨ potential positions entry (resumes entry.type) ≤ bound)
      (Pending positions entry bound) (fun _ => stable_of_eq _) (bulk_pending byType unset awaited bound)
      (step_pending byType unset awaited bound) holds
  refine cycle.weaken fun outcome now pending => ?_
  rwa [Pending, if_neg List.not_mem_nil] at pending

/-- Cycles that are started when the entry is past its cutoff. -/
def StartsPast (config : Config) (capabilities : Capabilities) (entry : Entry C) (memory : Memory)
    (program : Step C (Memory × Nat)) : Prop :=
  Exists fun startedAtMs => Exists fun trigger =>
    entry.createdAt < typeCutoff config.prune startedAtMs entry.type ∧
      program = runGuardedCycle config capabilities startedAtMs trigger memory

/-- After as many cycles as this, an entry of an archived type that was past its
cutoff in all of them is deleted. -/
theorem not_mem_hot_of_rounds (byType : capabilities.ByType) (unset : config.prune.keepLast = none) {last : Tiers C}
    {ended : Memory} (archived : entry.type ∈ config.archivedTypes) {rounds : Nat}
    (enough : 2 * (tiers.hot.length + (coldRows tiers.cold).length) + 2 ≤ rounds)
    (run : (quietProtocol options).Rounds (StartsPast config capabilities entry) rounds tiers memory
      last ended) (completed : last.unfinished = none) : entry ∉ last.hot := by
  let positions := (tiers.hot ++ coldRows tiers.cold).map Entry.position
  have within : Within positions tiers :=
    ⟨fun entry member => List.mem_map_of_mem (List.mem_append_left _ member),
      fun row member => List.mem_map_of_mem (List.mem_append_right _ member)⟩
  have size : positions.length = tiers.hot.length + (coldRows tiers.cold).length := by
    rw [List.length_map, List.length_append]
  have lowered := Protocol.bound_of_rounds
    (fun bound memory now =>
      Gone entry now ∨ potential positions entry (memory.archiveResume entry.type) ≤ bound)
    (fun same => same ▸ id) (fun bound memory program now started holds => ?_) within
    (.inr (potential_le entry (memory.archiveResume entry.type))) run
  · rcases lowered.2 with gone | none
    · intro inHot
      rcases gone inHot with ⟨scope, pending, _⟩
      rw [completed] at pending
      cases pending
    · have positive := potential_pos positions entry (ended.archiveResume entry.type)
      omega
  · rcases started with ⟨startedAtMs, trigger, past, rfl⟩
    exact runGuardedCycle_lowers byType unset trigger ⟨archived, past⟩ holds

end Parquet
end Telescope
