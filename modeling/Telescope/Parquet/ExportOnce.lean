import Telescope.Parquet.Tiered
import Telescope.Prune.Contract
import Telescope.Prune.Rules

namespace Telescope
namespace Parquet

open Prune

/-!
# What a tiered archive hands over

The pruner exports what it reads, and a tiered store reads the cold tier too.  As
long as every cold entry an export would list is still in the hot store as well,
no entry is handed over twice: what was handed and is not deleted yet lies ahead
of the cursor its export will be resumed from.  Whatever is read, an entry that is
older than the cutoffs leaves the hot store, since every capped cycle moves the
cursor on.
-/

variable {C : Type}

/-- The same record, whatever became of its other fields. -/
def CopyOf (copy original : Entry C) : Prop :=
  copy.id = original.id ∧ copy.type = original.type ∧ copy.createdAt = original.createdAt

theorem CopyOf.trans {first second third : Entry C} (earlier : CopyOf first second)
    (later : CopyOf second third) : CopyOf first third :=
  ⟨earlier.1.trans later.1, earlier.2.1.trans later.2.1, earlier.2.2.trans later.2.2⟩

variable {original : Entry C}

theorem CopyOf.position {copy : Entry C} (copyOf : CopyOf copy original) :
    copy.position = original.position := by
  rw [Entry.position, Entry.position, copyOf.1, copyOf.2.2]

theorem CopyOf.inScope {copy : Entry C} (copyOf : CopyOf copy original) {scope : TypeScope}
    (inScope : scope.InScope original) : scope.InScope copy := by
  rw [TypeScope.InScope, copyOf.2.1, copyOf.2.2]
  exact inScope

theorem CopyOf.behindCursor {copy : Entry C} (copyOf : CopyOf copy original) (cursor : Option Position) :
    behindCursor cursor copy = behindCursor cursor original := by
  rw [Telescope.behindCursor, Telescope.behindCursor, copyOf.position]

/-- The two tiers, with a record of what the sink was handed, of those handed
entries of which the hot store held no copy, and of a bounded delete that has not
reached the end of its scope. -/
structure Tiers (C : Type) where
  hot : List (Entry C)
  cold : List (ColdFile C)
  handed : List (Entry C) := []
  strays : List (Entry C) := []
  unfinished : Option TypeScope := none

namespace Tiers

/-- The sink is the cold store's `write`. -/
def hand (readBack : C -> C) (tiers : Tiers C) (entries : List (Entry C)) : Tiers C :=
  { tiers with
    cold := write readBack tiers.cold entries
    handed := tiers.handed ++ entries
    strays := tiers.strays ++ entries.filter fun entry => decide (entry.id ∉ tiers.hot.map Entry.id) }

/-- A prune deletes hot entries, and maintains the cold tier afterwards. -/
def remove (tiers : Tiers C) (gone : List (Entry C)) (cold : List (ColdFile C))
    (unfinished : Option TypeScope) : Tiers C :=
  { tiers with
    hot := without tiers.hot gone
    cold := cold
    unfinished := unfinished }

/-- What others do meanwhile: they store and update hot entries. -/
structure Stores (tiers now : Tiers C) : Prop where
  distinct : Entry.DistinctIds tiers.hot -> Entry.DistinctIds now.hot
  kept : forall entry, entry ∈ tiers.hot -> Exists fun stored => stored ∈ now.hot ∧ CopyOf entry stored
  fresh : forall entry, entry ∈ now.hot ->
    (Exists fun stored => stored ∈ tiers.hot ∧ CopyOf entry stored) ∨
      entry.id ∉ tiers.handed.map Entry.id
  rest : now = { tiers with hot := now.hot }

/-- The request goes on with the delete that is not finished, if there is one. -/
def Completes (tiers : Tiers C) (request : Request C) : Prop :=
  forall scope, tiers.unfinished = some scope ->
    Exists fun limit => request = .pruneScopedBatch ⟨scope, limit⟩

/-- No entry was handed over twice, and none that was not in the hot store. -/
structure HandedOnce (tiers : Tiers C) : Prop where
  once : Entry.DistinctIds tiers.handed
  noStrays : tiers.strays = []

end Tiers

/-- Compaction and retention add no rows. -/
def Maintains (before now : List (ColdFile C)) : Prop :=
  forall row, row ∈ coldRows now -> row ∈ coldRows before

variable [JsonContent C]

/-- A hot store with cursors of its own, the engine of the cold tier and what
JSON makes of a content. -/
structure TieredStorageOptions (C : Type) [JsonContent C] where
  hotReads : Text -> Option Position
  engine : ColdEngine C
  readBack : C -> C

/-- The replies of the tiered provider and of its archive sink, none of which
fails. -/
def tieredReplies (options : TieredStorageOptions C) (tiers : Tiers C) :
    (request : Request C) -> Reply request -> Tiers C -> Prop
  | .get asked, reply, next =>
      next = tiers ∧ Exists fun hotGet =>
        Tiered.HotAnswers options.hotReads tiers.hot hotGet ∧
          reply = .ok (Tiered.get hotGet
            (fun asked limit => some (query options.engine tiers.cold (some limit) asked)) asked)
  | .sink entries, reply, next => reply = .ok () ∧ next = tiers.hand options.readBack entries
  | .pruneScopedBatch input, reply, next =>
      Exists fun result => Exists fun gone => Exists fun cold =>
        reply = .ok result ∧ AnswersBatch tiers.hot input result gone ∧ Maintains tiers.cold cold ∧
          next = tiers.remove gone cold (if result.hasMore then some input.toTypeScope else none)
  | .pruneScoped input, reply, next =>
      Exists fun cold =>
        reply = .ok (input.doomed tiers.hot).length ∧ Maintains tiers.cold cold ∧
          next = tiers.remove (input.doomed tiers.hot) cold none
  | .prune olderThan keepLast, reply, next =>
      Exists fun cold =>
        reply = .ok ((globalScope olderThan keepLast).doomed tiers.hot).length ∧
          Maintains tiers.cold cold ∧
            next = tiers.remove ((globalScope olderThan keepLast).doomed tiers.hot) cold none

/-- Tiers under prune cycles without failures, in which every delete is completed
before anything else is asked. -/
def tieredProtocol (options : TieredStorageOptions C) : Protocol (Tiers C) (Request C) Reply where
  interferes := Tiers.Stores
  interferes_refl := fun _ =>
    ⟨id, fun entry member => ⟨entry, member, rfl, rfl, rfl⟩,
      fun entry member => .inl ⟨entry, member, rfl, rfl, rfl⟩, rfl⟩
  interferes_trans := by
    intro first second third earlier later
    refine ⟨later.distinct ∘ earlier.distinct, ?_, ?_, ?_⟩
    · intro entry member
      rcases earlier.kept entry member with ⟨stored, still, copyOf⟩
      rcases later.kept stored still with ⟨last, present, again⟩
      exact ⟨last, present, copyOf.trans again⟩
    · intro entry member
      have handed : second.handed = first.handed := by rw [earlier.rest]
      rcases later.fresh entry member with ⟨stored, present, copyOf⟩ | fresh
      · rcases earlier.fresh stored present with ⟨old, before, again⟩ | fresh
        · exact .inl ⟨old, before, copyOf.trans again⟩
        · exact .inr (copyOf.1 ▸ fresh)
      · exact .inr (handed ▸ fresh)
    · rw [later.rest, earlier.rest]
  replies tiers request reply next :=
    tiers.Completes request ∧ tieredReplies options tiers request reply next

/-- The condition: every cold entry that a page of the export would list is in
the hot store too. -/
def ListsHotCopies (tiers : Tiers C) : (request : Request C) -> Reply request -> Prop
  | .get asked, _ =>
      forall row, row ∈ coldRows tiers.cold -> asked.Matches row ->
        behindCursor (asked.cursor.bind decodeCursor) row = true ->
          Exists fun stored => stored ∈ tiers.hot ∧ CopyOf row stored
  | _, _ => True

/-! ## What was handed is accounted for -/

/-- An entry that was handed over lies ahead of where the export of its type will
be resumed, or is about to be deleted. -/
def Account (resumes : Text -> Option Resume) (tiers : Tiers C) (entry : Entry C) : Prop :=
  (Exists fun resume => resumes entry.type = some resume ∧ entry.createdAt < resume.before ∧
    behindCursor (decodeCursor resume.cursor) entry = false) ∨
  Exists fun scope => tiers.unfinished = some scope ∧ scope.InScope entry

/-- Every hot entry that was handed over is accounted for, or in a scope that is
to be deleted. -/
def AccountedBut (doomed : Entry C -> Prop) (resumes : Text -> Option Resume) (tiers : Tiers C) :
    Prop :=
  forall entry, entry ∈ tiers.hot -> entry.id ∈ tiers.handed.map Entry.id ->
    doomed entry ∨ Account resumes tiers entry

def Accounted (resumes : Text -> Option Resume) (tiers : Tiers C) : Prop :=
  AccountedBut (fun _ => False) resumes tiers

section Accounts

omit [JsonContent C]

variable {resumes : Text -> Option Resume} {tiers now : Tiers C}

theorem Account.copy {copy : Entry C} (account : Account resumes tiers original) (copyOf : CopyOf copy original) :
    Account resumes tiers copy := by
  rcases account with ⟨resume, found, older, ahead⟩ | ⟨scope, unfinished, inScope⟩
  · refine .inl ⟨resume, copyOf.2.1 ▸ found, copyOf.2.2 ▸ older, ?_⟩
    rw [copyOf.behindCursor, ahead]
  · exact .inr ⟨scope, unfinished, copyOf.inScope inScope⟩

theorem AccountedBut.stores {doomed : Entry C -> Prop}
    (closed : forall {copy original}, CopyOf copy original -> doomed original -> doomed copy)
    (accounted : AccountedBut doomed resumes tiers) (stores : tiers.Stores now) :
    AccountedBut doomed resumes now := by
  intro entry member wasHanded
  have handed : now.handed = tiers.handed := by rw [stores.rest]
  have unfinished : now.unfinished = tiers.unfinished := by rw [stores.rest]
  rw [handed] at wasHanded
  rcases stores.fresh entry member with ⟨stored, before, copyOf⟩ | fresh
  · refine (accounted stored before (copyOf.1 ▸ wasHanded)).imp (closed copyOf) fun account => ?_
    have same := account.copy copyOf
    rwa [Account, ← unfinished] at same
  · exact (fresh wasHanded).elim

theorem Accounted.but {doomed : Entry C -> Prop} (accounted : Accounted resumes tiers) :
    AccountedBut doomed resumes tiers :=
  fun entry member handed => (accounted entry member handed).imp_left False.elim

end Accounts

/-- What every state of a run keeps. -/
structure Tidy (tiers : Tiers C) : Prop where
  distinct : Entry.DistinctIds tiers.hot
  handedOnce : tiers.HandedOnce

/-! ## The export -/

section Export

/-- A page at hand: entries of the type under the cutoff and behind the cursor,
each once, of all of which the hot store has a copy. -/
structure PageAtHand (type : Text) (before : Int) (cursor : Option Text) (page : Page C)
    (tiers : Tiers C) : Prop where
  completed : tiers.unfinished = none
  distinct : Entry.DistinctIds page.data
  sorted : NewestFirst page.data
  last : forall next, page.nextCursor = some next -> Exists fun last =>
    page.data.getLast? = some last ∧ decodeCursor next = some last.position
  asked : forall entry, entry ∈ page.data -> entry.type = type ∧ entry.createdAt < before ∧
    behindCursor (cursor.bind decodeCursor) entry = true
  hot : forall entry, entry ∈ page.data ->
    Exists fun stored => stored ∈ tiers.hot ∧ CopyOf entry stored

variable {type : Text} {before : Int} {cursor : Option Text} {page : Page C} {tiers now : Tiers C}
  {resumes : Text -> Option Resume}

omit [JsonContent C] in
theorem PageAtHand.stores (atHand : PageAtHand type before cursor page tiers)
    (stores : tiers.Stores now) : PageAtHand type before cursor page now where
  completed := by rw [stores.rest]; exact atHand.completed
  distinct := atHand.distinct
  sorted := atHand.sorted
  last := atHand.last
  asked := atHand.asked
  hot := by
    intro entry member
    rcases atHand.hot entry member with ⟨stored, before, copyOf⟩
    rcases stores.kept stored before with ⟨later, still, again⟩
    exact ⟨later, still, copyOf.trans again⟩

/-- Where an export of a type stands. -/
def markAt (resumes : Text -> Option Resume) (type : Text) (before : Int) (cursor : Option Text) :
    Text -> Option Resume :=
  Function.update resumes type (cursor.map fun cursor => ⟨before, cursor⟩)

/-- A page as the tiered store reads it under the condition is one at hand. -/
theorem pageAtHand_of_merges {archive : ArchiveOptions} {merged : List (Entry C)}
    (completed : tiers.unfinished = none)
    (merges : Tiered.Merges tiers.hot (coldRows tiers.cold) (archiveQuery archive type before cursor)
      merged page)
    (copies : forall row, row ∈ coldRows tiers.cold ->
      (archiveQuery archive type before cursor).Matches row ->
      behindCursor (cursor.bind decodeCursor) row = true ->
        Exists fun stored => stored ∈ tiers.hot ∧ CopyOf row stored) :
    PageAtHand type before cursor page tiers := by
  refine ⟨completed, Entry.distinctIds_sublist merges.sublist merges.distinct,
    merges.sorted.sublist merges.sublist, fun next => merges.last, ?_, ?_⟩
  · intro entry member
    rcases merges.sound entry (merges.sublist.subset member) with found | found <;>
      rcases found with ⟨original, _, asks, behind, rfl⟩ <;>
      exact ⟨asks.1 type rfl, asks.2.2.2.2.2.2.2.1 before rfl, behind⟩
  · intro entry member
    rcases merges.sound entry (merges.sublist.subset member) with found | found
    · rcases found with ⟨_, stored, _, _, rfl⟩
      exact ⟨entry, stored, rfl, rfl, rfl⟩
    · rcases found with ⟨_, stored, asks, behind, rfl⟩
      exact copies entry stored asks behind

omit [JsonContent C] in
/-- What is on a page at hand was not handed over before. -/
theorem PageAtHand.fresh (atHand : PageAtHand type before cursor page tiers)
    (accounted : Accounted (markAt resumes type before cursor) tiers) {entry : Entry C}
    (onPage : entry ∈ page.data) : entry.id ∉ tiers.handed.map Entry.id := by
  intro handed
  rcases atHand.asked entry onPage with ⟨ofType, _, behind⟩
  rcases atHand.hot entry onPage with ⟨stored, inHot, copyOf⟩
  rcases accounted stored inHot (copyOf.1 ▸ handed) with never | account
  · exact never
  · rcases account.copy copyOf with ⟨resume, found, _, ahead⟩ | ⟨scope, unfinished, _⟩
    · rw [ofType, markAt, Function.update_self] at found
      cases cursor with
      | none => cases found
      | some cursor =>
          cases found
          exact Bool.false_ne_true (ahead.symm.trans behind)
    · rw [atHand.completed] at unfinished
      cases unfinished

omit [JsonContent C] in
/-- Handing a page over hands nothing over twice. -/
theorem PageAtHand.handedOnce (atHand : PageAtHand type before cursor page tiers)
    (accounted : Accounted (markAt resumes type before cursor) tiers) (readBack : C -> C)
    (once : tiers.HandedOnce) : (tiers.hand readBack page.data).HandedOnce where
  once := by
    rw [Entry.DistinctIds, Tiers.hand, List.map_append]
    refine List.nodup_append.mpr ⟨once.once, atHand.distinct, ?_⟩
    rintro id handed _ onPage rfl
    rcases List.mem_map.mp onPage with ⟨entry, member, rfl⟩
    exact atHand.fresh accounted member handed
  noStrays := by
    rw [Tiers.hand, once.noStrays, List.nil_append, List.filter_eq_nil_iff]
    intro entry member
    rcases atHand.hot entry member with ⟨stored, inHot, copyOf⟩
    rw [decide_eq_true_eq, not_not, copyOf.1]
    exact List.mem_map_of_mem inHot

omit [JsonContent C] in
/-- A handed entry of the type is under the cutoff, and ahead of the page's
cursor. -/
theorem PageAtHand.ahead (atHand : PageAtHand type before cursor page tiers)
    (accounted : Accounted (markAt resumes type before cursor) tiers)
    {readBack : C -> C} {entry : Entry C} (inHot : entry ∈ tiers.hot)
    (distinct : Entry.DistinctIds tiers.hot)
    (handed : entry.id ∈ (tiers.hand readBack page.data).handed.map Entry.id) :
    (entry.type = type ∧ entry.createdAt < before ∧ forall next, page.nextCursor = some next ->
      behindCursor (decodeCursor next) entry = false) ∨
    (entry.type ≠ type ∧ Exists fun resume => resumes entry.type = some resume ∧
      entry.createdAt < resume.before ∧ behindCursor (decodeCursor resume.cursor) entry = false) := by
  rw [Tiers.hand, List.map_append] at handed
  rcases List.mem_append.mp handed with before' | now
  · rcases accounted entry inHot before' with never | ⟨resume, found, older, ahead⟩ | pending
    · exact never.elim
    · by_cases ofType : entry.type = type
      · refine .inl ⟨ofType, ?_⟩
        rw [ofType, markAt, Function.update_self] at found
        cases cursor with
        | none => cases found
        | some cursor =>
            cases found
            refine ⟨older, fun next isNext => ?_⟩
            rcases atHand.last next isNext with ⟨last, isLast, decodes⟩
            have behind := (atHand.asked last (List.mem_of_getLast? isLast)).2.2
            rw [decodes]
            refine decide_eq_false fun reached => Bool.false_ne_true (ahead.symm.trans ?_)
            change behindCursor (decodeCursor cursor) last = true at behind
            cases decoded : decodeCursor cursor with
            | none => rfl
            | some position =>
                rw [decoded] at behind
                exact decide_eq_true (Position.newer_trans (of_decide_eq_true behind) reached)
      · rw [markAt, Function.update_of_ne ofType] at found
        exact .inr ⟨ofType, resume, found, older, ahead⟩
    · rcases pending with ⟨scope, unfinished, _⟩
      rw [atHand.completed] at unfinished
      cases unfinished
  · rcases List.mem_map.mp now with ⟨listed, onPage, sameId⟩
    rcases atHand.hot listed onPage with ⟨stored, isStored, copyOf⟩
    have same : stored = entry := Entry.eq_of_id distinct isStored inHot (copyOf.1.symm.trans sameId)
    rw [same] at copyOf
    rcases atHand.asked listed onPage with ⟨ofType, older, _⟩
    refine .inl ⟨copyOf.2.1 ▸ ofType, copyOf.2.2 ▸ older, fun next isNext => ?_⟩
    rcases atHand.last next isNext with ⟨last, isLast, decodes⟩
    rw [decodes, ← copyOf.behindCursor]
    refine decide_eq_false fun reached => ?_
    rcases List.getLast?_eq_some_iff.mp isLast with ⟨earlier, split⟩
    have sorted := atHand.sorted
    rw [split] at onPage sorted
    rcases List.mem_append.mp onPage with isEarlier | isLast
    · exact Position.newer_asymm reached
        ((List.pairwise_append.mp sorted).2.2 listed isEarlier last (List.mem_singleton_self _))
    · rw [List.mem_singleton.mp isLast] at reached
      exact Position.newer_asymm reached reached

variable {options : TieredStorageOptions C} {config : Config} {capabilities : Capabilities}

/-- The tiers under the condition. -/
def onceProtocol (options : TieredStorageOptions C) : Protocol (Tiers C) (Request C) Reply :=
  (tieredProtocol options).meeting ListsHotCopies

/-- Accounts survive what others store. -/
theorem stable_accountedBut {doomed : Entry C -> Prop}
    (closed : forall {copy original}, CopyOf copy original -> doomed original -> doomed copy)
    (resumes : Text -> Option Resume) :
    (onceProtocol options).Stable (AccountedBut doomed resumes) :=
  fun _ _ stores accounted => accounted.stores closed stores

theorem stable_accounted (resumes : Text -> Option Resume) :
    (onceProtocol options).Stable (Accounted resumes) :=
  stable_accountedBut (fun _ => False.elim) resumes

/-- In the scope of the delete that follows an export. -/
def ExportDoomed (type : Text) (before : Int) (entry : Entry C) : Prop :=
  entry.type = type ∧ entry.createdAt < before

omit [JsonContent C] in
theorem ExportDoomed.copy {copy : Entry C} (copyOf : CopyOf copy original)
    (doomed : ExportDoomed type before original) : ExportDoomed type before copy :=
  ⟨copyOf.2.1 ▸ doomed.1, copyOf.2.2 ▸ doomed.2⟩

/-- An export hands over what is behind its mark, and moves the mark. -/
theorem exporting_once (archive : ArchiveOptions) (type : Text) (before : Int)
    (resumes : Text -> Option Resume) :
    Exporting (onceProtocol options) Tidy (archiveQuery archive type before)
      (fun cursor => Accounted (markAt resumes type before cursor))
      (fun cursor page tiers => Accounted (markAt resumes type before cursor) tiers ∧
        PageAtHand type before cursor page tiers)
      (fun cursor => Accounted (markAt resumes type before (some cursor)))
      (fun _ _ => False)
      (AccountedBut (ExportDoomed type before) (Function.update resumes type none)) where
  goingStable := fun _ => stable_accounted _
  listedStable := fun _ _ _ _ stores both =>
    ⟨both.1.stores (fun _ => False.elim) stores, both.2.stores stores⟩
  resumableStable := fun _ => stable_accounted _
  failedStable := fun _ _ _ _ => id
  drainedStable := stable_accountedBut ExportDoomed.copy _
  resumes := fun _ _ => id
  get := by
    intro cursor tiers reply next accounted tidy replied
    rcases replied with ⟨copies, completes, rfl, hotGet, hotAnswers, rfl⟩
    refine ⟨tidy, accounted, ?_⟩
    have completed : next.unfinished = none := by
      cases unfinished : next.unfinished with
      | none => rfl
      | some scope =>
          rcases completes scope unfinished with ⟨_, request⟩
          cases request
    rcases Tiered.exists_merges_get hotAnswers (Tiered.coldAnswers_query options.engine next.cold)
      (archiveQuery archive type before cursor) with ⟨merged, merges⟩
    exact pageAtHand_of_merges completed merges copies
  empty := by
    intro cursor page tiers listed _ entry inHot handed
    rcases listed.1 entry inHot handed with never | ⟨resume, found, older, ahead⟩ | pending
    · exact never.elim
    · by_cases ofType : entry.type = type
      · rw [ofType, markAt, Function.update_self] at found
        cases cursor with
        | none => cases found
        | some cursor =>
            cases found
            exact .inl ⟨ofType, older⟩
      · rw [markAt, Function.update_of_ne ofType] at found
        refine .inr (.inl ⟨resume, ?_, older, ahead⟩)
        rwa [Function.update_of_ne ofType]
    · exact .inr (.inr pending)
  sink := by
    intro cursor page _ tiers reply next listed tidy replied
    rcases replied with ⟨_, _, rfl, rfl⟩
    have account : forall entry, entry ∈ tiers.hot ->
        entry.id ∈ (tiers.hand options.readBack page.data).handed.map Entry.id -> _ :=
      fun entry inHot handed => listed.2.ahead listed.1 inHot tidy.distinct handed
    refine ⟨⟨tidy.distinct, listed.2.handedOnce listed.1 options.readBack tidy.handedOnce⟩, ?_⟩
    cases isNext : page.nextCursor with
    | none =>
        intro entry inHot handed
        rcases account entry inHot handed with ⟨ofType, older, _⟩ | ⟨ofOther, resume, found, rest⟩
        · exact .inl ⟨ofType, older⟩
        · refine .inr (.inl ⟨resume, ?_, rest⟩)
          rwa [Function.update_of_ne ofOther]
    | some cursor =>
        intro entry inHot handed
        rcases account entry inHot handed with
          ⟨ofType, older, ahead⟩ | ⟨ofOther, resume, found, rest⟩
        · refine .inr (.inl ⟨⟨before, cursor⟩, ?_, older, ahead cursor isNext⟩)
          rw [ofType, markAt, Function.update_self]
          rfl
        · refine .inr (.inl ⟨resume, ?_, rest⟩)
          rwa [markAt, Function.update_of_ne ofOther]

/-- What `archiveScope` leaves: accounts that hold but for what is to be deleted. -/
def Exports (scope : PruneScope) (outcome : Memory × ArchiveResult) (tiers : Tiers C) : Prop :=
  (outcome.2.proceed = false -> Accounted outcome.1.archiveResume tiers) ∧
    (outcome.2.proceed = true ->
      AccountedBut (effectiveScope scope outcome.2.before).InScope outcome.1.archiveResume tiers)

theorem stable_exports (scope : PruneScope) (outcome : Memory × ArchiveResult) :
    (onceProtocol options).Stable (Exports (C := C) scope outcome) :=
  fun _ _ stores exports =>
    ⟨fun stops => (exports.1 stops).stores (fun _ => False.elim) stores,
      fun proceeds => (exports.2 proceeds).stores (fun copyOf inScope => copyOf.inScope inScope) stores⟩

omit [JsonContent C] in
/-- The scope of a type dooms what its export covers. -/
theorem AccountedBut.inScope {prune : PruneOptions} {startedAtMs : Int} {cutoff : Option Int}
    (isBefore : before = cutoff.getD (typeScope prune startedAtMs type).before)
    (accounted : AccountedBut (ExportDoomed type before) resumes tiers) :
    AccountedBut (effectiveScope (typeScope prune startedAtMs type) cutoff).InScope resumes tiers := by
  intro entry inHot handed
  refine (accounted entry inHot handed).imp_left fun doomed => ⟨?_, ?_⟩
  · rw [effectiveScope_before, ← isBefore]
    exact doomed.2
  · rw [TypeScope.Selects, effectiveScope_type]
    exact doomed.1

omit [JsonContent C] in
theorem settleArchive_exports {memory : Memory} {prune : PruneOptions} {startedAtMs : Int}
    {resumed : Bool} (cutoff : resumed = false -> before = (typeScope prune startedAtMs type).before)
    {ending : ArchiveEnd × Nat}
    (reached : Reached
      (fun cursor => Accounted (markAt memory.archiveResume type before (some cursor)))
      (fun _ _ => False)
      (AccountedBut (ExportDoomed type before) (Function.update memory.archiveResume type none))
      ending.1 tiers) :
    Exports (typeScope prune startedAtMs type) (settleArchive memory type before resumed ending)
      tiers := by
  rcases ending with ⟨ending, archived⟩
  cases ending with
  | drained =>
      refine ⟨(fun stops => by cases stops), fun _ => ?_⟩
      cases resumed with
      | true => exact AccountedBut.inScope rfl reached
      | false => exact AccountedBut.inScope (cutoff rfl) reached
  | capped cursor => exact ⟨fun _ => reached, fun proceeds => by cases proceeds⟩
  | failed cursor => exact reached.elim

theorem archiveScope_exports {memory : Memory} {startedAtMs : Int}
    (accounted : Accounted memory.archiveResume tiers) (type : Text) :
    (onceProtocol options).Ensures Tidy (Exports (typeScope config.prune startedAtMs type))
      (archiveScope config memory (typeScope config.prune startedAtMs type) (some type)) tiers := by
  refine archiveScope_ensures (stable_exports _) (fun _ => ?_) ?_
  · exact ⟨(fun stops => by cases stops), fun _ => accounted.but⟩
  · intro archive archived _ isType _ before isBefore
    cases isType
    refine (archiveLoop_ensures (exporting_once archive type before memory.archiveResume)
      archive.maxBatchesPerCycle_pos 0 ?_).weaken fun ending now reached => ?_
    · have mark : markAt memory.archiveResume type before
          ((memory.archiveResume type).map Resume.cursor) = memory.archiveResume := by
        rw [markAt, Function.update_eq_self_iff]
        cases found : memory.archiveResume type with
        | none => rfl
        | some resume =>
            rw [found] at isBefore
            rw [isBefore]
            rfl
      rw [mark]
      exact accounted
    · refine settleArchive_exports (fun fresh => ?_) reached
      rw [isBefore, Option.not_isSome_iff_eq_none.mp (Bool.eq_false_iff.mp fresh)]
      rfl

/-! ## The delete -/

variable {scope : PruneScope}

omit [JsonContent C] in
/-- What a delete spares is accounted for where it has reached the end of its
scope, or is not finished. -/
theorem AccountedBut.remove {request : Request C} (accounted : AccountedBut scope.InScope resumes tiers)
    (completes : tiers.Completes request) (goesOn : forall {other limit}, request = .pruneScopedBatch ⟨other, limit⟩ ->
      other = scope.toTypeScope) {gone : List (Entry C)} {cold : List (ColdFile C)} {unfinished : Option TypeScope}
    (reached : (forall entry, entry ∈ tiers.hot -> scope.InScope entry -> entry ∈ gone) ∨
      unfinished = some scope.toTypeScope) :
    Accounted resumes (tiers.remove gone cold unfinished) := by
  intro entry inHot handed
  rcases mem_without.mp inHot with ⟨stored, spared⟩
  have doomed : scope.InScope entry -> Account resumes (tiers.remove gone cold unfinished) entry := by
    intro inScope
    rcases reached with everything | goes
    · exact (spared (List.mem_map_of_mem (everything entry stored inScope))).elim
    · exact .inr ⟨scope.toTypeScope, goes, inScope⟩
  rcases accounted entry stored handed with inScope | resume | ⟨other, pending, inOther⟩
  · exact .inr (doomed inScope)
  · exact .inr (.inl resume)
  · rcases completes other pending with ⟨limit, request⟩
    exact .inr (doomed (goesOn request ▸ inOther))

omit [JsonContent C] in
theorem Tidy.remove (tidy : Tidy tiers) (gone : List (Entry C)) (cold : List (ColdFile C))
    (unfinished : Option TypeScope) : Tidy (tiers.remove gone cold unfinished) :=
  ⟨Entry.distinctIds_sublist List.filter_sublist tidy.distinct, tidy.handedOnce.once,
    tidy.handedOnce.noStrays⟩

omit [JsonContent C] in
/-- Without `keepLast` a scope dooms all it selects. -/
theorem mem_doomed (unset : scope.keepLast = none) {contents : List (Entry C)} {entry : Entry C}
    (stored : entry ∈ contents) (inScope : scope.InScope entry) : entry ∈ scope.doomed contents := by
  rw [PruneScope.doomed, unset]
  exact mem_sortNewestFirst.mpr (List.mem_filter.mpr ⟨stored, decide_eq_true inScope⟩)

theorem deleteScope_accounted (byType : capabilities.ByType) (unset : scope.keepLast = none) {fallbackOlderThan : Int}
    {fallbackKeepLast : Option Int} (accounted : AccountedBut scope.InScope resumes tiers) :
    (onceProtocol options).Ensures Tidy (fun _ => Accounted resumes)
      (deleteScope config.prune capabilities scope fallbackOlderThan fallbackKeepLast) tiers := by
  have never : capabilities.pruneScoped = false ->
      (capabilities.pruneScopedBatch = true -> scope.keepLast ≠ none) -> False := by
    intro lacks keeps
    rcases byType with byScope | byBatch
    · rw [lacks] at byScope
      cases byScope
    · exact keeps byBatch unset
  refine deleteScope_ensures (stable_accountedBut (fun copyOf inScope => copyOf.inScope inScope) resumes) (stable_accounted resumes)
    (fun _ => Accounted.but) ?_ ?_ (fun lacks keeps => (never lacks keeps).elim)
    (fun lacks keeps => (never lacks keeps).elim) accounted
  · intro _ _ limit now reply next accounted tidy replied
    rcases replied with ⟨_, completes, result, gone, cold, rfl, answers, _, rfl⟩
    refine ⟨tidy.remove gone cold _, accounted.remove completes (fun same => ?_) ?_⟩
    · cases same
      rfl
    · cases more : result.hasMore with
      | false => exact .inl (answers.drained more)
      | true => exact .inr rfl
  · intro _ now reply next accounted tidy replied
    rcases replied with ⟨_, completes, cold, rfl, _, rfl⟩
    exact ⟨tidy.remove _ cold _, accounted.remove completes (fun same => by cases same)
      (.inl fun entry stored inScope => mem_doomed unset stored inScope)⟩

/-! ## The cycle -/

theorem step_accounted (byType : capabilities.ByType) {archivableType : Option Text} (unset : scope.keepLast = none)
    (exports : forall memory tiers, Accounted memory.archiveResume tiers ->
      (onceProtocol options).Ensures Tidy (Exports (C := C) scope)
        (archiveScope config memory scope archivableType) tiers) :
    StepEnsures (onceProtocol options) Tidy config capabilities scope archivableType Accounted
      Accounted := by
  intro memory tiers accounted
  refine pruneArchivedThenDelete_ensures stable_accounted (exports memory tiers accounted)
    (fun _ _ exports => exports.1) fun outcome now exports proceeds => ?_
  exact deleteScope_accounted byType ((effectiveScope_keepLast _ _).trans unset) (exports.2 proceeds)

/-- The bulk scope exports nothing. -/
theorem archiveScope_bulk {memory : Memory} (accounted : Accounted memory.archiveResume tiers) :
    (onceProtocol options).Ensures Tidy (Exports scope) (archiveScope config memory scope none)
      tiers := by
  refine archiveScope_ensures (stable_exports scope) (fun _ => ?_) fun _ _ _ found => by cases found
  exact ⟨(fun stops => by cases stops), fun _ => accounted.but⟩

/-- Along every run under the condition nothing is handed over twice. -/
theorem tidy_of_run (byType : capabilities.ByType) (unset : config.prune.keepLast = none)
    {hot : List (Entry C)} {files : List (ColdFile C)} (distinct : Entry.DistinctIds hot)
    {process : Protocol.Process (Tiers C) (Request C) Reply Memory Nat}
    (run : (onceProtocol options).Run (Prune.Starts config capabilities)
      ⟨{ hot := hot, cold := files }, Memory.initial, none⟩ process) : Tidy process.world := by
  refine (Protocol.sound_of_run (fun memory => Accounted memory.archiveResume) ?_
    (fun stores accounted => accounted.stores (fun _ => False.elim) stores) ?_ ?_ run).1
  · intro tiers now stores tidy
    refine ⟨stores.distinct tidy.distinct, ?_⟩
    rw [stores.rest]
    exact ⟨tidy.handedOnce.once, tidy.handedOnce.noStrays⟩
  · rintro memory program tiers ⟨startedAtMs, trigger, rfl⟩ _ accounted
    exact runGuardedCycle_ensures _ (fun _ => Accounted) stable_accounted
      (step_accounted byType unset fun _ _ => archiveScope_bulk)
      (fun type _ => step_accounted byType unset fun _ _ accounted =>
        archiveScope_exports accounted type) accounted
  · exact ⟨⟨distinct, List.nodup_nil, rfl⟩, fun _ _ handed => by cases handed⟩

end Export

end Parquet
end Telescope
