import Telescope.Prune.Contract
import Telescope.Prune.Rules

namespace Telescope
namespace Prune

/-!
# Archive safety

An entry of an archived type may be deleted only after the sink has accepted it.
What carries this through capped, failed and resumed exports is a cover: under
the cutoff of an export, everything the provider could delete is still to be
read, or accepted already.  The cutoff of an export is in use, so nothing new
enters under it, and a delete by type follows only a cover with nothing left.
The global delete of the legacy path has no such cover; there the property is a
condition on the world in which the provider is asked.
-/

variable {C : Type} [JsonContent C]

/-- Everything of these types that the pruner deleted had been accepted. -/
def ArchiveSafe (types : List Text) (world : World C) : Prop :=
  forall entry, entry ∈ world.deleted -> entry.type ∈ types -> entry ∈ world.exported

/-- The invariant of a run. -/
structure Invariant (types : List Text) (world : World C) : Prop where
  distinct : Entry.DistinctIds world.contents
  safe : ArchiveSafe types world

/-! ## How the world evolves -/

/-- What interference and replies have in common: nothing is unexported, no
cutoff falls out of use, and what is new is not older than a cutoff in use. -/
structure Evolves (world next : World C) : Prop where
  exported : forall entry, entry ∈ world.exported -> entry ∈ next.exported
  cutoffs : forall cutoff, cutoff ∈ world.cutoffs -> cutoff ∈ next.cutoffs
  fresh : forall entry, entry ∈ next.contents ->
    entry ∈ world.contents ∨ forall cutoff, cutoff ∈ world.cutoffs -> cutoff ≤ entry.createdAt

namespace Evolves

omit [JsonContent C]

theorem refl (world : World C) : Evolves world world :=
  ⟨fun _ => id, fun _ => id, fun _ => .inl⟩

theorem trans {first second third : World C} (earlier : Evolves first second)
    (later : Evolves second third) : Evolves first third where
  exported := fun entry member => later.exported entry (earlier.exported entry member)
  cutoffs := fun cutoff member => later.cutoffs cutoff (earlier.cutoffs cutoff member)
  fresh := by
    intro entry member
    rcases later.fresh entry member with stored | fresh
    · exact earlier.fresh entry stored
    · exact .inr fun cutoff inUse => fresh cutoff (earlier.cutoffs cutoff inUse)

theorem of_interferes {world now : World C} (changed : World.Interferes world now) :
    Evolves world now where
  exported := fun _ member => changed.exported ▸ member
  cutoffs := fun _ member => changed.cutoffs ▸ member
  fresh := changed.fresh

theorem use (world : World C) (query : EntryQuery) : Evolves world (world.use query) :=
  ⟨fun _ => id, fun _ member => List.mem_append_right _ member, fun _ => .inl⟩

theorem accept (world : World C) (entries : List (Entry C)) :
    Evolves world (world.accept entries) :=
  ⟨fun _ member => List.mem_append_left _ member, fun _ => id, fun _ => .inl⟩

theorem delete (world : World C) (gone : List (Entry C)) : Evolves world (world.delete gone) :=
  ⟨fun _ => id, fun _ => id, fun _ member => .inl (mem_without.mp member).1⟩

end Evolves

variable {reads : Text -> Option Position}

theorem Evolves.of_replies {world next : World C} {request : Request C} {reply : Reply request}
    (replied : replies reads world request reply next) : Evolves world next := by
  cases request with
  | get query => exact replied.1 ▸ Evolves.use world query
  | sink entries =>
      cases reply with
      | ok _ => exact replied ▸ Evolves.accept world entries
      | error _ => exact replied ▸ Evolves.refl world
  | pruneScopedBatch input =>
      rcases exists_deletesWithin_pruneScopedBatch replied with ⟨gone, deletes⟩
      exact deletes.next ▸ Evolves.delete world gone
  | pruneScoped input =>
      cases reply with
      | ok _ => exact replied.1 ▸ Evolves.delete world _
      | error _ =>
          rcases replied with ⟨gone, _, deleted⟩
          exact deleted ▸ Evolves.delete world gone
  | prune olderThan keepLast =>
      rcases exists_gone_prune replied with ⟨gone, _, deleted⟩
      exact deleted ▸ Evolves.delete world gone

/-! ## Covers -/

/-- Under a cutoff in use, every deletable entry of a type is still left to read,
or accepted, or waiting to be.  A provider that cannot delete by type needs no
cover. -/
structure Covered (tracked : Prop) (world : World C) (type : Text) (before : Int)
    (left : Entry C -> Prop) (pending : List (Entry C)) : Prop where
  inUse : before ∈ world.cutoffs
  covers : tracked -> forall entry, entry ∈ world.contents -> entry.type = type ->
    entry.createdAt < before -> left entry ∨ entry ∈ world.exported ∨ entry ∈ pending

/-- Nothing of a type under a cutoff is left to export. -/
def Exported (tracked : Prop) (world : World C) (type : Text) (before : Int) : Prop :=
  Covered tracked world type before (fun _ => False) []

/-- An export may go on behind a cursor; without one it starts. -/
def Resumable (tracked : Prop) (reads : Text -> Option Position) (world : World C) (type : Text)
    (before : Int) : Option Text -> Prop
  | none => True
  | some cursor =>
      Covered tracked world type before (fun entry => behindCursor (reads cursor) entry = true) []

namespace Covered

omit [JsonContent C]

variable {tracked : Prop} {world next : World C} {type : Text} {before : Int}
  {left : Entry C -> Prop} {pending : List (Entry C)}

/-- A cover outlives everything that happens to the world. -/
theorem evolve (covered : Covered tracked world type before left pending)
    (evolves : Evolves world next) : Covered tracked next type before left pending where
  inUse := evolves.cutoffs before covered.inUse
  covers := by
    intro isTracked entry member ofType older
    rcases evolves.fresh entry member with stored | fresh
    · rcases covered.covers isTracked entry stored ofType older with isLeft | exported | waiting
      · exact .inl isLeft
      · exact .inr (.inl (evolves.exported entry exported))
      · exact .inr (.inr waiting)
    · exact absurd older (not_lt.mpr (fresh before covered.inUse))

/-- What was pending is accepted. -/
theorem accept (covered : Covered tracked world type before left pending) :
    Covered tracked (world.accept pending) type before left [] where
  inUse := covered.inUse
  covers := by
    intro isTracked entry member ofType older
    rcases covered.covers isTracked entry member ofType older with isLeft | exported | waiting
    · exact .inl isLeft
    · exact .inr (.inl (List.mem_append_left _ exported))
    · exact .inr (.inl (List.mem_append_right _ waiting))

theorem weaken {fewer : Entry C -> Prop}
    (covered : Covered tracked world type before left pending)
    (less : forall entry, left entry -> fewer entry) :
    Covered tracked world type before fewer pending where
  inUse := covered.inUse
  covers := fun isTracked entry member ofType older =>
    (covered.covers isTracked entry member ofType older).imp_left (less entry)

end Covered

variable {cursor : Option Text}

omit [JsonContent C] in
theorem Resumable.evolve {tracked : Prop} {world next : World C} {type : Text} {before : Int}
    (resumable : Resumable tracked reads world type before cursor) (evolves : Evolves world next) :
    Resumable tracked reads next type before cursor := by
  cases cursor with
  | none => trivial
  | some cursor => exact Covered.evolve resumable evolves

/-! ## Reading a page -/

/-- A page leaves out nothing it should list: every deletable entry the query
asks for is on it or behind its cursor. -/
def ReadsAll (reads : Text -> Option Position) (contents : List (Entry C)) (query : EntryQuery)
    (page : Page C) : Prop :=
  forall entry, entry ∈ contents -> query.Matches entry ->
    behindCursor (query.cursor.bind reads) entry = true ->
      entry ∈ page.data ∨
        Exists fun cursor => page.nextCursor = some cursor ∧ behindCursor (reads cursor) entry = true

variable {query : EntryQuery}

theorem results_listed (contents : List (Entry C)) (keepsContent : query.omitContent = false) :
    query.results contents =
      sortNewestFirst (contents.filter fun entry => decide (query.Matches entry)) := by
  have unchanged : query.project = (id : Entry C -> Entry C) := by
    funext entry
    rw [EntryQuery.project, keepsContent]
    rfl
  rw [EntryQuery.results, unchanged, List.map_id]

variable {page : Page C}

/-- A page that is not partial leaves out nothing. -/
theorem readsAll_of_answers {contents : List (Entry C)} {limit : Nat} (asked : query.limit = some (limit : Int))
    (positive : 0 < limit) (keepsContent : query.omitContent = false) (answers : AnswersGet reads contents query page)
    (complete : page.partialRead = false) : ReadsAll reads contents query page := by
  rcases answers limit asked positive with ⟨listed, distinct, everything, opens⟩
  intro entry stored asks behind
  generalize remainingEq : (query.results listed).filter
    (behindCursor (query.cursor.bind reads)) = remaining at opens
  have sorted : NewestFirst remaining := by
    rw [← remainingEq, results_listed listed keepsContent]
    exact (newestFirst_sort (Entry.distinctIds_sublist List.filter_sublist distinct)).filter _
  have found : entry ∈ remaining := by
    rw [← remainingEq, results_listed listed keepsContent]
    refine List.mem_filter.mpr ⟨mem_sortNewestFirst.mpr (List.mem_filter.mpr ⟨?_, ?_⟩), behind⟩
    · exact everything complete entry stored
    · exact decide_eq_true asks
  have data := opens.data
  have last := opens.last
  rw [remainingEq] at data last
  cases next : page.nextCursor with
  | none =>
      rw [List.take_of_length_le (last next)] at data
      exact .inl (data ▸ found)
  | some cursor =>
      rcases opens.next cursor next with ⟨final, isLast, position⟩
      rw [← List.take_append_drop limit remaining] at found sorted
      rcases List.mem_append.mp found with onPage | later
      · exact .inl (data ▸ onPage)
      · refine .inr ⟨cursor, rfl, ?_⟩
        have finalOnPage : final ∈ remaining.take limit := data ▸ List.mem_of_getLast? isLast
        rw [position]
        exact decide_eq_true ((List.pairwise_append.mp sorted).2.2 final finalOnPage entry later)

omit [JsonContent C] in
/-- An empty page has no cursor. -/
theorem AnswersGet.last_of_empty [JsonContent C] {contents : List (Entry C)} {limit : Nat}
    (answers : AnswersGet reads contents query page) (asked : query.limit = some (limit : Int)) (positive : 0 < limit)
    (empty : page.data = []) :
    page.nextCursor = none := by
  rcases answers limit asked positive with ⟨_, _, _, opens⟩
  refine Option.eq_none_iff_forall_ne_some.mpr fun cursor next => ?_
  rcases opens.next cursor next with ⟨entry, isLast, _⟩
  rw [empty] at isLast
  cases isLast

/-! ## The export -/

section Export

variable {tracked : Prop} {world next : World C} {type : Text} {before : Int}
  {archive : ArchiveOptions}

theorem archiveQuery_matches {entry : Entry C} (ofType : entry.type = type) (older : entry.createdAt < before) :
    (archiveQuery archive type before cursor).Matches entry := by
  refine ⟨?_, (fun _ found => by cases found), (fun _ found => by cases found),
    (fun _ found => by cases found), (fun _ found => by cases found), (fun _ found => by cases found),
    (fun _ found => by cases found), ?_, (fun _ found => by cases found)⟩
  · rintro _ ⟨⟩
    exact ofType
  · rintro _ ⟨⟩
    exact older

/-- Reading a page moves what was left onto the page or behind its cursor. -/
theorem Resumable.read (resumable : Resumable tracked reads world type before cursor) (readsAll : tracked ->
      ReadsAll reads world.contents (archiveQuery archive type before cursor) page) :
    Covered tracked (world.use (archiveQuery archive type before cursor)) type before
      (fun entry => Exists fun cursor =>
        page.nextCursor = some cursor ∧ behindCursor (reads cursor) entry = true) page.data where
  inUse := List.mem_append_left _ (List.mem_singleton_self before)
  covers := by
    intro isTracked entry stored ofType older
    have onPage := readsAll isTracked entry stored (archiveQuery_matches ofType older)
    cases cursor with
    | none =>
        rcases onPage rfl with listed | later
        · exact .inr (.inr listed)
        · exact .inl later
    | some cursor =>
        rcases resumable.covers isTracked entry stored ofType older with left | exported | waiting
        · rcases onPage left with listed | later
          · exact .inr (.inr listed)
          · exact .inl later
        · exact .inr (.inl exported)
        · exact (List.not_mem_nil waiting).elim

omit [JsonContent C] in
/-- A page without a cursor leaves nothing behind it. -/
theorem Covered.exported (covered : Covered tracked world type before (fun entry => Exists fun cursor =>
      page.nextCursor = some cursor ∧ behindCursor (reads cursor) entry = true) []) (last : page.nextCursor = none) :
    Exported tracked world type before := by
  refine covered.weaken fun entry => ?_
  rintro ⟨cursor, next, _⟩
  rw [last] at next
  cases next

omit [JsonContent C] in
/-- A page with a cursor leaves what is behind that. -/
theorem Covered.resumable {cursor : Text}
    (covered : Covered tracked world type before (fun entry => Exists fun cursor =>
      page.nextCursor = some cursor ∧ behindCursor (reads cursor) entry = true) [])
    (next : page.nextCursor = some cursor) :
    Resumable tracked reads world type before (some cursor) := by
  refine covered.weaken fun entry => ?_
  rintro ⟨other, isNext, behind⟩
  cases next.symm.trans isNext
  exact behind

end Export

/-! ## Conditions on a run -/

/-- Everything of these types that a global prune dooms has been accepted. -/
def SparesUnexported (types : List Text) (world : World C) (olderThan : Int)
    (keepLast : Option Int) : Prop :=
  forall entry, entry ∈ (globalScope olderThan keepLast).doomed world.contents ->
    entry.type ∈ types -> entry ∈ world.exported

instance [DecidableEq C] (types : List Text) (world : World C) (olderThan : Int)
    (keepLast : Option Int) : Decidable (SparesUnexported types world olderThan keepLast) :=
  inferInstanceAs (Decidable (forall entry, entry ∈ _ -> _))

/-- What the proof needs of the condition under which a run's requests are made:
pages that are partial leave out nothing all the same, and a global prune that
can be reached spares what is not exported. -/
structure Permits (config : Config) (capabilities : Capabilities)
    (reads : Text -> Option Position)
    (condition : World C -> (request : Request C) -> Reply request -> Prop) : Prop where
  get : capabilities.ByType -> forall world query page, condition world (.get query) (.ok page) ->
    page.partialRead = true -> ReadsAll reads world.contents query page
  prune : capabilities.pruneScoped = false ->
    (capabilities.pruneScopedBatch = true -> config.prune.keepLast ≠ none) ->
    forall world olderThan keepLast reply, condition world (.prune olderThan keepLast) reply ->
      SparesUnexported config.archivedTypes world olderThan keepLast

section Cycle

variable {config : Config} {capabilities : Capabilities}
  {condition : World C -> (request : Request C) -> Reply request -> Prop}

theorem Permits.readsAll (permits : Permits config capabilities reads condition) (byType : capabilities.ByType)
    {world : World C} (allowed : condition world (.get query) (.ok page)) {limit : Nat}
    (asked : query.limit = some (limit : Int)) (positive : 0 < limit) (keepsContent : query.omitContent = false)
    (answers : AnswersGet reads world.contents query page) :
    ReadsAll reads world.contents query page := by
  cases complete : page.partialRead with
  | false => exact readsAll_of_answers asked positive keepsContent answers complete
  | true => exact permits.get byType world query page allowed complete

/-- What evolution keeps is stable in every such run. -/
theorem stable_of_evolves {assertion : World C -> Prop}
    (keeps : forall {world now}, Evolves world now -> assertion world -> assertion now) :
    ((storageProtocol reads).meeting condition).Stable assertion :=
  fun _ _ changed => keeps (Evolves.of_interferes changed)

omit [JsonContent C] in
theorem Invariant.of_evolving_safe {types : List Text} {world next : World C}
    (invariant : Invariant types world) (contents : next.contents = world.contents)
    (deleted : next.deleted = world.deleted)
    (exported : forall entry, entry ∈ world.exported -> entry ∈ next.exported) :
    Invariant types next where
  distinct := contents ▸ invariant.distinct
  safe := fun entry member ofType => exported entry (invariant.safe entry (deleted ▸ member) ofType)

/-- With a page at hand an export may go on where it was; an empty page is the
last; and what was left is on the page or behind its cursor. -/
structure Listed (tracked : Prop) (reads : Text -> Option Position) (type : Text) (before : Int)
    (cursor : Option Text) (page : Page C) (world : World C) : Prop where
  going : Resumable tracked reads world type before cursor
  last : page.data = [] -> page.nextCursor = none
  covered : Covered tracked world type before (fun entry => Exists fun cursor =>
    page.nextCursor = some cursor ∧ behindCursor (reads cursor) entry = true) page.data

omit [JsonContent C] in
theorem Listed.evolve {tracked : Prop} {type : Text} {before : Int} {world next : World C}
    (listed : Listed tracked reads type before cursor page world) (evolves : Evolves world next) :
    Listed tracked reads type before cursor page next :=
  ⟨listed.going.evolve evolves, listed.last, listed.covered.evolve evolves⟩

omit [JsonContent C] in
theorem Listed.exported {tracked : Prop} {type : Text} {before : Int} {world : World C}
    (listed : Listed tracked reads type before cursor page world) (empty : page.data = []) :
    Exported tracked world type before := by
  have covered := listed.covered
  rw [empty] at covered
  exact covered.exported (listed.last empty)

/-- An export goes on where it may be resumed, reading and handing over what it
covers. -/
theorem exporting (permits : Permits config capabilities reads condition) (archive : ArchiveOptions)
    (type : Text) (before : Int) :
    Exporting ((storageProtocol reads).meeting condition) (Invariant config.archivedTypes)
      (archiveQuery archive type before)
      (fun cursor world => Resumable capabilities.ByType reads world type before cursor)
      (Listed capabilities.ByType reads type before)
      (fun cursor world => Resumable capabilities.ByType reads world type before (some cursor))
      (fun cursor world => Resumable capabilities.ByType reads world type before cursor)
      (fun world => Exported capabilities.ByType world type before) where
  goingStable := fun _ => stable_of_evolves fun evolves going => going.evolve evolves
  listedStable := fun _ _ => stable_of_evolves fun evolves listed => listed.evolve evolves
  resumableStable := fun _ => stable_of_evolves fun evolves resumable => resumable.evolve evolves
  failedStable := fun _ => stable_of_evolves fun evolves going => going.evolve evolves
  drainedStable := stable_of_evolves fun evolves exported => exported.evolve evolves
  resumes := fun _ _ => id
  get := by
    intro cursor now reply next going invariant replied
    rcases replied with ⟨allowed, used, answers⟩
    have evolves : Evolves now next := used ▸ Evolves.use now _
    refine ⟨used ▸ invariant.of_evolving_safe rfl rfl fun _ => id, ?_⟩
    cases reply with
    | error message => exact going.evolve evolves
    | ok page =>
        refine ⟨going.evolve evolves, ?_, ?_⟩
        · exact (answers page rfl).last_of_empty rfl archive.batchSize_pos
        · rw [used]
          exact going.read fun byType =>
            permits.readsAll byType allowed rfl archive.batchSize_pos rfl (answers page rfl)
  empty := fun _ _ _ listed => listed.exported
  sink := by
    intro cursor page _ now reply next listed invariant replied
    rcases replied with ⟨_, replied⟩
    cases reply with
    | error message =>
        cases replied
        exact ⟨invariant, listed.going⟩
    | ok accepted =>
        cases replied
        refine ⟨invariant.of_evolving_safe rfl rfl fun _ => List.mem_append_left _, ?_⟩
        have covered := listed.covered.accept
        cases isNext : page.nextCursor with
        | none => exact covered.exported isNext
        | some cursor => exact covered.resumable isNext

/-- Every remembered export may go on. -/
def Remembers (tracked : Prop) (reads : Text -> Option Position) (resumes : Text -> Option Resume)
    (world : World C) : Prop :=
  forall type resume, resumes type = some resume ->
    Resumable tracked reads world type resume.before (some resume.cursor)

omit [JsonContent C] in
theorem Remembers.evolve {tracked : Prop} {resumes : Text -> Option Resume} {world next : World C}
    (remembers : Remembers tracked reads resumes world) (evolves : Evolves world next) :
    Remembers tracked reads resumes next :=
  fun type resume found => (remembers type resume found).evolve evolves

omit [JsonContent C] in
theorem Remembers.forget {tracked : Prop} {memory : Memory} {world : World C}
    (remembers : Remembers tracked reads memory.archiveResume world) (type : Text) :
    Remembers tracked reads (memory.forget type).archiveResume world := by
  intro other resume found
  rw [Memory.archiveResume_forget] at found
  by_cases same : other = type
  · rw [if_pos same] at found
    cases found
  · rw [if_neg same] at found
    exact remembers other resume found

omit [JsonContent C] in
theorem Remembers.resumeAt {tracked : Prop} {memory : Memory} {world : World C}
    (remembers : Remembers tracked reads memory.archiveResume world) {type : Text} {before : Int}
    {cursor : Text} (resumable : Resumable tracked reads world type before (some cursor)) :
    Remembers tracked reads (memory.resumeAt type ⟨before, cursor⟩).archiveResume world := by
  intro other resume found
  rw [Memory.archiveResume_resumeAt] at found
  by_cases same : other = type
  · rw [if_pos same] at found
    cases found
    exact same ▸ resumable
  · rw [if_neg same] at found
    exact remembers other resume found

/-- What `archiveScope` promises: its memory may be resumed from, and where it
says to proceed with an archived type, all of it is exported under the cutoff of
the delete. -/
def Archived (config : Config) (tracked : Prop) (reads : Text -> Option Position)
    (scope : PruneScope) (archivableType : Option Text) (outcome : Memory × ArchiveResult)
    (world : World C) : Prop :=
  Remembers tracked reads outcome.1.archiveResume world ∧
    (outcome.2.proceed = true -> forall type, archivableType = some type ->
      type ∈ config.archivedTypes ->
        Exported tracked world type (outcome.2.before.getD scope.before))

variable {scope : PruneScope}

omit [JsonContent C] in
theorem Archived.evolve {tracked : Prop} {archivableType : Option Text} {outcome : Memory × ArchiveResult}
    {world next : World C} (archived : Archived config tracked reads scope archivableType outcome world)
    (evolves : Evolves world next) :
    Archived config tracked reads scope archivableType outcome next :=
  ⟨archived.1.evolve evolves,
    fun proceed type isType ofArchive => (archived.2 proceed type isType ofArchive).evolve evolves⟩

omit [JsonContent C] in
/-- What is remembered at the end of an export is what it has reached. -/
theorem settleArchive_archived {tracked : Prop} {memory : Memory} {world : World C}
    (remembers : Remembers tracked reads memory.archiveResume world) {type : Text} {before : Int} {resumed : Bool}
    (cutoff : resumed = false -> before = scope.before) {ending : ArchiveEnd × Nat} (reached : Reached
      (fun cursor world => Resumable tracked reads world type before (some cursor))
      (fun cursor world => Resumable tracked reads world type before cursor)
      (fun world => Exported tracked world type before) ending.1 world) :
    Archived config tracked reads scope (some type)
      (settleArchive memory type before resumed ending) world := by
  rcases ending with ⟨ending, archived⟩
  cases ending with
  | drained =>
      refine ⟨remembers.forget type, fun _ other same _ => ?_⟩
      cases same
      cases resumed with
      | true => exact reached
      | false => exact cutoff rfl ▸ reached
  | capped cursor => exact ⟨remembers.resumeAt reached, fun proceed => by cases proceed⟩
  | failed cursor =>
      cases cursor with
      | none => exact ⟨remembers, fun proceed => by cases proceed⟩
      | some cursor => exact ⟨remembers.resumeAt reached, fun proceed => by cases proceed⟩

/-- An assertion about a program of the pruner in such a run. -/
def Holds (config : Config) (reads : Text -> Option Position)
    (condition : World C -> (request : Request C) -> Reply request -> Prop) {α : Type}
    (post : α -> World C -> Prop) (program : Step C α) (world : World C) : Prop :=
  ((storageProtocol reads).meeting condition).Ensures (Invariant config.archivedTypes) post program
    world

/-- A program ends where it has evolved to. -/
theorem Holds.evolving {α : Type} {post : α -> World C -> Prop} {program : Step C α}
    {world : World C} (holds : Holds config reads condition post program world) :
    Holds config reads condition (fun value now => post value now ∧ Evolves world now) program
      world :=
  Protocol.Ensures.frame Evolves.trans Evolves.of_interferes
    (fun replied => Evolves.of_replies replied.2) holds (Evolves.refl world)

theorem archiveScope_holds (permits : Permits config capabilities reads condition)
    {memory : Memory} {world : World C}
    (remembers : Remembers capabilities.ByType reads memory.archiveResume world)
    (scope : PruneScope) (archivableType : Option Text) :
    Holds config reads condition (Archived config capabilities.ByType reads scope archivableType)
      (archiveScope config memory scope archivableType) world := by
  refine archiveScope_ensures (fun _ => stable_of_evolves fun evolves archived =>
    archived.evolve evolves) (fun notArchived => ?_) ?_
  · exact ⟨remembers, fun _ type isType ofArchive => (notArchived type isType ofArchive).elim⟩
  · intro archive type _ isType _ before isBefore
    cases isType
    have start : Resumable capabilities.ByType reads world type before
        ((memory.archiveResume type).map Resume.cursor) := by
      cases found : memory.archiveResume type with
      | none => trivial
      | some resume =>
          rw [found] at isBefore
          exact isBefore ▸ remembers type resume found
    have ended := Holds.evolving (archiveLoop_ensures (exporting permits archive type before)
      archive.maxBatchesPerCycle_pos 0 start)
    refine ended.weaken fun ending now reached => ?_
    refine settleArchive_archived (remembers.evolve reached.2) (fun fresh => ?_) reached.1
    rw [isBefore, Option.not_isSome_iff_eq_none.mp (Bool.eq_false_iff.mp fresh)]
    rfl

/-! ## The delete -/

/-- A scope whose entries of archived types have been accepted, as far as the
provider can delete by type. -/
def Spared (config : Config) (tracked : Prop) (world : World C) (scope : TypeScope) : Prop :=
  (forall type, scope.Selects type -> type ∉ config.archivedTypes) ∨
    Exists fun type => scope.type = some type ∧
      (type ∈ config.archivedTypes -> Exported tracked world type scope.before)

omit [JsonContent C] in
theorem Spared.evolve {tracked : Prop} {world next : World C} {scope : TypeScope}
    (spared : Spared config tracked world scope) (evolves : Evolves world next) :
    Spared config tracked next scope := by
  rcases spared with noneArchived | ⟨type, isType, exported⟩
  · exact .inl noneArchived
  · exact .inr ⟨type, isType, fun ofArchive => (exported ofArchive).evolve evolves⟩

omit [JsonContent C] in
theorem Spared.exported {tracked : Prop} {world : World C} {scope : TypeScope}
    (spared : Spared config tracked world scope) (isTracked : tracked) {entry : Entry C}
    (stored : entry ∈ world.contents) (inScope : scope.InScope entry)
    (ofArchive : entry.type ∈ config.archivedTypes) : entry ∈ world.exported := by
  rcases spared with noneArchived | ⟨type, isType, exported⟩
  · exact (noneArchived entry.type inScope.2 ofArchive).elim
  · have ofType : entry.type = type := by
      have selected := inScope.2
      rw [TypeScope.Selects, isType] at selected
      exact selected
    rcases (exported (ofType ▸ ofArchive)).covers isTracked entry stored ofType inScope.1 with
      never | accepted | waiting
    · exact never.elim
    · exact accepted
    · exact (List.not_mem_nil waiting).elim

omit [JsonContent C] in
theorem Invariant.delete {types : List Text} {world : World C} (invariant : Invariant types world)
    {gone : List (Entry C)}
    (exported : forall entry, entry ∈ gone -> entry.type ∈ types -> entry ∈ world.exported) :
    Invariant types (world.delete gone) where
  distinct := Entry.distinctIds_sublist List.filter_sublist invariant.distinct
  safe := by
    intro entry member ofType
    rcases List.mem_append.mp member with before | now
    · exact invariant.safe entry before ofType
    · exact exported entry now ofType

omit [JsonContent C] in
theorem Invariant.deletesWithin {tracked : Prop} {world next : World C} {scope : TypeScope}
    {gone : List (Entry C)} (invariant : Invariant config.archivedTypes world)
    (spared : Spared config tracked world scope) (isTracked : tracked)
    (deletes : DeletesWithin world next scope gone) : Invariant config.archivedTypes next := by
  rw [deletes.next]
  refine invariant.delete fun entry isGone ofArchive => ?_
  exact spared.exported isTracked (deletes.selection.subset entry isGone)
    (deletes.inScope entry isGone) ofArchive

/-- A delete keeps the invariant: by type on the strength of the export, and
globally under the condition of the run. -/
theorem deleteScope_holds (permits : Permits config capabilities reads condition)
    (keepLast : scope.keepLast = config.prune.keepLast) (fallbackOlderThan : Int) (fallbackKeepLast : Option Int)
    {resumes : Text -> Option Resume} {world : World C} (remembers : Remembers capabilities.ByType reads resumes world)
    (spared : Spared config capabilities.ByType world scope.toTypeScope) :
    Holds config reads condition (fun _ => Remembers capabilities.ByType reads resumes)
      (deleteScope config.prune capabilities scope fallbackOlderThan fallbackKeepLast) world := by
  let kept : World C -> Prop := fun world =>
    Remembers capabilities.ByType reads resumes world ∧
      Spared config capabilities.ByType world scope.toTypeScope
  have evolve : forall {world now}, Evolves world now -> kept world -> kept now :=
    fun evolves both => ⟨both.1.evolve evolves, both.2.evolve evolves⟩
  refine (deleteScope_ensures (stable_of_evolves evolve) (stable_of_evolves evolve)
    (fun _ => id) ?_ ?_ ?_ (fun _ _ _ => id) ⟨remembers, spared⟩).weaken fun _ _ both => both.1
  · intro byBatch _ limit now reply next both invariant replied
    rcases exists_deletesWithin_pruneScopedBatch replied.2 with ⟨gone, deletes⟩
    exact ⟨invariant.deletesWithin both.2 (.inr byBatch) deletes,
      evolve (Evolves.of_replies replied.2) both⟩
  · intro byScope now reply next both invariant replied
    rcases exists_deletesWithin_pruneScoped invariant.distinct replied.2 with ⟨gone, deletes⟩
    exact ⟨invariant.deletesWithin both.2 (.inl byScope) deletes,
      evolve (Evolves.of_replies replied.2) both⟩
  · intro lacks keeps _ now reply next both invariant replied
    rcases exists_gone_prune replied.2 with ⟨gone, sublist, deleted⟩
    have spares := permits.prune lacks (fun batch => keepLast ▸ keeps batch) now _ _ reply replied.1
    refine ⟨?_, evolve (Evolves.of_replies replied.2) both⟩
    rw [deleted]
    exact invariant.delete fun entry isGone => spares entry (sublist.subset isGone)

/-! ## The cycle -/

/-- A step is made for a scope without archived types, or for a type. -/
theorem step_holds (permits : Permits config capabilities reads condition)
    (keepLast : scope.keepLast = config.prune.keepLast) {archivableType : Option Text}
    (target : (forall type, scope.Selects type -> type ∉ config.archivedTypes) ∨
      Exists fun type => scope.type = some type ∧ archivableType = some type) :
    StepEnsures ((storageProtocol reads).meeting condition) (Invariant config.archivedTypes) config
      capabilities scope archivableType (Remembers capabilities.ByType reads)
      (Remembers capabilities.ByType reads) := by
  intro memory world remembers
  refine pruneArchivedThenDelete_ensures
    (fun _ => stable_of_evolves fun evolves remembered => remembered.evolve evolves)
    (archiveScope_holds permits remembers scope archivableType)
    (fun _ _ archived _ => archived.1) fun outcome now archived proceeds => ?_
  refine deleteScope_holds permits ((effectiveScope_keepLast _ _).trans keepLast) _ _ archived.1 ?_
  rcases target with noneArchived | ⟨type, isType, isArchivable⟩
  · refine .inl fun type selected => noneArchived type ?_
    rwa [TypeScope.Selects, effectiveScope_type, effectiveScope_excludeTypes] at selected
  · refine .inr ⟨type, (effectiveScope_type _ _).trans isType, fun ofArchive => ?_⟩
    rw [effectiveScope_before]
    exact archived.2 proceeds type isArchivable ofArchive

/-- Along every run under such a condition, in which the process starts with
nothing exported, deleted or in use, the invariant holds. -/
theorem invariant_of_run (permits : Permits config capabilities reads condition)
    {contents : List (Entry C)} (distinct : Entry.DistinctIds contents)
    {process : Protocol.Process (World C) (Request C) Reply Memory Nat}
    (run : ((storageProtocol reads).meeting condition).Run (Starts config capabilities)
      ⟨{ contents := contents }, Memory.initial, none⟩ process) :
    Invariant config.archivedTypes process.world := by
  refine (Protocol.sound_of_run
    (fun memory => Remembers capabilities.ByType reads memory.archiveResume) ?_
    (fun changed remembered => remembered.evolve (Evolves.of_interferes changed)) ?_ ?_ run).1
  · intro world now changed invariant
    refine ⟨changed.distinct invariant.distinct, fun entry member ofType => ?_⟩
    rw [changed.deleted] at member
    rw [changed.exported]
    exact invariant.safe entry member ofType
  · rintro memory program world ⟨startedAtMs, trigger, rfl⟩ _ remembers
    exact runGuardedCycle_ensures _ (fun _ => Remembers capabilities.ByType reads)
      (fun _ => stable_of_evolves fun evolves remembered => remembered.evolve evolves)
      (step_holds permits rfl (.inl fun _ => bulkScope_selects))
      (fun type types => step_holds permits rfl (.inr ⟨type, rfl, rfl⟩)) remembers
  · exact ⟨⟨distinct, fun _ member => by cases member⟩, fun _ _ found => by cases found⟩

end Cycle

end Prune
end Telescope
