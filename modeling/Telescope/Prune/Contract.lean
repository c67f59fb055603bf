import Telescope.Prune.Pruner

namespace Telescope
namespace Prune

/-!
# The storage contract

What a provider that honours the interface may do under a prune cycle.  The
world holds what the provider could delete, and, as a record of the run, what
the sink has accepted, what the pruner has deleted and which cutoffs its exports
have used.  Others may store and delete while the pruner waits; they store
nothing older than a cutoff in use.
-/

variable {C : Type}

structure World (C : Type) where
  contents : List (Entry C)
  exported : List (Entry C) := []
  deleted : List (Entry C) := []
  cutoffs : List Int := []

namespace World

/-- A query of the export brings its cutoff into use. -/
def use (world : World C) (query : EntryQuery) : World C :=
  { world with cutoffs := query.before.toList ++ world.cutoffs }

/-- The sink resolved with a batch. -/
def accept (world : World C) (entries : List (Entry C)) : World C :=
  { world with exported := world.exported ++ entries }

/-- A prune deleted some entries. -/
def delete (world : World C) (gone : List (Entry C)) : World C :=
  { world with
    contents := without world.contents gone
    deleted := world.deleted ++ gone }

/-- What others do meanwhile. -/
structure Interferes (world now : World C) : Prop where
  distinct : Entry.DistinctIds world.contents -> Entry.DistinctIds now.contents
  exported : now.exported = world.exported
  deleted : now.deleted = world.deleted
  cutoffs : now.cutoffs = world.cutoffs
  fresh : forall entry, entry ∈ now.contents ->
    entry ∈ world.contents ∨ forall cutoff, cutoff ∈ world.cutoffs -> cutoff ≤ entry.createdAt

end World

/-! ## Replies -/

/-- A page is answered from a list that contains everything the provider could
delete, unless the page is partial. -/
def AnswersGet [JsonContent C] (reads : Text -> Option Position) (contents : List (Entry C))
    (query : EntryQuery) (page : Page C) : Prop :=
  forall limit : Nat, query.limit = some (limit : Int) -> 0 < limit ->
    Exists fun listed =>
      Entry.DistinctIds listed ∧
        (page.partialRead = false -> forall entry, entry ∈ contents -> entry ∈ listed) ∧
        OpensPage reads listed query limit page

/-- A bounded delete: the oldest of the scope, within the limit, all of it when
none is left. -/
structure AnswersBatch (contents : List (Entry C)) (input : BoundedPruneScope)
    (result : BoundedPruneResult) (gone : List (Entry C)) : Prop where
  selection : Selection contents gone
  inScope : forall entry, entry ∈ gone -> input.InScope entry
  deleted : result.deleted = gone.length
  bounded : gone.length ≤ input.limit
  oldest : forall entry, entry ∈ gone -> forall other, other ∈ contents -> input.InScope other ->
    other ∉ gone -> entry.createdAt ≤ other.createdAt
  drained : result.hasMore = false -> forall entry, entry ∈ contents -> input.InScope entry ->
    entry ∈ gone

/-- The scope of a global prune. -/
def globalScope (olderThan : Int) (keepLast : Option Int) : PruneScope where
  before := olderThan
  keepLast := keepLast

/-- The replies of a provider that honours the interface, and of any sink.  A
delete that is rejected may have removed a part of what it was asked to. -/
def replies [JsonContent C] (reads : Text -> Option Position) (world : World C) :
    (request : Request C) -> Reply request -> World C -> Prop
  | .get query, reply, next =>
      next = world.use query ∧
        forall page, reply = .ok page -> AnswersGet reads world.contents query page
  | .sink entries, .ok _, next => next = world.accept entries
  | .sink _, .error _, next => next = world
  | .pruneScopedBatch input, .ok result, next =>
      Exists fun gone =>
        AnswersBatch world.contents input result gone ∧ next = world.delete gone
  | .pruneScopedBatch input, .error _, next =>
      Exists fun gone =>
        Selection world.contents gone ∧ (forall entry, entry ∈ gone -> input.InScope entry) ∧
          next = world.delete gone
  | .pruneScoped input, .ok deleted, next =>
      next = world.delete (input.doomed world.contents) ∧
        deleted = (input.doomed world.contents).length
  | .pruneScoped input, .error _, next =>
      Exists fun gone =>
        gone.Sublist (input.doomed world.contents) ∧ next = world.delete gone
  | .prune olderThan keepLast, .ok deleted, next =>
      next = world.delete ((globalScope olderThan keepLast).doomed world.contents) ∧
        deleted = ((globalScope olderThan keepLast).doomed world.contents).length
  | .prune olderThan keepLast, .error _, next =>
      Exists fun gone =>
        gone.Sublist ((globalScope olderThan keepLast).doomed world.contents) ∧
          next = world.delete gone

/-- Storage and sink under a prune cycle. -/
def storageProtocol [JsonContent C] (reads : Text -> Option Position) :
    Protocol (World C) (Request C) Reply where
  interferes := World.Interferes
  interferes_refl := fun _ => ⟨id, rfl, rfl, rfl, fun _ member => .inl member⟩
  interferes_trans := by
    intro first second third earlier later
    refine ⟨later.distinct ∘ earlier.distinct, later.exported.trans earlier.exported,
      later.deleted.trans earlier.deleted, later.cutoffs.trans earlier.cutoffs, ?_⟩
    intro entry member
    rcases later.fresh entry member with stored | fresh
    · exact earlier.fresh entry stored
    · exact .inr (earlier.cutoffs ▸ fresh)
  replies := replies reads

/-! ## What a delete removes -/

theorem selection_doomed {contents : List (Entry C)} (distinct : Entry.DistinctIds contents)
    (scope : PruneScope) : Selection contents (scope.doomed contents) := by
  have sorted : Entry.DistinctIds
      (sortNewestFirst (contents.filter fun entry => decide (scope.InScope entry))) :=
    ((sortNewestFirst_perm _).map Entry.id).nodup_iff.mpr
      (Entry.distinctIds_sublist List.filter_sublist distinct)
  exact ⟨fun entry member => List.mem_of_mem_filter
      (mem_sortNewestFirst.mp (List.mem_of_mem_drop member)),
    Entry.distinctIds_sublist (List.drop_sublist _ _) sorted⟩

theorem inScope_of_doomed {contents : List (Entry C)} {scope : PruneScope} {entry : Entry C}
    (member : entry ∈ scope.doomed contents) : scope.InScope entry := by
  have filtered := mem_sortNewestFirst.mp (List.mem_of_mem_drop member)
  exact of_decide_eq_true (List.mem_filter.mp filtered).2

/-- A successful or rejected delete by scope removes stored entries of the
scope. -/
structure DeletesWithin (world next : World C) (scope : TypeScope) (gone : List (Entry C)) : Prop where
  selection : Selection world.contents gone
  inScope : forall entry, entry ∈ gone -> scope.InScope entry
  next : next = world.delete gone

theorem deletesWithin_sublist {world next : World C} {scope : PruneScope} {gone : List (Entry C)}
    (distinct : Entry.DistinctIds world.contents)
    (sublist : gone.Sublist (scope.doomed world.contents)) (deleted : next = world.delete gone) :
    DeletesWithin world next scope.toTypeScope gone where
  selection := ⟨fun entry member => (selection_doomed distinct scope).subset entry
      (sublist.subset member),
    Entry.distinctIds_sublist sublist (selection_doomed distinct scope).distinct⟩
  inScope := fun _ member => inScope_of_doomed (sublist.subset member)
  next := deleted

variable [JsonContent C] {reads : Text -> Option Position} {world next : World C}

theorem exists_deletesWithin_pruneScoped (distinct : Entry.DistinctIds world.contents)
    {input : PruneScope} {reply : Except Text Nat}
    (replied : replies reads world (.pruneScoped input) reply next) :
    Exists fun gone => DeletesWithin world next input.toTypeScope gone := by
  cases reply with
  | ok deleted => exact ⟨_, deletesWithin_sublist distinct (List.Sublist.refl _) replied.1⟩
  | error message =>
      rcases replied with ⟨gone, sublist, deleted⟩
      exact ⟨gone, deletesWithin_sublist distinct sublist deleted⟩

theorem exists_deletesWithin_pruneScopedBatch {input : BoundedPruneScope}
    {reply : Except Text BoundedPruneResult}
    (replied : replies reads world (.pruneScopedBatch input) reply next) :
    Exists fun gone => DeletesWithin world next input.toTypeScope gone := by
  cases reply with
  | ok result =>
      rcases replied with ⟨gone, answers, deleted⟩
      exact ⟨gone, answers.selection, answers.inScope, deleted⟩
  | error message =>
      rcases replied with ⟨gone, selection, inScope, deleted⟩
      exact ⟨gone, selection, inScope, deleted⟩

/-- A global prune removes a part of what it dooms. -/
theorem exists_gone_prune {olderThan : Int} {keepLast : Option Int} {reply : Except Text Nat}
    (replied : replies reads world (.prune olderThan keepLast) reply next) :
    Exists fun gone =>
      gone.Sublist ((globalScope olderThan keepLast).doomed world.contents) ∧
        next = world.delete gone := by
  cases reply with
  | ok deleted => exact ⟨_, List.Sublist.refl _, replied.1⟩
  | error message => exact replied

end Prune
end Telescope
