import Telescope.Core.Retention
import Telescope.Foundation.Sweep
import Telescope.Prune.Accounting

namespace Telescope
namespace Prune

/-!
# What a clean cycle leaves

A cycle deletes scope by scope, and no entry is in two of its scopes.  When nothing fails, no
ceiling is hit and no export is capped or resumed, each delete removes all of its scope but the
newest few, so that the store holds what is younger than the cutoff of its type and the newest
of the rest of every scope.
-/

variable {C : Type}

/-! ## A provider with the store to itself -/

/-- A scoped delete removes all of its scope but the newest few.  Which of the entries of one
instant count as the newest is up to the provider. -/
structure AnswersScoped (contents : List (Entry C)) (input : PruneScope) (deleted : Nat)
    (gone : List (Entry C)) : Prop where
  selection : Selection contents gone
  inScope : forall entry, entry ∈ gone -> input.InScope entry
  deleted : deleted = gone.length
  keeps : Sweep.HighestOf Entry.createdAt input.keep
    (contents.filter fun entry => decide (input.InScope entry))
    ((without contents gone).filter fun entry => decide (input.InScope entry))

/-- The replies of a provider that honours the interface, whatever it counts as the newest. -/
def scopedReplies [JsonContent C] (reads : Text -> Option Position) (world : World C) :
    (request : Request C) -> Reply request -> World C -> Prop
  | .pruneScoped input, .ok deleted, next =>
      Exists fun gone => AnswersScoped world.contents input deleted gone ∧ next = world.delete gone
  | request, reply, next => replies reads world request reply next

/-- Nobody else stores or deletes meanwhile. -/
def quietProtocol [JsonContent C] (reads : Text -> Option Position) :
    Protocol (World C) (Request C) Reply where
  interferes := Eq
  interferes_refl := fun _ => rfl
  interferes_trans := Eq.trans
  replies := scopedReplies reads

/-- What a scope selects and how much of it it keeps. -/
def ruleOf (scope : PruneScope) : Sweep.Rule (Entry C) where
  selects := fun entry => decide (scope.InScope entry)
  keep := scope.keep

/-- A delete of a scope leaves the others alone and the newest few of the scope. -/
abbrev Swept (scopes : List PruneScope) (before after : List (Entry C)) : Prop :=
  Sweep.Swept Entry.createdAt (scopes.map ruleOf) before after

theorem nodup_of_distinctIds {entries : List (Entry C)} (distinct : Entry.DistinctIds entries) :
    entries.Nodup := List.Nodup.of_map _ distinct

theorem swept_of_scoped {contents gone : List (Entry C)} {input : PruneScope} {deleted : Nat}
    (distinct : Entry.DistinctIds contents) (answers : AnswersScoped contents input deleted gone) :
    Swept [input] contents (without contents gone) where
  sublist := List.filter_sublist
  spares := by
    intro entry member unselected
    refine mem_without.mpr ⟨member, fun id => ?_⟩
    have inScope := answers.inScope entry (answers.selection.mem_of_id distinct member id)
    exact of_decide_eq_false (unselected (ruleOf input) (List.mem_singleton_self _)) inScope
  keeps := List.forall_mem_singleton.mpr answers.keeps

/-- What the interface dooms in page order is such a delete. -/
theorem answersScoped_doomed {contents : List (Entry C)} (distinct : Entry.DistinctIds contents)
    (input : PruneScope) :
    AnswersScoped contents input (input.doomed contents).length (input.doomed contents) := by
  have selection := selection_doomed distinct input
  generalize listedEq : (contents.filter fun entry => decide (input.InScope entry)) = listed
  have listedDistinct : Entry.DistinctIds listed :=
    listedEq ▸ Entry.distinctIds_sublist List.filter_sublist distinct
  have doomed : input.doomed contents = (sortNewestFirst listed).drop input.keep := by
    rw [← listedEq]
    rfl
  have newest := newestFirst_sort listedDistinct
  have sortedNodup := nodup_of_distinctIds (((sortNewestFirst_perm listed).map Entry.id).nodup_iff.mpr listedDistinct)
  have inListed : forall {entry}, entry ∈ listed <-> entry ∈ contents ∧ input.InScope entry := by
    intro entry
    rw [← listedEq, List.mem_filter, decide_eq_true_eq]
  rw [← List.take_append_drop input.keep (sortNewestFirst listed)] at newest sortedNodup
  have stays : forall entry, entry ∈ (without contents (input.doomed contents)).filter
      (fun entry => decide (input.InScope entry)) <-> entry ∈ (sortNewestFirst listed).take input.keep := by
    intro entry
    rw [List.mem_filter, mem_without, decide_eq_true_eq]
    constructor
    · rintro ⟨⟨member, spared⟩, inScope⟩
      have found := mem_sortNewestFirst.mpr (inListed.mpr ⟨member, inScope⟩)
      rw [← List.take_append_drop input.keep (sortNewestFirst listed)] at found
      rcases List.mem_append.mp found with first | rest
      · exact first
      · exact (spared (List.mem_map_of_mem (doomed ▸ rest))).elim
    · intro first
      rcases inListed.mp (mem_sortNewestFirst.mp (List.mem_of_mem_take first)) with ⟨member, inScope⟩
      refine ⟨⟨member, fun id => ?_⟩, inScope⟩
      have rest := selection.mem_of_id distinct member id
      rw [doomed] at rest
      exact (List.nodup_append.mp sortedNodup).2.2 entry first entry rest rfl
  refine ⟨selection, fun entry member => inScope_of_doomed member, rfl, ?_⟩
  rw [listedEq]
  refine ⟨listedEq ▸ List.filter_sublist.filter _, ?_, ?_⟩
  · have perm : ((without contents (input.doomed contents)).filter
        fun entry => decide (input.InScope entry)).Perm ((sortNewestFirst listed).take input.keep) :=
      (List.perm_ext_iff_of_nodup
        (((nodup_of_distinctIds distinct).filter _).filter _)
        (List.nodup_append.mp sortedNodup).1).mpr stays
    rw [perm.length_eq, List.length_take, length_sortNewestFirst]
  · intro kept isKept other isOther gone
    have rest := mem_sortNewestFirst.mpr isOther
    rw [← List.take_append_drop input.keep (sortNewestFirst listed)] at rest
    have behind := (List.mem_append.mp rest).resolve_left fun first => gone ((stays other).mpr first)
    have newer := (List.pairwise_append.mp newest).2.2 kept ((stays kept).mp isKept) other behind
    rcases newer with younger | ⟨sameInstant, _⟩
    · exact younger.le
    · exact sameInstant.ge

/-- A provider that dooms in page order answers so. -/
theorem scopedReplies_of_replies [JsonContent C] {reads : Text -> Option Position} {world next : World C}
    {request : Request C} {reply : Reply request} (distinct : Entry.DistinctIds world.contents)
    (replied : replies reads world request reply next) : scopedReplies reads world request reply next := by
  cases request with
  | pruneScoped input =>
      cases reply with
      | ok deleted =>
          rcases replied with ⟨rfl, rfl⟩
          exact ⟨_, answersScoped_doomed distinct input, rfl⟩
      | error message => exact replied
  | get query => cases reply <;> exact replied
  | sink entries => cases reply <;> exact replied
  | pruneScopedBatch input => cases reply <;> exact replied
  | prune olderThan keepLast => cases reply <;> exact replied

/-! ## Steps without failures -/

namespace Answered

/-- A request that is rejected. -/
def failed (exchange : Answered C) : Bool :=
  match exchange.request, exchange.reply with
  | .get _, .error _ => true
  | .sink _, .error _ => true
  | .pruneScopedBatch _, .error _ => true
  | .pruneScoped _, .error _ => true
  | .prune _ _, .error _ => true
  | _, _ => false

end Answered

/-- Nothing that is asked is rejected. -/
def Succeeds (trace : List (Answered C)) : Prop :=
  forall exchange, exchange ∈ trace -> exchange.failed = false

/-- The provider can delete by scope whatever the configuration keeps. -/
def DeletesByScope (capabilities : Capabilities) (keepLast : Option Int) : Prop :=
  capabilities.pruneScoped = true ∨ (capabilities.pruneScopedBatch = true ∧ keepLast = none)

variable {startedAtMs : Int}

section Steps

variable [JsonContent C] {reads : Text -> Option Position} {config : Config} {capabilities : Capabilities}
  {memory : Memory} {world last : World C} {trace : List (Answered C)}

/-- An export that does not fail leaves the store as it is, and is drained or capped. -/
theorem archiveLoop_clean {archive : ArchiveOptions} {type : Text} {before : Int} {batches : Nat}
    {cursor : Option Text} {archived : Nat} {ending : ArchiveEnd × Nat}
    (traced : (quietProtocol reads).Traced (archiveLoop archive type before batches cursor archived) world
      trace ending last) (succeeds : Succeeds trace) :
    last.contents = world.contents ∧
      (ending.1 = .drained ∨ Exists fun cursor => ending.1 = .capped cursor) := by
  induction batches generalizing cursor archived world trace with
  | zero =>
      cases traced.interferes_of_done
      rcases traced.of_done with ⟨rfl, rfl⟩
      exact ⟨rfl, .inl rfl⟩
  | succ batches inductionHypothesis =>
      rcases traced.of_call with ⟨_, reply, after, rest, rfl, rfl, replied, traced⟩
      cases replied.1
      rcases List.forall_mem_cons.mp succeeds with ⟨answered, sinks⟩
      cases reply with
      | error message => cases answered
      | ok page =>
          change (quietProtocol reads).Traced (if page.data.isEmpty then _ else _) _ _ _ _ at traced
          by_cases nothing : page.data.isEmpty = true
          · rw [if_pos nothing] at traced
            cases traced.interferes_of_done
            rcases traced.of_done with ⟨rfl, rfl⟩
            exact ⟨rfl, .inl rfl⟩
          · rw [if_neg nothing] at traced
            rcases traced.of_call with ⟨_, reply, _, rest, rfl, rfl, sunk, traced⟩
            rcases List.forall_mem_cons.mp sinks with ⟨accepted, later⟩
            cases reply with
            | error message => cases accepted
            | ok resolved =>
                cases sunk
                dsimp only [archiveLoop] at traced
                cases next : page.nextCursor with
                | none =>
                    rw [next] at traced
                    cases traced.interferes_of_done
                    rcases traced.of_done with ⟨rfl, rfl⟩
                    exact ⟨rfl, .inl rfl⟩
                | some cursor =>
                    rw [next] at traced
                    change (quietProtocol reads).Traced (if batches = 0 then _ else _) _ _ _ _ at traced
                    by_cases cap : batches = 0
                    · rw [if_pos cap] at traced
                      cases traced.interferes_of_done
                      rcases traced.of_done with ⟨rfl, rfl⟩
                      exact ⟨rfl, .inr ⟨_, rfl⟩⟩
                    · rw [if_neg cap] at traced
                      have rest := inductionHypothesis traced later
                      exact rest

/-- What an export says and remembers that does not fail and was not resumed. -/
structure ExportsCleanly (config : Config) (type : Option Text) (memory : Memory)
    (outcome : Memory × ArchiveResult) : Prop where
  hits : outcome.1.ceilingHitsThisCycle = memory.ceilingHitsThisCycle
  others : forall other, type ≠ some other -> outcome.1.archiveResume other = memory.archiveResume other
  ends : (outcome.2.proceed = true ∧ outcome.2.before = none) ∨
    (outcome.2.proceed = false ∧ Exists fun own =>
      type = some own ∧ own ∈ config.archivedTypes ∧ outcome.1.archiveResume own ≠ none)

variable {scope : PruneScope}

theorem archiveScope_clean {outcome : Memory × ArchiveResult}
    (traced : (quietProtocol reads).Traced (archiveScope config memory scope scope.type) world trace outcome
      last) (succeeds : Succeeds trace) (fresh : forall type, type ∈ config.archivedTypes -> scope.type = some type ->
      memory.archiveResume type = none) :
    last.contents = world.contents ∧ ExportsCleanly config scope.type memory outcome := by
  unfold archiveScope at traced
  split at traced
  · rename_i archive type isArchive isType
    have types : config.archivedTypes = archive.types := by
      rw [Config.archivedTypes, isArchive]
      rfl
    split at traced
    · rename_i ofArchive
      rcases traced.of_bind with ⟨first, ending, now, second, rfl, exported, settled⟩
      cases settled.interferes_of_done
      rcases settled.of_done with ⟨rfl, rfl⟩
      rw [List.append_nil] at succeeds
      rcases archiveLoop_clean exported succeeds with ⟨stored, ended⟩
      rw [fresh type (types ▸ ofArchive) isType]
      rcases ending with ⟨ending, archived⟩
      have apart : forall other, scope.type ≠ some other -> other ≠ type := by
        rintro other different rfl
        exact different isType
      refine ⟨stored, ?_⟩
      rcases ended with rfl | ⟨cursor, rfl⟩
      · refine ⟨rfl, fun other different => ?_, .inl ⟨rfl, rfl⟩⟩
        exact (Memory.archiveResume_forget ..).trans (if_neg (apart other different))
      · refine ⟨rfl, fun other different => ?_, .inr ⟨rfl, type, isType, types ▸ ofArchive, ?_⟩⟩
        · exact (Memory.archiveResume_resumeAt ..).trans (if_neg (apart other different))
        · rw [settleArchive, Memory.archiveResume_resumeAt, if_pos rfl]
          exact Option.some_ne_none _
    · cases traced.interferes_of_done
      rcases traced.of_done with ⟨rfl, rfl⟩
      exact ⟨rfl, rfl, fun _ _ => rfl, .inl ⟨rfl, rfl⟩⟩
  · cases traced.interferes_of_done
    rcases traced.of_done with ⟨rfl, rfl⟩
    exact ⟨rfl, rfl, fun _ _ => rfl, .inl ⟨rfl, rfl⟩⟩

/-- All of a scope is deleted, and nothing else. -/
structure Drained (scope : TypeScope) (before after : List (Entry C)) : Prop where
  sublist : after.Sublist before
  spares : forall entry, entry ∈ before -> ¬ scope.InScope entry -> entry ∈ after
  empty : forall entry, entry ∈ after -> ¬ scope.InScope entry

omit [JsonContent C] in
theorem Drained.swept {before after : List (Entry C)} (drained : Drained scope.toTypeScope before after)
    (keepsNone : scope.keepLast = none) :
    Swept [scope] before after where
  sublist := drained.sublist
  spares := fun entry member unselected => drained.spares entry member
    (of_decide_eq_false (unselected (ruleOf scope) (List.mem_singleton_self _)))
  keeps := by
    refine List.forall_mem_singleton.mpr ?_
    have nothing : after.filter (ruleOf scope).selects = [] :=
      List.filter_eq_nil_iff.mpr fun entry member selected =>
        drained.empty entry member (of_decide_eq_true selected)
    have few : (ruleOf (C := C) scope).keep = 0 := by
      change (scope.keepLast.getD 0).toNat = 0
      rw [keepsNone]
      rfl
    rw [nothing, few]
    exact ⟨List.nil_sublist _, (Nat.zero_min _).symm, fun _ none => (List.not_mem_nil none).elim⟩

omit [JsonContent C] in
theorem length_without {contents gone : List (Entry C)} (distinct : Entry.DistinctIds contents)
    (selection : Selection contents gone) :
    (without contents gone).length + gone.length = contents.length := by
  rw [(perm_without_append distinct selection).length_eq, List.length_append]

/-- Batches that end before the ceiling have drained their scope. -/
theorem deleteBatches_clean {bounded : BoundedPruneScope} {batches count : Nat}
    {result : Except Text DeleteResult} (distinct : Entry.DistinctIds world.contents)
    (traced : (quietProtocol reads).Traced (deleteBatches bounded batches count) world trace result last)
    (succeeds : Succeeds trace) :
    Exists fun reported => result = .ok reported ∧ (reported.ceilingHit = false ->
      Drained bounded.toTypeScope world.contents last.contents ∧
        last.contents.length + reported.deleted = world.contents.length + count) := by
  induction batches generalizing count world trace with
  | zero =>
      rcases traced.of_done with ⟨rfl, rfl⟩
      exact ⟨_, rfl, nofun⟩
  | succ batches inductionHypothesis =>
      rcases traced.of_call with ⟨_, reply, after, rest, rfl, rfl, replied, traced⟩
      rcases List.forall_mem_cons.mp succeeds with ⟨answered, later⟩
      cases reply with
      | error message => cases answered
      | ok batch =>
          rcases replied with ⟨gone, answers, rfl⟩
          have fewer := length_without distinct answers.selection
          have spared : forall entry, entry ∈ world.contents -> ¬ bounded.InScope entry ->
              entry ∈ without world.contents gone := by
            intro entry member outside
            refine mem_without.mpr ⟨member, fun id => outside ?_⟩
            exact answers.inScope entry (answers.selection.mem_of_id distinct member id)
          change (quietProtocol reads).Traced (if batch.hasMore then _ else _) _ _ _ _ at traced
          cases more : batch.hasMore with
          | true =>
              rw [if_pos more] at traced
              have distinctRest : Entry.DistinctIds (world.delete gone).contents :=
                Entry.distinctIds_sublist List.filter_sublist distinct
              rcases inductionHypothesis distinctRest traced later with ⟨reported, isReported, ended⟩
              refine ⟨reported, isReported, fun complete => ?_⟩
              rcases ended complete with ⟨drained, counted⟩
              refine ⟨⟨drained.sublist.trans List.filter_sublist, fun entry member outside => ?_, drained.empty⟩, ?_⟩
              · exact drained.spares entry (spared entry member outside) outside
              · change last.contents.length + reported.deleted =
                  (without world.contents gone).length + (count + batch.deleted) at counted
                rw [answers.deleted] at counted
                omega
          | false =>
              rw [if_neg (by rw [more]; exact Bool.false_ne_true)] at traced
              cases traced.interferes_of_done
              rcases traced.of_done with ⟨rfl, rfl⟩
              refine ⟨_, rfl, fun _ => ⟨⟨List.filter_sublist, spared, fun entry member inScope => ?_⟩, ?_⟩⟩
              · rcases mem_without.mp member with ⟨stored, kept⟩
                exact kept (List.mem_map_of_mem (answers.drained more entry stored inScope))
              · change (without world.contents gone).length + (count + batch.deleted) = _
                rw [answers.deleted]
                omega

/-- A delete that succeeds and does not stop at the ceiling sweeps its scope. -/
theorem deleteScope_clean {prune : PruneOptions} {fallbackOlderThan : Int} {fallbackKeepLast : Option Int}
    {result : Except Text DeleteResult} (byScope : DeletesByScope capabilities scope.keepLast)
    (distinct : Entry.DistinctIds world.contents) (traced : (quietProtocol reads).Traced
      (deleteScope prune capabilities scope fallbackOlderThan fallbackKeepLast) world trace result last)
    (succeeds : Succeeds trace) :
    Exists fun reported => result = .ok reported ∧ (reported.ceilingHit = false ->
      Swept [scope] world.contents last.contents ∧
        last.contents.length + reported.deleted = world.contents.length) := by
  unfold deleteScope at traced
  split at traced
  · rename_i batched
    rcases Bool.and_eq_true _ _ ▸ batched with ⟨_, unset⟩
    rcases deleteBatches_clean distinct traced succeeds with ⟨reported, isReported, ended⟩
    refine ⟨reported, isReported, fun complete => ?_⟩
    rcases ended complete with ⟨drained, counted⟩
    have drained : Drained scope.toTypeScope world.contents last.contents := drained
    exact ⟨drained.swept (Option.isNone_iff_eq_none.mp unset), counted⟩
  · rename_i notBatched
    have single : capabilities.pruneScoped = true := by
      refine byScope.resolve_right ?_
      rintro ⟨byBatch, unset⟩
      rw [byBatch, unset] at notBatched
      exact notBatched rfl
    rw [if_pos single] at traced
    rcases traced.of_call with ⟨_, reply, after, rest, rfl, rfl, replied, traced⟩
    cases traced.interferes_of_done
    rcases traced.of_done with ⟨rfl, rfl⟩
    cases reply with
    | error message => cases (List.forall_mem_cons.mp succeeds).1
    | ok deleted =>
        rcases replied with ⟨gone, answers, rfl⟩
        refine ⟨_, rfl, fun _ => ⟨swept_of_scoped distinct answers, ?_⟩⟩
        change (without world.contents gone).length + deleted = _
        rw [answers.deleted]
        exact length_without distinct answers.selection

/-- Whatever is answered, nothing is stored. -/
theorem sublist_of_traced {α : Type} {program : Step C α} {value : α}
    (traced : (quietProtocol reads).Traced program world trace value last) :
    last.contents.Sublist world.contents := by
  induction traced with
  | done changed =>
      cases changed
      exact List.Sublist.refl _
  | @ask request _ world now reply next _ _ _ changed replied _ inductionHypothesis =>
      cases changed
      refine inductionHypothesis.trans ?_
      have removes : forall gone, (world.delete gone).contents.Sublist world.contents :=
        fun _ => List.filter_sublist
      cases request with
      | get query =>
          cases replied.1
          exact List.Sublist.refl _
      | sink entries =>
          cases reply <;> cases replied <;> exact List.Sublist.refl _
      | pruneScopedBatch input =>
          have replied : replies reads world (.pruneScopedBatch input) reply next := by
            cases reply <;> exact replied
          rcases (batch_replied replied).1 with ⟨gone, rfl⟩
          exact removes gone
      | pruneScoped input =>
          cases reply with
          | ok deleted =>
              rcases replied with ⟨gone, _, rfl⟩
              exact removes gone
          | error message =>
              rcases replied with ⟨gone, _, rfl⟩
              exact removes gone
      | prune olderThan keepLast =>
          have replied : replies reads world (.prune olderThan keepLast) reply next := by
            cases reply <;> exact replied
          rcases (prune_replied replied).1 with ⟨gone, rfl⟩
          exact removes gone

/-- What a successful part of a cycle does to the memory: it settles exports of its own types
only. -/
structure Proceeds (types : List Text) (memory ended : Memory) : Prop where
  hits : memory.ceilingHitsThisCycle ≤ ended.ceilingHitsThisCycle
  others : forall other, other ∉ types -> ended.archiveResume other = memory.archiveResume other

/-- No export of some types waits to be resumed. -/
def Fresh (config : Config) (types : List Text) (memory : Memory) : Prop :=
  forall type, type ∈ types -> type ∈ config.archivedTypes -> memory.archiveResume type = none

/-- No ceiling was hit, and no export is left to be resumed. -/
structure Completes (config : Config) (types : List Text) (memory ended : Memory) : Prop where
  hits : ended.ceilingHitsThisCycle = memory.ceilingHitsThisCycle
  settled : Fresh config types ended

theorem completes_both {first rest : List Text} {middle ended : Memory} (proceeds : Proceeds first memory middle)
    (later : Proceeds rest middle ended) (apart : forall type, type ∈ first -> type ∉ rest)
    (completes : Completes config (first ++ rest) memory ended) :
    Completes config first memory middle ∧ Completes config rest middle ended := by
  have noneThere := proceeds.hits
  have noneThen := later.hits
  have none := completes.hits
  refine ⟨⟨by omega, fun type member ofArchive => ?_⟩, by omega, fun type member ofArchive => ?_⟩
  · rw [← later.others type (apart type member)]
    exact completes.settled type (List.mem_append_left _ member) ofArchive
  · exact completes.settled type (List.mem_append_right _ member) ofArchive

/-- A step that succeeds sweeps its scope, if it completes. -/
theorem pruneArchivedThenDelete_clean {fallbackOlderThan : Int} {fallbackKeepLast : Option Int}
    {outcome : Memory × PruneStepResult} (byScope : DeletesByScope capabilities scope.keepLast)
    (distinct : Entry.DistinctIds world.contents)
    (traced : (quietProtocol reads).Traced (pruneArchivedThenDelete config capabilities memory
      fallbackOlderThan fallbackKeepLast scope scope.type) world trace outcome last) (succeeds : Succeeds trace)
    (fresh : Fresh config scope.type.toList memory) :
    Proceeds scope.type.toList memory outcome.1 ∧
      (Completes config scope.type.toList memory outcome.1 -> Swept [scope] world.contents last.contents ∧
        last.contents.length + outcome.2.deleted = world.contents.length) := by
  rcases traced.of_bind with ⟨first, archiving, now, second, rfl, exported, traced⟩
  rcases List.forall_mem_append.mp succeeds with ⟨exporting, deleting⟩
  rcases archiveScope_clean exported exporting
    (fun type ofArchive isType => fresh type (Option.mem_toList.mpr isType) ofArchive) with ⟨stored, exports⟩
  have others : forall other, other ∉ scope.type.toList ->
      archiving.1.archiveResume other = memory.archiveResume other :=
    fun other absent => exports.others other fun isType => absent (Option.mem_toList.mpr isType)
  change (quietProtocol reads).Traced (if !archiving.2.proceed then _ else _) _ _ _ _ at traced
  rcases exports.ends with ⟨proceeds, noCutoff⟩ | ⟨proceeds, own, isType, ofArchive, resumes⟩
  · rw [proceeds, noCutoff] at traced
    rcases traced.of_bind with ⟨third, result, later, fourth, rfl, deleted, traced⟩
    rw [← stored] at distinct
    rcases deleteScope_clean byScope distinct deleted (List.forall_mem_append.mp deleting).1 with
      ⟨reported, rfl, ended⟩
    cases traced.interferes_of_done
    rcases traced.of_done with ⟨rfl, rfl⟩
    rw [← stored]
    refine ⟨⟨?_, fun other absent => ?_⟩, fun completes => ?_⟩
    · rw [← exports.hits]
      cases reported.ceilingHit with
      | true => exact Nat.le_succ _
      | false => exact Nat.le_refl _
    · rw [Memory.archiveResume_countCeiling]
      exact others other absent
    · refine ended ?_
      have hits := completes.hits
      rw [← exports.hits] at hits
      cases hit : reported.ceilingHit with
      | true =>
          rw [hit] at hits
          exact (Nat.succ_ne_self _ hits).elim
      | false => rfl
  · rw [proceeds] at traced
    cases traced.interferes_of_done
    rcases traced.of_done with ⟨rfl, rfl⟩
    refine ⟨⟨exports.hits.ge, others⟩, fun completes => ?_⟩
    exact (resumes (completes.settled own (Option.mem_toList.mpr isType) ofArchive)).elim

/-- The entries of a type. -/
def countOf (type : Text) (entries : List (Entry C)) : Nat :=
  entries.countP fun entry => decide (entry.type = type)

/-- The count of a type in the totals of a cycle. -/
def Totals.deletedOf (totals : Totals) (type : Text) : Nat := (totals.deletedByType.lookup type).getD 0

/-- What a part of a cycle that completes has removed, in all and by type. -/
structure Removes (types : List Text) (before after : List (Entry C)) (totals ended : Totals) : Prop where
  whole : after.length + ended.deletedTotal = before.length + totals.deletedTotal
  own : forall type, type ∈ types ->
    countOf type after + ended.deletedOf type = countOf type before + totals.deletedOf type
  others : forall type, type ∉ types -> ended.deletedOf type = totals.deletedOf type

omit [JsonContent C] in
/-- What a rule for a type selects is of the type. -/
theorem type_of_selects {type : Text} {entry : Entry C}
    (selected : (ruleOf (typeScope config.prune startedAtMs type)).selects entry = true) : entry.type = type :=
  (of_decide_eq_true selected).2

omit [JsonContent C] in
/-- An entry is in no scope of another type. -/
theorem typeScope_apart {types : List Text} {entry : Entry C} (absent : entry.type ∉ types)
    {rule : Sweep.Rule (Entry C)} (isRule : rule ∈ (types.map (typeScope config.prune startedAtMs)).map ruleOf) :
    rule.selects entry = false := by
  rcases List.mem_map.mp isRule with ⟨scope, isScope, rfl⟩
  rcases List.mem_map.mp isScope with ⟨other, isOther, rfl⟩
  exact decide_eq_false fun inScope => absent (inScope.2 ▸ isOther)

/-- The types with a scope of their own are swept one after the other. -/
theorem pruneTypes_clean {types : List Text} {totals : Totals} {outcome : Memory × Totals} (nodup : types.Nodup)
    (byScope : DeletesByScope capabilities config.prune.keepLast) (distinct : Entry.DistinctIds world.contents)
    (traced : (quietProtocol reads).Traced
      (pruneTypes config capabilities startedAtMs types memory totals) world trace outcome last)
    (succeeds : Succeeds trace) (fresh : Fresh config types memory) :
    Proceeds types memory outcome.1 ∧ (Completes config types memory outcome.1 ->
      Swept (types.map (typeScope config.prune startedAtMs)) world.contents last.contents ∧
        Removes types world.contents last.contents totals outcome.2) := by
  induction types generalizing memory totals world trace with
  | nil =>
      cases traced.interferes_of_done
      rcases traced.of_done with ⟨rfl, rfl⟩
      refine ⟨⟨Nat.le_refl _, fun _ _ => rfl⟩, fun _ => ⟨Sweep.Swept.nil _, rfl, ?_, fun _ _ => rfl⟩⟩
      exact fun type none => (List.not_mem_nil none).elim
  | cons type types inductionHypothesis =>
      rcases traced.of_bind with ⟨first, step, now, second, rfl, stepped, rest⟩
      rcases List.forall_mem_append.mp succeeds with ⟨stepSucceeds, restSucceeds⟩
      rcases List.nodup_cons.mp nodup with ⟨single, nodupRest⟩
      have distinctNow := Entry.distinctIds_sublist (sublist_of_traced stepped) distinct
      have byOwnScope : DeletesByScope capabilities (typeScope config.prune startedAtMs type).keepLast := byScope
      rcases pruneArchivedThenDelete_clean byOwnScope distinct stepped stepSucceeds
        (fun own isType => fresh own (List.mem_singleton.mp isType ▸ List.mem_cons_self ..)) with
        ⟨proceeds, sweeps⟩
      have apart : forall own, own ∈ (typeScope config.prune startedAtMs type).type.toList -> own ∉ types := by
        intro own isType
        rw [List.mem_singleton.mp isType]
        exact single
      have freshRest : Fresh config types step.1 := by
        intro other isOther ofArchive
        rw [proceeds.others other fun isType => apart other isType isOther]
        exact fresh other (List.mem_cons_of_mem _ isOther) ofArchive
      rcases inductionHypothesis nodupRest distinctNow rest restSucceeds freshRest with ⟨later, sweepsRest⟩
      refine ⟨⟨proceeds.hits.trans later.hits, fun other absent => ?_⟩, fun completes => ?_⟩
      · rw [List.mem_cons, not_or] at absent
        rw [later.others other absent.2, proceeds.others other fun isType => absent.1 (List.mem_singleton.mp isType)]
      · rcases completes_both proceeds later apart completes with ⟨completesStep, completesRest⟩
        rcases sweeps completesStep with ⟨swept, removed⟩
        rcases sweepsRest completesRest with ⟨sweptRest, removes⟩
        have nodupEntries := nodup_of_distinctIds distinct
        have added : forall other, (totals.add step.2 (some type)).deletedOf other =
            totals.deletedOf other + if some type = some other then step.2.deleted else 0 :=
          lookup_add totals step.2 (some type)
        refine ⟨Sweep.Swept.cons swept sweptRest nodupEntries fun rule isRule entry selected => ?_, ?_, ?_, ?_⟩
        · refine typeScope_apart ?_ isRule
          rw [type_of_selects selected]
          exact single
        · have whole := removes.whole
          change _ = now.contents.length + (totals.deletedTotal + step.2.deleted) at whole
          omega
        · intro other member
          rcases List.mem_cons.mp member with rfl | isOther
          · have within := swept.countP_of_within nodupEntries
              (fun entry => decide (entry.type = other))
              (List.forall_mem_singleton.mpr fun entry selected => decide_eq_true (type_of_selects selected))
            have untouched := sweptRest.countP_of_apart (nodup_of_distinctIds distinctNow)
              (fun entry => decide (entry.type = other))
              (fun entry isOwn rule isRule =>
                typeScope_apart (by rw [of_decide_eq_true isOwn]; exact single) isRule)
            rw [removes.others other single, added, if_pos rfl, countOf, untouched, countOf]
            omega
          · have different : type ≠ other := fun same => single (same ▸ isOther)
            have untouched := swept.countP_of_apart nodupEntries
              (fun entry => decide (entry.type = other))
              (fun entry isOwn => List.forall_mem_singleton.mpr (by
                refine decide_eq_false fun inScope => different ?_
                exact inScope.2.symm.trans (of_decide_eq_true isOwn)))
            rw [removes.own other isOther, added, if_neg fun same => different (Option.some.inj same),
              Nat.add_zero, countOf, untouched, countOf]
        · intro other absent
          rw [List.mem_cons, not_or] at absent
          rw [removes.others other absent.2, added,
            if_neg fun same => absent.1 (Option.some.inj same).symm, Nat.add_zero]

end Steps

/-! ## The cycle -/

/-- The scopes a cycle deletes from. -/
def deleteScopes (config : Config) (startedAtMs : Int) : List PruneScope :=
  bulkScope config startedAtMs :: (individualTypes config).map (typeScope config.prune startedAtMs)

/-- The scopes hold what is older than the cutoff of its own type. -/
theorem exists_inScope_iff {config : Config} {entry : Entry C} :
    (Exists fun scope => scope ∈ deleteScopes config startedAtMs ∧ scope.InScope entry) <->
      entry.createdAt < typeCutoff config.prune startedAtMs entry.type := by
  by_cases individual : entry.type ∈ individualTypes config
  · constructor
    · rintro ⟨scope, isScope, older, selected⟩
      rcases List.mem_cons.mp isScope with rfl | ofType
      · exact (bulkScope_selects_iff.mp selected individual).elim
      · rcases List.mem_map.mp ofType with ⟨type, _, rfl⟩
        have isType : entry.type = type := selected
        rw [isType]
        exact older
    · intro older
      exact ⟨typeScope config.prune startedAtMs entry.type,
        List.mem_cons_of_mem _ (List.mem_map_of_mem individual), older, rfl⟩
  · have overridden : config.prune.perTypeMs.lookup entry.type = none := by
      refine List.lookup_eq_none_iff.mpr fun override isOverride => ?_
      refine bne_iff_ne.mpr fun same => individual (mem_individualTypes.mpr (.inl ?_))
      exact same ▸ List.mem_map_of_mem isOverride
    have cutoff : typeCutoff config.prune startedAtMs entry.type = startedAtMs - config.prune.afterMs := by
      rw [typeCutoff, overridden]
      rfl
    rw [cutoff]
    constructor
    · rintro ⟨scope, isScope, older, selected⟩
      rcases List.mem_cons.mp isScope with rfl | ofType
      · exact older
      · rcases List.mem_map.mp ofType with ⟨type, isIndividual, rfl⟩
        have isType : entry.type = type := selected
        exact (individual (isType ▸ isIndividual)).elim
    · exact fun older => ⟨bulkScope config startedAtMs, List.mem_cons_self .., older,
        bulkScope_selects_iff.mpr individual⟩

/-- The store after a cycle: what is not older than the cutoff of its own type, and the newest
few of the rest of each scope. -/
structure Retains (config : Config) (startedAtMs : Int) (before after : List (Entry C)) : Prop where
  sublist : after.Sublist before
  exactly : Exists fun spared : PruneScope -> List (Entry C) =>
    (forall scope, scope ∈ deleteScopes config startedAtMs ->
      Sweep.HighestOf Entry.createdAt scope.keep
        (before.filter fun entry => decide (scope.InScope entry)) (spared scope)) ∧
    forall entry, entry ∈ after <-> entry ∈ before ∧
      (typeCutoff config.prune startedAtMs entry.type ≤ entry.createdAt ∨
        Exists fun scope => scope ∈ deleteScopes config startedAtMs ∧ entry ∈ spared scope)

theorem retains_of_swept {config : Config} {before after : List (Entry C)}
    (swept : Swept (deleteScopes config startedAtMs) before after) : Retains config startedAtMs before after where
  sublist := swept.sublist
  exactly := by
    refine ⟨fun scope => after.filter fun entry => decide (scope.InScope entry), ?_, fun entry => ?_⟩
    · exact fun scope isScope => swept.keeps (ruleOf scope) (List.mem_map_of_mem isScope)
    · constructor
      · intro member
        refine ⟨swept.sublist.subset member, ?_⟩
        rcases lt_or_ge entry.createdAt (typeCutoff config.prune startedAtMs entry.type) with older | recent
        · rcases exists_inScope_iff.mpr older with ⟨scope, isScope, inScope⟩
          exact .inr ⟨scope, isScope, List.mem_filter.mpr ⟨member, decide_eq_true inScope⟩⟩
        · exact .inl recent
      · rintro ⟨member, recent | ⟨scope, _, spared⟩⟩
        · refine swept.spares entry member fun rule isRule => ?_
          rcases List.mem_map.mp isRule with ⟨scope, isScope, rfl⟩
          exact decide_eq_false fun inScope =>
            absurd (exists_inScope_iff.mp ⟨scope, isScope, inScope⟩) (not_lt.mpr recent)
        · exact List.mem_of_mem_filter spared

/-- The record of a cycle gives the number of entries that are gone, and for each type with a
scope of its own the number of its entries. -/
structure Tallies (config : Config) (before after : List (Entry C)) (run : PruneRun) : Prop where
  deletedTotal : run.deletedTotal = (without before after).length
  deletedByType : forall type, (run.deletedByType.lookup type).getD 0 =
    if type ∈ individualTypes config then countOf type (without before after) else 0

/-- What is gone and what is left make up what there was. -/
theorem perm_gone {before after : List (Entry C)} (distinct : Entry.DistinctIds before)
    (sublist : after.Sublist before) : before.Perm (without before after ++ after) :=
  perm_without_append distinct ⟨fun _ member => sublist.subset member, Entry.distinctIds_sublist sublist distinct⟩

/-- Jobs are kept for 5 ms, the rest for 8, and of each scope the newest is kept. -/
def keepNewestJob : Config where
  prune :=
    { afterMs := 8
      perTypeMs := [(['j', 'o', 'b'], 5)]
      keepLast := some 1
      batchSize := 1
      maxBatchesPerCycle := 2
      batchSize_pos := Nat.one_pos
      maxBatchesPerCycle_pos := Nat.two_pos }
  archive := none

def scopedOnly : Capabilities := ⟨true, false⟩

end Prune
end Telescope
