import Telescope.Foundation.Transition
import Telescope.Redis.Prune

namespace Telescope
namespace Redis

universe u

/-!
# Consistency of the indexes over a run

Storing and pruning keep every index in step with the stored entries.  An update
rewrites the two blobs and nothing else, so it keeps the indexes in step exactly
as long as it leaves type, family, batch and tags as they were: the removal of
an entry derives its commands from the blob, and the indexes still list what the
entry was stored under.  The tag hash counts occurrences, which is the number of
entries as long as no entry carries a tag twice.
-/

variable {C : Type u} [JsonContent C]

/-- Every index contains exactly the members of the stored entries that belong
to it, and the tag counts are the numbers of entries that carry the tag. -/
structure Consistent (contents : List (Entry C)) (keyspace : Keyspace C) : Prop where
  distinct : Entry.DistinctIds contents
  stored : forall id entry,
    keyspace.entries id = some entry <-> entry ∈ contents ∧ entry.id = id
  primary : forall member, member ∈ keyspace.index .all <->
    Exists fun entry => entry ∈ contents ∧ member = entryMember entry
  types : forall type member, member ∈ keyspace.index (.type type) <->
    Exists fun entry => entry ∈ contents ∧ entry.type = type ∧ member = entryMember entry
  tagged : forall tag member, member ∈ keyspace.index (.tag tag) <->
    Exists fun entry => entry ∈ contents ∧ tag ∈ entry.tags ∧ member = entryMember entry
  families : forall family member, member ∈ keyspace.index (.family family) <->
    Exists fun entry =>
      entry ∈ contents ∧ entry.familyHash = some family ∧ member = entryMember entry
  batches : forall batchId id, keyspace.BatchMember batchId id <->
    Exists fun entry => entry ∈ contents ∧ entry.batchId = batchId ∧ entry.id = id
  tagCounts : forall tag,
    (keyspace.tags tag).getD 0 = contents.countP fun entry => decide (tag ∈ entry.tags)

variable {contents : List (Entry C)}

omit [JsonContent C] in
/-- Without repeated tags the occurrences are the entries. -/
theorem tagOccurrences_eq_countP (noRepeats : forall entry, entry ∈ contents -> entry.tags.Nodup) (tag : Text) :
    tagOccurrences contents tag = contents.countP fun entry => decide (tag ∈ entry.tags) := by
  induction contents with
  | nil => rfl
  | cons entry contents inductionHypothesis =>
      have rest := inductionHypothesis fun other member =>
        noRepeats other (List.mem_cons_of_mem _ member)
      have single := noRepeats entry (List.mem_cons_self ..)
      rw [tagOccurrences, List.flatMap_cons, List.count_append, List.countP_cons]
      change entry.tags.count tag + tagOccurrences contents tag = _
      rw [rest, Nat.add_comm]
      congr 1
      by_cases tagged : tag ∈ entry.tags
      · rw [List.count_eq_one_of_mem single tagged, if_pos (decide_eq_true tagged)]
      · rw [List.count_eq_zero.mpr tagged, if_neg (by rwa [decide_eq_true_eq])]

variable {keyspace : Keyspace C}

theorem Represents.consistent (represents : Represents contents keyspace)
    (noRepeats : forall entry, entry ∈ contents -> entry.tags.Nodup) :
    Consistent contents keyspace where
  distinct := represents.distinct
  stored := represents.entries
  primary := by
    intro member
    simp only [represents.index, mem_indexKeys_all, true_and]
  types := by
    intro type member
    simp only [represents.index, mem_indexKeys_type]
  tagged := by
    intro tag member
    simp only [represents.index, mem_indexKeys_tag]
  families := by
    intro family member
    simp only [represents.index, mem_indexKeys_family]
  batches := represents.batches
  tagCounts := by
    intro tag
    rw [represents.tags, getD_tagField, tagOccurrences_eq_countP noRepeats]

/-! ## Runs -/

inductive Operation (C : Type u)
  | store (entries : List (Entry C))
  | update (id : Text) (patch : Patch C)
  | prune (olderThan : Int) (keepLast : Option Int)
  | pruneScoped (input : PruneScope)
  | pruneScopedBatch (input : BoundedPruneScope)

def step (keyspace : Keyspace C) : Operation C -> Option (Keyspace C)
  | .store entries => some (keyspace.store entries)
  | .update id patch => some (keyspace.update id patch)
  | .prune olderThan keepLast => some (keyspace.prune olderThan keepLast).1
  | .pruneScoped input => some (keyspace.pruneScoped input).1
  | .pruneScopedBatch input => (keyspace.pruneScopedBatch input).map Prod.fst

/-- Stored identifiers are fresh and patches change neither `id` nor
`createdAt`. -/
def Admissible (keyspace : Keyspace C) : Operation C -> Prop
  | .store entries =>
      Entry.DistinctIds entries ∧ forall entry, entry ∈ entries -> keyspace.entries entry.id = none
  | .update id patch =>
      forall existing, keyspace.entries id = some existing ->
        (patch.apply existing).createdAt = existing.createdAt
  | _ => True

/-- No entry carries a tag twice, and a patch of a stored entry leaves its type,
family, batch and set of tags as they are. -/
def KeepsIndexes (keyspace : Keyspace C) : Operation C -> Prop
  | .store entries => forall entry, entry ∈ entries -> entry.tags.Nodup
  | .update id patch =>
      forall existing, keyspace.entries id = some existing ->
        (patch.apply existing).type = existing.type ∧
          (patch.apply existing).familyHash = existing.familyHash ∧
          (patch.apply existing).batchId = existing.batchId ∧
          (patch.apply existing).tags.Nodup ∧
          forall tag, tag ∈ (patch.apply existing).tags <-> tag ∈ existing.tags
  | _ => True

/-- The invariant of such a run. -/
def InStep (keyspace : Keyspace C) : Prop :=
  Exists fun contents =>
    Represents contents keyspace ∧ forall entry, entry ∈ contents -> entry.tags.Nodup

theorem inStep_without {gone : List (Entry C)} (represents : Represents (without contents gone) keyspace)
    (noRepeats : forall entry, entry ∈ contents -> entry.tags.Nodup) : InStep keyspace :=
  ⟨_, represents, fun entry member => noRepeats entry (mem_without.mp member).1⟩

theorem store_inStep {entries : List (Entry C)} (represents : Represents contents keyspace)
    (noRepeats : forall entry, entry ∈ contents -> entry.tags.Nodup) (admissible : Admissible keyspace (.store entries))
    (keeps : KeepsIndexes keyspace (.store entries)) : InStep (keyspace.store entries) := by
  rcases admissible with ⟨distinct, fresh⟩
  have distinctBoth : Entry.DistinctIds (contents ++ entries) := by
    rw [Entry.DistinctIds, List.map_append]
    refine List.nodup_append.mpr ⟨represents.distinct, distinct, ?_⟩
    rintro id stored _ new rfl
    rcases List.mem_map.mp stored with ⟨old, oldMember, rfl⟩
    rcases List.mem_map.mp new with ⟨entry, isNew, same⟩
    have found := (represents.entries old.id old).mpr ⟨oldMember, rfl⟩
    rw [← same, fresh entry isNew] at found
    cases found
  refine ⟨_, represents.store distinctBoth, fun entry member => ?_⟩
  rcases List.mem_append.mp member with old | new
  · exact noRepeats entry old
  · exact keeps entry new

theorem update_inStep (represents : Represents contents keyspace)
    (noRepeats : forall entry, entry ∈ contents -> entry.tags.Nodup) (id : Text) (patch : Patch C)
    (admissible : Admissible keyspace (.update id patch)) (keeps : KeepsIndexes keyspace (.update id patch)) :
    InStep (keyspace.update id patch) := by
  cases found : keyspace.entries id with
  | none =>
      rw [Keyspace.update, found]
      exact ⟨contents, represents, noRepeats⟩
  | some existing =>
      rcases (represents.entries id existing).mp found with ⟨member, rfl⟩
      rcases keeps existing found with ⟨type, familyHash, batchId, tagsNodup, sameTags⟩
      have indexed : KeepsIndexed existing (patch.apply existing) :=
        { createdAt := admissible existing found
          type := type
          familyHash := familyHash
          batchId := batchId
          tags := (List.perm_ext_iff_of_nodup tagsNodup (noRepeats existing member)).mpr sameTags }
      refine ⟨_, represents.update member indexed, fun entry inReplaced => ?_⟩
      rcases List.mem_map.mp inReplaced with ⟨before, inContents, rfl⟩
      split
      · exact tagsNodup
      · exact noRepeats before inContents

theorem step_inStep (operation : Operation C) (inStep : InStep keyspace) (admissible : Admissible keyspace operation)
    (keeps : KeepsIndexes keyspace operation) :
    Exists fun next => step keyspace operation = some next ∧ InStep next := by
  rcases inStep with ⟨contents, represents, noRepeats⟩
  cases operation with
  | store entries => exact ⟨_, rfl, store_inStep represents noRepeats admissible keeps⟩
  | update id patch => exact ⟨_, rfl, update_inStep represents noRepeats id patch admissible keeps⟩
  | prune olderThan keepLast =>
      rcases pruneWith_represents represents .all olderThan keepLast none with ⟨_, rest⟩
      exact ⟨_, rfl, inStep_without rest noRepeats⟩
  | pruneScoped input =>
      refine ⟨_, rfl, ?_⟩
      unfold Keyspace.pruneScoped
      split
      · rename_i type _
        rcases pruneWith_represents represents (.type type) input.before input.keepLast none with
          ⟨_, rest⟩
        exact inStep_without rest noRepeats
      · rcases pruneWith_represents represents .all input.before input.keepLast
          (Keyspace.excludedTypes input.excludeTypes) with ⟨_, rest⟩
        exact inStep_without rest noRepeats
  | pruneScopedBatch input =>
      rcases exists_oldEntries represents (scopeIndex input.toTypeScope)
        (Keyspace.pruneBoundary input.before) with ⟨old, oldEntries⟩
      rcases pruneScopedBatch_spec represents input oldEntries with
        ⟨final, result, _, _, returned, walk⟩
      refine ⟨final, ?_, inStep_without walk.represents noRepeats⟩
      rw [step, returned]
      rfl

/-- From the empty keyspace, every run whose operations keep the indexes goes
through and ends in a consistent keyspace. -/
theorem run_consistent (operations : List (Operation C))
    (along : Transition.Along step
      (fun keyspace operation => Admissible keyspace operation ∧ KeepsIndexes keyspace operation)
      (Keyspace.empty : Keyspace C) operations) :
    Exists fun final =>
      Transition.runFrom step (Keyspace.empty : Keyspace C) operations = some final ∧
        Exists fun contents => Consistent contents final := by
  have start : InStep (Keyspace.empty : Keyspace C) :=
    ⟨[], empty_represents, fun _ member => (List.not_mem_nil member).elim⟩
  rcases Transition.exists_final_along
    (fun _ operation inStep condition => step_inStep operation inStep condition.1 condition.2)
    start along with ⟨final, ran, contents, represents, noRepeats⟩
  exact ⟨final, ran, contents, represents.consistent noRepeats⟩

/-! ## A patch that moves a tag -/

/-- A stored entry with one tag. -/
def taggedEntry : Entry Text :=
  { plainEntry ['e'] ['r'] 1000 with tags := [['o', 'l', 'd']] }

/-- Patching the duration keeps the indexes; pruning then leaves nothing. -/
def indexedRun : List (Operation Text) :=
  [.store [taggedEntry], .update ['e'] { durationMs := some (some 7) }, .prune 2000 none]

theorem run_consistent_indexedRun :
    Exists fun final =>
      Transition.runFrom step (Keyspace.empty : Keyspace Text) indexedRun = some final ∧
        Exists fun contents => Consistent contents final := by
  refine run_consistent indexedRun ⟨⟨⟨?_, ?_⟩, ?_⟩, ?_⟩
  · exact List.nodup_singleton _
  · exact fun _ _ => rfl
  · intro entry member
    cases List.mem_singleton.mp member
    decide
  · rintro _ ⟨⟩
    refine ⟨⟨?_, ?_⟩, ?_⟩
    · rintro existing ⟨⟩
      rfl
    · rintro existing ⟨⟩
      exact ⟨rfl, rfl, rfl, by decide, fun _ => Iff.rfl⟩
    · rintro _ ⟨⟩
      exact ⟨⟨trivial, trivial⟩, fun _ _ => trivial⟩

/-- Storing an entry and patching its tags leaves the new tag without a member. -/
def movedTagRun : List (Operation Text) :=
  [.store [taggedEntry], .update ['e'] { tags := some [['n', 'e', 'w']] }]

theorem movedTag_inconsistent :
    ¬ forall operations : List (Operation Text),
      Transition.Along step Admissible (Keyspace.empty : Keyspace Text) operations ->
      forall final, Transition.runFrom step (Keyspace.empty : Keyspace Text) operations = some final ->
        Exists fun contents => Consistent contents final := by
  intro always
  have admissible : Transition.Along step Admissible (Keyspace.empty : Keyspace Text) movedTagRun := by
    refine ⟨⟨List.nodup_singleton _, fun _ _ => ?_⟩, ?_⟩
    · rfl
    rintro _ ⟨⟩
    refine ⟨?_, fun _ _ => trivial⟩
    rintro existing ⟨⟩
    rfl
  rcases always movedTagRun admissible _ rfl with ⟨contents, consistent⟩
  have patched := (consistent.stored ['e']
    { taggedEntry with tags := [['n', 'e', 'w']] }).mp rfl
  have listed := (consistent.tagged ['n', 'e', 'w'] _).mpr
    ⟨_, patched.1, List.mem_singleton_self _, rfl⟩
  exact List.not_mem_nil listed

end Redis
end Telescope
