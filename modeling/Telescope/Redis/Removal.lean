import Telescope.Redis.Representation

namespace Telescope
namespace Redis

universe u

/-!
# Removing members

The removal commands of a member are derived from the content-less copy read
for it.  In a consistent keyspace that copy agrees with the entry on everything
the indexes depend on, so removing the members of some entries leaves a
keyspace that represents the other entries.  All three prune operations remove
through this one theorem.
-/

variable {C : Type u} [JsonContent C]

namespace Keyspace

omit [JsonContent C] in
/-- The tag commands of one removed entry. -/
theorem foldl_zremTags (member : Text) (tags : List Text) (keyspace : Keyspace C) :
    let untagged := tags.foldl (fun keyspace tag => keyspace.zrem (.tag tag) member) keyspace
    untagged.entries = keyspace.entries ∧ untagged.metas = keyspace.metas ∧
      untagged.batches = keyspace.batches ∧ untagged.tags = keyspace.tags ∧
      forall key other, other ∈ untagged.index key <->
        other ∈ keyspace.index key ∧ ¬ (key ∈ tags.map IndexKey.tag ∧ other = member) := by
  induction tags generalizing keyspace with
  | nil =>
      refine ⟨rfl, rfl, rfl, rfl, fun key other => ?_⟩
      simp only [List.foldl_nil, List.map_nil, List.not_mem_nil, false_and, not_false_eq_true,
        and_true]
  | cons first tags inductionHypothesis =>
      rcases inductionHypothesis (keyspace.zrem (.tag first) member) with
        ⟨entries, metas, batches, counts, index⟩
      refine ⟨entries, metas, batches, counts, fun key other => ?_⟩
      rw [List.foldl_cons, index, mem_zrem, List.map_cons, List.mem_cons]
      tauto

/-- The removal commands of one entry, given its content-less copy. -/
theorem removeEntry_spec (keyspace : Keyspace C) (entry : Entry C) :
    let removed := keyspace.removeEntry (entryMember entry) (some entry.withoutContent)
    removed.entries = Function.update keyspace.entries entry.id none ∧
      removed.metas = Function.update keyspace.metas entry.id none ∧
      removed.tags = keyspace.tags ∧
      (forall key other, other ∈ removed.index key <->
        other ∈ keyspace.index key ∧ ¬ (key ∈ indexKeys entry ∧ other = entryMember entry)) ∧
      forall batchId id, removed.BatchMember batchId id <->
        keyspace.BatchMember batchId id ∧ ¬ (entry.batchId = batchId ∧ entry.id = id) := by
  have sameId : idFromMember (entryMember entry) = entry.id :=
    idFromMember_lexMember entry.createdAt entry.id
  simp only [removeEntry, sameId]
  have tagged := fun keyspace : Keyspace C =>
    foldl_zremTags (entryMember entry) entry.tags keyspace
  cases family : entry.familyHash with
  | none =>
      simp only [Entry.withoutContent, family]
      rcases tagged _ with ⟨entries, metas, batches, counts, index⟩
      refine ⟨entries, metas, counts, fun key other => ?_, fun batchId id => ?_⟩
      · rw [index]
        change (other ∈ (zrem (zrem keyspace .all _) _ _).index key ∧ _) <-> _
        simp only [mem_zrem, indexKeys, family, Option.toList_none, List.map_nil, List.nil_append,
          List.mem_cons]
        tauto
      · rw [BatchMember, batches, eq_comm, eq_comm (a := entry.id)]
        exact batchMember_zremBatch
  | some familyHash =>
      simp only [Entry.withoutContent, family]
      rcases tagged _ with ⟨entries, metas, batches, counts, index⟩
      refine ⟨entries, metas, counts, fun key other => ?_, fun batchId id => ?_⟩
      · rw [index]
        change (other ∈ (zrem (zrem (zrem keyspace .all _) _ _) _ _).index key ∧ _) <-> _
        simp only [mem_zrem, indexKeys, family, Option.toList_some, List.map_cons, List.map_nil,
          List.cons_append, List.nil_append, List.mem_cons]
        tauto
      · rw [BatchMember, batches, eq_comm, eq_comm (a := entry.id)]
        exact batchMember_zremBatch

/-- The pipeline that removes some entries. -/
def removeEntries (keyspace : Keyspace C) (gone : List (Entry C)) : Keyspace C :=
  gone.foldl
    (fun keyspace entry => keyspace.removeEntry (entryMember entry) (some entry.withoutContent))
    keyspace

theorem removeEntries_blobs (keyspace : Keyspace C) (gone : List (Entry C)) :
    (forall id, (keyspace.removeEntries gone).entries id =
        if id ∈ gone.map Entry.id then none else keyspace.entries id) ∧
      (forall id, (keyspace.removeEntries gone).metas id =
        if id ∈ gone.map Entry.id then none else keyspace.metas id) ∧
      (keyspace.removeEntries gone).tags = keyspace.tags := by
  induction gone generalizing keyspace with
  | nil => exact ⟨fun _ => rfl, fun _ => rfl, rfl⟩
  | cons entry gone inductionHypothesis =>
      rcases removeEntry_spec keyspace entry with ⟨entries, metas, tags, _, _⟩
      rcases inductionHypothesis
        (keyspace.removeEntry (entryMember entry) (some entry.withoutContent)) with
        ⟨restEntries, restMetas, restTags⟩
      refine ⟨fun id => ?_, fun id => ?_, restTags.trans tags⟩
      · refine (restEntries id).trans ?_
        rw [entries, List.map_cons]
        by_cases same : id = entry.id
        · simp only [same, List.mem_cons, true_or, if_true, Function.update_self, ite_self]
        · simp only [List.mem_cons, same, false_or, Function.update_of_ne same]
      · refine (restMetas id).trans ?_
        rw [metas, List.map_cons]
        by_cases same : id = entry.id
        · simp only [same, List.mem_cons, true_or, if_true, Function.update_self, ite_self]
        · simp only [List.mem_cons, same, false_or, Function.update_of_ne same]

theorem removeEntries_indexes (keyspace : Keyspace C) (gone : List (Entry C)) :
    (forall key other, other ∈ (keyspace.removeEntries gone).index key <->
        other ∈ keyspace.index key ∧
          ¬ Exists fun entry =>
            entry ∈ gone ∧ key ∈ indexKeys entry ∧ other = entryMember entry) ∧
      forall batchId id, (keyspace.removeEntries gone).BatchMember batchId id <->
        keyspace.BatchMember batchId id ∧
          ¬ Exists fun entry => entry ∈ gone ∧ entry.batchId = batchId ∧ entry.id = id := by
  induction gone generalizing keyspace with
  | nil =>
      refine ⟨fun key other => ?_, fun batchId id => ?_⟩
      · exact (and_iff_left fun ⟨_, member, _⟩ => by cases member).symm
      · exact (and_iff_left fun ⟨_, member, _⟩ => by cases member).symm
  | cons entry gone inductionHypothesis =>
      rcases removeEntry_spec keyspace entry with ⟨_, _, _, index, batches⟩
      rcases inductionHypothesis
        (keyspace.removeEntry (entryMember entry) (some entry.withoutContent)) with
        ⟨restIndex, restBatches⟩
      refine ⟨fun key other => ?_, fun batchId id => ?_⟩
      · refine (restIndex key other).trans ?_
        rw [index, List.exists_mem_cons_iff, not_or, and_assoc]
      · refine (restBatches batchId id).trans ?_
        rw [batches, List.exists_mem_cons_iff, not_or, and_assoc]

end Keyspace

theorem decrement_tagField (kept gone : Nat) :
    (if (tagField (kept + gone)).getD 0 - (gone : Int) ≤ 0 then none
      else some ((tagField (kept + gone)).getD 0 - (gone : Int))) = tagField kept := by
  rw [getD_tagField, tagField]
  by_cases zero : kept = 0
  · rw [if_pos (by omega), if_pos zero]
  · rw [if_neg (by omega), if_neg zero]
    congr 1
    omega

variable {contents : List (Entry C)} {keyspace : Keyspace C}

/-- Removing stored entries and counting down their tags. -/
theorem Represents.removeEntries {gone : List (Entry C)} (represents : Represents contents keyspace)
    (selection : Selection contents gone) :
    Represents (without contents gone)
      ((keyspace.removeEntries gone).decrementTags (gone.flatMap Entry.tags)) := by
  rcases keyspace.removeEntries_blobs gone with ⟨entries, metas, tags⟩
  rcases keyspace.removeEntries_indexes gone with ⟨index, batches⟩
  refine ⟨Entry.distinctIds_sublist List.filter_sublist represents.distinct, ?_, ?_, ?_, ?_, ?_⟩
  · intro id entry
    have blob : ((keyspace.removeEntries gone).decrementTags
        (gone.flatMap Entry.tags)).entries id = _ := entries id
    rw [blob, mem_without]
    by_cases isGone : id ∈ gone.map Entry.id
    · rw [if_pos isGone]
      exact iff_of_false (fun found => by cases found) fun ⟨⟨_, stays⟩, same⟩ => stays (same ▸ isGone)
    · rw [if_neg isGone, represents.entries]
      exact ⟨fun ⟨member, same⟩ => ⟨⟨member, same ▸ isGone⟩, same⟩,
        fun ⟨⟨member, _⟩, same⟩ => ⟨member, same⟩⟩
  · intro id
    refine (metas id).trans ?_
    refine Eq.trans ?_ (congrArg _ (entries id).symm)
    split
    · rfl
    · exact represents.metas id
  · intro key member
    refine (index key member).trans ?_
    rw [represents.index]
    constructor
    · rintro ⟨⟨entry, stored, listed, rfl⟩, stays⟩
      refine ⟨entry, mem_without.mpr ⟨stored, fun id => stays ⟨entry, ?_, listed, rfl⟩⟩, listed, rfl⟩
      exact selection.mem_of_id represents.distinct stored id
    · rintro ⟨entry, stays, listed, rfl⟩
      rcases mem_without.mp stays with ⟨stored, notGone⟩
      refine ⟨⟨entry, stored, listed, rfl⟩, ?_⟩
      rintro ⟨other, otherGone, _, same⟩
      exact notGone (lexMember_injective_id same ▸ List.mem_map_of_mem otherGone)
  · intro batchId id
    refine (batches batchId id).trans ?_
    rw [represents.batches]
    constructor
    · rintro ⟨⟨entry, stored, sameBatch, rfl⟩, stays⟩
      refine ⟨entry, mem_without.mpr ⟨stored, fun isGone => stays ⟨entry, ?_, sameBatch, rfl⟩⟩,
        sameBatch, rfl⟩
      exact selection.mem_of_id represents.distinct stored isGone
    · rintro ⟨entry, stays, sameBatch, rfl⟩
      rcases mem_without.mp stays with ⟨stored, notGone⟩
      refine ⟨⟨entry, stored, sameBatch, rfl⟩, ?_⟩
      rintro ⟨other, otherGone, _, same⟩
      exact notGone (same ▸ List.mem_map_of_mem otherGone)
  · intro tag
    have total : tagOccurrences contents tag =
        tagOccurrences (without contents gone) tag + (gone.flatMap Entry.tags).count tag :=
      (tagOccurrences_perm (perm_without_append represents.distinct selection) tag).trans
        (tagOccurrences_append _ _ tag)
    have before : (keyspace.removeEntries gone).tags tag = _ :=
      (congrFun tags tag).trans (represents.tags tag)
    simp only [Keyspace.decrementTags]
    rw [before, total]
    split
    · exact decrement_tagField _ _
    · rename_i untagged
      rw [List.count_eq_zero.mpr untagged, Nat.add_zero]

/-! ## The method -/

theorem Represents.readEntry (represents : Represents contents keyspace) {entry : Entry C} (member : entry ∈ contents) :
    keyspace.readEntry true (idFromMember (entryMember entry)) = some entry.withoutContent := by
  have found : keyspace.entries entry.id = some entry :=
    (represents.entries entry.id entry).mpr ⟨member, rfl⟩
  rw [entryMember, idFromMember_lexMember, Keyspace.readEntry, if_pos rfl, represents.metas, found]
  rfl

/-- The entries a carve-out lets go. -/
def notSpared (excludeTypes : Option (List Text)) (entry : Entry C) : Bool :=
  !Keyspace.spared excludeTypes (some entry)

/-- Removing the members of some stored entries removes those the carve-out does
not spare, and counts both kinds. -/
theorem removeMembers_spec {selected : List (Entry C)} (represents : Represents contents keyspace)
    (selection : Selection contents selected) (excludeTypes : Option (List Text)) :
    let outcome := keyspace.removeMembers (selected.map entryMember) excludeTypes
    let gone := selected.filter (notSpared excludeTypes)
    Represents (without contents gone) outcome.keyspace ∧ outcome.removed = gone.length ∧
      outcome.skipped = selected.length - gone.length := by
  have candidates : ((selected.map entryMember).map fun member =>
      (member, keyspace.readEntry true (idFromMember member))) =
        selected.map fun entry => (entryMember entry, some entry.withoutContent) := by
    rw [List.map_map]
    refine List.map_congr_left fun entry member => ?_
    rw [Function.comp_apply, represents.readEntry (selection.subset entry member)]
  have doomed : (selected.map fun entry => (entryMember entry, some entry.withoutContent)).filter
      (fun candidate => !Keyspace.spared excludeTypes candidate.2) =
        (selected.filter (notSpared excludeTypes)).map
          fun entry => (entryMember entry, some entry.withoutContent) := by
    rw [List.filter_map]
    congr 1
    refine List.filter_congr fun entry _ => ?_
    cases excludeTypes <;> rfl
  have removal := represents.removeEntries (selection.filter (notSpared excludeTypes))
  refine ⟨?_, ?_, ?_⟩
  · simp only [Keyspace.removeMembers, candidates, doomed, List.foldl_map, List.flatMap_map]
    exact removal
  · simp only [Keyspace.removeMembers, candidates, doomed, List.length_map]
  · simp only [Keyspace.removeMembers, candidates, doomed, List.length_map]

/-- The members of an index belong to stored entries, each entry once. -/
theorem exists_selection (represents : Represents contents keyspace) {key : IndexKey} {members : List Text}
    (nodup : members.Nodup) (listed : forall member, member ∈ members -> member ∈ keyspace.index key) :
    Exists fun selected => Selection contents selected ∧ members = selected.map entryMember ∧
      forall entry, entry ∈ selected -> key ∈ indexKeys entry := by
  induction members with
  | nil =>
      refine ⟨[], ⟨?_, List.nodup_nil⟩, rfl, ?_⟩
      · exact fun _ member => (List.not_mem_nil member).elim
      · exact fun _ member => (List.not_mem_nil member).elim
  | cons member members inductionHypothesis =>
      rcases List.nodup_cons.mp nodup with ⟨fresh, rest⟩
      rcases inductionHypothesis rest
        fun other inRest => listed other (List.mem_cons_of_mem _ inRest) with
        ⟨selected, selection, rfl, keyed⟩
      rcases (represents.index key member).mp (listed member (List.mem_cons_self ..)) with
        ⟨entry, stored, inKey, rfl⟩
      refine ⟨entry :: selected, ⟨?_, ?_⟩, rfl, ?_⟩
      · intro other found
        rcases List.mem_cons.mp found with rfl | inRest
        · exact stored
        · exact selection.subset other inRest
      · refine List.nodup_cons.mpr ⟨fun id => fresh ?_, selection.distinct⟩
        exact List.mem_map_of_mem (selection.mem_of_id represents.distinct stored id)
      · intro other found
        rcases List.mem_cons.mp found with rfl | inRest
        · exact inKey
        · exact keyed other inRest

end Redis
end Telescope
