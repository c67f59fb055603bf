import Telescope.Redis.Store

namespace Telescope
namespace Redis

universe u

/-!
# What a keyspace represents

A consistent keyspace denotes the list of its stored entries: the blobs are
those entries, each index lists the members of the entries that belong to it,
each batch the identifiers of its entries, and each tag field counts the
occurrences of its tag.  Storing fresh entries appends to the denoted list and
removing members of the primary index filters it, whatever the selection.
-/

variable {C : Type u}

/-- The indexes that list an entry. -/
def indexKeys (entry : Entry C) : List IndexKey :=
  .all :: .type entry.type ::
    (entry.familyHash.toList.map IndexKey.family ++ entry.tags.map IndexKey.tag)

variable {entry : Entry C}

theorem mem_indexKeys_type {type : Text} :
    IndexKey.type type ∈ indexKeys entry <-> entry.type = type := by
  simp [indexKeys, eq_comm]

theorem mem_indexKeys_tag {tag : Text} :
    IndexKey.tag tag ∈ indexKeys entry <-> tag ∈ entry.tags := by
  simp [indexKeys]

theorem mem_indexKeys_family {family : Text} :
    IndexKey.family family ∈ indexKeys entry <-> entry.familyHash = some family := by
  simp [indexKeys]

theorem mem_indexKeys_all (entry : Entry C) : IndexKey.all ∈ indexKeys entry :=
  List.mem_cons_self ..

namespace Keyspace

def BatchMember (keyspace : Keyspace C) (batchId id : Text) : Prop :=
  Exists fun sequence => toLex (sequence, id) ∈ keyspace.batches batchId

end Keyspace

/-- A tag field: absent rather than zero. -/
def tagField (count : Nat) : Option Int := if count = 0 then none else some count

/-- How often a tag occurs on the entries. -/
def tagOccurrences (contents : List (Entry C)) (tag : Text) : Nat :=
  (contents.flatMap Entry.tags).count tag

/-- The keyspace stores exactly these entries, with every index in step. -/
structure Represents [JsonContent C] (contents : List (Entry C)) (keyspace : Keyspace C) : Prop where
  distinct : Entry.DistinctIds contents
  entries : forall id entry,
    keyspace.entries id = some entry <-> entry ∈ contents ∧ entry.id = id
  metas : forall id, keyspace.metas id = (keyspace.entries id).map Entry.withoutContent
  index : forall key member, member ∈ keyspace.index key <->
    Exists fun entry => entry ∈ contents ∧ key ∈ indexKeys entry ∧ member = entryMember entry
  batches : forall batchId id, keyspace.BatchMember batchId id <->
    Exists fun entry => entry ∈ contents ∧ entry.batchId = batchId ∧ entry.id = id
  tags : forall tag, keyspace.tags tag = tagField (tagOccurrences contents tag)

theorem empty_represents [JsonContent C] : Represents [] (Keyspace.empty : Keyspace C) where
  distinct := List.nodup_nil
  entries := fun _ _ => iff_of_false (fun found => by cases found) fun ⟨member, _⟩ => by cases member
  metas := fun _ => rfl
  index := fun _ member => iff_of_false (SortedIndex.not_mem_empty member)
    fun ⟨_, found, _⟩ => by cases found
  batches := fun _ _ => iff_of_false (fun ⟨_, found⟩ => SortedIndex.not_mem_empty _ found)
    fun ⟨_, found, _⟩ => by cases found
  tags := fun _ => rfl

/-! ## Commands -/

variable {keyspace : Keyspace C}

namespace Keyspace

@[simp] theorem mem_zadd {key other : IndexKey} {added member : Text} :
    member ∈ (keyspace.zadd key added).index other <->
      member ∈ keyspace.index other ∨ (other = key ∧ member = added) := by
  by_cases same : other = key
  · subst same
    simp only [zadd, Function.update_self, SortedIndex.mem_insert, true_and]
    exact or_comm
  · simp only [zadd, Function.update_of_ne same, same, false_and, or_false]

@[simp] theorem mem_zrem {key other : IndexKey} {gone member : Text} :
    member ∈ (keyspace.zrem key gone).index other <->
      member ∈ keyspace.index other ∧ ¬ (other = key ∧ member = gone) := by
  by_cases same : other = key
  · subst same
    simp only [zrem, Function.update_self, SortedIndex.mem_erase, true_and, ne_eq]
  · simp only [zrem, Function.update_of_ne same, same, false_and, not_false_eq_true, and_true]

@[simp] theorem batchMember_zremBatch {batchId other gone id : Text} :
    (keyspace.zremBatch batchId gone).BatchMember other id <->
      keyspace.BatchMember other id ∧ ¬ (other = batchId ∧ id = gone) := by
  by_cases same : other = batchId
  · subst same
    simp only [BatchMember, zremBatch, Function.update_self, SortedIndex.mem_filter, ofLex_toLex,
      bne_iff_ne, exists_and_right, true_and, ne_eq]
  · simp only [BatchMember, zremBatch, Function.update_of_ne same, same, false_and,
      not_false_eq_true, and_true]

@[simp] theorem batchMember_zaddBatch {batchId other added id : Text} {sequence : Int} :
    (keyspace.zaddBatch batchId sequence added).BatchMember other id <->
      keyspace.BatchMember other id ∨ (other = batchId ∧ id = added) := by
  by_cases same : other = batchId
  · subst same
    have cleared := @batchMember_zremBatch C keyspace other other added id
    simp only [BatchMember] at cleared
    simp only [BatchMember, zaddBatch, Function.update_self, SortedIndex.mem_insert,
      EmbeddingLike.apply_eq_iff_eq, Prod.mk.injEq, exists_or, cleared, true_and]
    by_cases isAdded : id = added
    · simp only [isAdded, and_true, exists_eq, true_or, or_true]
    · simp only [isAdded, and_false, exists_false, false_or, not_false_eq_true, and_true, or_false]
  · simp only [BatchMember, zaddBatch, zremBatch, Function.update_of_ne same, same, false_and,
      or_false]

/-! ## Storing -/

/-- The tag commands of one stored entry. -/
theorem foldl_tags (member : Text) (tags : List Text) (keyspace : Keyspace C) :
    let tagged := tags.foldl
      (fun keyspace tag => (keyspace.zadd (.tag tag) member).hincrby tag 1) keyspace
    tagged.entries = keyspace.entries ∧ tagged.metas = keyspace.metas ∧
      tagged.batches = keyspace.batches ∧
      (forall key other, other ∈ tagged.index key <->
        other ∈ keyspace.index key ∨ (key ∈ tags.map IndexKey.tag ∧ other = member)) ∧
      forall tag, tagged.tags tag =
        if tag ∈ tags then some ((keyspace.tags tag).getD 0 + tags.count tag)
        else keyspace.tags tag := by
  induction tags generalizing keyspace with
  | nil =>
      refine ⟨rfl, rfl, rfl, fun key other => ?_, fun tag => ?_⟩
      · simp only [List.foldl_nil, List.map_nil, List.not_mem_nil, false_and, or_false]
      · rw [if_neg List.not_mem_nil]
        rfl
  | cons first tags inductionHypothesis =>
      rcases inductionHypothesis ((keyspace.zadd (.tag first) member).hincrby first 1) with
        ⟨entries, metas, batches, index, counts⟩
      refine ⟨entries, metas, batches, fun key other => ?_, fun tag => ?_⟩
      · rw [List.foldl_cons, index, List.map_cons, List.mem_cons, or_and_right]
        change other ∈ (keyspace.zadd (.tag first) member).index key ∨ _ <-> _
        rw [mem_zadd, or_assoc]
      · rw [List.foldl_cons, counts]
        by_cases same : tag = first
        · subst same
          simp only [hincrby, zadd, Function.update_self, Option.getD_some, List.mem_cons,
            true_or, if_true, List.count_cons_self]
          split
          · congr 1
            omega
          · rename_i absent
            rw [List.count_eq_zero.mpr absent]
            rfl
        · simp only [hincrby, zadd, Function.update_of_ne same, List.mem_cons, same, false_or,
            List.count_cons_of_ne (Ne.symm same)]

section Storing

variable [JsonContent C]

theorem storeEntry_entries (keyspace : Keyspace C) (entry : Entry C) :
    (keyspace.storeEntry entry).entries =
      Function.update keyspace.entries entry.id (some entry) := by
  rw [storeEntry]
  refine (foldl_tags _ entry.tags _).1.trans ?_
  cases entry.familyHash <;> rfl

theorem storeEntry_metas (keyspace : Keyspace C) (entry : Entry C) :
    (keyspace.storeEntry entry).metas =
      Function.update keyspace.metas entry.id (some entry.withoutContent) := by
  rw [storeEntry]
  refine (foldl_tags _ entry.tags _).2.1.trans ?_
  cases entry.familyHash <;> rfl

theorem mem_storeEntry {key : IndexKey} {member : Text} :
    member ∈ (keyspace.storeEntry entry).index key <->
      member ∈ keyspace.index key ∨ (key ∈ indexKeys entry ∧ member = entryMember entry) := by
  rw [storeEntry]
  refine ((foldl_tags _ entry.tags _).2.2.2.1 key member).trans ?_
  cases family : entry.familyHash with
  | none =>
      change member ∈ (Keyspace.zadd (Keyspace.zadd keyspace _ _) _ _).index key ∨ _ <-> _
      simp only [mem_zadd, indexKeys, family, Option.toList_none, List.map_nil, List.nil_append,
        List.mem_cons, entryMember]
      tauto
  | some familyHash =>
      change member ∈ (Keyspace.zadd (Keyspace.zadd (Keyspace.zadd keyspace _ _) _ _) _ _).index
        key ∨ _ <-> _
      simp only [mem_zadd, indexKeys, family, Option.toList_some, List.map_cons, List.map_nil,
        List.cons_append, List.nil_append, List.mem_cons, entryMember]
      tauto

theorem batchMember_storeEntry {batchId id : Text} :
    (keyspace.storeEntry entry).BatchMember batchId id <->
      keyspace.BatchMember batchId id ∨ (entry.batchId = batchId ∧ entry.id = id) := by
  have added := @batchMember_zaddBatch C keyspace entry.batchId batchId entry.id id entry.sequence
  rw [storeEntry, BatchMember, (foldl_tags _ entry.tags _).2.2.1, eq_comm, eq_comm (a := entry.id),
    ← added]
  cases entry.familyHash <;> rfl

theorem storeEntry_tags (keyspace : Keyspace C) (entry : Entry C) (tag : Text) :
    (keyspace.storeEntry entry).tags tag =
      if tag ∈ entry.tags then some ((keyspace.tags tag).getD 0 + entry.tags.count tag)
      else keyspace.tags tag := by
  rw [storeEntry]
  refine ((foldl_tags _ entry.tags _).2.2.2.2 tag).trans ?_
  cases entry.familyHash <;> rfl

end Storing
end Keyspace

theorem tagOccurrences_append (left right : List (Entry C)) (tag : Text) :
    tagOccurrences (left ++ right) tag = tagOccurrences left tag + tagOccurrences right tag := by
  rw [tagOccurrences, List.flatMap_append, List.count_append]
  rfl

theorem tagOccurrences_perm {left right : List (Entry C)} (perm : left.Perm right)
    (tag : Text) : tagOccurrences left tag = tagOccurrences right tag :=
  (perm.flatMap_right Entry.tags).count_eq tag

theorem getD_tagField (count : Nat) : (tagField count).getD 0 = count := by
  unfold tagField
  split
  · rename_i zero
    rw [zero]
    rfl
  · rfl

variable {contents : List (Entry C)}

section

variable [JsonContent C]

/-- Storing one entry with a fresh identifier. -/
theorem Represents.storeEntry (represents : Represents contents keyspace)
    (distinct : Entry.DistinctIds (contents ++ [entry])) :
    Represents (contents ++ [entry]) (keyspace.storeEntry entry) where
  distinct := distinct
  entries := by
    intro id found
    have fresh : forall other, other ∈ contents -> other.id ≠ entry.id := by
      intro other member same
      rw [Entry.DistinctIds, List.map_append, List.nodup_append] at distinct
      exact distinct.2.2 other.id (List.mem_map_of_mem member) entry.id (List.mem_singleton_self _)
        same
    rw [Keyspace.storeEntry_entries, List.mem_append, List.mem_singleton]
    by_cases same : id = entry.id
    · rw [same, Function.update_self, Option.some.injEq]
      constructor
      · rintro rfl
        exact ⟨.inr rfl, rfl⟩
      · rintro ⟨stored | rfl, sameId⟩
        · exact (fresh found stored sameId).elim
        · rfl
    · rw [Function.update_of_ne same, represents.entries]
      constructor
      · rintro ⟨member, sameId⟩
        exact ⟨.inl member, sameId⟩
      · rintro ⟨member | rfl, sameId⟩
        · exact ⟨member, sameId⟩
        · exact (same sameId.symm).elim
  metas := by
    intro id
    rw [Keyspace.storeEntry_metas, Keyspace.storeEntry_entries]
    by_cases same : id = entry.id
    · rw [same, Function.update_self, Function.update_self]
      rfl
    · rw [Function.update_of_ne same, Function.update_of_ne same, represents.metas]
  index := by
    intro key member
    rw [Keyspace.mem_storeEntry, represents.index]
    simp only [List.mem_append, List.mem_singleton, or_and_right, exists_or, exists_eq_left]
  batches := by
    intro batchId id
    rw [Keyspace.batchMember_storeEntry, represents.batches]
    simp only [List.mem_append, List.mem_singleton, or_and_right, exists_or, exists_eq_left]
  tags := by
    intro tag
    rw [Keyspace.storeEntry_tags, represents.tags, tagOccurrences_append]
    have single : tagOccurrences [entry] tag = entry.tags.count tag := by
      rw [tagOccurrences, List.flatMap_singleton]
    rw [single, getD_tagField]
    split
    · rename_i tagged
      have positive := List.count_pos_iff.mpr tagged
      rw [tagField, if_neg (by omega)]
      rfl
    · rename_i untagged
      rw [List.count_eq_zero.mpr untagged, Nat.add_zero]

/-- Storing entries with fresh identifiers appends them. -/
theorem Represents.store (represents : Represents contents keyspace) {entries : List (Entry C)}
    (distinct : Entry.DistinctIds (contents ++ entries)) :
    Represents (contents ++ entries) (keyspace.store entries) := by
  induction entries generalizing contents keyspace with
  | nil => rwa [List.append_nil]
  | cons entry entries inductionHypothesis =>
      have split : contents ++ entry :: entries = (contents ++ [entry]) ++ entries := by
        rw [List.append_assoc, List.singleton_append]
      rw [split] at distinct ⊢
      exact inductionHypothesis (represents.storeEntry
        (Entry.distinctIds_sublist (List.sublist_append_left _ _) distinct)) distinct

end

/-! ## Updating -/

/-- The patch leaves everything the indexes depend on. -/
structure KeepsIndexed (existing merged : Entry C) : Prop where
  createdAt : merged.createdAt = existing.createdAt
  type : merged.type = existing.type
  familyHash : merged.familyHash = existing.familyHash
  batchId : merged.batchId = existing.batchId
  tags : merged.tags.Perm existing.tags

variable {existing : Entry C}

theorem KeepsIndexed.mem_indexKeys {merged : Entry C} (keeps : KeepsIndexed existing merged) (key : IndexKey) :
    key ∈ indexKeys merged <-> key ∈ indexKeys existing := by
  simp only [indexKeys, keeps.type, keeps.familyHash, List.mem_cons, List.mem_append, List.mem_map,
    keeps.tags.mem_iff]

/-- Put an entry in the place of the one with its identifier. -/
def replaceEntry (contents : List (Entry C)) (merged : Entry C) : List (Entry C) :=
  contents.map fun entry => if entry.id = merged.id then merged else entry

theorem replaced_id (merged entry : Entry C) :
    (if entry.id = merged.id then merged else entry).id = entry.id := by
  split
  · rename_i same
    exact same.symm
  · rfl

theorem distinctIds_replaceEntry (merged : Entry C) (distinct : Entry.DistinctIds contents) :
    Entry.DistinctIds (replaceEntry contents merged) := by
  have ids : (replaceEntry contents merged).map Entry.id = contents.map Entry.id := by
    rw [replaceEntry, List.map_map]
    exact List.map_congr_left fun entry _ => replaced_id merged entry
  rw [Entry.DistinctIds, ids]
  exact distinct

/-- A property the replacement shares with the replaced entry. -/
theorem exists_replaceEntry {merged : Entry C} (distinct : Entry.DistinctIds contents) (member : existing ∈ contents)
    (sameId : merged.id = existing.id) {property : Entry C -> Prop} (shared : property merged <-> property existing) :
    (Exists fun entry => entry ∈ replaceEntry contents merged ∧ property entry) <->
      Exists fun entry => entry ∈ contents ∧ property entry := by
  have replaced : forall entry, entry ∈ contents -> entry.id = merged.id -> entry = existing :=
    fun entry other same => Entry.eq_of_id distinct other member (same.trans sameId)
  simp only [replaceEntry, List.mem_map]
  constructor
  · rintro ⟨_, ⟨entry, inContents, rfl⟩, holds⟩
    refine ⟨entry, inContents, ?_⟩
    split at holds
    · rename_i same
      rw [replaced entry inContents same]
      exact shared.mp holds
    · exact holds
  · rintro ⟨entry, inContents, holds⟩
    refine ⟨_, ⟨entry, inContents, rfl⟩, ?_⟩
    split
    · rename_i same
      rw [replaced entry inContents same] at holds
      exact shared.mpr holds
    · exact holds

theorem tagOccurrences_replaceEntry {merged : Entry C} (distinct : Entry.DistinctIds contents)
    (member : existing ∈ contents) (sameId : merged.id = existing.id) (tags : merged.tags.Perm existing.tags)
    (tag : Text) :
    tagOccurrences (replaceEntry contents merged) tag = tagOccurrences contents tag := by
  rw [tagOccurrences, tagOccurrences, replaceEntry, List.flatMap_map, List.count_flatMap,
    List.count_flatMap]
  congr 1
  refine List.map_congr_left fun entry inContents => ?_
  simp only [Function.comp_apply]
  split
  · rename_i same
    rw [Entry.eq_of_id distinct inContents member (same.trans sameId)]
    exact tags.count_eq tag
  · rfl

/-- An update that keeps what is indexed replaces the entry in place. -/
theorem Represents.update [JsonContent C] (represents : Represents contents keyspace) (member : existing ∈ contents)
    {patch : Patch C} (keeps : KeepsIndexed existing (patch.apply existing)) :
    Represents (replaceEntry contents (patch.apply existing))
      (keyspace.update existing.id patch) := by
  have found : keyspace.entries existing.id = some existing :=
    (represents.entries existing.id existing).mpr ⟨member, rfl⟩
  have sameId : (patch.apply existing).id = existing.id := rfl
  rw [Keyspace.update, found]
  refine ⟨distinctIds_replaceEntry _ represents.distinct, ?_, ?_, ?_, ?_, ?_⟩
  · intro id entry
    change Function.update keyspace.entries existing.id (some (patch.apply existing)) id =
      some entry <-> _
    rw [replaceEntry, List.mem_map]
    by_cases same : id = existing.id
    · rw [same, Function.update_self, Option.some.injEq]
      constructor
      · rintro rfl
        exact ⟨⟨existing, member, if_pos rfl⟩, rfl⟩
      · rintro ⟨⟨before, _, rfl⟩, foundId⟩
        rw [replaced_id] at foundId
        exact (if_pos (foundId.trans sameId.symm)).symm
    · rw [Function.update_of_ne same, represents.entries]
      constructor
      · rintro ⟨inContents, foundId⟩
        exact ⟨⟨entry, inContents, if_neg (foundId.symm ▸ same)⟩, foundId⟩
      · rintro ⟨⟨before, inContents, rfl⟩, foundId⟩
        have other : before.id ≠ (patch.apply existing).id := by
          rw [← replaced_id (patch.apply existing) before, foundId]
          exact same
        rw [if_neg other] at foundId ⊢
        exact ⟨inContents, foundId⟩
  · intro id
    change Function.update keyspace.metas existing.id _ id =
      (Function.update keyspace.entries existing.id _ id).map _
    by_cases same : id = existing.id
    · rw [same, Function.update_self, Function.update_self]
      rfl
    · rw [Function.update_of_ne same, Function.update_of_ne same, represents.metas]
  · intro key other
    refine (represents.index key other).trans
      (exists_replaceEntry represents.distinct member sameId ?_).symm
    rw [keeps.mem_indexKeys, entryMember, entryMember, keeps.createdAt, sameId]
  · intro batchId id
    refine (represents.batches batchId id).trans
      (exists_replaceEntry represents.distinct member sameId ?_).symm
    rw [keeps.batchId, sameId]
  · intro tag
    refine (represents.tags tag).trans (congrArg tagField ?_)
    exact (tagOccurrences_replaceEntry represents.distinct member sameId keeps.tags tag).symm

/-- The keyspace after storing some entries. -/
def storing (entries : List (Entry Text)) : Keyspace Text :=
  Keyspace.store Keyspace.empty entries

theorem storing_represents {entries : List (Entry Text)} (distinct : Entry.DistinctIds entries) :
    Represents entries (storing entries) :=
  empty_represents.store distinct

end Redis
end Telescope
