import Telescope.Foundation.Replacing
import Telescope.Redis.Representation

namespace Telescope
namespace Redis

universe u

/-!
# Storing a chunk twice

The blobs, the indexes and the batches of a chunk are set to what they hold
already; the tag counters are counted up once more.
-/

variable {C : Type u} [JsonContent C]

namespace Keyspace

variable (keyspace : Keyspace C) {chunk : List (Entry C)}

/-- The blob command of one entry. -/
def setBlob (blob : Entry C -> Entry C) (blobs : Text -> Option (Entry C)) (entry : Entry C) :
    Text -> Option (Entry C) :=
  Function.update blobs entry.id (some (blob entry))

theorem store_entries (chunk : List (Entry C)) :
    (keyspace.store chunk).entries = chunk.foldl (setBlob id) keyspace.entries := by
  induction chunk generalizing keyspace with
  | nil => rfl
  | cons entry chunk inductionHypothesis =>
      have stored : setBlob id keyspace.entries entry = (keyspace.storeEntry entry).entries :=
        (keyspace.storeEntry_entries entry).symm
      rw [List.foldl_cons, stored]
      exact inductionHypothesis (keyspace.storeEntry entry)

theorem store_metas (chunk : List (Entry C)) :
    (keyspace.store chunk).metas = chunk.foldl (setBlob Entry.withoutContent) keyspace.metas := by
  induction chunk generalizing keyspace with
  | nil => rfl
  | cons entry chunk inductionHypothesis =>
      have stored : setBlob Entry.withoutContent keyspace.metas entry =
          (keyspace.storeEntry entry).metas := (keyspace.storeEntry_metas entry).symm
      rw [List.foldl_cons, stored]
      exact inductionHypothesis (keyspace.storeEntry entry)

theorem mem_store (chunk : List (Entry C)) {key : IndexKey} {member : Text} :
    member ∈ (keyspace.store chunk).index key <->
      member ∈ keyspace.index key ∨
        Exists fun entry => entry ∈ chunk ∧ key ∈ indexKeys entry ∧ member = entryMember entry := by
  induction chunk generalizing keyspace with
  | nil => exact (or_iff_left fun ⟨_, found, _⟩ => List.not_mem_nil found).symm
  | cons entry chunk inductionHypothesis =>
      refine (inductionHypothesis (keyspace.storeEntry entry)).trans ?_
      rw [mem_storeEntry, or_assoc]
      simp only [List.mem_cons, or_and_right, exists_or, exists_eq_left]

/-- The batch command of one entry. -/
def addToBatch (batches : Text -> SortedIndex (Int ×ₗ Text)) (entry : Entry C) :
    Text -> SortedIndex (Int ×ₗ Text) :=
  Function.update batches entry.batchId
    (((batches entry.batchId).filter fun pair => (ofLex pair).2 != entry.id).insert
      (toLex (entry.sequence, entry.id)))

theorem storeEntry_batches (entry : Entry C) :
    (keyspace.storeEntry entry).batches = addToBatch keyspace.batches entry := by
  have batches : (keyspace.storeEntry entry).batches =
      (keyspace.zaddBatch entry.batchId entry.sequence entry.id).batches := by
    rw [storeEntry]
    refine (foldl_tags _ entry.tags _).2.2.1.trans ?_
    cases entry.familyHash <;> rfl
  rw [batches, addToBatch]
  simp only [zaddBatch, zremBatch, Function.update_idem, Function.update_self]

theorem store_batches (chunk : List (Entry C)) :
    (keyspace.store chunk).batches = chunk.foldl addToBatch keyspace.batches := by
  induction chunk generalizing keyspace with
  | nil => rfl
  | cons entry chunk inductionHypothesis =>
      rw [List.foldl_cons, ← storeEntry_batches]
      exact inductionHypothesis (keyspace.storeEntry entry)

theorem store_tags (chunk : List (Entry C)) (tag : Text) :
    (keyspace.store chunk).tags tag =
      if tagOccurrences chunk tag = 0 then keyspace.tags tag
      else some ((keyspace.tags tag).getD 0 + tagOccurrences chunk tag) := by
  induction chunk generalizing keyspace with
  | nil => exact (if_pos rfl).symm
  | cons entry chunk inductionHypothesis =>
      refine (inductionHypothesis (keyspace.storeEntry entry)).trans ?_
      have counted : tagOccurrences (entry :: chunk) tag =
          entry.tags.count tag + tagOccurrences chunk tag := by
        rw [tagOccurrences, List.flatMap_cons, List.count_append]
        rfl
      rw [storeEntry_tags, counted]
      by_cases tagged : tag ∈ entry.tags
      · have positive := List.count_pos_iff.mpr tagged
        have counts : ¬ entry.tags.count tag + tagOccurrences chunk tag = 0 := by omega
        rw [if_pos tagged, if_neg counts]
        split
        · rename_i nothing
          rw [nothing, Nat.add_zero]
        · rw [Option.getD_some]
          congr 1
          omega
      · rw [if_neg tagged, List.count_eq_zero.mpr tagged, Nat.zero_add]

/-! ## Writes that repeat -/

omit [JsonContent C] in
/-- The blobs of distinct entries. -/
theorem foldl_setBlob (distinct : Entry.DistinctIds chunk) (blob : Entry C -> Entry C)
    (blobs : Text -> Option (Entry C)) :
    chunk.foldl (setBlob blob) (chunk.foldl (setBlob blob) blobs) =
      chunk.foldl (setBlob blob) blobs := by
  refine Replay.foldl_foldl (fun entry _ blobs => Function.update_idem _ _ _) ?_ blobs
  refine (List.pairwise_map.mp distinct).imp fun {first second} different blobs => ?_
  exact Function.update_comm different _ _ _

omit [JsonContent C] in
theorem mem_addToBatch {batches : Text -> SortedIndex (Int ×ₗ Text)} {entry : Entry C}
    {batchId : Text} {pair : Int ×ₗ Text} :
    pair ∈ addToBatch batches entry batchId <->
      (batchId = entry.batchId ∧ pair = toLex (entry.sequence, entry.id)) ∨
        (pair ∈ batches batchId ∧ ¬ (batchId = entry.batchId ∧ (ofLex pair).2 = entry.id)) := by
  by_cases same : batchId = entry.batchId
  · subst same
    simp only [addToBatch, Function.update_self, SortedIndex.mem_insert, SortedIndex.mem_filter,
      bne_iff_ne, ne_eq, true_and]
  · simp only [addToBatch, Function.update_of_ne same, same, false_and, false_or, not_false_eq_true,
      and_true]

omit [JsonContent C] in
theorem batches_ext {left right : Text -> SortedIndex (Int ×ₗ Text)}
    (same : forall batchId pair, pair ∈ left batchId <-> pair ∈ right batchId) : left = right :=
  funext fun batchId => SortedIndex.ext_mem (same batchId)

omit [JsonContent C] in
/-- The batches of distinct entries. -/
theorem foldl_addToBatch (distinct : Entry.DistinctIds chunk)
    (batches : Text -> SortedIndex (Int ×ₗ Text)) :
    chunk.foldl addToBatch (chunk.foldl addToBatch batches) = chunk.foldl addToBatch batches := by
  refine Replay.foldl_foldl (fun entry _ batches => ?_) ?_ batches
  · refine batches_ext fun batchId pair => ?_
    rw [mem_addToBatch, mem_addToBatch]
    tauto
  · refine (List.pairwise_map.mp distinct).imp fun {first second} different batches => ?_
    refine batches_ext fun batchId pair => ?_
    rw [mem_addToBatch, mem_addToBatch, mem_addToBatch, mem_addToBatch]
    have apart : forall {entry other : Entry C}, entry.id ≠ other.id ->
        pair = toLex (entry.sequence, entry.id) -> (ofLex pair).2 ≠ other.id := by
      rintro entry other different rfl
      exact different
    have firstApart := @apart first second different
    have secondApart := @apart second first different.symm
    tauto

end Keyspace

/-- A chunk stored twice is a chunk stored once exactly when no entry has a tag. -/
theorem store_store_iff (keyspace : Keyspace C) {chunk : List (Entry C)}
    (distinct : Entry.DistinctIds chunk) :
    (keyspace.store chunk).store chunk = keyspace.store chunk <->
      forall entry, entry ∈ chunk -> entry.tags = [] := by
  have entries := Keyspace.foldl_setBlob distinct id keyspace.entries
  have metas := Keyspace.foldl_setBlob distinct Entry.withoutContent keyspace.metas
  have batches := Keyspace.foldl_addToBatch distinct keyspace.batches
  constructor
  · intro same entry member
    by_contra tagged
    rcases List.exists_mem_of_ne_nil _ tagged with ⟨tag, isTag⟩
    have counted : 0 < tagOccurrences chunk tag :=
      List.count_pos_iff.mpr (List.mem_flatMap.mpr ⟨entry, member, isTag⟩)
    have counters := congrArg (fun keyspace => keyspace.tags tag) same
    simp only [Keyspace.store_tags, if_neg counted.ne', Option.getD_some, Option.some.injEq] at counters
    omega
  · intro untagged
    have uncounted : forall tag, tagOccurrences chunk tag = 0 := by
      intro tag
      refine List.count_eq_zero.mpr fun found => ?_
      rcases List.mem_flatMap.mp found with ⟨entry, member, isTag⟩
      rw [untagged entry member] at isTag
      exact List.not_mem_nil isTag
    refine Keyspace.ext_fields ?_ ?_ ?_ ?_ ?_
    · rw [Keyspace.store_entries, Keyspace.store_entries]
      exact entries
    · rw [Keyspace.store_metas, Keyspace.store_metas]
      exact metas
    · refine funext fun key => SortedIndex.ext_mem fun member => ?_
      rw [Keyspace.mem_store, Keyspace.mem_store, or_assoc, or_self]
    · rw [Keyspace.store_batches, Keyspace.store_batches]
      exact batches
    · refine funext fun tag => ?_
      rw [Keyspace.store_tags, if_pos (uncounted tag)]

end Redis
end Telescope
