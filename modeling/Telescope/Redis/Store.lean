import Telescope.Redis.LexKey
import Mathlib.Data.Prod.Lex

namespace Telescope
namespace Redis

universe u

/-!
# The Redis storage provider

The keys of one prefix are modelled by what they hold: the two blobs of an
entry by the entry their JSON parses to, each index by its members, a batch by
its pairs of sequence and identifier, and the tag hash by its fields.  A
pipeline is the composition of its commands.  Every method below reads and
writes as its namesake does; rollups and leases use other keys and are left
out.
-/

variable {C : Type u}

/-- The keys `idx`, `idx:type:<type>`, `idx:tag:<tag>` and `idx:family:<hash>`. -/
inductive IndexKey
  | all
  | type (type : Text)
  | tag (tag : Text)
  | family (familyHash : Text)
  deriving DecidableEq

structure Keyspace (C : Type u) where
  entries : Text -> Option (Entry C)
  metas : Text -> Option (Entry C)
  index : IndexKey -> SortedIndex Text
  batches : Text -> SortedIndex (Int ×ₗ Text)
  tags : Text -> Option Int

namespace Keyspace

theorem ext_fields {left right : Keyspace C} (entries : left.entries = right.entries)
    (metas : left.metas = right.metas) (index : left.index = right.index)
    (batches : left.batches = right.batches) (tags : left.tags = right.tags) : left = right := by
  cases left
  cases right
  cases entries
  cases metas
  cases index
  cases batches
  cases tags
  rfl

def empty : Keyspace C where
  entries := fun _ => none
  metas := fun _ => none
  index := fun _ => SortedIndex.empty
  batches := fun _ => SortedIndex.empty
  tags := fun _ => none

/-! ## Commands -/

def setEntry (keyspace : Keyspace C) (id : Text) (entry : Entry C) : Keyspace C :=
  { keyspace with entries := Function.update keyspace.entries id (some entry) }

def setMeta (keyspace : Keyspace C) (id : Text) (entry : Entry C) : Keyspace C :=
  { keyspace with metas := Function.update keyspace.metas id (some entry) }

/-- `DEL` of both blobs. -/
def del (keyspace : Keyspace C) (id : Text) : Keyspace C :=
  { keyspace with
    entries := Function.update keyspace.entries id none
    metas := Function.update keyspace.metas id none }

def zadd (keyspace : Keyspace C) (key : IndexKey) (member : Text) : Keyspace C :=
  { keyspace with
    index := Function.update keyspace.index key ((keyspace.index key).insert member) }

def zrem (keyspace : Keyspace C) (key : IndexKey) (member : Text) : Keyspace C :=
  { keyspace with
    index := Function.update keyspace.index key ((keyspace.index key).erase member) }

/-- `ZREM` of a batch member, whatever its score. -/
def zremBatch (keyspace : Keyspace C) (batchId id : Text) : Keyspace C :=
  { keyspace with
    batches := Function.update keyspace.batches batchId
      ((keyspace.batches batchId).filter fun pair => (ofLex pair).2 != id) }

/-- `ZADD` of a batch member; its former score goes. -/
def zaddBatch (keyspace : Keyspace C) (batchId : Text) (sequence : Int) (id : Text) :
    Keyspace C :=
  let cleared := keyspace.zremBatch batchId id
  { cleared with
    batches := Function.update cleared.batches batchId
      ((cleared.batches batchId).insert (toLex (sequence, id))) }

def hincrby (keyspace : Keyspace C) (tag : Text) (increment : Int) : Keyspace C :=
  { keyspace with
    tags := Function.update keyspace.tags tag
      (some ((keyspace.tags tag).getD 0 + increment)) }

/-- The tag script: one decrement per distinct tag, dropping a field that is no
longer positive. -/
def decrementTags (keyspace : Keyspace C) (removed : List Text) : Keyspace C :=
  { keyspace with
    tags := fun tag =>
      if tag ∈ removed then
        let left := (keyspace.tags tag).getD 0 - removed.count tag
        if left ≤ 0 then none else some left
      else keyspace.tags tag }

end Keyspace

/-! ## Storing and updating -/

/-- The member of an entry in every index that lists it. -/
def entryMember (entry : Entry C) : Text := lexMember entry.createdAt entry.id

namespace Keyspace

variable [JsonContent C]

/-- The pipeline of one stored entry. -/
def storeEntry (keyspace : Keyspace C) (entry : Entry C) : Keyspace C :=
  let member := lexMember entry.createdAt entry.id
  let keyspace := keyspace.setEntry entry.id entry
  let keyspace := keyspace.setMeta entry.id entry.withoutContent
  let keyspace := keyspace.zadd .all member
  let keyspace := keyspace.zadd (.type entry.type) member
  let keyspace :=
    match entry.familyHash with
    | none => keyspace
    | some familyHash => keyspace.zadd (.family familyHash) member
  let keyspace := keyspace.zaddBatch entry.batchId entry.sequence entry.id
  entry.tags.foldl
    (fun keyspace tag => (keyspace.zadd (.tag tag) member).hincrby tag 1) keyspace

def store (keyspace : Keyspace C) (entries : List (Entry C)) : Keyspace C :=
  entries.foldl storeEntry keyspace

/-- Merge the patch into both blobs; an unknown identifier is left alone.  No
index is touched. -/
def update (keyspace : Keyspace C) (id : Text) (patch : Patch C) : Keyspace C :=
  match keyspace.entries id with
  | none => keyspace
  | some existing =>
      let merged := patch.apply existing
      (keyspace.setEntry id merged).setMeta id merged.withoutContent

/-- One element of `readEntries`: the content-less copy falls back to the full
entry where there is none. -/
def readEntry (keyspace : Keyspace C) (withoutContentOnly : Bool) (id : Text) :
    Option (Entry C) :=
  if withoutContentOnly then
    match keyspace.metas id with
    | some entry => some entry.withoutContent
    | none => (keyspace.entries id).map Entry.withoutContent
  else keyspace.entries id

/-! ## Removing -/

/-- The removal commands of one member, given the entry read for it. -/
def removeEntry (keyspace : Keyspace C) (member : Text) (entry : Option (Entry C)) :
    Keyspace C :=
  let id := idFromMember member
  let keyspace := (keyspace.del id).zrem .all member
  match entry with
  | none => keyspace
  | some entry =>
      let keyspace := keyspace.zrem (.type entry.type) member
      let keyspace :=
        match entry.familyHash with
        | none => keyspace
        | some familyHash => keyspace.zrem (.family familyHash) member
      let keyspace := keyspace.zremBatch entry.batchId id
      entry.tags.foldl (fun keyspace tag => keyspace.zrem (.tag tag) member) keyspace

/-- The carve-out: an excluded type is spared, an unreadable entry is not. -/
def spared (excludeTypes : Option (List Text)) (entry : Option (Entry C)) : Bool :=
  match excludeTypes, entry with
  | some excluded, some entry => decide (entry.type ∈ excluded)
  | _, _ => false

structure Removal (C : Type u) where
  keyspace : Keyspace C
  removed : Nat
  skipped : Nat

/-- All entries are read before the pipeline runs, and the tags are counted down
after it. -/
def removeMembers (keyspace : Keyspace C) (members : List Text)
    (excludeTypes : Option (List Text)) : Removal C :=
  let candidates := members.map fun member =>
    (member, keyspace.readEntry true (idFromMember member))
  let doomed := candidates.filter fun candidate => !spared excludeTypes candidate.2
  let removed := doomed.foldl
    (fun keyspace candidate => keyspace.removeEntry candidate.1 candidate.2) keyspace
  let tags := doomed.flatMap fun candidate => (candidate.2.map Entry.tags).getD []
  { keyspace := removed.decrementTags tags
    removed := doomed.length
    skipped := candidates.length - doomed.length }

open SortedIndex (Bound)

/-- The inclusive bound of everything created before an instant. -/
def pruneBoundary (olderThan : Int) : Bound Text := .closed (invBound (olderThan - 1))

/-- The shared prune core: the candidates are newest first, and the newest
`keepLast` of them survive.  An empty pipeline does nothing, so the early
returns on no candidates need no case. -/
def pruneWith (keyspace : Keyspace C) (sourceIndex : IndexKey) (olderThan : Int)
    (keepLast : Option Int) (excludeTypes : Option (List Text)) : Keyspace C × Nat :=
  let candidates := (keyspace.index sourceIndex).range (pruneBoundary olderThan) .highest
  let keep := ((keepLast.map fun count => max 0 count).getD 0).toNat
  let removal := keyspace.removeMembers (candidates.drop keep) excludeTypes
  (removal.keyspace, removal.removed)

def prune (keyspace : Keyspace C) (olderThan : Int) (keepLast : Option Int) :
    Keyspace C × Nat :=
  keyspace.pruneWith .all olderThan keepLast none

/-- The excluded types as a set, absent when there are none. -/
def excludedTypes : Option (List Text) -> Option (List Text)
  | some (type :: types) => some (type :: types)
  | _ => none

/-- A single type scans its own index; a carve-out scans the primary one. -/
def pruneScoped (keyspace : Keyspace C) (input : PruneScope) : Keyspace C × Nat :=
  match input.type with
  | some type => keyspace.pruneWith (.type type) input.before input.keepLast none
  | none =>
      keyspace.pruneWith .all input.before input.keepLast (excludedTypes input.excludeTypes)

def SCAN_BUDGET_MULTIPLE : Nat := 20

structure BatchScan where
  deleted : Nat := 0
  skipped : Nat := 0
  scanned : Nat := 0

/-- The loop of `pruneScopedBatch`.  Every round scans a member or returns, so
the scan budget is fuel enough. -/
def pruneBatchLoop (sourceIndex : IndexKey) (boundary : Bound Text)
    (excludeTypes : Option (List Text)) (limit : Nat) :
    Nat -> Keyspace C -> BatchScan -> Option (Keyspace C × BoundedPruneResult)
  | 0, keyspace, scan =>
      if scan.deleted < limit ∧ scan.scanned < limit * SCAN_BUDGET_MULTIPLE then none
      else some (keyspace, ⟨scan.deleted, true⟩)
  | fuel + 1, keyspace, scan =>
      if scan.deleted < limit ∧ scan.scanned < limit * SCAN_BUDGET_MULTIPLE then
        let want := limit - scan.deleted
        -- ZREVRANGEBYLEX: the range from its old end.
        let old := ((keyspace.index sourceIndex).range boundary .highest).reverse
        let page := (old.drop scan.skipped).take want
        if page = [] then some (keyspace, ⟨scan.deleted, false⟩)
        else
          let outcome := keyspace.removeMembers page excludeTypes
          let deleted := scan.deleted + outcome.removed
          if page.length < want then some (outcome.keyspace, ⟨deleted, false⟩)
          else
            pruneBatchLoop sourceIndex boundary excludeTypes limit fuel outcome.keyspace
              { deleted := deleted
                skipped := scan.skipped + outcome.skipped
                scanned := scan.scanned + page.length }
      else some (keyspace, ⟨scan.deleted, true⟩)

def pruneScopedBatch (keyspace : Keyspace C) (input : BoundedPruneScope) :
    Option (Keyspace C × BoundedPruneResult) :=
  let sourceIndex : IndexKey :=
    match input.type with
    | some type => .type type
    | none => .all
  let excluded :=
    match input.type with
    | some _ => none
    | none => excludedTypes input.excludeTypes
  pruneBatchLoop sourceIndex (pruneBoundary input.before) excluded input.limit
    (input.limit * SCAN_BUDGET_MULTIPLE) keyspace {}

end Keyspace
end Redis
end Telescope
