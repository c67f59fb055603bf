import Mathlib.Data.List.Dedup
import Mathlib.Data.Prod.Lex
import Telescope.Core.Retention
import Telescope.Foundation.Grouping
import Telescope.Foundation.Like

namespace Telescope
namespace Sqlite

universe u

/-!
# The SQLite provider

One table holds the entries, one the leases and one the marks of error families.
Text columns compare bytes of UTF-8, which is the order of `Text` itself; a
negative limit is no limit.  Each operation is one statement or one transaction.
-/

variable {C : Type u}

/-- A row of `telescope_leases`. -/
structure LeaseRow where
  owner : Text
  expires_at : Int

structure Database (C : Type u) where
  entries : EntryTable C
  leases : Text -> Option LeaseRow
  seenFamilies : Text -> Option Int

/-! ## Statements -/

/-- `insert or replace into telescope_entries`. -/
def insertOrReplace (table : EntryTable C) (row : Entry C) : EntryTable C where
  rows := (table.rows.filter fun other => !decide (other.id = row.id)) ++ [row]
  distinct := by
    rw [Entry.DistinctIds, List.map_append]
    refine List.nodup_append.mpr
      ⟨Entry.distinctIds_sublist List.filter_sublist table.distinct, List.nodup_singleton _, ?_⟩
    intro left leftMember right rightMember same
    rcases List.mem_map.mp leftMember with ⟨other, kept, rfl⟩
    cases List.mem_singleton.mp rightMember
    have different := (List.mem_filter.mp kept).2
    rw [Bool.not_eq_true', decide_eq_false_iff_not] at different
    exact different same

/-- `limit ?`. -/
def limitTo (limit : Int) (rows : List (Entry C)) : List (Entry C) :=
  if limit < 0 then rows else rows.take limit.toNat

/-! ## Operations on the entries -/

/-- A single type, or no excluded one; an empty exclusion is no predicate. -/
def scopedTypePredicate (input : TypeScope) (type : Text) : Bool :=
  match input.type with
  | some selected => decide (type = selected)
  | none =>
      match input.excludeTypes with
      | some excluded => if excluded.length > 0 then !decide (type ∈ excluded) else true
      | none => true

def whereScoped (input : TypeScope) (row : Entry C) : Bool :=
  decide (row.createdAt < input.before) && scopedTypePredicate input row.type

def store (table : EntryTable C) (entries : List (Entry C)) : EntryTable C :=
  if entries.length = 0 then table else entries.foldl insertOrReplace table

def update (table : EntryTable C) (id : Text) (patch : Patch C) : EntryTable C :=
  match table.rows.find? fun row => decide (row.id = id) with
  | none => table
  | some existing => insertOrReplace table (patch.apply existing)

/-- Delete the rows of a condition but the newest `keepLast` of them. -/
def pruneWhere (table : EntryTable C) (condition : Entry C -> Bool) (keepLast : Option Int) :
    EntryTable C × Nat :=
  match keepLast with
  | none => table.deleteWhere condition
  | some keepLast =>
      let spared := (limitTo keepLast (Collation.bytes.orderByNewest (table.rows.filter condition))).map Entry.id
      table.deleteWhere fun row => condition row && !decide (row.id ∈ spared)

def prune (table : EntryTable C) (olderThan : Int) (keepLast : Option Int) : EntryTable C × Nat :=
  pruneWhere table (fun row => decide (row.createdAt < olderThan)) keepLast

def pruneScoped (table : EntryTable C) (input : PruneScope) : EntryTable C × Nat :=
  pruneWhere table (whereScoped input.toTypeScope) input.keepLast

def pruneScopedBatch (table : EntryTable C) (input : BoundedPruneScope) :
    EntryTable C × BoundedPruneResult :=
  let batch := ((Collation.bytes.orderByOldest (table.rows.filter (whereScoped input.toTypeScope))).take
    input.limit).map Entry.id
  let deletion := table.deleteWhere fun row => decide (row.id ∈ batch)
  (deletion.1, ⟨deletion.2, decide (deletion.2 ≥ input.limit)⟩)

/-! ## Error families -/

namespace Database

def empty : Database C := ⟨EntryTable.empty, fun _ => none, fun _ => none⟩

/-- A select and an upsert in one transaction. -/
def markFamilySeen (database : Database C) (familyHash : Text) (nowMs windowMs : Int) :
    Database C × Bool :=
  let isNew :=
    match database.seenFamilies familyHash with
    | none => true
    | some last_seen => decide (nowMs - last_seen ≥ windowMs)
  ({ database with seenFamilies := Function.update database.seenFamilies familyHash (some nowMs) },
    isNew)

end Database
end Sqlite
end Telescope

namespace Telescope
namespace Sqlite

universe u

/-!
# Queries of the SQLite provider

The conditions of a query are conjoined in one `where`.  `LIKE` ignores the case of ASCII
letters and has no escape; the searched text is put into the pattern as it is.  Tags are
read out of the JSON column one by one.
-/

variable {C : Type u}

/-- `LIKE` of SQLite. -/
def like : Like.Dialect where
  same left right := left.toLower == right.toLower
  equivalence :=
    { refl := fun _character => beq_self_eq_true _
      symm := fun same => beq_iff_eq.mpr (beq_iff_eq.mp same).symm
      trans := fun left right => beq_iff_eq.mpr ((beq_iff_eq.mp left).trans (beq_iff_eq.mp right)) }
  escape := none
  unescaped := fun impossible => nomatch impossible

/-! ## Entries -/

def DEFAULT_LIMIT : Nat := 50

/-- A positive limit, or the default. -/
def limitOf (limit : Option Int) : Nat :=
  match limit with
  | some limit => if limit > 0 then limit.toNat else DEFAULT_LIMIT
  | none => DEFAULT_LIMIT

/-- The conditions of a query; those it does not name are absent. -/
def whereQuery [JsonContent C] (query : EntryQuery) (row : Entry C) : Bool :=
  query.ids.all (fun ids => decide (row.id ∈ ids)) &&
    query.type.all (fun type => decide (row.type = type)) &&
    query.familyHash.all (fun familyHash => decide (row.familyHash = some familyHash)) &&
    query.batchId.all (fun batchId => decide (row.batchId = batchId)) &&
    query.traceId.all (fun traceId => decide (row.traceId = some traceId)) &&
    query.before.all (fun before => decide (row.createdAt < before)) &&
    query.after.all (fun after => decide (row.createdAt > after)) &&
    query.tag.all (fun tag => decide (tag ∈ row.tags)) &&
    query.search.all (fun search => like.like ('%' :: (search ++ ['%'])) (JsonContent.stringify row.content)) &&
    behindCursor (query.cursor.bind decodeCursor) row

/-- One row more than the limit tells whether there is a next page. -/
def get [JsonContent C] (table : EntryTable C) (query : EntryQuery) : Page C :=
  if query.ids = some [] then { data := [], nextCursor := none }
  else
    let limit := limitOf query.limit
    let rows := (Collation.bytes.orderByNewest (table.rows.filter (whereQuery query))).take (limit + 1)
    let data := (rows.take limit).map query.project
    { data := data
      nextCursor := if rows.length > limit then data.getLast?.map cursorOf else none }

/-! ## Tags -/

structure TagCount where
  tag : Text
  count : Nat

/-- The tags of all entries, one row for each time an entry holds one. -/
def tagRows (table : EntryTable C) : List Text := table.rows.flatMap Entry.tags

/-- `order by count desc, tag asc`. -/
def tagOrder (left right : TagCount) : Bool :=
  decide (left.count > right.count) || (decide (left.count = right.count) && decide (left.tag ≤ right.tag))

/-- The tags that a prefix selects, each with the number of its rows. -/
def tags (table : EntryTable C) (start : Option Text) : List TagCount :=
  let selected := (tagRows table).filter fun tag => start.all fun start => like.like (start ++ ['%']) tag
  ((selected.dedup).map fun tag => { tag := tag, count := selected.count tag }).insertionSort
    fun left right => tagOrder left right = true

end Sqlite
end Telescope

namespace Telescope
namespace Sqlite

universe u

/-!
# Pruning the table

A prune spares the first rows of its condition in the order of the statement.
That order breaks ties by the bytes of the identifiers, so it keeps what the
scope keeps exactly when each of the newest rows in scope is among the first by
bytes.
-/

variable {C : Type u}

/-- Before another row in `order by created_at desc, id desc`. -/
def Newer (left right : Entry C) : Prop :=
  Collation.bytes.Older right.position left.position

instance (left right : Entry C) : Decidable (Newer left right) :=
  inferInstanceAs (Decidable (Collation.bytes.Older _ _))

/-- A prune deletes the rows of its condition past the first few. -/
theorem pruneWhere_spec (table : EntryTable C) (condition : Entry C -> Bool) (keepLast : Option Int)
    (nonneg : forall count, count ∈ keepLast -> 0 ≤ count) :
    (pruneWhere table condition keepLast).1.rows = without table.rows
        ((Collation.bytes.orderByNewest (table.rows.filter condition)).drop (keepLast.getD 0).toNat) ∧
      (pruneWhere table condition keepLast).2 =
        ((Collation.bytes.orderByNewest (table.rows.filter condition)).drop (keepLast.getD 0).toNat).length := by
  have perm := Collation.bytes.orderByNewest_perm (table.rows.filter condition)
  have rows := filter_cutOff table.distinct perm (keepLast.getD 0).toNat
  have size := length_cutOff table.distinct perm (keepLast.getD 0).toNat
  have deletion : pruneWhere table condition keepLast = table.deleteWhere fun row =>
      condition row && !decide (row.id ∈
        ((Collation.bytes.orderByNewest (table.rows.filter condition)).take (keepLast.getD 0).toNat).map Entry.id) := by
    cases keepLast with
    | none =>
        rw [pruneWhere]
        congr 1
        exact funext fun row => (Bool.and_true _).symm
    | some count =>
        rw [pruneWhere, limitTo, if_neg (not_lt.mpr (nonneg count rfl))]
        rfl
  have stays : (pruneWhere table condition keepLast).1.rows = without table.rows
      ((Collation.bytes.orderByNewest (table.rows.filter condition)).drop (keepLast.getD 0).toNat) := by
    rw [deletion, ← rows]
    rfl
  refine ⟨stays, ?_⟩
  rw [deletion, EntryTable.deleteWhere_changes, ← deletion, stays, size]

theorem whereScoped_eq (input : TypeScope) (row : Entry C) :
    whereScoped input row = decide (input.InScope row) := by
  rcases input with ⟨before, type, excludeTypes⟩
  rw [whereScoped, Bool.eq_iff_iff, Bool.and_eq_true, decide_eq_true_eq, decide_eq_true_eq,
    TypeScope.InScope]
  refine and_congr_right fun _ => ?_
  cases type with
  | some selected => exact decide_eq_true_iff
  | none =>
      cases excludeTypes with
      | none => exact iff_of_true rfl List.not_mem_nil
      | some excluded =>
          cases excluded with
          | nil => exact iff_of_true rfl List.not_mem_nil
          | cons first excluded =>
              change (!decide (row.type ∈ first :: excluded)) = true <-> row.type ∉ first :: excluded
              rw [Bool.not_eq_true', decide_eq_false_iff_not]

/-- The table after a scoped prune, and the number it returned, are those the
scope asks for. -/
def PrunesScope (table : EntryTable C) (input : PruneScope) : Prop :=
  (pruneScoped table input).1.rows = without table.rows (input.doomed table.rows) ∧
    (pruneScoped table input).2 = (input.doomed table.rows).length

/-- The rows a statement counts are those in scope. -/
theorem prunesScope_iff (table : EntryTable C) {input : PruneScope}
    (nonneg : forall count, count ∈ input.keepLast -> 0 ≤ count) :
    PrunesScope table input <->
      input.KeepsNewest Newer (fun row => decide (input.InScope row)) table.rows := by
  have condition : whereScoped input.toTypeScope =
      fun row : Entry C => decide (input.InScope row) := funext (whereScoped_eq input.toTypeScope)
  rcases pruneWhere_spec table (whereScoped input.toTypeScope) input.keepLast nonneg with ⟨rows, size⟩
  rw [condition] at rows size
  have perm := Collation.bytes.orderByNewest_perm (table.rows.filter fun row => decide (input.InScope row))
  have sorted := Collation.bytes.orderByNewest_sorted (Entry.distinctIds_sublist
    (List.filter_sublist (p := fun row => decide (input.InScope row))) table.distinct)
  rw [PrunesScope, pruneScoped, condition, rows, size]
  exact input.cutOff_exact_iff table.distinct (fun _ _ => Collation.bytes.older_asymm _ _) sorted perm

end Sqlite
end Telescope
