import Telescope.Core.StorageProvider
import Telescope.Foundation.Like

namespace Telescope
namespace MikroOrm

universe u

/-!
# The MikroORM provider

Entries and leases are rows of two tables of whatever database the driver
speaks to.  An operation is a sequence of statements; those of a transaction
land whole or not at all.
-/

variable {C : Type u}

/-! ## Inserting -/

/-- One multi-row `INSERT`; a duplicate key fails it. -/
def insertMany (table : EntryTable C) (entries : List (Entry C)) : Option (EntryTable C) :=
  if distinct : Entry.DistinctIds (table.rows ++ entries) then some ⟨table.rows ++ entries, distinct⟩
  else none

/-- The loop of the transaction. -/
def insertSlices (batchSize : Nat) :
    Nat -> EntryTable C -> List (Entry C) -> Option (EntryTable C)
  | 0, table, _ => some table
  | _ + 1, table, [] => some table
  | fuel + 1, table, entry :: entries =>
      match insertMany table ((entry :: entries).take batchSize) with
      | none => none
      | some table => insertSlices batchSize fuel table ((entry :: entries).drop batchSize)

/-- Nothing when the statement or the transaction fails, and the table is as it was. -/
def store (batchSize : Nat) (table : EntryTable C) (entries : List (Entry C)) :
    Option (EntryTable C) :=
  if entries.length = 0 then some table
  else if entries.length ≤ batchSize then insertMany table entries
  else insertSlices batchSize entries.length table entries

/-! ## Pruning -/

section Pruning

variable (collation : Collation)

/-- Before the cutoff, and of the single type or of none of the excluded ones. -/
def scopedWhere (scope : TypeScope) (row : Entry C) : Bool :=
  decide (row.createdAt < scope.before) &&
    match scope.type with
    | some type => decide (row.type = type)
    | none =>
        match scope.excludeTypes with
        | some excluded => if excluded.length > 0 then !decide (row.type ∈ excluded) else true
        | none => true

/-- Select the oldest rows, then delete them by their keys. -/
def pruneOldestBatch (table : EntryTable C) (condition : Entry C -> Bool) (limit : Nat) :
    EntryTable C × BoundedPruneResult :=
  let doomed := (collation.orderByOldest (table.rows.filter condition)).take limit
  if doomed.length = 0 then (table, ⟨0, false⟩)
  else
    let deletion := table.deleteWhere fun row => decide (row.id ∈ doomed.map Entry.id)
    (deletion.1, ⟨deletion.2, decide (doomed.length = limit)⟩)

/-- `type > ? order by type asc limit 1`. -/
def nextType (rows : List (Entry C)) (previous : Option Text) : Option Text :=
  ((rows.map Entry.type).filter fun type => previous.all fun previous =>
      decide (collation.Below previous type)).insertionSort
    (fun left right => ¬ collation.Below right left) |>.head?

/-- The skip scan.  Each round finds a type that no round before it found, so the
number of rows is fuel enough. -/
def distinctTypes (rows : List (Entry C)) : Nat -> Option Text -> List Text
  | 0, _ => []
  | fuel + 1, previous =>
      match nextType collation rows previous with
      | none => []
      | some next => next :: distinctTypes rows fuel (some next)

/-- The loop over the types, with what it has deleted so far. -/
def pruneTypes (input : BoundedPruneScope) (excluded : List Text) :
    List Text -> EntryTable C -> Nat -> EntryTable C × BoundedPruneResult
  | [], table, deleted => (table, ⟨deleted, false⟩)
  | type :: types, table, deleted =>
      if type ∈ excluded then pruneTypes input excluded types table deleted
      else
        let batch := pruneOldestBatch collation table
          (scopedWhere { before := input.before, type := some type }) (input.limit - deleted)
        if batch.2.hasMore then (batch.1, ⟨deleted + batch.2.deleted, true⟩)
        else pruneTypes input excluded types batch.1 (deleted + batch.2.deleted)

def pruneScopedBatch (table : EntryTable C) (input : BoundedPruneScope) :
    EntryTable C × BoundedPruneResult :=
  if input.type.isSome ∨ (input.excludeTypes.getD []).length = 0 then
    pruneOldestBatch collation table (scopedWhere input.toTypeScope) input.limit
  else
    pruneTypes collation input (input.excludeTypes.getD [])
      (distinctTypes collation table.rows table.rows.length none) table 0

end Pruning

/-! ## Leases -/

/-- A row of `telescope_leases`. -/
structure LeaseRow where
  owner : Text
  expiresAt : Int

end MikroOrm
end Telescope

namespace Telescope
namespace MikroOrm

universe u

/-!
# Queries of the MikroORM provider

Tags are filtered through a column that holds them padded with spaces, contents through the
text of their JSON column.  What `LIKE` compares and how it escapes is up to the database,
and so is the text of a JSON column.
-/

variable {C : Type u}

/-- What a database makes of the two columns that are searched. -/
structure Driver (C : Type u) where
  collation : Collation
  tagsText : Like.Dialect
  content : Like.Dialect
  contentText : C -> Text

/-- The text of the tags column. -/
def padTags (tags : List Text) : Text :=
  if tags.length = 0 then [' '] else ' ' :: ((tags.intersperse [' ']).flatten ++ [' '])

def DEFAULT_LIMIT : Nat := 50

/-- A positive limit, or the default. -/
def resolveLimit (limit : Option Int) : Nat :=
  match limit with
  | some limit => if limit > 0 then limit.toNat else DEFAULT_LIMIT
  | none => DEFAULT_LIMIT

variable (driver : Driver C)

/-- The row is older than the cursor. -/
def behindPosition (cursor : Option Position) (row : Entry C) : Bool :=
  cursor.all fun cursor =>
    decide (row.createdAt < cursor.createdAt) ||
      (decide (row.createdAt = cursor.createdAt) && decide (driver.collation.Below row.id cursor.id))

/-- The conditions of a query; those it does not name are absent. -/
def whereQuery (query : EntryQuery) (row : Entry C) : Bool :=
  query.ids.all (fun ids => decide (row.id ∈ ids)) &&
    query.type.all (fun type => decide (row.type = type)) &&
    query.familyHash.all (fun familyHash => decide (row.familyHash = some familyHash)) &&
    query.batchId.all (fun batchId => decide (row.batchId = batchId)) &&
    query.traceId.all (fun traceId => decide (row.traceId = some traceId)) &&
    query.tag.all (fun tag => driver.tagsText.like (['%', ' '] ++ tag ++ [' ', '%']) (padTags row.tags)) &&
    query.before.all (fun before => decide (row.createdAt < before)) &&
    query.after.all (fun after => decide (row.createdAt > after)) &&
    behindPosition driver (query.cursor.bind decodeCursor) row &&
    query.search.all (fun search => driver.content.like ('%' :: (search ++ ['%'])) (driver.contentText row.content))

def get [JsonContent C] (table : EntryTable C) (query : EntryQuery) : Page C :=
  if query.ids = some [] then { data := [], nextCursor := none }
  else
    let limit := resolveLimit query.limit
    let rows := (driver.collation.orderByNewest (table.rows.filter (whereQuery driver query))).take (limit + 1)
    let data := (rows.take limit).map query.project
    { data := data
      nextCursor := if rows.length > limit then data.getLast?.map cursorOf else none }

end MikroOrm
end Telescope
