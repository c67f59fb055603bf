import Mathlib.Data.List.Infix
import Telescope.Core.Entry
import Telescope.Foundation.Decimal
import Telescope.Foundation.Ranking

namespace Telescope

universe u

/-!
# Tables of entries

A relational provider keeps its entries in one table under their identifiers.
The JSON columns hold what they encode.  The database sorts texts by a collation
of its own, which tells different texts apart.
-/

/-- The order of texts in a database. -/
structure Collation where
  Below : Text -> Text -> Prop
  decidable : forall left right, Decidable (Below left right)
  asymm : forall left right, Below left right -> ¬ Below right left
  trans : forall first second third, Below first second -> Below second third -> Below first third
  trichotomy : forall left right, Below left right ∨ left = right ∨ Below right left

namespace Collation

instance (collation : Collation) (left right : Text) : Decidable (collation.Below left right) :=
  collation.decidable left right

/-- The order of bytes. -/
def bytes : Collation where
  Below := fun left right => left < right
  decidable := fun _ _ => inferInstance
  asymm := fun _ _ => lt_asymm
  trans := fun _ _ _ => lt_trans
  trichotomy := lt_trichotomy

variable (collation : Collation)

/-- Before another place in `order by created_at asc, id asc`. -/
def Older (left right : Position) : Prop :=
  left.createdAt < right.createdAt ∨
    (left.createdAt = right.createdAt ∧ collation.Below left.id right.id)

instance (left right : Position) : Decidable (collation.Older left right) :=
  inferInstanceAs (Decidable (_ ∨ _))

theorem older_asymm (left right : Position) (older : collation.Older left right) :
    ¬ collation.Older right left := by
  rcases older with older | ⟨same, below⟩
  · rintro (newer | ⟨same, _⟩)
    · exact lt_asymm older newer
    · exact older.ne' same
  · rintro (newer | ⟨_, above⟩)
    · exact newer.ne' same
    · exact collation.asymm _ _ below above

theorem older_trans (first second third : Position) (left : collation.Older first second)
    (right : collation.Older second third) : collation.Older first third := by
  rcases left with left | ⟨leftSame, leftBelow⟩
  · rcases right with right | ⟨rightSame, _⟩
    · exact .inl (lt_trans left right)
    · exact .inl (rightSame ▸ left)
  · rcases right with right | ⟨rightSame, rightBelow⟩
    · exact .inl (leftSame.symm ▸ right)
    · exact .inr ⟨leftSame.trans rightSame, collation.trans _ _ _ leftBelow rightBelow⟩

theorem older_trichotomy (left right : Position) :
    collation.Older left right ∨ left = right ∨ collation.Older right left := by
  rcases lt_trichotomy left.createdAt right.createdAt with older | same | newer
  · exact .inl (.inl older)
  · rcases collation.trichotomy left.id right.id with below | sameId | above
    · exact .inl (.inr ⟨same, below⟩)
    · cases left
      cases right
      cases same
      cases sameId
      exact .inr (.inl rfl)
    · exact .inr (.inr (.inr ⟨same.symm, above⟩))
  · exact .inr (.inr (.inl newer))

variable {C : Type u}

/-- `order by created_at asc, id asc`. -/
def orderByOldest (rows : List (Entry C)) : List (Entry C) :=
  rows.insertionSort fun left right => ¬ collation.Older right.position left.position

/-- `order by created_at desc, id desc`. -/
def orderByNewest (rows : List (Entry C)) : List (Entry C) :=
  rows.insertionSort fun left right => ¬ collation.Older left.position right.position

theorem orderByOldest_perm (rows : List (Entry C)) : (collation.orderByOldest rows).Perm rows :=
  List.perm_insertionSort _ rows

theorem orderByNewest_perm (rows : List (Entry C)) : (collation.orderByNewest rows).Perm rows :=
  List.perm_insertionSort _ rows

theorem distinct_positions {rows : List (Entry C)} (distinct : Entry.DistinctIds rows) :
    (rows.map Entry.position).Nodup := by
  refine List.Nodup.of_map Position.id ?_
  rw [List.map_map]
  exact distinct

theorem orderByOldest_sorted {rows : List (Entry C)} (distinct : Entry.DistinctIds rows) :
    (collation.orderByOldest rows).Pairwise fun left right =>
      collation.Older left.position right.position :=
  Ranking.strict_insertionSort collation.older_asymm collation.older_trans
    collation.older_trichotomy (distinct_positions distinct)

theorem orderByNewest_sorted {rows : List (Entry C)} (distinct : Entry.DistinctIds rows) :
    (collation.orderByNewest rows).Pairwise fun left right =>
      collation.Older right.position left.position := by
  have trichotomy : forall left right : Position,
      collation.Older right left ∨ left = right ∨ collation.Older left right := by
    intro left right
    rcases collation.older_trichotomy left right with older | same | newer
    · exact .inr (.inr older)
    · exact .inr (.inl same)
    · exact .inl newer
  exact @Ranking.strict_insertionSort _ _ (fun left right => collation.Older right left) _
    Entry.position rows (fun left right => collation.older_asymm right left)
    (fun first second third left right => collation.older_trans third second first right left)
    trichotomy (distinct_positions distinct)

end Collation

/-- `telescope_entries`, with its primary key. -/
structure EntryTable (C : Type u) where
  rows : List (Entry C)
  distinct : Entry.DistinctIds rows

namespace EntryTable

variable {C : Type u}

def empty : EntryTable C := ⟨[], List.nodup_nil⟩

/-- `delete from telescope_entries where …`, with the number of changes. -/
def deleteWhere (table : EntryTable C) (condition : Entry C -> Bool) : EntryTable C × Nat :=
  ({ rows := table.rows.filter fun row => !condition row
     distinct := Entry.distinctIds_sublist List.filter_sublist table.distinct },
    table.rows.countP condition)

theorem deleteWhere_changes (table : EntryTable C) (condition : Entry C -> Bool) :
    (table.deleteWhere condition).2 =
      table.rows.length - (table.deleteWhere condition).1.rows.length := by
  have parts := List.length_eq_countP_add_countP condition (l := table.rows)
  change table.rows.countP condition =
    table.rows.length - (table.rows.filter fun row => !condition row).length
  rw [← List.countP_eq_length_filter]
  have negated : (table.rows.countP fun row => !condition row) =
      table.rows.countP fun row => decide ¬ condition row = true :=
    List.countP_congr fun row _ => by
      rw [Bool.not_eq_true', decide_eq_true_eq, Bool.not_eq_true]
  omega

/-- `delete from telescope_entries where id in (…)`. -/
theorem deleteWhere_selection (table : EntryTable C) {gone : List (Entry C)}
    (selection : Selection table.rows gone) :
    (table.deleteWhere fun row => decide (row.id ∈ gone.map Entry.id)).1.rows =
        without table.rows gone ∧
      (table.deleteWhere fun row => decide (row.id ∈ gone.map Entry.id)).2 = gone.length := by
  have rows : (table.deleteWhere fun row => decide (row.id ∈ gone.map Entry.id)).1.rows =
      without table.rows gone :=
    List.filter_congr fun row _ => (decide_not ..).symm
  refine ⟨rows, ?_⟩
  have parts := (perm_without_append table.distinct selection).length_eq
  rw [List.length_append] at parts
  rw [deleteWhere_changes, rows]
  omega

end EntryTable
end Telescope

namespace Telescope

universe u

/-!
# The storage provider interface

Cursors, queries, pages and prune scopes as every provider receives and returns
them, with the meaning the interface gives to a query's filters and to a scope.
-/

variable {C : Type u}

/-! ## Cursors -/

/-- The text of a cursor, before its base64url wrapping. -/
def encodeCursor (position : Position) : Text :=
  Decimal.ofInt position.createdAt ++ ':' :: position.id

/-- Split at the first colon; nothing where there is none or no number before it. -/
def decodeCursor (cursor : Text) : Option Position :=
  if ':' ∈ cursor then
    let separator := cursor.idxOf ':'
    (Decimal.toInt (cursor.take separator)).map fun createdAt =>
      ⟨createdAt, cursor.drop (separator + 1)⟩
  else none

theorem idxOf_colon {before : Text} (absent : ':' ∉ before) (after : Text) :
    (before ++ ':' :: after).idxOf ':' = before.length := by
  rw [List.idxOf_append_of_notMem absent, List.idxOf_cons_self, Nat.add_zero]

/-- A cursor decodes to the position it was made from, whatever the identifier
contains. -/
theorem decodeCursor_encodeCursor (position : Position) :
    decodeCursor (encodeCursor position) = some position := by
  have absent : ':' ∉ Decimal.ofInt position.createdAt :=
    Decimal.ofInt_not_mem rfl (by decide) position.createdAt
  have present : ':' ∈ encodeCursor position :=
    List.mem_append_right _ (List.mem_cons_self ..)
  rw [decodeCursor, if_pos present]
  simp only [encodeCursor]
  rw [idxOf_colon absent, List.take_left, Decimal.toInt_ofInt, ← List.drop_drop, List.drop_left]
  rfl

theorem encodeCursor_injective : Function.Injective encodeCursor := by
  intro first second same
  have decoded := congrArg decodeCursor same
  rw [decodeCursor_encodeCursor, decodeCursor_encodeCursor] at decoded
  exact Option.some.inj decoded

/-! ## Queries and pages -/

structure EntryQuery where
  type : Option Text := none
  tag : Option Text := none
  familyHash : Option Text := none
  batchId : Option Text := none
  traceId : Option Text := none
  search : Option Text := none
  ids : Option (List Text) := none
  before : Option Int := none
  after : Option Int := none
  cursor : Option Text := none
  limit : Option Int := none
  omitContent : Bool := false

/-- A page; `partialRead` is the flag of a store that answered from a subset of
its data. -/
structure Page (C : Type u) extends Keyset.Page (Entry C) Text where
  partialRead : Bool := false

/-- Case-insensitive substring of the JSON text of a content. -/
def contentIncludes [JsonContent C] (content : C) (search : Text) : Bool :=
  decide (JsonContent.toLowerCase C search <:+:
    JsonContent.toLowerCase C (JsonContent.stringify content))

/-- The filters of a query, all of them but its cursor: the reference every
provider is measured by.  An absent filter asks for nothing. -/
def EntryQuery.Matches [JsonContent C] (query : EntryQuery) (entry : Entry C) : Prop :=
  (forall type, type ∈ query.type -> entry.type = type) ∧
    (forall tag, tag ∈ query.tag -> tag ∈ entry.tags) ∧
    (forall family, family ∈ query.familyHash -> entry.familyHash = some family) ∧
    (forall batchId, batchId ∈ query.batchId -> entry.batchId = batchId) ∧
    (forall traceId, traceId ∈ query.traceId -> entry.traceId = some traceId) ∧
    (forall search, search ∈ query.search -> contentIncludes entry.content search = true) ∧
    (forall ids, ids ∈ query.ids -> entry.id ∈ ids) ∧
    (forall before, before ∈ query.before -> entry.createdAt < before) ∧
    (forall after, after ∈ query.after -> after < entry.createdAt)

instance [JsonContent C] (query : EntryQuery) (entry : Entry C) :
    Decidable (query.Matches entry) :=
  inferInstanceAs (Decidable (_ ∧ _))

/-- The projection of `omitContent`. -/
def EntryQuery.project [JsonContent C] (query : EntryQuery) (entry : Entry C) : Entry C :=
  if query.omitContent then entry.withoutContent else entry

@[simp] theorem EntryQuery.position_project [JsonContent C] (query : EntryQuery) (entry : Entry C) :
    (query.project entry).position = entry.position := by
  unfold EntryQuery.project
  split <;> rfl

/-- All entries a query asks for, in page order. -/
def EntryQuery.results [JsonContent C] (query : EntryQuery) (contents : List (Entry C)) :
    List (Entry C) :=
  (sortNewestFirst (contents.filter fun entry => decide (query.Matches entry))).map query.project

/-- Entries strictly older than a cursor; without one, all. -/
def behindCursor (cursor : Option Position) (entry : Entry C) : Bool :=
  cursor.all fun cursor => decide (cursor.Newer entry.position)

/-- The text of the cursor that resumes behind an entry. -/
def cursorOf (entry : Entry C) : Text := encodeCursor entry.position

theorem cursorOf_project [JsonContent C] (query : EntryQuery) (entry : Entry C) :
    cursorOf (query.project entry) = cursorOf entry :=
  congrArg encodeCursor (EntryQuery.position_project query entry)

/-- The cursor behind some entries is the cursor behind what a page shows of them. -/
theorem cursorBehind_project [JsonContent C] (query : EntryQuery) (entries : List (Entry C)) :
    Keyset.cursorBehind cursorOf (entries.map query.project) = entries.getLast?.map cursorOf := by
  rw [Keyset.cursorBehind, List.getLast?_map, Option.map_map]
  congr 1
  exact funext fun entry => cursorOf_project query entry

/-- A cursor resumes behind the entry it was made from. -/
theorem behindCursor_cursorOf (last entry : Entry C) :
    behindCursor ((some (cursorOf last)).bind decodeCursor) entry = decide (last.Newer entry) := by
  have decoded : (some (cursorOf last)).bind decodeCursor = some last.position :=
    decodeCursor_encodeCursor last.position
  rw [decoded]
  rfl

/-- The page of a list of entries, as the interface describes it.  Cursors are
opaque: all that is known of one is the position its provider reads it as.  A
provider may return a cursor although nothing is left behind it. -/
structure OpensPage [JsonContent C] (reads : Text -> Option Position) (listed : List (Entry C))
    (query : EntryQuery) (limit : Nat) (page : Page C) : Prop where
  data : page.data = ((query.results listed).filter (behindCursor (query.cursor.bind reads))).take limit
  last : page.nextCursor = none ->
    ((query.results listed).filter (behindCursor (query.cursor.bind reads))).length ≤ limit
  next : forall cursor, page.nextCursor = some cursor ->
    Exists fun entry => page.data.getLast? = some entry ∧ reads cursor = some entry.position

/-- A provider that answers from a list. -/
def listingGet [JsonContent C] (listed : List (Entry C)) (query : EntryQuery) : Page C where
  toPage := Keyset.firstPage cursorOf (query.limit.getD 0).toNat
    ((query.results listed).filter (behindCursor (query.cursor.bind decodeCursor)))

/-- Its pages are those the interface describes. -/
theorem opensPage_listingGet [JsonContent C] (listed : List (Entry C)) {query : EntryQuery}
    {limit : Nat} (asked : query.limit = some (limit : Int)) (positive : 0 < limit) :
    OpensPage decodeCursor listed query limit (listingGet listed query) := by
  have places : (query.limit.getD 0).toNat = limit := by rw [asked, Option.getD_some, Int.toNat_natCast]
  generalize remainingEq :
    (query.results listed).filter (behindCursor (query.cursor.bind decodeCursor)) = remaining
  have page : (listingGet listed query).toPage = Keyset.firstPage cursorOf limit remaining := by
    rw [listingGet, places, remainingEq]
  refine ⟨?_, fun last => ?_, fun cursor next => ?_⟩
  · rw [page, remainingEq]
    rfl
  · rw [remainingEq]
    by_contra more
    rw [page, Keyset.firstPage, if_pos (Nat.lt_of_not_le more), Keyset.cursorBehind,
      Option.map_eq_none_iff, List.getLast?_eq_none_iff, List.take_eq_nil_iff] at last
    rcases last with zero | empty
    · exact positive.ne' zero
    · rw [empty] at more
      exact more (Nat.zero_le limit)
  · rw [page, Keyset.firstPage] at next
    rw [page, Keyset.firstPage]
    split at next
    · rcases Option.map_eq_some_iff.mp next with ⟨last, isLast, rfl⟩
      exact ⟨last, isLast, decodeCursor_encodeCursor last.position⟩
    · cases next

/-! ## Prune scopes -/

/-- What both prune scopes share: the cutoff and the choice of types. -/
structure TypeScope where
  before : Int
  type : Option Text := none
  excludeTypes : Option (List Text) := none

structure PruneScope extends TypeScope where
  keepLast : Option Int := none

structure BoundedPruneScope extends TypeScope where
  limit : Nat

structure BoundedPruneResult where
  deleted : Nat
  hasMore : Bool
  deriving DecidableEq

/-- A single type, or every type but the excluded ones. -/
def TypeScope.Selects (scope : TypeScope) (type : Text) : Prop :=
  match scope.type with
  | some selected => type = selected
  | none => type ∉ scope.excludeTypes.getD []

instance (scope : TypeScope) (type : Text) : Decidable (scope.Selects type) :=
  match scope with
  | ⟨_, some selected, _⟩ => inferInstanceAs (Decidable (type = selected))
  | ⟨_, none, excluded⟩ => inferInstanceAs (Decidable (type ∉ excluded.getD []))

/-- Strictly older than the cutoff and of a selected type. -/
def TypeScope.InScope (scope : TypeScope) (entry : Entry C) : Prop :=
  entry.createdAt < scope.before ∧ scope.Selects entry.type

instance (scope : TypeScope) (entry : Entry C) : Decidable (scope.InScope entry) :=
  inferInstanceAs (Decidable (_ ∧ _))

/-- What a scope deletes: all it selects but the newest `keepLast`. -/
def PruneScope.doomed (scope : PruneScope) (contents : List (Entry C)) : List (Entry C) :=
  (sortNewestFirst (contents.filter fun entry => decide (scope.InScope entry))).drop
    (scope.keepLast.getD 0).toNat

end Telescope
