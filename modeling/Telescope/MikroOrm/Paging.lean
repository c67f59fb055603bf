import Telescope.MikroOrm.Store

namespace Telescope
namespace MikroOrm

universe u

/-!
# Following the cursors of a table

The database orders the rows of each page by its own collation, and a cursor resumes behind a
place in that order.  So the pages of a query show every row it selects once, in one order,
whatever the collation is.
-/

variable {C : Type u} [JsonContent C] (driver : Driver C) (table : EntryTable C) (query : EntryQuery)

omit [JsonContent C] in
theorem orderByNewest_filter {rows : List (Entry C)} (distinct : Entry.DistinctIds rows) (keeps : Entry C -> Bool) :
    driver.collation.orderByNewest (rows.filter keeps) = (driver.collation.orderByNewest rows).filter keeps := by
  refine List.Perm.eq_of_pairwise (fun left right _ _ newer older => ?_)
    (driver.collation.orderByNewest_sorted (Entry.distinctIds_sublist List.filter_sublist distinct))
    ((driver.collation.orderByNewest_sorted distinct).filter keeps)
    ((driver.collation.orderByNewest_perm _).trans ((driver.collation.orderByNewest_perm rows).filter keeps).symm)
  exact (driver.collation.older_asymm _ _ newer older).elim

/-- All that a query selects, in the order of the database. -/
def selected : List (Entry C) :=
  driver.collation.orderByNewest (table.rows.filter (whereQuery driver { query with cursor := none }))

def read (cursor : Option Text) : Option (Keyset.Page (Entry C) Text) :=
  some (get driver table { query with cursor := cursor }).toPage

omit [JsonContent C] in
theorem whereQuery_cursor (cursor : Option Text) (row : Entry C) :
    whereQuery driver { query with cursor := cursor } row =
      (behindPosition driver (cursor.bind decodeCursor) row && whereQuery driver { query with cursor := none } row) := by
  have all : behindPosition driver none row = true := rfl
  simp only [whereQuery, Option.bind_none, all, Bool.and_true]
  rw [Bool.and_right_comm, Bool.and_comm]

omit [JsonContent C] in
theorem behindPosition_cursorOf (last row : Entry C) :
    behindPosition driver ((some (cursorOf last)).bind decodeCursor) row =
      decide (driver.collation.Older row.position last.position) := by
  have decoded : (some (cursorOf last)).bind decodeCursor = some last.position :=
    decodeCursor_encodeCursor last.position
  rw [decoded, behindPosition, Option.all_some, <- Bool.decide_and, <- Bool.decide_or]
  rfl

/-- Behind some rows of a query lie the rest of them. -/
theorem rows_behind {front back : List (Entry C)} (split : selected driver table query = front ++ back) :
    driver.collation.orderByNewest (table.rows.filter
      (whereQuery driver { query with cursor := Keyset.cursorBehind cursorOf (front.map query.project) })) = back := by
  have sorted : (front ++ back).Pairwise fun left right => driver.collation.Older right.position left.position :=
    split ▸ driver.collation.orderByNewest_sorted (Entry.distinctIds_sublist List.filter_sublist table.distinct)
  have filtered (cursor : Option Text) : table.rows.filter (whereQuery driver { query with cursor := cursor }) =
      (table.rows.filter (whereQuery driver { query with cursor := none })).filter
        (behindPosition driver (cursor.bind decodeCursor)) := by
    rw [List.filter_filter]
    exact List.filter_congr fun row _ => whereQuery_cursor driver query cursor row
  rw [cursorBehind_project, filtered,
    orderByNewest_filter driver (Entry.distinctIds_sublist List.filter_sublist table.distinct)]
  change (selected driver table query).filter _ = back
  rw [split]
  exact @Keyset.filter_behind _ _ _ cursorOf (fun cursor => behindPosition driver (cursor.bind decodeCursor)) _
    (fun _ _ => driver.collation.older_asymm _ _) (fun _ => rfl) (behindPosition_cursorOf driver) _ _ sorted

theorem page_behind {front back : List (Entry C)} (split : selected driver table query = front ++ back) :
    read driver table query (Keyset.cursorBehind cursorOf (front.map query.project)) =
      some (Keyset.firstPage cursorOf (resolveLimit query.limit) (back.map query.project)) := by
  rw [read, get]
  by_cases noIds : query.ids = some []
  · have nothing : selected driver table query = [] := by
      rw [selected, List.filter_eq_nil_iff.mpr fun row _ isSelected => ?_]
      · rfl
      · rw [whereQuery, noIds] at isSelected
        exact Bool.false_ne_true isSelected
    rw [if_pos noIds, (List.append_eq_nil_iff.mp (split.symm.trans nothing)).2, List.map_nil, Keyset.firstPage,
      List.take_nil, List.length_nil, if_neg (Nat.not_lt_zero _)]
  · rw [if_neg noIds]
    dsimp only
    rw [rows_behind driver table query split, List.take_take, Nat.min_eq_left (Nat.le_succ _), Keyset.firstPage,
      List.map_take, List.length_take, List.length_map, Keyset.cursorBehind]
    refine congrArg some (congrArg (Keyset.Page.mk _) (if_congr ?_ rfl rfl))
    exact Nat.lt_min.trans (and_iff_right (Nat.lt_succ_self _))

/-- Following the cursors from the first page ends, and shows what the query selects once, in order. -/
theorem paging_visits_selected :
    Exists fun pages =>
      Keyset.follow (read driver table query) ((selected driver table query).length + 1) none = some pages ∧
        pages.flatten = (selected driver table query).map query.project ∧
        forall data, data ∈ pages -> data.length ≤ resolveLimit query.limit := by
  have positive : 0 < resolveLimit query.limit := by
    rw [resolveLimit.eq_def]
    split
    · split
      · omega
      · decide
    · decide
  have answers : Keyset.Answers (read driver table query) cursorOf (resolveLimit query.limit)
      ((selected driver table query).map query.project) := by
    intro visited remaining split
    rcases List.map_eq_append_iff.mp split with ⟨front, back, isSelected, rfl, rfl⟩
    exact page_behind driver table query isSelected
  have visits := Keyset.follow_visits positive answers
  rw [List.length_map] at visits
  exact visits

end MikroOrm
end Telescope
