import Telescope.Redis.QueryRefinement

namespace Telescope
namespace Redis

universe u

/-!
# Following the cursors of a query

The pages of a query, each read behind the cursor of the one before, list what
the scan selects: exactly once, in page order, and in finitely many reads.  That
is what the query asks for exactly when the bounds of its window are read
exactly, as they are from the epoch on.
-/

variable {C : Type u} [JsonContent C]

/-- The page of a query behind a cursor. -/
def pageBehind (keyspace : Keyspace C) (query : EntryQuery) (cursor : Option Text) :
    Option (Keyset.Page (Entry C) Text) :=
  (keyspace.get { query with cursor := cursor }).map Page.toPage

/-- Following the cursors from the first page ends and lists some entries, page
by page within the limit. -/
def Lists (keyspace : Keyspace C) (query : EntryQuery) (contents listed : List (Entry C)) : Prop :=
  Exists fun pages =>
    Keyset.follow (pageBehind keyspace query) (contents.length + 1) none = some pages ∧
      pages.flatten = listed ∧
      forall data, data ∈ pages -> data.length ≤ Keyspace.resolveLimit query.limit

theorem resolveLimit_pos (limit : Option Int) : 0 < Keyspace.resolveLimit limit := by
  unfold Keyspace.resolveLimit
  split
  · split
    · omega
    · decide
  · decide

/-- The reads of a query answer from what the scan selects. -/
theorem pageBehind_answers {contents : List (Entry C)} {keyspace : Keyspace C}
    (represents : Represents contents keyspace)
    (inRange : forall entry, entry ∈ contents -> InRange entry.createdAt)
    {query : EntryQuery} (noIds : query.ids = none) :
    Keyset.Answers (pageBehind keyspace query) cursorOf (Keyspace.resolveLimit query.limit)
      ((scanResults query contents).map query.project) := by
  intro visited remaining split
  have sorted : NewestFirst (scanResults query contents) :=
    newestFirst_sort (Entry.distinctIds_sublist List.filter_sublist represents.distinct)
  have stored : forall entry, entry ∈ scanResults query contents -> entry ∈ contents :=
    fun entry member => List.mem_of_mem_filter (mem_sortNewestFirst.mp member)
  rcases List.map_eq_append_iff.mp split with ⟨front, back, parts, rfl, rfl⟩
  rcases List.eq_nil_or_concat' front with rfl | ⟨earlier, last, rfl⟩
  · rcases get_spec represents inRange { query with cursor := none } noIds
      (fun _ found => by cases found) with ⟨page, returned, opens⟩
    have everything : (scanResults query contents).filter (behindCursor none) = back :=
      (List.filter_eq_self.mpr fun _ _ => rfl).trans parts
    change (keyspace.get { query with cursor := none }).map Page.toPage = _
    rw [returned, Option.map_some, opens]
    exact congrArg (fun entries => some (Keyset.firstPage cursorOf _ (entries.map query.project)))
      everything
  · have behind : Keyset.cursorBehind cursorOf ((earlier ++ [last]).map query.project) =
        some (cursorOf last) := by
      rw [Keyset.cursorBehind, List.map_append, List.map_singleton, List.getLast?_append]
      exact congrArg some (cursorOf_project query last)
    have decoded : (some (cursorOf last)).bind decodeCursor = some last.position :=
      decodeCursor_encodeCursor last.position
    have lastStored : last ∈ contents := by
      refine stored last ?_
      rw [parts]
      exact List.mem_append_left _ (List.mem_append_right _ (List.mem_singleton_self last))
    rcases get_spec represents inRange { query with cursor := some (cursorOf last) } noIds
      (fun position found => by
        rw [decoded] at found
        cases found
        exact (inRange last lastStored).1) with ⟨page, returned, opens⟩
    rw [decoded] at opens
    have rest : (scanResults query contents).filter (behindCursor (some last.position)) = back := by
      rw [NewestFirst, parts, List.append_assoc] at sorted
      rw [parts, List.append_assoc]
      exact Keyset.filter_after (fun _ _ => Position.newer_asymm) sorted
    rw [behind]
    change (keyspace.get { query with cursor := some (cursorOf last) }).map Page.toPage = _
    rw [returned, Option.map_some, opens]
    exact congrArg (fun entries => some (Keyset.firstPage cursorOf _ (entries.map query.project)))
      rest

/-- Following the cursors lists what the scan selects. -/
theorem lists_scanResults {contents : List (Entry C)} {keyspace : Keyspace C}
    (represents : Represents contents keyspace)
    (inRange : forall entry, entry ∈ contents -> InRange entry.createdAt)
    {query : EntryQuery} (noIds : query.ids = none) :
    Lists keyspace query contents ((scanResults query contents).map query.project) := by
  have few : ((scanResults query contents).map query.project).length ≤ contents.length := by
    rw [List.length_map, scanResults, length_sortNewestFirst]
    exact List.length_filter_le _ _
  exact Keyset.follow_remaining (resolveLimit_pos query.limit)
    (pageBehind_answers represents inRange noIds) (contents.length + 1) [] _ rfl
    (Nat.lt_succ_of_le few)

omit [JsonContent C] in
theorem Lists.unique [JsonContent C] {keyspace : Keyspace C} {query : EntryQuery}
    {contents left right : List (Entry C)} (leftLists : Lists keyspace query contents left)
    (rightLists : Lists keyspace query contents right) : left = right := by
  rcases leftLists with ⟨pages, followed, rfl, _⟩
  rcases rightLists with ⟨others, sameFollowed, rfl, _⟩
  rw [Option.some.inj (followed.symm.trans sameFollowed)]

/-- Three jobs, two of them in one millisecond, and a log. -/
def busyMillisecond : List (Entry Text) :=
  [plainEntry ['a'] ['j', 'o', 'b'] 20, plainEntry ['c'] ['j', 'o', 'b'] 30,
    plainEntry ['b'] ['j', 'o', 'b'] 30, plainEntry ['d'] ['l', 'o', 'g'] 30]

/-- One entry, created at the epoch. -/
def atEpoch : List (Entry Text) := [plainEntry ['e'] ['j', 'o', 'b'] 0]

end Redis
end Telescope
