import Telescope.Redis.Store

namespace Telescope
namespace Redis

universe u

/-!
# Queries

`get` pages one index with `ZRANGEBYLEX` and filters what the index does not
decide.  Inside one millisecond the index ascends by identifier while the page
order descends, so a page is read in whole millisecond groups, the cursor's own
group is read again, and the collected entries are sorted at the end.  The scan
is a loop over range reads; its fuel is the number of members.
-/

variable {C : Type u} [JsonContent C]

open SortedIndex (Bound)

namespace Keyspace

def DEFAULT_LIMIT : Nat := 50

/-- A positive integer limit, or the default. -/
def resolveLimit (limit : Option Int) : Nat :=
  match limit with
  | some limit => if limit > 0 then limit.toNat else DEFAULT_LIMIT
  | none => DEFAULT_LIMIT

/-- Family, else type, else tag, else the primary index. -/
def primaryIndexKey (query : EntryQuery) : IndexKey :=
  match query.familyHash with
  | some familyHash => .family familyHash
  | none =>
      match query.type with
      | some type => .type type
      | none =>
          match query.tag with
          | some tag => .tag tag
          | none => .all

def minBound (query : EntryQuery) : Bound Text :=
  match query.before with
  | some before => .closed (invBound (before - 1))
  | none => .lowest

def maxBound (query : EntryQuery) : Bound Text :=
  match query.after with
  | some after => .strict (invBound after)
  | none => .highest

/-- The cursor's whole millisecond is read again, unless the window starts
behind it. -/
def resumeBound (min : Bound Text) (cursor : Option Position) : Bound Text :=
  match cursor with
  | none => min
  | some cursor =>
      let fromCursor := invBound cursor.createdAt
      match min with
      | .closed least => if least < fromCursor then .closed fromCursor else min
      | _ => .closed fromCursor

/-- Some predicate is left to the application code. -/
def needsPostFilter (query : EntryQuery) (indexKey : IndexKey) : Bool :=
  (query.type.any fun type => indexKey != .type type) ||
    (query.tag.any fun tag => indexKey != .tag tag) ||
    (query.familyHash.any fun familyHash => indexKey != .family familyHash) ||
    query.batchId.isSome || query.traceId.isSome || query.search.isSome

/-- The predicates the index does not cover. -/
def matchesSecondary (entry : Entry C) (query : EntryQuery) (indexKey : IndexKey) : Bool :=
  (query.type.all fun type => indexKey == .type type || entry.type == type) &&
    (query.tag.all fun tag => indexKey == .tag tag || decide (tag ∈ entry.tags)) &&
    (query.familyHash.all fun familyHash =>
      indexKey == .family familyHash || entry.familyHash == some familyHash) &&
    (query.batchId.all fun batchId => entry.batchId == batchId) &&
    (query.traceId.all fun traceId => entry.traceId == some traceId) &&
    query.search.all fun search => contentIncludes entry.content search

def readsWithoutContent (query : EntryQuery) : Bool :=
  query.omitContent && query.search.isNone

/-- An entry of the cursor's millisecond that an earlier page returned. -/
def alreadyReturned (cursor : Option Position) (entry : Entry C) : Bool :=
  cursor.any fun cursor =>
    decide (entry.createdAt = cursor.createdAt) && !decide (entry.id.Before cursor.id)

/-- What the scan keeps for a member: its entry, if there is one and it is
neither skipped nor filtered out. -/
def keptFor (keyspace : Keyspace C) (query : EntryQuery) (cursor : Option Position)
    (member : Text) : Option (Entry C) :=
  let indexKey := primaryIndexKey query
  match keyspace.readEntry (readsWithoutContent query) (idFromMember member) with
  | none => none
  | some entry =>
      if alreadyReturned cursor entry then none
      else if needsPostFilter query indexKey && !matchesSecondary entry query indexKey then none
      else some entry

structure ScanState (C : Type u) where
  kept : List (Entry C)
  groupInv : Option Text
  min : Bound Text

/-- One page of members in the order of the index.  The scan breaks off on the
first member of a new millisecond once more than `limit` entries are kept; the
Boolean tells whether it did. -/
def visit (limit : Nat) (keptFor : Text -> Option (Entry C)) :
    List Text -> ScanState C -> ScanState C × Bool
  | [], scan => (scan, false)
  | member :: members, scan =>
      let inv := groupOf member
      if scan.kept.length > limit ∧ some inv ≠ scan.groupInv then (scan, true)
      else
        visit limit keptFor members
          { kept := scan.kept ++ (keptFor member).toList
            groupInv := some inv
            min := .strict member }

/-- The scan loop of `get`. -/
def scan (index : SortedIndex Text) (max : Bound Text) (limit : Nat)
    (keptFor : Text -> Option (Entry C)) : Nat -> ScanState C -> Option (List (Entry C))
  | 0, _ => none
  | fuel + 1, state =>
      let members := (index.range state.min max).take (limit + 1)
      if members = [] then some state.kept
      else
        let visited := visit limit keptFor members state
        if visited.2 then some visited.1.kept
        else if members.length ≤ limit then some visited.1.kept
        else scan index max limit keptFor fuel visited.1

/-- The non-id predicates of the ids path. -/
def matchesIdPathFilters (entry : Entry C) (query : EntryQuery) : Bool :=
  (query.type.all fun type => entry.type == type) &&
    (query.tag.all fun tag => decide (tag ∈ entry.tags)) &&
    (query.familyHash.all fun familyHash => entry.familyHash == some familyHash) &&
    (query.batchId.all fun batchId => entry.batchId == batchId) &&
    (query.traceId.all fun traceId => entry.traceId == some traceId) &&
    (query.before.all fun before => !decide (entry.createdAt ≥ before)) &&
    (query.after.all fun after => !decide (entry.createdAt ≤ after)) &&
    query.search.all fun search => contentIncludes entry.content search

/-- The page that opens a sorted list, with the cursor behind it. -/
def openPage (query : EntryQuery) (entries : List (Entry C)) : Page C :=
  let limit := resolveLimit query.limit
  let page := entries.take limit
  { data := page.map query.project
    nextCursor :=
      if entries.length > limit then page.getLast?.map cursorOf else none }

/-- Explicit identifiers are read in one go and filtered. -/
def getByIds (keyspace : Keyspace C) (query : EntryQuery) (ids : List Text) : Page C :=
  let entries := (ids.filterMap fun id => keyspace.readEntry (readsWithoutContent query) id).filter
    fun entry => matchesIdPathFilters entry query
  let remaining :=
    match query.cursor.bind decodeCursor with
    | none => sortNewestFirst entries
    | some cursor =>
        (sortNewestFirst entries).filter fun entry => decide (cursor.Newer entry.position)
  openPage query remaining

def get (keyspace : Keyspace C) (query : EntryQuery) : Option (Page C) :=
  match query.ids with
  | some ids => some (keyspace.getByIds query ids)
  | none =>
      let cursor := query.cursor.bind decodeCursor
      let index := keyspace.index (primaryIndexKey query)
      let start : ScanState C :=
        { kept := [], groupInv := none, min := resumeBound (minBound query) cursor }
      (scan index (maxBound query) (resolveLimit query.limit) (keyspace.keptFor query cursor)
        (index.members.length + 1) start).map fun kept => openPage query (sortNewestFirst kept)

end Keyspace

/-! ## The loop is one pass over the range -/

namespace Keyspace

omit [JsonContent C] in
theorem visit_append (limit : Nat) (keptFor : Text -> Option (Entry C)) (first second : List Text)
    (state : ScanState C) :
    visit limit keptFor (first ++ second) state =
      if (visit limit keptFor first state).2 then visit limit keptFor first state
      else visit limit keptFor second (visit limit keptFor first state).1 := by
  induction first generalizing state with
  | nil => rfl
  | cons member first inductionHypothesis =>
      rw [List.cons_append, visit, visit]
      split
      · rfl
      · exact inductionHypothesis _

omit [JsonContent C] in
/-- A page read to its end leaves the bound behind its last member. -/
theorem visit_min (limit : Nat) (keptFor : Text -> Option (Entry C)) (members : List Text)
    (last : Text) (state : ScanState C)
    (finished : (visit limit keptFor (members ++ [last]) state).2 = false) :
    (visit limit keptFor (members ++ [last]) state).1.min = .strict last := by
  rw [visit_append] at finished ⊢
  split at finished
  · rename_i stopped
    rw [stopped] at finished
    cases finished
  · rename_i going
    rw [if_neg going]
    rw [visit] at finished ⊢
    split at finished
    · cases finished
    · rename_i continuing
      rw [if_neg continuing]
      rfl

omit [JsonContent C] in
/-- With a fuel above the members ahead, the paged scan keeps what a single pass
over the whole range keeps. -/
theorem scan_eq_visit (index : SortedIndex Text) (max : Bound Text) (limit : Nat)
    (keptFor : Text -> Option (Entry C)) (fuel : Nat) (state : ScanState C)
    (enough : (index.range state.min max).length < fuel) :
    scan index max limit keptFor fuel state =
      some (visit limit keptFor (index.range state.min max) state).1.kept := by
  induction fuel generalizing state with
  | zero => exact (Nat.not_lt_zero _ enough).elim
  | succ fuel inductionHypothesis =>
      rw [scan]
      generalize ahead : index.range state.min max = members at enough
      have whole : members.take (limit + 1) ++ members.drop (limit + 1) = members :=
        List.take_append_drop ..
      have visited := visit_append limit keptFor (members.take (limit + 1))
        (members.drop (limit + 1)) state
      rw [whole] at visited
      by_cases nothing : members.take (limit + 1) = []
      · have empty : members = [] := by
          rcases List.take_eq_nil_iff.mp nothing with zero | empty
          · cases zero
          · exact empty
        rw [if_pos nothing, empty]
        rfl
      · rw [if_neg nothing]
        dsimp only
        cases stopped : (visit limit keptFor (members.take (limit + 1)) state).2 with
        | true =>
            rw [if_pos rfl, visited, if_pos stopped]
        | false =>
            rw [stopped] at visited
            rw [if_neg Bool.false_ne_true, visited, if_neg Bool.false_ne_true]
            by_cases short : (members.take (limit + 1)).length ≤ limit
            · have last : members.drop (limit + 1) = [] := by
                rw [List.length_take] at short
                exact List.drop_eq_nil_of_le (by omega)
              rw [if_pos short, last]
              rfl
            · rw [if_neg short]
              rcases List.eq_nil_or_concat' (members.take (limit + 1)) with
                empty | ⟨front, last, taken⟩
              · exact (nothing empty).elim
              · rw [taken] at stopped whole ⊢
                have min := visit_min limit keptFor front last state stopped
                have rest : index.range (visit limit keptFor (front ++ [last]) state).1.min max =
                    members.drop (limit + 1) := by
                  rw [min]
                  rw [List.append_assoc] at whole
                  exact SortedIndex.range_strict (ahead.trans whole.symm)
                have fewer : (members.drop (limit + 1)).length < fuel := by
                  have size := congrArg List.length whole
                  simp only [List.length_append, List.length_singleton] at size
                  omega
                rw [inductionHypothesis _ (by rw [rest]; exact fewer), rest]

end Keyspace
end Redis
end Telescope
