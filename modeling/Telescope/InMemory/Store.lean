import Telescope.Core.StorageProvider
import Telescope.Foundation.SortedIndex

namespace Telescope

universe u

/-!
# The in-memory provider

One array holds every entry, oldest first, so that a page is read off its newest
end.  Both the search for the place of a new entry and the sorts of a prune
compare identifiers with `localeCompare`; the test against a cursor compares
them with `<`.  A map holds the leases and another the marks of error families.
-/

/-- `localeCompare` of a host: a consistent comparator, whatever its collation. -/
structure Locale where
  localeCompare : Text -> Text -> Int
  swap : forall left right, 0 ≤ localeCompare left right <-> localeCompare right left ≤ 0
  trans : forall first second third, localeCompare first second ≤ 0 ->
    localeCompare second third ≤ 0 -> localeCompare first third ≤ 0

/-- A collation that compares keys of the strings. -/
def Locale.ofKey {κ : Type u} [LinearOrder κ] (key : Text -> κ) : Locale where
  localeCompare left right :=
    if key left < key right then -1 else if key right < key left then 1 else 0
  swap left right := by
    rcases lt_trichotomy (key left) (key right) with before | same | after
    · rw [if_pos before, if_neg before.asymm, if_pos before]
      decide
    · rw [if_neg same.not_lt, if_neg same.not_gt, if_neg same.not_gt, if_neg same.not_lt]
    · rw [if_neg after.asymm, if_pos after, if_pos after]
      decide
  trans first second third left right := by
    have notAfter : forall {one other : Text},
        (if key one < key other then -1 else if key other < key one then 1 else 0 : Int) ≤ 0 ->
          key one ≤ key other := by
      intro one other small
      by_contra after
      rw [if_neg (not_le.mp after).asymm, if_pos (not_le.mp after)] at small
      exact absurd small (by decide)
    rcases (le_trans (notAfter left) (notAfter right)).lt_or_eq with before | same
    · rw [if_pos before]
      decide
    · rw [if_neg same.not_lt, if_neg same.not_gt]

namespace InMemory

/-- A collation that ignores case, as the host's does before it breaks ties. -/
def foldedLocale : Locale := Locale.ofKey fun text => text.map Char.toLower

variable {C : Type u}

def DEFAULT_LIMIT : Nat := 50

/-- One held lease in the process-local lease table. -/
structure HeldLease where
  owner : Text
  expiresAtMs : Int

structure Provider (C : Type u) where
  entries : List (Entry C)
  leases : Text -> Option HeldLease
  seenFamilies : Text -> Option Int

def empty : Provider C := ⟨[], fun _ => none, fun _ => none⟩

/-! ## The order of the array -/

section Comparison

variable (locale : Locale)

def newestFirst (a b : Entry C) : Int :=
  let delta := b.createdAt - a.createdAt
  if delta ≠ 0 then delta else locale.localeCompare b.id a.id

def oldestFirst (a b : Entry C) : Int := -newestFirst locale a b

/-- Insert an entry at its sorted position; appending is the common case. -/
def insertSorted (entries : List (Entry C)) (entry : Entry C) : List (Entry C) :=
  match entries.getLast? with
  | none => entries ++ [entry]
  | some last =>
      if oldestFirst locale last entry ≤ 0 then entries ++ [entry]
      else
        let low := frontLength (fun candidate => decide (oldestFirst locale candidate entry ≤ 0))
          entries
        entries.take low ++ entry :: entries.drop low

def store (provider : Provider C) (entries : List (Entry C)) : Provider C :=
  { provider with entries := entries.foldl (insertSorted locale) provider.entries }

def update (provider : Provider C) (id : Text) (patch : Patch C) : Provider C :=
  match provider.entries.findIdx? fun entry => decide (entry.id = id) with
  | none => provider
  | some index =>
      match provider.entries[index]? with
      | none => provider
      | some existing =>
          let updated := patch.apply existing
          if updated.createdAt = existing.createdAt then
            { provider with entries := provider.entries.set index updated }
          else
            { provider with
              entries := insertSorted locale (provider.entries.eraseIdx index) updated }

end Comparison

/-! ## Pages -/

section Pages

variable [JsonContent C]

def matchesQuery (entry : Entry C) (query : EntryQuery) : Bool :=
  (query.ids.all fun ids => decide (entry.id ∈ ids)) &&
    (query.type.all fun type => decide (entry.type = type)) &&
    (query.tag.all fun tag => decide (tag ∈ entry.tags)) &&
    (query.familyHash.all fun familyHash => decide (entry.familyHash = some familyHash)) &&
    (query.batchId.all fun batchId => decide (entry.batchId = batchId)) &&
    (query.traceId.all fun traceId => decide (entry.traceId = some traceId)) &&
    (query.search.all fun search => contentIncludes entry.content search) &&
    (query.before.all fun before => !decide (entry.createdAt ≥ before)) &&
    query.after.all fun after => !decide (entry.createdAt ≤ after)

/-- A positive integer limit, or the default. -/
def resolveLimit (query : EntryQuery) : Nat :=
  match query.limit with
  | some limit => if limit > 0 then limit.toNat else DEFAULT_LIMIT
  | none => DEFAULT_LIMIT

/-- Index of the newest entry created at or before an instant, or -1; without an
instant, of the newest entry. -/
def lastIndexAtOrBefore (entries : List (Entry C)) (ms : Option Int) : Int :=
  (frontLength (fun entry => ms.all fun ms => decide (entry.createdAt ≤ ms)) entries : Int) - 1

/-- The newest instant the cursor and `before` allow; nothing stands for infinity. -/
def newestMs (query : EntryQuery) (cursor : Option Position) : Option Int :=
  let fromCursor := cursor.map Position.createdAt
  match query.before with
  | none => fromCursor
  | some before => some ((fromCursor.map fun createdAt => min createdAt (before - 1)).getD (before - 1))

/-- The loop of `get`, over the indexes below a count downwards: it stops at the
`after` bound or once one entry past the page is found. -/
def walk (entries : List (Entry C)) (query : EntryQuery) (cursor : Option Position) (limit : Nat) :
    Nat -> List (Entry C) -> List (Entry C)
  | 0, page => page
  | index + 1, page =>
      match entries[index]? with
      | none => walk entries query cursor limit index page
      | some entry =>
          if query.after.any fun after => decide (entry.createdAt ≤ after) then page
          else if cursor.any fun cursor =>
              decide (entry.createdAt = cursor.createdAt) && !decide (entry.id.Before cursor.id) then
            walk entries query cursor limit index page
          else if !matchesQuery entry query then walk entries query cursor limit index page
          else if (page ++ [entry]).length > limit then page ++ [entry]
          else walk entries query cursor limit index (page ++ [entry])

def get (provider : Provider C) (query : EntryQuery) : Page C :=
  let cursor := query.cursor.bind decodeCursor
  let limit := resolveLimit query
  let newest := lastIndexAtOrBefore provider.entries (newestMs query cursor)
  let page := walk provider.entries query cursor limit (newest + 1).toNat []
  let slice := page.take limit
  let hasMore := decide (page.length > limit)
  { data := if query.omitContent then slice.map Entry.withoutContent else slice
    nextCursor := if hasMore then slice.getLast?.map cursorOf else none }

end Pages

/-! ## Pruning -/

section Pruning

variable (locale : Locale)

/-- `slice(0, stop)`: a negative stop counts from the end. -/
def sliceTo (stop : Int) (elements : List (Entry C)) : List (Entry C) :=
  if stop < 0 then elements.take (elements.length - stop.natAbs) else elements.take stop.toNat

/-- `sort(this.newestFirst)`. -/
def sortByLocale (entries : List (Entry C)) : List (Entry C) :=
  entries.insertionSort fun a b => newestFirst locale a b ≤ 0

/-- The entries of a scope go, but for the newest `keepLast` of them.  The set of
the reprieved holds the entries themselves; identifiers tell them apart. -/
def pruneWhere (provider : Provider C) (inScope : Entry C -> Bool) (keepLast : Option Int) :
    Provider C × Nat :=
  let survivors := provider.entries.filter fun entry => !inScope entry
  match keepLast with
  | some keepLast =>
      if survivors.length < provider.entries.length then
        let reprieved := sliceTo keepLast (sortByLocale locale (provider.entries.filter inScope))
        let entries := provider.entries.filter fun entry =>
          !inScope entry || decide (entry.id ∈ reprieved.map Entry.id)
        ({ provider with entries := entries }, provider.entries.length - entries.length)
      else ({ provider with entries := survivors }, provider.entries.length - survivors.length)
  | none => ({ provider with entries := survivors }, provider.entries.length - survivors.length)

def prune (provider : Provider C) (olderThan : Int) (keepLast : Option Int) : Provider C × Nat :=
  pruneWhere locale provider (fun entry => decide (entry.createdAt < olderThan)) keepLast

/-- Older than the cutoff and of the single type, or of any type not excluded. -/
def inScope (scope : TypeScope) (entry : Entry C) : Bool :=
  if entry.createdAt ≥ scope.before then false
  else
    match scope.type with
    | some type => decide (entry.type = type)
    | none =>
        match scope.excludeTypes with
        | some excluded => !decide (entry.type ∈ excluded)
        | none => true

def pruneScoped (provider : Provider C) (input : PruneScope) : Provider C × Nat :=
  pruneWhere locale provider (inScope input.toTypeScope) input.keepLast

/-- The same selection, minus `keepLast`; an empty exclusion is no exclusion. -/
def inBoundedScope (entry : Entry C) (scope : BoundedPruneScope) : Bool :=
  if entry.createdAt ≥ scope.before then false
  else
    match scope.type with
    | some type => decide (entry.type = type)
    | none =>
        match scope.excludeTypes with
        | some excluded => if excluded.length > 0 then !decide (entry.type ∈ excluded) else true
        | none => true

def pruneScopedBatch (provider : Provider C) (input : BoundedPruneScope) :
    Provider C × BoundedPruneResult :=
  let doomed := provider.entries.filter fun entry => inBoundedScope entry input
  if doomed.length = 0 then (provider, ⟨0, false⟩)
  else
    let oldest := doomed.insertionSort fun a b => oldestFirst locale a b ≤ 0
    let batch := ((oldest.take input.limit).map Entry.id).dedup
    ({ provider with
        entries := provider.entries.filter fun entry => !decide (entry.id ∈ batch) },
      ⟨batch.length, decide (doomed.length > input.limit)⟩)

end Pruning

/-! ## Error families -/

def markFamilySeen (provider : Provider C) (familyHash : Text) (nowMs windowMs : Int) :
    Provider C × Bool :=
  let isNew :=
    match provider.seenFamilies familyHash with
    | none => true
    | some last => decide (nowMs - last ≥ windowMs)
  ({ provider with seenFamilies := Function.update provider.seenFamilies familyHash (some nowMs) },
    isNew)

def clear (_ : Provider C) : Provider C := empty

end InMemory
end Telescope
