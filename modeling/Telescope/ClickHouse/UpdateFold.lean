import Telescope.Core.Entry
import Telescope.Foundation.Replacing

namespace Telescope
namespace ClickHouse

universe u

/-!
# The entries of the ClickHouse provider

One `ReplacingMergeTree` holds the entries under the sorting key
`(type, created_at, id)`.  Nothing deletes a row: an update writes the entry again
with a higher version, and a tombstone at its former key when the patch moves it.
Versions come from the clock and a counter of each process.  The JSON columns hold
what they encode.
-/

variable {C : Type u}

structure SortingKey where
  type : Text
  createdAt : Int
  id : Text
  deriving DecidableEq

def sortingKey (entry : Entry C) : SortingKey := ⟨entry.type, entry.createdAt, entry.id⟩

abbrev Row (C : Type u) := Replacing.Versioned SortingKey (Entry C)

/-- The table, and the version counter of each process. -/
structure Database (C : Type u) where
  rows : List (Row C)
  versionCounters : Nat -> Nat

namespace Database

def empty : Database C := ⟨[], fun _ => 0⟩

/-- The next version of a process, at a reading of its clock. -/
def nextVersion (database : Database C) (process now : Nat) : Database C × Nat :=
  let versionCounter := (database.versionCounters process + 1) % 1000
  ({ database with versionCounters := Function.update database.versionCounters process versionCounter },
    now * 1000 + versionCounter)

def toRow (entry : Entry C) (version : Nat) (isDeleted : Bool) : Row C :=
  ⟨sortingKey entry, version, isDeleted, entry⟩

/-- An insert appends its rows. -/
def insert (database : Database C) (values : List (Row C)) : Database C :=
  { database with rows := database.rows ++ values }

/-- Each entry gets a version of its own, at its own reading of the clock. -/
def toRows (database : Database C) (process : Nat) :
    List (Entry C × Nat) -> Database C × List (Row C)
  | [] => (database, [])
  | (entry, now) :: entries =>
      let versioned := database.nextVersion process now
      let rest := toRows versioned.1 process entries
      (rest.1, toRow entry versioned.2 false :: rest.2)

def store (database : Database C) (process : Nat) (entries : List (Entry C × Nat)) : Database C :=
  if entries.length = 0 then database
  else
    let versioned := database.toRows process entries
    versioned.1.insert versioned.2

def update (database : Database C) (process now : Nat) (id : Text) (patch : Patch C) : Database C :=
  match (Replacing.final database.rows).find? fun row => decide (row.value.id = id) with
  | none => database
  | some existing =>
      let current := existing.value
      let merged := patch.apply current
      let versioned := database.nextVersion process now
      let version := max (existing.version + 1) versioned.2
      let values := [toRow merged version false]
      let moved := merged.type ≠ current.type ∨ merged.createdAt ≠ current.createdAt
      versioned.1.insert (if moved then values ++ [toRow current version true] else values)

end Database

/-! ## Runs -/

inductive Operation (C : Type u)
  | store (process : Nat) (entries : List (Entry C × Nat))
  | update (process now : Nat) (id : Text) (patch : Patch C)

def perform (database : Database C) : Operation C -> Database C
  | .store process entries => database.store process entries
  | .update process now id patch => database.update process now id patch

def run (database : Database C) (operations : List (Operation C)) : Database C :=
  operations.foldl perform database

/-- What the operations mean: entries are added, and a patch changes the entry of
its identifier. -/
def applied (contents : List (Entry C)) : Operation C -> List (Entry C)
  | .store _ entries => contents ++ entries.map Prod.fst
  | .update _ _ id patch =>
      contents.map fun entry => if entry.id = id then patch.apply entry else entry

/-- The identifiers the operations store. -/
def storedIds : List (Operation C) -> List Text
  | [] => []
  | .store _ entries :: operations => entries.map (fun entry => entry.1.id) ++ storedIds operations
  | .update _ _ _ _ :: operations => storedIds operations

end ClickHouse
end Telescope

namespace Telescope
namespace ClickHouse

universe u

/-!
# An update is a fold

The row shown for an identifier is never older than any row written under that
identifier, whatever the clocks say, because an update draws a version above the
one it read.  So each new row is the newest under its key, also where a patch
moves an entry back to a key it has left a tombstone at.
-/

variable {C : Type u}

/-- The table shows the contents, each entry by the newest row of its
identifier. -/
structure Shows (contents : List (Entry C)) (rows : List (Row C)) : Prop where
  distinct : Entry.DistinctIds contents
  shown : ((Replacing.final rows).map Replacing.Versioned.value).Perm contents
  keyed : forall row, row ∈ rows -> row.key = sortingKey row.value
  newest : forall row, row ∈ rows -> Exists fun live =>
    live ∈ Replacing.final rows ∧ live.value.id = row.value.id ∧ row.version ≤ live.version

theorem empty_shows : Shows ([] : List (Entry C)) [] where
  distinct := List.nodup_nil
  shown := List.Perm.refl _
  keyed := fun _ member => by cases member
  newest := fun _ member => by cases member

variable {contents : List (Entry C)} {rows : List (Row C)}

theorem Shows.mem_contents (shows : Shows contents rows) {row : Row C}
    (member : row ∈ Replacing.final rows) : row.value ∈ contents :=
  shows.shown.mem_iff.mp (List.mem_map_of_mem member)

/-- An identifier is shown by one row. -/
theorem Shows.eq_of_id (shows : Shows contents rows) {left right : Row C}
    (leftMember : left ∈ Replacing.final rows) (rightMember : right ∈ Replacing.final rows)
    (same : left.value.id = right.value.id) : left = right := by
  have ids : ((Replacing.final rows).map fun row => row.value.id).Nodup := by
    have nodup := (shows.shown.map Entry.id).nodup_iff.mpr shows.distinct
    rwa [List.map_map] at nodup
  exact List.inj_on_of_nodup_map ids leftMember rightMember same

theorem id_of_key (shows : Shows contents rows) {row other : Row C} (member : row ∈ rows)
    (isOther : other.key = sortingKey other.value) (same : row.key = other.key) :
    row.value.id = other.value.id := by
  rw [shows.keyed row member, isOther] at same
  exact congrArg SortingKey.id same

/-- A row of an identifier, at least as new as the one shown for it. -/
theorem Shows.final_append (shows : Shows contents rows) {row : Row C}
    (isKeyed : row.key = sortingKey row.value)
    (newest : forall live, live ∈ Replacing.final rows -> live.value.id = row.value.id ->
      live.version ≤ row.version) :
    Replacing.final (rows ++ [row]) =
      ((Replacing.final rows).filter fun other => !decide (other.key = row.key)) ++
        if row.isDeleted then [] else [row] := by
  refine Replacing.final_append fun other member same => ?_
  rcases shows.newest other member with ⟨live, isLive, sameId, newer⟩
  exact le_trans newer (newest live isLive (sameId.trans (id_of_key shows member isKeyed same)))

/-! ## Storing -/

theorem Shows.append (shows : Shows contents rows) {entry : Entry C} (version : Nat)
    (distinct : Entry.DistinctIds (contents ++ [entry])) :
    Shows (contents ++ [entry]) (rows ++ [Database.toRow entry version false]) := by
  have fresh : forall {row : Row C}, row ∈ Replacing.final rows -> row.value.id ≠ entry.id := by
    intro row member same
    rw [Entry.DistinctIds, List.map_append, List.nodup_append] at distinct
    exact distinct.2.2 _ (List.mem_map_of_mem (shows.mem_contents member)) _
      (List.mem_singleton_self _) same
  have final := @Shows.final_append C contents rows shows (Database.toRow entry version false) rfl
    fun live member same => (fresh member same).elim
  have untouched : ((Replacing.final rows).filter fun other =>
      !decide (other.key = (Database.toRow entry version false).key)) = Replacing.final rows := by
    refine List.filter_eq_self.mpr fun other member => ?_
    rw [Bool.not_eq_true', decide_eq_false_iff_not]
    exact fun same => fresh member (id_of_key shows (Replacing.mem_of_mem_final member) rfl same)
  rw [untouched] at final
  refine ⟨distinct, ?_, ?_, ?_⟩
  · rw [final, List.map_append]
    exact shows.shown.append_right _
  · intro row member
    rcases List.mem_append.mp member with before | isNew
    · exact shows.keyed row before
    · cases List.mem_singleton.mp isNew
      rfl
  · intro row member
    rw [final]
    rcases List.mem_append.mp member with before | isNew
    · rcases shows.newest row before with ⟨live, isLive, same, newer⟩
      exact ⟨live, List.mem_append_left _ isLive, same, newer⟩
    · cases List.mem_singleton.mp isNew
      exact ⟨_, List.mem_append_right _ (List.mem_singleton_self _), rfl, Nat.le_refl _⟩

theorem toRows_shows (database : Database C) (process : Nat) (entries : List (Entry C × Nat))
    {rows : List (Row C)} {contents : List (Entry C)} (shows : Shows contents rows)
    (distinct : Entry.DistinctIds (contents ++ entries.map Prod.fst)) :
    Shows (contents ++ entries.map Prod.fst) (rows ++ (database.toRows process entries).2) ∧
      (database.toRows process entries).1.rows = database.rows := by
  induction entries generalizing database rows contents with
  | nil =>
      rw [List.map_nil, List.append_nil, Database.toRows, List.append_nil]
      exact ⟨shows, rfl⟩
  | cons first entries inductionHypothesis =>
      rcases first with ⟨entry, now⟩
      have split : contents ++ ((entry, now) :: entries).map Prod.fst =
          (contents ++ [entry]) ++ entries.map Prod.fst := by
        rw [List.map_cons, List.append_assoc, List.singleton_append]
      rw [split] at distinct ⊢
      have stored := shows.append (database.nextVersion process now).2
        (Entry.distinctIds_sublist (List.sublist_append_left _ _) distinct)
      rcases inductionHypothesis (database.nextVersion process now).1 stored distinct with
        ⟨rest, unchanged⟩
      refine ⟨?_, unchanged⟩
      rw [List.append_assoc rows, List.singleton_append] at rest
      exact rest

theorem store_shows (database : Database C) (process : Nat) (entries : List (Entry C × Nat))
    (shows : Shows contents database.rows)
    (distinct : Entry.DistinctIds (contents ++ entries.map Prod.fst)) :
    Shows (contents ++ entries.map Prod.fst) (database.store process entries).rows := by
  rw [Database.store]
  by_cases empty : entries.length = 0
  · rw [if_pos empty, List.length_eq_zero_iff.mp empty, List.map_nil, List.append_nil]
    exact shows
  · rcases toRows_shows database process entries shows distinct with ⟨stored, unchanged⟩
    rw [if_neg empty, Database.insert, unchanged]
    exact stored

/-! ## Updating -/

/-- A patch changes one entry. -/
theorem applyPatch_perm (distinct : Entry.DistinctIds contents) {current : Entry C}
    (member : current ∈ contents) (patch : Patch C) :
    (contents.map fun entry => if entry.id = current.id then patch.apply entry else entry).Perm
      ((contents.filter fun entry => !decide (entry.id = current.id)) ++ [patch.apply current]) := by
  have parts := List.filter_append_perm
    (fun entry : Entry C => !decide (entry.id = current.id)) contents
  have single : (contents.filter fun entry => !!decide (entry.id = current.id)).Perm [current] := by
    refine (List.perm_ext_iff_of_nodup ((List.Nodup.of_map _ distinct).filter _)
      (List.nodup_singleton _)).mpr fun entry => ?_
    rw [List.mem_filter, Bool.not_not, decide_eq_true_eq, List.mem_singleton]
    constructor
    · rintro ⟨found, same⟩
      exact Entry.eq_of_id distinct found member same
    · rintro rfl
      exact ⟨member, rfl⟩
  have moved := (parts.symm.trans (List.Perm.append_left _ single)).map fun entry : Entry C =>
    if entry.id = current.id then patch.apply entry else entry
  rw [List.map_append, List.map_singleton, if_pos rfl] at moved
  refine moved.trans (List.Perm.of_eq ?_)
  congr 1
  refine (List.map_congr_left fun entry found => ?_).trans (List.map_id _)
  have different := (List.mem_filter.mp found).2
  rw [Bool.not_eq_true', decide_eq_false_iff_not] at different
  exact if_neg different

theorem map_update_ids (contents : List (Entry C)) (id : Text) (patch : Patch C) :
    (contents.map fun entry => if entry.id = id then patch.apply entry else entry).map Entry.id =
      contents.map Entry.id := by
  rw [List.map_map]
  refine List.map_congr_left fun entry _ => ?_
  change (if entry.id = id then patch.apply entry else entry).id = entry.id
  split <;> rfl

section Updated

variable {existing : Row C} {merged : Entry C} {version : Nat}

/-- All rows of the identifier are older than the version of the update. -/
theorem older_of_id (shows : Shows contents rows) (member : existing ∈ Replacing.final rows)
    (newer : existing.version < version) {row : Row C} (stored : row ∈ rows)
    (same : row.value.id = existing.value.id) : row.version ≤ version := by
  rcases shows.newest row stored with ⟨live, isLive, sameId, above⟩
  cases shows.eq_of_id isLive member (sameId.trans same)
  exact le_trans above (Nat.le_of_lt newer)

/-- What is shown behind the row of the merged entry. -/
theorem final_merged (shows : Shows contents rows) (member : existing ∈ Replacing.final rows)
    (same : merged.id = existing.value.id) (newer : existing.version < version) :
    Replacing.final (rows ++ [Database.toRow merged version false]) =
      ((Replacing.final rows).filter fun row => !decide (row.key = sortingKey merged)) ++
        [Database.toRow merged version false] := by
  refine @Shows.final_append C contents rows shows (Database.toRow merged version false) rfl
    fun live isLive sameId => ?_
  exact older_of_id shows member newer (Replacing.mem_of_mem_final isLive) (sameId.trans same)

/-- What is shown once the rows of an update are inserted. -/
theorem final_updated (shows : Shows contents rows) (member : existing ∈ Replacing.final rows)
    (same : merged.id = existing.value.id) (newer : existing.version < version) :
    Replacing.final (rows ++
        if merged.type ≠ existing.value.type ∨ merged.createdAt ≠ existing.value.createdAt then
          [Database.toRow merged version false] ++ [Database.toRow existing.value version true]
        else [Database.toRow merged version false]) =
      ((Replacing.final rows).filter fun row => !decide (row.value.id = existing.value.id)) ++
        [Database.toRow merged version false] := by
  have existingKey := shows.keyed existing (Replacing.mem_of_mem_final member)
  have isMerged := final_merged shows member same newer
  have ids : forall {row : Row C}, row ∈ Replacing.final rows ->
      row.key = sortingKey merged -> row.value.id = existing.value.id := by
    intro row shown sameKey
    exact (@id_of_key C contents rows shows _ (Database.toRow merged version false)
      (Replacing.mem_of_mem_final shown) rfl sameKey).trans same
  by_cases moved : merged.type ≠ existing.value.type ∨ merged.createdAt ≠ existing.value.createdAt
  · have apart : sortingKey merged ≠ sortingKey existing.value := by
      intro sameKey
      rcases moved with type | createdAt
      · exact type (congrArg SortingKey.type sameKey)
      · exact createdAt (congrArg SortingKey.createdAt sameKey)
    have oldIds : forall {row : Row C}, row ∈ rows -> row.key = sortingKey existing.value ->
        row.value.id = existing.value.id := fun stored sameKey =>
      @id_of_key C contents rows shows _ (Database.toRow existing.value version true) stored rfl sameKey
    have newest : forall other, other ∈ rows ++ [Database.toRow merged version false] ->
        other.key = (Database.toRow existing.value version true).key ->
          other.version ≤ (Database.toRow existing.value version true).version := by
      intro other stored sameKey
      rcases List.mem_append.mp stored with before | isNew
      · exact older_of_id shows member newer before (oldIds before sameKey)
      · cases List.mem_singleton.mp isNew
        exact (apart sameKey).elim
    have tombstone := Replacing.final_append newest
    have kept : ([Database.toRow merged version false].filter fun other =>
        !decide (other.key = (Database.toRow existing.value version true).key)) =
          [Database.toRow merged version false] :=
      List.filter_eq_self.mpr fun other isNew => by
        cases List.mem_singleton.mp isNew
        rw [Bool.not_eq_true', decide_eq_false_iff_not]
        exact apart
    have hidden : (Database.toRow existing.value version true).isDeleted = true := rfl
    rw [if_pos moved, ← List.append_assoc, tombstone, isMerged, List.filter_append, kept, hidden,
      if_pos rfl, List.append_nil, List.filter_filter]
    congr 1
    refine List.filter_congr fun row shown => ?_
    rw [← decide_not, ← decide_not, ← decide_not, ← Bool.decide_and]
    refine decide_eq_decide.mpr ?_
    rw [← not_or, not_iff_not]
    constructor
    · rintro (isOld | isNew)
      · exact oldIds (Replacing.mem_of_mem_final shown) isOld
      · exact ids shown isNew
    · intro sameId
      cases shows.eq_of_id shown member sameId
      exact .inl existingKey
  · rw [if_neg moved, isMerged]
    congr 1
    refine List.filter_congr fun row shown => ?_
    rw [← decide_not, ← decide_not]
    refine decide_eq_decide.mpr (not_iff_not.mpr ⟨ids shown, fun sameId => ?_⟩)
    cases shows.eq_of_id shown member sameId
    rw [not_or, not_not, not_not] at moved
    rw [existingKey, sortingKey, sortingKey, moved.1, moved.2, same]

end Updated

theorem update_shows (database : Database C) (process now : Nat) (id : Text) (patch : Patch C)
    (shows : Shows contents database.rows) :
    Shows (applied contents (.update process now id patch))
      (database.update process now id patch).rows := by
  have distinct : Entry.DistinctIds (applied contents (.update process now id patch)) := by
    rw [Entry.DistinctIds, applied, map_update_ids]
    exact shows.distinct
  rw [Database.update]
  cases isFound : (Replacing.final database.rows).find? fun row => decide (row.value.id = id) with
  | none =>
      have unchanged : applied contents (.update process now id patch) = contents := by
        refine (List.map_congr_left fun entry member => ?_).trans (List.map_id _)
        rcases List.mem_map.mp (shows.shown.mem_iff.mpr member) with ⟨row, shown, rfl⟩
        have different := List.find?_eq_none.mp isFound row shown
        rw [decide_eq_true_eq] at different
        exact if_neg different
      rw [unchanged]
      exact shows
  | some existing =>
      have member := List.mem_of_find?_eq_some isFound
      have isId := List.find?_some isFound
      rw [decide_eq_true_eq] at isId
      subst isId
      generalize versionEq : max (existing.version + 1) (database.nextVersion process now).2 = version
      have newer : existing.version < version := by omega
      have same : (patch.apply existing.value).id = existing.value.id := rfl
      have final := final_updated shows member same newer
      have perm := applyPatch_perm shows.distinct (shows.mem_contents member) patch
      have rows : forall row, row ∈ (if (patch.apply existing.value).type ≠ existing.value.type ∨
          (patch.apply existing.value).createdAt ≠ existing.value.createdAt then
            [Database.toRow (patch.apply existing.value) version false] ++
              [Database.toRow existing.value version true]
          else [Database.toRow (patch.apply existing.value) version false]) ->
          row.key = sortingKey row.value ∧ row.value.id = existing.value.id ∧ row.version = version := by
        intro row isNew
        split at isNew
        · rcases List.mem_append.mp isNew with isMerged | isTombstone
          · cases List.mem_singleton.mp isMerged
            exact ⟨rfl, rfl, rfl⟩
          · cases List.mem_singleton.mp isTombstone
            exact ⟨rfl, rfl, rfl⟩
        · cases List.mem_singleton.mp isNew
          exact ⟨rfl, rfl, rfl⟩
      dsimp only [Database.insert, Database.nextVersion] at versionEq ⊢
      rw [versionEq]
      refine ⟨distinct, ?_, ?_, ?_⟩
      · rw [final, List.map_append]
        refine List.Perm.trans ?_ perm.symm
        refine List.Perm.append_right _ ?_
        have kept := shows.shown.filter fun entry => !decide (entry.id = existing.value.id)
        rw [List.filter_map] at kept
        exact kept
      · intro row stored
        rcases List.mem_append.mp stored with before | isNew
        · exact shows.keyed row before
        · exact (rows row isNew).1
      · intro row stored
        rw [final]
        have live : Database.toRow (patch.apply existing.value) version false ∈
            ((Replacing.final database.rows).filter fun row =>
              !decide (row.value.id = existing.value.id)) ++
                [Database.toRow (patch.apply existing.value) version false] :=
          List.mem_append_right _ (List.mem_singleton_self _)
        rcases List.mem_append.mp stored with before | isNew
        · by_cases isId : row.value.id = existing.value.id
          · exact ⟨_, live, isId.symm, older_of_id shows member newer before isId⟩
          · rcases shows.newest row before with ⟨other, isOther, sameId, above⟩
            refine ⟨other, List.mem_append_left _ (List.mem_filter.mpr ⟨isOther, ?_⟩), sameId, above⟩
            rw [Bool.not_eq_true', decide_eq_false_iff_not, sameId]
            exact isId
        · rcases rows row isNew with ⟨_, isId, isVersion⟩
          exact ⟨_, live, isId.symm, Nat.le_of_eq isVersion⟩

/-! ## Runs -/

theorem applied_ids (contents : List (Entry C)) (operation : Operation C) :
    (applied contents operation).map Entry.id =
      contents.map Entry.id ++ storedIds [operation] := by
  cases operation with
  | store process entries =>
      rw [applied, storedIds, storedIds, List.append_nil, List.map_append, List.map_map]
      rfl
  | update process now id patch =>
      rw [applied, map_update_ids, storedIds, storedIds, List.append_nil]

theorem storedIds_cons (operation : Operation C) (operations : List (Operation C)) :
    storedIds (operation :: operations) = storedIds [operation] ++ storedIds operations := by
  cases operation with
  | store process entries =>
      rw [storedIds, storedIds, storedIds, List.append_nil]
  | update process now id patch => rfl

theorem perform_shows {database : Database C} {operation : Operation C}
    (shows : Shows contents database.rows)
    (fresh : (contents.map Entry.id ++ storedIds [operation]).Nodup) :
    Shows (applied contents operation) (perform database operation).rows := by
  cases operation with
  | store process entries =>
      refine store_shows database process entries shows ?_
      rw [Entry.DistinctIds]
      exact applied_ids contents (.store process entries) ▸ fresh
  | update process now id patch => exact update_shows database process now id patch shows

theorem run_shows {database : Database C} {operations : List (Operation C)}
    (shows : Shows contents database.rows)
    (fresh : (contents.map Entry.id ++ storedIds operations).Nodup) :
    Shows (operations.foldl applied contents) (run database operations).rows := by
  induction operations generalizing contents database with
  | nil => exact shows
  | cons operation operations inductionHypothesis =>
      rw [storedIds_cons, ← List.append_assoc] at fresh
      have performed := perform_shows shows ((List.sublist_append_left _ _).nodup fresh)
      rw [← applied_ids] at fresh
      exact inductionHypothesis performed fresh

theorem folded_ids (contents : List (Entry C)) (operations : List (Operation C)) :
    (operations.foldl applied contents).map Entry.id =
      contents.map Entry.id ++ storedIds operations := by
  induction operations generalizing contents with
  | nil => exact (List.append_nil _).symm
  | cons operation operations inductionHypothesis =>
      rw [List.foldl_cons, inductionHypothesis, applied_ids, storedIds_cons operation operations,
        List.append_assoc]

/-- Behind any stores of fresh identifiers and any updates, at any readings of the
clocks, a read with `FINAL` shows one row for each stored identifier: the stored
entry with its patches applied in order. -/
theorem final_eq_fold (operations : List (Operation C)) (fresh : (storedIds operations).Nodup) :
    ((Replacing.final (run Database.empty operations).rows).map Replacing.Versioned.value).Perm
        (operations.foldl applied []) ∧
      ((Replacing.final (run Database.empty operations).rows).map fun row => row.value.id).Perm
        (storedIds operations) := by
  have shown : ((Replacing.final (run Database.empty operations).rows).map
      Replacing.Versioned.value).Perm (operations.foldl applied []) :=
    (@run_shows C [] Database.empty operations empty_shows fresh).shown
  refine ⟨shown, ?_⟩
  have ids := shown.map Entry.id
  rw [folded_ids, List.map_map] at ids
  exact ids

/-- A patch that moves an entry away and one that brings it back, at a clock that
runs backwards. -/
theorem final_eq_fold_there_and_back :
    let away : Patch Text := { type := some ['j', 'o', 'b'] }
    let back : Patch Text := { type := some ['m', 'a', 'i', 'l'] }
    let operations : List (Operation Text) :=
      [.store 0 [(plainEntry ['a'] ['m', 'a', 'i', 'l'] 10, 9)], .update 0 5 ['a'] away,
        .update 1 3 ['a'] back]
    ((Replacing.final (run Database.empty operations).rows).map Replacing.Versioned.value).Perm
        (operations.foldl applied []) ∧
      ((Replacing.final (run Database.empty operations).rows).map fun row => row.value.id).Perm
        (storedIds operations) :=
  final_eq_fold _ (by decide)

end ClickHouse
end Telescope
