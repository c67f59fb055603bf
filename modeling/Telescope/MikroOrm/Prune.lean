import Telescope.Core.Retention
import Telescope.MikroOrm.Store

namespace Telescope
namespace MikroOrm

universe u

/-!
# The bounded prune

A scope that only excludes types is drained one type after the other, each from
its oldest row.  One call deletes a front of that drain, so it deletes the oldest
rows in scope exactly when no row of the front is newer than one behind it; the
limit and the flag hold in any case.
-/

variable {C : Type u} (collation : Collation)

/-! ## The types of a table -/

/-- The types behind the last one found. -/
def isBehind (previous : Option Text) (type : Text) : Bool :=
  previous.all fun previous => decide (collation.Below previous type)

variable {rows : List (Entry C)} {row : Entry C}

theorem nextType_eq_none {previous : Option Text} (isNone : nextType collation rows previous = none)
    (member : row ∈ rows) :
    isBehind collation previous row.type = false := by
  rw [nextType, List.head?_eq_none_iff] at isNone
  have empty := (List.perm_insertionSort (fun left right => ¬ collation.Below right left)
    ((rows.map Entry.type).filter (isBehind collation previous))).symm
  have nothing := List.filter_eq_nil_iff.mp (empty.trans (List.Perm.of_eq isNone)).eq_nil row.type
    (List.mem_map_of_mem member)
  exact Bool.eq_false_iff.mpr nothing

theorem nextType_eq_some {previous : Option Text} {next : Text}
    (isNext : nextType collation rows previous = some next) :
    (Exists fun row => row ∈ rows ∧ row.type = next) ∧ isBehind collation previous next = true ∧
      forall row, row ∈ rows -> isBehind collation previous row.type = true ->
        ¬ collation.Below row.type next := by
  rw [nextType] at isNext
  generalize foundEq : ((rows.map Entry.type).filter fun type => previous.all fun previous =>
    decide (collation.Below previous type)) = found at isNext
  have sorted := @Ranking.keyed_insertionSort Text Text collation.Below _ id found collation.asymm
    collation.trans collation.trichotomy (fun _ _ => True) (List.pairwise_of_forall fun _ _ => trivial)
  have perm := List.perm_insertionSort (fun left right => ¬ collation.Below right left) found
  rcases List.head?_eq_some_iff.mp isNext with ⟨rest, listed⟩
  simp only [id] at sorted
  rw [listed] at sorted perm
  have isFound : next ∈ found := perm.mem_iff.mp (List.mem_cons_self ..)
  rw [← foundEq] at isFound
  rcases List.mem_filter.mp isFound with ⟨present, behind⟩
  refine ⟨List.mem_map.mp present, behind, fun row member rowBehind => ?_⟩
  have rowFound : row.type ∈ found := by
    rw [← foundEq]
    exact List.mem_filter.mpr ⟨List.mem_map_of_mem member, rowBehind⟩
  rcases List.mem_cons.mp (perm.mem_iff.mpr rowFound) with same | later
  · intro below
    exact collation.asymm _ _ below (same ▸ below)
  · exact ((List.pairwise_cons.mp sorted).1 _ later).1

/-- The skip scan finds every type behind where it starts, in ascending order. -/
theorem distinctTypes_spec (rows : List (Entry C)) (fuel : Nat) (previous : Option Text)
    (enough : (rows.countP fun row => isBehind collation previous row.type) ≤ fuel) :
    (distinctTypes collation rows fuel previous).Pairwise collation.Below ∧
      forall type, type ∈ distinctTypes collation rows fuel previous <->
        isBehind collation previous type = true ∧ Exists fun row => row ∈ rows ∧ row.type = type := by
  induction fuel generalizing previous with
  | zero =>
      refine ⟨List.Pairwise.nil, fun type => iff_of_false List.not_mem_nil ?_⟩
      rintro ⟨behind, row, member, rfl⟩
      have none := List.countP_eq_zero.mp (Nat.le_zero.mp enough) row member
      exact none behind
  | succ fuel inductionHypothesis =>
      rw [distinctTypes]
      cases isNext : nextType collation rows previous with
      | none =>
          refine ⟨List.Pairwise.nil, fun type => iff_of_false List.not_mem_nil ?_⟩
          rintro ⟨behind, row, member, rfl⟩
          rw [nextType_eq_none collation isNext member] at behind
          exact Bool.false_ne_true behind
      | some next =>
          rcases nextType_eq_some collation isNext with ⟨⟨first, isRow, isType⟩, behind, least⟩
          have further : forall type, isBehind collation (some next) type = true ->
              isBehind collation previous type = true := by
            intro type above
            cases previous with
            | none => rfl
            | some previous =>
                exact decide_eq_true (collation.trans _ _ _ (of_decide_eq_true behind)
                  (of_decide_eq_true above))
          have notItself : isBehind collation (some next) next = false :=
            decide_eq_false fun below => collation.asymm _ _ below below
          have fewer : (rows.countP fun row => isBehind collation (some next) row.type) <
              rows.countP fun row => isBehind collation previous row.type :=
            Keyset.countP_lt_of_imp (fun row => further row.type) isRow (isType ▸ behind)
              (isType ▸ notItself)
          rcases inductionHypothesis (some next) (by omega) with ⟨ascending, members⟩
          refine ⟨List.pairwise_cons.mpr ⟨fun type member => ?_, ascending⟩, fun type => ?_⟩
          · exact of_decide_eq_true ((members type).mp member).1
          · rw [List.mem_cons, members]
            constructor
            · rintro (rfl | ⟨above, found⟩)
              · exact ⟨behind, first, isRow, isType⟩
              · exact ⟨further type above, found⟩
            · rintro ⟨isBehindPrevious, row, member, rfl⟩
              rcases collation.trichotomy next row.type with below | same | above
              · exact .inr ⟨decide_eq_true below, row, member, rfl⟩
              · exact .inl same.symm
              · exact (least row member isBehindPrevious above).elim

/-! ## The front of a drain -/

/-- Everything a condition selects, oldest first. -/
def drain (rows : List (Entry C)) (condition : Entry C -> Bool) : List (Entry C) :=
  collation.orderByOldest (rows.filter condition)

theorem drain_perm (rows : List (Entry C)) (condition : Entry C -> Bool) :
    (drain collation rows condition).Perm (rows.filter condition) :=
  collation.orderByOldest_perm _

theorem selection_take {listed : List (Entry C)} {condition : Entry C -> Bool} (distinct : Entry.DistinctIds rows)
    (perm : listed.Perm (rows.filter condition)) (limit : Nat) :
    Selection rows (listed.take limit) where
  subset := fun _ member => List.mem_of_mem_filter (perm.mem_iff.mp (List.mem_of_mem_take member))
  distinct := Entry.distinctIds_sublist (List.take_sublist limit listed)
    ((perm.map Entry.id).nodup_iff.mpr (Entry.distinctIds_sublist List.filter_sublist distinct))

theorem without_nil (rows : List (Entry C)) : without rows [] = rows :=
  List.filter_eq_self.mpr fun _ _ => decide_eq_true List.not_mem_nil

/-- What one call deletes: the front of a drain, as long as the limit allows. -/
structure DeletesFront (table : EntryTable C) (drained : List (Entry C)) (limit deleted : Nat)
    (outcome : EntryTable C × BoundedPruneResult) : Prop where
  rows : outcome.1.rows = without table.rows (drained.take limit)
  deleted : outcome.2.deleted = deleted + (drained.take limit).length
  hasMore : outcome.2.hasMore = decide (limit ≤ drained.length)

theorem pruneOldestBatch_spec (table : EntryTable C) (condition : Entry C -> Bool) {limit : Nat}
    (positive : 0 < limit) :
    DeletesFront table (drain collation table.rows condition) limit 0
      (pruneOldestBatch collation table condition limit) := by
  have selection := selection_take table.distinct (drain_perm collation table.rows condition) limit
  rcases table.deleteWhere_selection selection with ⟨rows, deleted⟩
  have size : ((drain collation table.rows condition).take limit).length =
      min limit (drain collation table.rows condition).length := List.length_take
  unfold pruneOldestBatch
  dsimp only
  rw [← drain]
  by_cases nothing : ((drain collation table.rows condition).take limit).length = 0
  · rw [if_pos nothing]
    refine ⟨?_, ?_, ?_⟩
    · rw [List.length_eq_zero_iff.mp nothing, without_nil]
    · rw [nothing]
    · exact (decide_eq_false (by omega)).symm
  · rw [if_neg nothing]
    refine ⟨rows, ?_, ?_⟩
    · rw [Nat.zero_add]
      exact deleted
    · exact decide_eq_decide.mpr (by omega)

/-- The rows of a type, as the loop selects them. -/
def ofType (before : Int) (type : Text) : Entry C -> Bool :=
  scopedWhere { before := before, type := some type }

theorem ofType_iff {before : Int} {type : Text} :
    ofType before type row = true <-> row.createdAt < before ∧ row.type = type := by
  rw [ofType, scopedWhere, Bool.and_eq_true, decide_eq_true_eq, decide_eq_true_eq]

/-- The drains of some types, one behind the other. -/
def drainTypes (rows : List (Entry C)) (before : Int) (types : List Text) : List (Entry C) :=
  types.flatMap fun type => drain collation rows (ofType before type)

/-- Deleting rows of one type leaves the drains of the others. -/
theorem drainTypes_without {gone : List (Entry C)} (distinct : Entry.DistinctIds rows) (selection : Selection rows gone)
    {before : Int} {type : Text} (typed : forall row, row ∈ gone -> row.type = type) {types : List Text}
    (absent : type ∉ types) :
    drainTypes collation (without rows gone) before types = drainTypes collation rows before types := by
  rw [drainTypes, drainTypes]
  refine List.flatMap_congr fun other member => ?_
  have same : (without rows gone).filter (ofType before other) =
      rows.filter (ofType before other) := by
    rw [without, List.filter_filter]
    refine List.filter_congr fun row stored => ?_
    by_cases selected : ofType before other row = true
    · have isType := (ofType_iff.mp selected).2
      have stays : row.id ∉ gone.map Entry.id := fun id =>
        absent (typed row (selection.mem_of_id distinct stored id) ▸ isType ▸ member)
      rw [selected, decide_eq_true stays, Bool.true_and]
    · rw [Bool.not_eq_true] at selected
      rw [selected, Bool.false_and]
  rw [drain, same, drain]

theorem pruneTypes_spec (input : BoundedPruneScope) (excluded : List Text) {types : List Text}
    (distinct : types.Nodup) (table : EntryTable C) {deleted : Nat} (room : deleted < input.limit) :
    DeletesFront table
      (drainTypes collation table.rows input.before (types.filter fun type => !decide (type ∈ excluded)))
      (input.limit - deleted) deleted
      (pruneTypes collation input excluded types table deleted) := by
  induction types generalizing table deleted with
  | nil =>
      have nothing : drainTypes collation table.rows input.before
          (([] : List Text).filter fun type => !decide (type ∈ excluded)) = [] := rfl
      rw [nothing]
      refine ⟨?_, ?_, ?_⟩
      · rw [List.take_nil, without_nil]
        rfl
      · rw [List.take_nil]
        rfl
      · refine (decide_eq_false ?_).symm
        rw [List.length_nil]
        omega
  | cons type types inductionHypothesis =>
      rcases List.nodup_cons.mp distinct with ⟨fresh, rest⟩
      rw [pruneTypes]
      by_cases isExcluded : type ∈ excluded
      · rw [if_pos isExcluded, List.filter_cons, if_neg (by rw [decide_eq_true isExcluded]; decide)]
        exact inductionHypothesis rest table room
      · rw [if_neg isExcluded, List.filter_cons, if_pos (by rw [decide_eq_false isExcluded]; rfl)]
        have positive : 0 < input.limit - deleted := by omega
        have batch := pruneOldestBatch_spec collation table (ofType input.before type) positive
        have perm := drain_perm collation table.rows (ofType input.before type)
        rw [← ofType]
        generalize pruneOldestBatch collation table (ofType input.before type)
          (input.limit - deleted) = outcome at batch
        have split : drainTypes collation table.rows input.before
            (type :: types.filter fun type => !decide (type ∈ excluded)) =
          drain collation table.rows (ofType input.before type) ++
            drainTypes collation table.rows input.before
              (types.filter fun type => !decide (type ∈ excluded)) := List.flatMap_cons
        rw [split]
        have counted := batch.deleted
        rw [Nat.zero_add] at counted
        by_cases full : input.limit - deleted ≤
            (drain collation table.rows (ofType input.before type)).length
        · have more := batch.hasMore.trans (decide_eq_true full)
          dsimp only
          rw [if_pos more]
          refine ⟨?_, ?_, ?_⟩
          · rw [List.take_append_of_le_length full]
            exact batch.rows
          · rw [List.take_append_of_le_length full]
            exact congrArg (deleted + ·) counted
          · refine (decide_eq_true ?_).symm
            rw [List.length_append]
            omega
        · have more := batch.hasMore.trans (decide_eq_false full)
          dsimp only
          rw [if_neg (by rw [more]; exact Bool.false_ne_true)]
          have whole := List.take_of_length_le (Nat.le_of_not_le full)
          have rows := batch.rows
          rw [whole] at counted rows
          have selection := selection_take table.distinct perm (input.limit - deleted)
          rw [whole] at selection
          have typed : forall row, row ∈ drain collation table.rows (ofType input.before type) ->
              row.type = type := fun row member =>
            (ofType_iff.mp (List.mem_filter.mp (perm.mem_iff.mp member)).2).2
          have absent : type ∉ types.filter fun type => !decide (type ∈ excluded) :=
            fun found => fresh (List.mem_of_mem_filter found)
          have left := @drainTypes_without C collation _ _ table.distinct selection input.before type
            typed _ absent
          have room' : deleted + outcome.2.deleted < input.limit := by omega
          have next := inductionHypothesis rest outcome.1 room'
          rw [rows, left] at next
          have remaining : input.limit - (deleted + outcome.2.deleted) = input.limit - deleted -
              (drain collation table.rows (ofType input.before type)).length := by omega
          rw [remaining] at next
          refine ⟨?_, ?_, ?_⟩
          · rw [next.rows, rows, without_without, List.take_append, whole]
          · rw [next.deleted, List.take_append, whole, List.length_append, counted, Nat.add_assoc]
          · rw [next.hasMore, List.length_append]
            exact decide_eq_decide.mpr (by omega)

/-! ## The order of a drain -/

/-- Of an earlier type, or of the same type and older. -/
def DrainsBefore (left right : Entry C) : Prop :=
  collation.Below left.type right.type ∨
    (left.type = right.type ∧ collation.Older left.position right.position)

instance (left right : Entry C) : Decidable (DrainsBefore collation left right) :=
  inferInstanceAs (Decidable (_ ∨ _))

theorem drainsBefore_asymm (left right : Entry C) (before : DrainsBefore collation left right) :
    ¬ DrainsBefore collation right left := by
  rcases before with below | ⟨same, older⟩
  · rintro (above | ⟨same, _⟩)
    · exact collation.asymm _ _ below above
    · rw [same] at below
      exact collation.asymm _ _ below below
  · rintro (above | ⟨_, newer⟩)
    · rw [same] at above
      exact collation.asymm _ _ above above
    · exact collation.older_asymm _ _ older newer

theorem drain_sorted (distinct : Entry.DistinctIds rows) (condition : Entry C -> Bool) :
    (drain collation rows condition).Pairwise fun left right =>
      collation.Older left.position right.position :=
  collation.orderByOldest_sorted (Entry.distinctIds_sublist List.filter_sublist distinct)

theorem mem_drain_ofType {before : Int} {type : Text} :
    row ∈ drain collation rows (ofType before type) <->
      row ∈ rows ∧ row.createdAt < before ∧ row.type = type := by
  rw [(drain_perm collation rows _).mem_iff, List.mem_filter, ofType_iff]

theorem drainTypes_sorted (distinct : Entry.DistinctIds rows) (before : Int) {types : List Text}
    (ascending : types.Pairwise collation.Below) :
    (drainTypes collation rows before types).Pairwise (DrainsBefore collation) := by
  refine List.pairwise_flatMap.mpr ⟨fun type _ => ?_, ascending.imp fun {first second} below => ?_⟩
  · refine (drain_sorted collation distinct _).imp_of_mem fun {left right} isLeft isRight older => ?_
    have leftType := ((mem_drain_ofType collation).mp isLeft).2.2
    have rightType := ((mem_drain_ofType collation).mp isRight).2.2
    exact .inr ⟨leftType.trans rightType.symm, older⟩
  · intro left isLeft right isRight
    rcases (mem_drain_ofType collation).mp isLeft with ⟨_, _, rfl⟩
    rcases (mem_drain_ofType collation).mp isRight with ⟨_, _, rfl⟩
    exact .inl below

/-! ## One call -/

/-- All types but some, when there are some: the call drains type by type. -/
def DrainsByType (input : TypeScope) : Prop :=
  input.type = none ∧ input.excludeTypes.getD [] ≠ []

instance (input : TypeScope) : Decidable (DrainsByType input) :=
  inferInstanceAs (Decidable (_ ∧ _))

/-- What a call drains, without its limit. -/
def drained (rows : List (Entry C)) (input : TypeScope) : List (Entry C) :=
  if DrainsByType input then
    drainTypes collation rows input.before
      ((distinctTypes collation rows rows.length none).filter fun type =>
        !decide (type ∈ input.excludeTypes.getD []))
  else drain collation rows (scopedWhere input)

theorem drainsByType_iff {input : TypeScope} :
    DrainsByType input <-> ¬ (input.type.isSome ∨ (input.excludeTypes.getD []).length = 0) := by
  rw [DrainsByType, not_or, Option.not_isSome_iff_eq_none, List.length_eq_zero_iff]

/-- The skip scan over the whole table. -/
theorem distinctTypes_all (rows : List (Entry C)) :
    (distinctTypes collation rows rows.length none).Pairwise collation.Below ∧
      forall type, type ∈ distinctTypes collation rows rows.length none <->
        Exists fun row => row ∈ rows ∧ row.type = type := by
  rcases distinctTypes_spec collation rows rows.length none List.countP_le_length with
    ⟨ascending, members⟩
  refine ⟨ascending, fun type => (members type).trans (and_iff_right ?_)⟩
  rfl

theorem pruneScopedBatch_front (table : EntryTable C) (input : BoundedPruneScope)
    (positive : 0 < input.limit) :
    DeletesFront table (drained collation table.rows input.toTypeScope) input.limit 0
      (pruneScopedBatch collation table input) := by
  rw [pruneScopedBatch, drained]
  by_cases byType : DrainsByType input.toTypeScope
  · rw [if_neg (drainsByType_iff.mp byType), if_pos byType]
    have distinct := (distinctTypes_all collation table.rows).1.imp
      fun {first second} (below : collation.Below first second) (same : first = second) =>
        collation.asymm _ _ below (same ▸ below)
    exact pruneTypes_spec collation input _ distinct table positive
  · rw [if_pos (not_not.mp fun whole => byType (drainsByType_iff.mpr whole)), if_neg byType]
    exact pruneOldestBatch_spec collation table _ positive

theorem scopedWhere_iff {input : TypeScope} :
    scopedWhere input row = true <-> input.InScope row := by
  rcases input with ⟨before, type, excludeTypes⟩
  rw [scopedWhere, Bool.and_eq_true, decide_eq_true_eq, TypeScope.InScope]
  refine and_congr_right fun _ => ?_
  cases type with
  | some selected => exact decide_eq_true_iff
  | none =>
      cases excludeTypes with
      | none => exact iff_of_true rfl List.not_mem_nil
      | some excluded =>
          cases excluded with
          | nil => exact iff_of_true rfl List.not_mem_nil
          | cons first excluded =>
              change (!decide (row.type ∈ first :: excluded)) = true <-> row.type ∉ first :: excluded
              rw [Bool.not_eq_true', decide_eq_false_iff_not]

/-- A call drains the rows in scope, each once. -/
theorem drained_perm (distinct : Entry.DistinctIds rows) (input : TypeScope) :
    (drained collation rows input).Perm (rows.filter fun row => decide (input.InScope row)) := by
  rw [drained]
  by_cases byType : DrainsByType input
  · rw [if_pos byType]
    rcases distinctTypes_all collation rows with ⟨ascending, members⟩
    have sorted := drainTypes_sorted collation distinct input.before (ascending.filter fun type =>
      !decide (type ∈ input.excludeTypes.getD []))
    refine (List.perm_ext_iff_of_nodup ?_ ((List.Nodup.of_map _ distinct).filter _)).mpr fun row => ?_
    · refine sorted.imp fun {left right} before same => ?_
      subst same
      exact drainsBefore_asymm collation left left before before
    · rw [drainTypes, List.mem_flatMap, List.mem_filter, decide_eq_true_eq, TypeScope.InScope,
        TypeScope.Selects, byType.1]
      constructor
      · rintro ⟨type, found, isDrained⟩
        rcases (mem_drain_ofType collation).mp isDrained with ⟨member, old, rfl⟩
        have spared := (List.mem_filter.mp found).2
        rw [Bool.not_eq_true', decide_eq_false_iff_not] at spared
        exact ⟨member, old, spared⟩
      · rintro ⟨member, old, spared⟩
        refine ⟨row.type, List.mem_filter.mpr ⟨(members row.type).mpr ⟨row, member, rfl⟩, ?_⟩,
          (mem_drain_ofType collation).mpr ⟨member, old, rfl⟩⟩
        rw [Bool.not_eq_true', decide_eq_false_iff_not]
        exact spared
  · rw [if_neg byType]
    refine (drain_perm collation rows _).trans (List.Perm.of_eq (List.filter_congr fun row _ => ?_))
    rw [Bool.eq_iff_iff, decide_eq_true_eq, scopedWhere_iff]

/-! ## Oldest first -/

/-- What the interface asks of one call, `gone` being the rows it deletes. -/
structure PrunesOldest (table : EntryTable C) (input : BoundedPruneScope)
    (outcome : EntryTable C × BoundedPruneResult) (gone : List (Entry C)) : Prop where
  selection : Selection table.rows gone
  rows : outcome.1.rows = without table.rows gone
  deleted : outcome.2.deleted = gone.length
  inScope : forall row, row ∈ gone -> input.InScope row
  count : gone.length = min input.limit (table.rows.countP fun row => decide (input.InScope row))
  oldest : forall row, row ∈ gone -> forall other, other ∈ without table.rows gone ->
    input.InScope other -> row.createdAt ≤ other.createdAt
  complete : outcome.2.hasMore = false ->
    forall row, row ∈ table.rows -> input.InScope row -> row ∈ gone

/-- No row of an earlier type takes the place of an older row of a later type:
where both are in scope and the newer one is among the first `limit` of the
drain, so is the older one. -/
def NoneOvertakes (rows : List (Entry C)) (input : BoundedPruneScope) : Prop :=
  DrainsByType input.toTypeScope -> forall older, older ∈ rows -> forall newer, newer ∈ rows ->
    input.InScope older -> input.InScope newer -> older.createdAt < newer.createdAt ->
    collation.Below newer.type older.type ->
    Ranking.rank (DrainsBefore collation) (rows.filter fun row => decide (input.InScope row)) newer <
      input.limit ->
    Ranking.rank (DrainsBefore collation) (rows.filter fun row => decide (input.InScope row)) older <
      input.limit

instance (rows : List (Entry C)) (input : BoundedPruneScope) :
    Decidable (NoneOvertakes collation rows input) :=
  inferInstanceAs (Decidable (_ -> forall older, older ∈ rows -> _))

/-- The rows in scope behind the front are those that survive. -/
theorem mem_drop_drained (distinct : Entry.DistinctIds rows) (input : TypeScope) (limit : Nat) :
    row ∈ (drained collation rows input).drop limit <->
      row ∈ without rows ((drained collation rows input).take limit) ∧ input.InScope row := by
  have perm := drained_perm collation distinct input
  have selection := selection_take distinct perm limit
  have listed : row ∈ drained collation rows input <-> row ∈ rows ∧ input.InScope row := by
    rw [perm.mem_iff, List.mem_filter, decide_eq_true_eq]
  have nodup : (drained collation rows input).Nodup :=
    perm.nodup_iff.mpr ((List.Nodup.of_map _ distinct).filter _)
  rw [mem_without]
  constructor
  · intro back
    rcases listed.mp (List.mem_of_mem_drop back) with ⟨member, inScope⟩
    refine ⟨⟨member, fun id => ?_⟩, inScope⟩
    exact List.disjoint_take_drop nodup (Nat.le_refl limit)
      (selection.mem_of_id distinct member id) back
  · rintro ⟨⟨member, stays⟩, inScope⟩
    have found := listed.mpr ⟨member, inScope⟩
    rw [← List.take_append_drop limit (drained collation rows input)] at found
    exact (List.mem_append.mp found).resolve_left fun front => stays (List.mem_map_of_mem front)

/-- The front of a drain is the oldest in scope exactly when none overtakes. -/
theorem oldest_front_iff (distinct : Entry.DistinctIds rows) (input : BoundedPruneScope) :
    (forall row, row ∈ (drained collation rows input.toTypeScope).take input.limit ->
        forall other, other ∈ (drained collation rows input.toTypeScope).drop input.limit ->
          row.createdAt ≤ other.createdAt) <->
      NoneOvertakes collation rows input := by
  have perm := drained_perm collation distinct input.toTypeScope
  by_cases byType : DrainsByType input.toTypeScope
  · have ascending := (distinctTypes_all collation rows).1.filter fun type =>
      !decide (type ∈ input.excludeTypes.getD [])
    have sorted := drainTypes_sorted collation distinct input.before ascending
    rw [drained, if_pos byType] at perm ⊢
    refine (Ranking.front_least_iff (drainsBefore_asymm collation) sorted perm input.limit).trans ?_
    simp only [List.mem_filter, decide_eq_true_eq]
    constructor
    · intro passes _ older isOlder newer isNewer olderInScope newerInScope less below
      exact passes older newer ⟨isOlder, olderInScope⟩ ⟨isNewer, newerInScope⟩ less (.inl below)
    · rintro passes older newer ⟨isOlder, olderInScope⟩ ⟨isNewer, newerInScope⟩ less before
      refine passes byType older isOlder newer isNewer olderInScope newerInScope less ?_
      rcases before with below | ⟨_, first | ⟨same, _⟩⟩
      · exact below
      · exact (lt_asymm less first).elim
      · exact (less.ne' same).elim
  · refine iff_of_true ?_ fun types => (byType types).elim
    intro row front other back
    have sorted := drain_sorted collation distinct (scopedWhere input.toTypeScope)
    rw [drained, if_neg byType] at front back
    rw [← List.take_append_drop input.limit (drain collation rows _)] at sorted
    rcases (List.pairwise_append.mp sorted).2.2 row front other back with older | ⟨same, _⟩
    · exact Int.le_of_lt older
    · exact Int.le_of_eq same

/-- One call deletes the oldest rows in scope exactly when none overtakes. -/
theorem pruneScopedBatch_oldest_iff (table : EntryTable C) (input : BoundedPruneScope)
    (positive : 1 ≤ input.limit) :
    (Exists fun gone => PrunesOldest table input (pruneScopedBatch collation table input) gone) <->
      NoneOvertakes collation table.rows input := by
  have front := pruneScopedBatch_front collation table input positive
  have perm := drained_perm collation table.distinct input.toTypeScope
  have selection := selection_take table.distinct perm input.limit
  have survivors := fun row =>
    @mem_drop_drained C collation _ row table.distinct input.toTypeScope input.limit
  rw [← oldest_front_iff collation table.distinct]
  constructor
  · rintro ⟨gone, prunes⟩ row isFront other isBack
    have same := (without_eq_iff table.distinct prunes.selection selection).mp
      (prunes.rows.symm.trans front.rows)
    rcases (survivors other).mp isBack with ⟨stays, inScope⟩
    rw [← (without_eq_iff table.distinct prunes.selection selection).mpr same] at stays
    exact prunes.oldest row (same.mem_iff.mpr isFront) other stays inScope
  · intro least
    refine ⟨_, selection, front.rows, ?_, ?_, ?_, ?_, ?_⟩
    · rw [front.deleted, Nat.zero_add]
    · intro row isFront
      have found := List.mem_filter.mp (perm.mem_iff.mp (List.mem_of_mem_take isFront))
      exact of_decide_eq_true found.2
    · rw [List.length_take, perm.length_eq, List.countP_eq_length_filter]
    · intro row isFront other stays inScope
      exact least row isFront other ((survivors other).mpr ⟨stays, inScope⟩)
    · intro noMore row member inScope
      have short : (drained collation table.rows input.toTypeScope).length < input.limit := by
        rw [front.hasMore, decide_eq_false_iff_not] at noMore
        exact Nat.lt_of_not_le noMore
      rw [List.take_of_length_le (Nat.le_of_lt short), perm.mem_iff]
      exact List.mem_filter.mpr ⟨member, decide_eq_true inScope⟩

/-- Everything but logs, one row per call. -/
def exceptLogs : BoundedPruneScope where
  before := 100
  excludeTypes := some [['l', 'o', 'g']]
  limit := 1

/-- The mail is as old as the job. -/
def jobAndMail : EntryTable Text :=
  ⟨[plainEntry ['a'] ['j', 'o', 'b'] 10, plainEntry ['b'] ['m', 'a', 'i', 'l'] 10], by decide⟩

theorem pruneScopedBatch_oldest_jobAndMail :
    Exists fun gone => PrunesOldest jobAndMail exceptLogs
      (pruneScopedBatch Collation.bytes jobAndMail exceptLogs) gone :=
  (pruneScopedBatch_oldest_iff Collation.bytes jobAndMail exceptLogs (by decide)).mpr (by decide)

/-- The job is newer, and its type comes first. -/
def jobBehindMail : EntryTable Text :=
  ⟨[plainEntry ['a'] ['j', 'o', 'b'] 20, plainEntry ['b'] ['m', 'a', 'i', 'l'] 10], by decide⟩

/-- The call deletes the job and spares the mail. -/
theorem newerJob_goesFirst :
    ¬ forall (table : EntryTable Text) (input : BoundedPruneScope), 1 ≤ input.limit ->
      Exists fun gone => PrunesOldest table input
        (pruneScopedBatch Collation.bytes table input) gone := by
  intro always
  rcases always jobBehindMail exceptLogs (by decide) with ⟨gone, prunes⟩
  have rows : without jobBehindMail.rows gone = [plainEntry ['b'] ['m', 'a', 'i', 'l'] 10] :=
    prunes.rows.symm.trans (by decide)
  have mailStays : plainEntry ['b'] ['m', 'a', 'i', 'l'] 10 ∈ without jobBehindMail.rows gone :=
    rows ▸ List.mem_cons_self ..
  have jobStored : plainEntry ['a'] ['j', 'o', 'b'] 20 ∈ jobBehindMail.rows :=
    List.mem_cons_self ..
  have jobGone : plainEntry ['a'] ['j', 'o', 'b'] 20 ∈ gone := by
    refine prunes.selection.mem_of_id jobBehindMail.distinct jobStored ?_
    by_contra jobStays
    have stays := mem_without.mpr ⟨jobStored, jobStays⟩
    rw [rows] at stays
    exact absurd stays (by decide)
  exact absurd (prunes.oldest _ jobGone _ mailStays (by decide)) (by decide)

end MikroOrm
end Telescope
