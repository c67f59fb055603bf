import Telescope.InMemory.Store

namespace Telescope
namespace InMemory

universe u v

/-!
# The array stays in order

Every operation leaves the array in the order of its own comparator, by instant
and then by `localeCompare`, and brings no identifier into it that was not
stored.  Entries stored under distinct identifiers stay distinct.
-/

variable {C : Type u} (locale : Locale)

/-- The order of the array, on positions. -/
def NotAfter (left right : Position) : Prop :=
  left.createdAt < right.createdAt ∨
    (left.createdAt = right.createdAt ∧ locale.localeCompare left.id right.id ≤ 0)

theorem newestFirst_le_iff (a b : Entry C) :
    newestFirst locale a b ≤ 0 <-> NotAfter locale b.position a.position := by
  unfold newestFirst NotAfter
  by_cases same : b.createdAt - a.createdAt = 0
  · have instant : b.createdAt = a.createdAt := by omega
    rw [if_neg (not_not.mpr same)]
    simp only [Entry.position, instant, lt_irrefl, false_or, true_and]
  · rw [if_pos same]
    simp only [Entry.position]
    omega

theorem oldestFirst_le_iff (a b : Entry C) :
    oldestFirst locale a b ≤ 0 <-> NotAfter locale a.position b.position := by
  rw [oldestFirst, Int.neg_nonpos_iff, newestFirst, NotAfter]
  by_cases same : b.createdAt - a.createdAt = 0
  · have instant : b.createdAt = a.createdAt := by omega
    rw [if_neg (not_not.mpr same), locale.swap]
    simp only [Entry.position, instant, lt_irrefl, false_or, true_and]
  · rw [if_pos same]
    simp only [Entry.position]
    omega

theorem notAfter_trans {first second third : Position} (left : NotAfter locale first second)
    (right : NotAfter locale second third) : NotAfter locale first third := by
  rcases left with before | ⟨same, notAfter⟩
  · rcases right with later | ⟨instant, _⟩
    · exact .inl (lt_trans before later)
    · exact .inl (instant ▸ before)
  · rcases right with later | ⟨instant, stillNotAfter⟩
    · exact .inl (same ▸ later)
    · exact .inr ⟨same.trans instant, locale.trans _ _ _ notAfter stillNotAfter⟩

theorem notAfter_total (left right : Position) :
    NotAfter locale left right ∨ NotAfter locale right left := by
  rcases lt_trichotomy left.createdAt right.createdAt with before | same | after
  · exact .inl (.inl before)
  · rcases Int.le_total 0 (locale.localeCompare left.id right.id) with large | small
    · exact .inr (.inr ⟨same.symm, (locale.swap _ _).mp large⟩)
    · exact .inl (.inr ⟨same, small⟩)
  · exact .inr (.inl after)

/-- The array is in the order of its comparator. -/
def Ordered (entries : List (Entry C)) : Prop :=
  (entries.map Entry.position).Pairwise (NotAfter locale)

variable {locale}

variable {entries : List (Entry C)}

theorem Ordered.sublist {rest : List (Entry C)} (ordered : Ordered locale entries) (sublist : rest.Sublist entries) :
    Ordered locale rest :=
  List.Pairwise.sublist (sublist.map Entry.position) ordered

/-- Instants never decrease along the array. -/
theorem Ordered.instants (ordered : Ordered locale entries) :
    entries.Pairwise fun earlier later => earlier.createdAt ≤ later.createdAt :=
  (List.pairwise_map.mp ordered).imp fun notAfter => notAfter.elim le_of_lt fun same => same.1.le

/-! ## Insertion -/

theorem insertSorted_perm (entries : List (Entry C)) (entry : Entry C) :
    (insertSorted locale entries entry).Perm (entry :: entries) := by
  unfold insertSorted
  split
  · exact List.perm_append_comm
  · split
    · exact List.perm_append_comm
    · refine List.perm_middle.trans ?_
      rw [List.take_append_drop]

/-- The fast path appends where the search would have ended as well. -/
theorem insertSorted_eq (ordered : Ordered locale entries) (entry : Entry C) :
    insertSorted locale entries entry =
      (entries.filter fun candidate => decide (oldestFirst locale candidate entry ≤ 0)) ++
        entry :: entries.filter fun candidate => !decide (oldestFirst locale candidate entry ≤ 0) := by
  have closed : entries.Pairwise fun earlier later =>
      decide (oldestFirst locale later entry ≤ 0) = true ->
        decide (oldestFirst locale earlier entry ≤ 0) = true := by
    refine (List.pairwise_map.mp ordered).imp fun {earlier later} notAfter passes => ?_
    rw [decide_eq_true_eq, oldestFirst_le_iff] at passes ⊢
    exact notAfter_trans locale notAfter passes
  unfold insertSorted
  cases isLast : entries.getLast? with
  | none =>
      rw [List.getLast?_eq_none_iff] at isLast
      subst isLast
      rfl
  | some last =>
      by_cases appends : oldestFirst locale last entry ≤ 0
      · have all : forall candidate, candidate ∈ entries ->
            decide (oldestFirst locale candidate entry ≤ 0) = true := by
          rcases List.getLast?_eq_some_iff.mp isLast with ⟨front, rfl⟩
          intro candidate member
          rcases List.mem_append.mp member with inFront | isIt
          · exact (List.pairwise_append.mp closed).2.2 candidate inFront last
              (List.mem_singleton_self last) (decide_eq_true appends)
          · cases List.mem_singleton.mp isIt
            exact decide_eq_true appends
        have none : entries.filter
            (fun candidate => !decide (oldestFirst locale candidate entry ≤ 0)) = [] := by
          refine List.filter_eq_nil_iff.mpr fun candidate member => ?_
          rw [all candidate member, Bool.not_true]
          exact Bool.false_ne_true
        simp only [if_pos appends]
        rw [List.filter_eq_self.mpr all, none]
      · simp only [if_neg appends]
        rw [take_frontLength closed, drop_frontLength closed]

theorem insertSorted_ordered (ordered : Ordered locale entries) (entry : Entry C) :
    Ordered locale (insertSorted locale entries entry) := by
  have pairs := List.pairwise_map.mp ordered
  rw [insertSorted_eq ordered]
  refine List.pairwise_map.mpr (List.pairwise_append.mpr ⟨pairs.filter _, ?_, ?_⟩)
  · refine List.pairwise_cons.mpr ⟨fun later member => ?_, pairs.filter _⟩
    have fails := (List.mem_filter.mp member).2
    rw [Bool.not_eq_true', decide_eq_false_iff_not, oldestFirst_le_iff] at fails
    exact (notAfter_total locale _ _).resolve_right fails
  · intro earlier member later found
    have passes := (List.mem_filter.mp member).2
    rw [decide_eq_true_eq, oldestFirst_le_iff] at passes
    rcases List.mem_cons.mp found with rfl | isLater
    · exact passes
    · have fails := (List.mem_filter.mp isLater).2
      rw [Bool.not_eq_true', decide_eq_false_iff_not, oldestFirst_le_iff] at fails
      exact notAfter_trans locale passes ((notAfter_total locale _ _).resolve_right fails)

theorem store_perm (locale : Locale) (provider : Provider C) (entries : List (Entry C)) :
    (store locale provider entries).entries.Perm (provider.entries ++ entries) := by
  unfold store
  induction entries generalizing provider with
  | nil =>
      rw [List.foldl_nil, List.append_nil]
  | cons entry entries inductionHypothesis =>
      have first := inductionHypothesis
        { provider with entries := insertSorted locale provider.entries entry }
      rw [List.foldl_cons]
      refine first.trans (((insertSorted_perm provider.entries entry).append_right entries).trans ?_)
      exact List.perm_middle.symm

variable {provider : Provider C}

theorem store_ordered (ordered : Ordered locale provider.entries) (entries : List (Entry C)) :
    Ordered locale (store locale provider entries).entries := by
  unfold store
  induction entries generalizing provider with
  | nil => exact ordered
  | cons entry entries inductionHypothesis =>
      have first : Ordered locale { provider with
          entries := insertSorted locale provider.entries entry }.entries :=
        insertSorted_ordered ordered entry
      exact inductionHypothesis first

/-! ## Updates -/

/-- All an update can do. -/
theorem update_cases (locale : Locale) (provider : Provider C) (id : Text) (patch : Patch C) :
    update locale provider id patch = provider ∨
      Exists fun index => Exists fun existing =>
        provider.entries[index]? = some existing ∧ existing.id = id ∧
          ((patch.apply existing).createdAt = existing.createdAt ∧
              update locale provider id patch =
                { provider with entries := provider.entries.set index (patch.apply existing) } ∨
            update locale provider id patch =
              { provider with
                entries := insertSorted locale (provider.entries.eraseIdx index)
                  (patch.apply existing) }) := by
  unfold update
  cases found : provider.entries.findIdx? fun entry => decide (entry.id = id) with
  | none => exact .inl rfl
  | some index =>
      rcases List.findIdx?_eq_some_iff_getElem.mp found with ⟨inside, isIt, _⟩
      have present : provider.entries[index]? = some (provider.entries.get ⟨index, inside⟩) :=
        List.getElem?_eq_getElem inside
      refine .inr ⟨index, provider.entries.get ⟨index, inside⟩, present, of_decide_eq_true isIt, ?_⟩
      simp only [present]
      by_cases sameInstant : (patch.apply (provider.entries.get ⟨index, inside⟩)).createdAt =
          (provider.entries.get ⟨index, inside⟩).createdAt
      · exact .inl ⟨sameInstant, if_pos sameInstant⟩
      · exact .inr (if_neg sameInstant)

/-- Putting an entry in the place of another changes nothing where they agree. -/
theorem map_set_of_eq {β : Type v} {place : Entry C -> β} {index : Nat} {existing updated : Entry C}
    (found : entries[index]? = some existing) (same : place updated = place existing) :
    (entries.set index updated).map place = entries.map place := by
  rcases List.getElem?_eq_some_iff.mp found with ⟨inside, rfl⟩
  rw [List.map_set, same, ← List.map_set, List.set_getElem_self]

theorem update_ordered (ordered : Ordered locale provider.entries) (id : Text) (patch : Patch C) :
    Ordered locale (update locale provider id patch).entries := by
  rcases update_cases locale provider id patch with
    same | ⟨index, existing, found, _, ⟨sameInstant, inPlace⟩ | moved⟩
  · rwa [same]
  · have place : (patch.apply existing).position = existing.position :=
      congrArg (Position.mk · existing.id) sameInstant
    rw [Ordered, congrArg Provider.entries inPlace, map_set_of_eq found place]
    exact ordered
  · rw [moved]
    exact insertSorted_ordered (ordered.sublist (List.eraseIdx_sublist _ _)) _

theorem update_ids (provider : Provider C) (id : Text) (patch : Patch C) :
    ((update locale provider id patch).entries.map Entry.id).Perm (provider.entries.map Entry.id) := by
  rcases update_cases locale provider id patch with
    same | ⟨index, existing, found, _, ⟨_, inPlace⟩ | moved⟩
  · rw [same]
  · have sameId : (patch.apply existing).id = existing.id := rfl
    rw [congrArg Provider.entries inPlace, map_set_of_eq found sameId]
  · rcases List.getElem?_eq_some_iff.mp found with ⟨inside, rfl⟩
    rw [moved]
    refine ((insertSorted_perm _ _).map Entry.id).trans ?_
    exact (List.getElem_cons_eraseIdx_perm inside).map Entry.id

/-! ## Pruning -/

theorem pruneWhere_sublist (locale : Locale) (provider : Provider C) (inScope : Entry C -> Bool)
    (keepLast : Option Int) :
    (pruneWhere locale provider inScope keepLast).1.entries.Sublist provider.entries := by
  unfold pruneWhere
  cases keepLast with
  | none => exact List.filter_sublist
  | some keepLast =>
      dsimp only
      split
      · exact List.filter_sublist
      · exact List.filter_sublist

theorem pruneScopedBatch_sublist (locale : Locale) (provider : Provider C)
    (input : BoundedPruneScope) :
    (pruneScopedBatch locale provider input).1.entries.Sublist provider.entries := by
  unfold pruneScopedBatch
  dsimp only
  split
  · exact List.Sublist.refl _
  · exact List.filter_sublist

/-! ## Runs -/

inductive Operation (C : Type u)
  | store (entries : List (Entry C))
  | update (id : Text) (patch : Patch C)
  | prune (olderThan : Int) (keepLast : Option Int)
  | pruneScoped (input : PruneScope)
  | pruneScopedBatch (input : BoundedPruneScope)
  | clear

def perform (locale : Locale) (provider : Provider C) : Operation C -> Provider C
  | .store entries => store locale provider entries
  | .update id patch => update locale provider id patch
  | .prune olderThan keepLast => (prune locale provider olderThan keepLast).1
  | .pruneScoped input => (pruneScoped locale provider input).1
  | .pruneScopedBatch input => (pruneScopedBatch locale provider input).1
  | .clear => clear provider

/-- The identifiers an operation brings. -/
def Operation.storedIds : Operation C -> List Text
  | .store entries => entries.map Entry.id
  | _ => []

def run (locale : Locale) (provider : Provider C) (operations : List (Operation C)) : Provider C :=
  operations.foldl (perform locale) provider

def storedIds (operations : List (Operation C)) : List Text :=
  operations.flatMap Operation.storedIds

theorem perform_ordered (ordered : Ordered locale provider.entries) (operation : Operation C) :
    Ordered locale (perform locale provider operation).entries := by
  cases operation with
  | store entries => exact store_ordered ordered entries
  | update id patch => exact update_ordered ordered id patch
  | prune olderThan keepLast => exact ordered.sublist (pruneWhere_sublist locale provider _ keepLast)
  | pruneScoped input => exact ordered.sublist (pruneWhere_sublist locale provider _ input.keepLast)
  | pruneScopedBatch input => exact ordered.sublist (pruneScopedBatch_sublist locale provider input)
  | clear => exact List.Pairwise.nil

theorem perform_ids (locale : Locale) (provider : Provider C) (operation : Operation C) :
    ((perform locale provider operation).entries.map Entry.id).Subperm
      (provider.entries.map Entry.id ++ operation.storedIds) := by
  have within : forall {rest : List (Entry C)}, rest.Sublist provider.entries ->
      (rest.map Entry.id).Subperm (provider.entries.map Entry.id ++ []) := by
    intro rest sublist
    rw [List.append_nil]
    exact (sublist.map Entry.id).subperm
  cases operation with
  | store entries =>
      have perm := (store_perm locale provider entries).map Entry.id
      rw [List.map_append] at perm
      exact perm.subperm
  | update id patch =>
      refine List.Perm.subperm ((update_ids provider id patch).trans ?_)
      exact (List.append_nil _).symm ▸ List.Perm.refl _
  | prune olderThan keepLast => exact within (pruneWhere_sublist locale provider _ keepLast)
  | pruneScoped input => exact within (pruneWhere_sublist locale provider _ input.keepLast)
  | pruneScopedBatch input => exact within (pruneScopedBatch_sublist locale provider input)
  | clear => exact List.nil_subperm

theorem run_ordered (ordered : Ordered locale provider.entries) (operations : List (Operation C)) :
    Ordered locale (run locale provider operations).entries := by
  induction operations generalizing provider with
  | nil => exact ordered
  | cons operation operations inductionHypothesis =>
      exact inductionHypothesis (perform_ordered ordered operation)

theorem reached_ordered (locale : Locale) (operations : List (Operation C)) :
    Ordered locale (run locale empty operations).entries := by
  have start : Ordered locale (empty : Provider C).entries := List.Pairwise.nil
  exact run_ordered start operations

theorem run_ids (locale : Locale) (provider : Provider C) (operations : List (Operation C)) :
    ((run locale provider operations).entries.map Entry.id).Subperm
      (provider.entries.map Entry.id ++ storedIds operations) := by
  induction operations generalizing provider with
  | nil =>
      rw [storedIds, List.flatMap_nil, List.append_nil]
      exact List.Subperm.refl _
  | cons operation operations inductionHypothesis =>
      refine (inductionHypothesis (perform locale provider operation)).trans ?_
      change List.Subperm _ (_ ++ (operation.storedIds ++ storedIds operations))
      rw [← List.append_assoc]
      exact (List.subperm_append_right _).mpr (perform_ids locale provider operation)

/-- Entries stored under distinct identifiers stay distinct. -/
theorem run_distinctIds (locale : Locale) {operations : List (Operation C)}
    (distinct : (storedIds operations).Nodup) :
    Entry.DistinctIds (run locale empty operations).entries := by
  rcases run_ids locale empty operations with ⟨ids, perm, sublist⟩
  exact perm.nodup_iff.mp (distinct.sublist sublist)

end InMemory
end Telescope
