import Telescope.Metrics.Waterfall

namespace Telescope
namespace Metrics

open Nesting

/-!
# The forest of a waterfall

Where every entry has a date and a duration, the waterfall is the forest that containment
asks for: every entry once, the roots those that nothing contains, every other entry below
one that contains it.  Its parent is the last in order that contains it, which is the one
of them that starts last and, of those, the shortest; another that starts earlier can be
shorter still.
-/

section Forest

variable {entries : List CapturedEntry}

/-! ## The sorts move nodes only -/

theorem sortByOffset_perm (traceStartMs : Number) (trees : List (Branch Interval)) :
    (sortByOffset traceStartMs trees).Perm trees :=
  List.perm_insertionSort _ trees

theorem sortChildren_perm (traceStartMs : Number) (ordered : List Interval) (parent : Interval)
    (children : List (Branch Interval)) : (sortChildren traceStartMs ordered parent children).Perm children := by
  rw [sortChildren]
  split
  · exact sortByOffset_perm traceStartMs children
  · exact List.Perm.refl _

theorem values_forestOf : ((forestOf entries).flatMap Branch.values).Perm (intervals entries) := by
  refine ((sortByOffset_perm _ _).flatMap_right _).trans ?_
  rw [List.flatMap_map]
  refine (List.Perm.flatMap_left _ fun tree _member => Branch.values_arrange (sortChildren_perm _ _) tree).trans ?_
  rw [values_nestAll]
  exact inOrder_perm _

theorem mem_edges_forestOf {edge : (Interval × Nat) × (Interval × Nat)} :
    edge ∈ (forestOf entries).flatMap Branch.edges <->
      edge ∈ (nestAll contains (inOrder (intervals entries))).flatMap Branch.edges := by
  refine ((sortByOffset_perm _ _).flatMap_right _).mem_iff.trans ?_
  rw [List.flatMap_map]
  exact (List.Perm.flatMap_left _ fun tree _member => Branch.edges_arrange (sortChildren_perm _ _) tree).mem_iff

theorem mem_heads_forestOf {root : Interval × Nat} :
    root ∈ (forestOf entries).map Branch.head <->
      root ∈ (nestAll contains (inOrder (intervals entries))).map Branch.head := by
  refine ((sortByOffset_perm _ _).map _).mem_iff.trans ?_
  have sameHeads : Branch.head ∘ Branch.arrange (sortChildren (traceStart entries) (inOrder (intervals entries))) =
      Branch.head := funext fun tree => Branch.head_arrange tree
  rw [List.map_map, sameHeads]

/-! ## Parents -/

theorem mem_inOrder {items : List Interval} {interval : Interval} : interval ∈ inOrder items <-> interval ∈ items :=
  (inOrder_perm items).mem_iff

section Timed

variable (timed : Timed entries)

include timed

theorem timed_inOrder {interval : Interval} (member : interval ∈ inOrder (intervals entries)) : interval.Timed :=
  timed_of_mem timed (mem_inOrder.mp member)

theorem keys_ordered : (inOrder (intervals entries)).Pairwise fun left right => left.key ≤ right.key :=
  inOrder_pairwise fun _interval member => timed_of_mem timed member

variable {before after : List Interval} {interval : Interval}
  (split : inOrder (intervals entries) = before ++ interval :: after)

include split

/-- The parent is the last interval before that contains the entry. -/
theorem parentIn_ordered : (parentIn contains (trailOf contains before) interval).map Prod.fst =
    before.reverse.find? fun outer => contains outer interval := by
  have inside : forall item, item ∈ before -> item ∈ inOrder (intervals entries) := fun item member =>
    split ▸ List.mem_append_left _ member
  have intervalTimed : interval.Timed := timed_inOrder timed (split ▸ List.mem_append_right _ List.mem_cons_self)
  have ordered := keys_ordered timed
  rw [split] at ordered
  rcases List.pairwise_append.mp ordered with ⟨orderedBefore, _, across⟩
  refine @parentIn_trailOf Interval contains before
    (fun left right => left.Timed ∧ right.Timed ∧ left.key ≤ right.key) ?_ ?_ interval ?_
  · intro closed item later itemAfter laterAfter _ notInside
    exact crossing itemAfter.1 itemAfter.2.1 laterAfter.2.1 itemAfter.2.2 laterAfter.2.2 notInside
  · exact orderedBefore.imp_of_mem fun leftIn rightIn atMost =>
      ⟨timed_inOrder timed (inside _ leftIn), timed_inOrder timed (inside _ rightIn), atMost⟩
  · intro item member
    exact ⟨timed_inOrder timed (inside _ member), intervalTimed, across item member interval List.mem_cons_self⟩

/-- What contains an entry stands before it. -/
theorem mem_before_of_contains {outer : Interval} (member : outer ∈ intervals entries)
    (surrounds : contains outer interval = true) : outer ∈ before := by
  have ordered := keys_ordered timed
  have placed := mem_inOrder.mpr member
  have intervalTimed : interval.Timed := timed_inOrder timed (split ▸ List.mem_append_right _ List.mem_cons_self)
  have earlier := key_lt_of_contains (timed_of_mem timed member) intervalTimed surrounds
  rw [split] at ordered placed
  rcases List.mem_append.mp placed with found | behind
  · exact found
  · rcases List.mem_cons.mp behind with rfl | later
    · exact (lt_irrefl _ earlier).elim
    · exact (earlier.not_ge ((List.pairwise_cons.mp (List.pairwise_append.mp ordered).2.1).1 outer later)).elim

/-- Without a parent among those before it, nothing contains an entry. -/
theorem root_of_parentIn_none (rootless : parentIn contains (trailOf contains before) interval = none)
    {outer : Interval} (member : outer ∈ intervals entries) : contains outer interval = false := by
  have absent : before.reverse.find? (fun outer => contains outer interval) = none := by
    rw [← parentIn_ordered timed split, rootless]
    rfl
  refine Bool.eq_false_iff.mpr fun surrounds => ?_
  exact List.find?_eq_none.mp absent outer
    (List.mem_reverse.mpr (mem_before_of_contains timed split member surrounds)) surrounds

/-- The parent of an entry contains it and stands after everything else that does. -/
theorem parent_last {parent : Interval × Nat}
    (found : parentIn contains (trailOf contains before) interval = some parent) :
    parent.1 ∈ intervals entries ∧ contains parent.1 interval = true ∧
      forall outer, outer ∈ intervals entries -> contains outer interval = true -> outer.key ≤ parent.1.key := by
  have last : before.reverse.find? (fun outer => contains outer interval) = some parent.1 := by
    rw [← parentIn_ordered timed split, found]
    rfl
  rcases List.find?_eq_some_iff_append.mp last with ⟨surrounds, behind, earlier, reversed, none⟩
  have parts : before = earlier.reverse ++ parent.1 :: behind.reverse := by
    rw [← List.reverse_reverse before, reversed, List.reverse_append, List.reverse_cons, List.append_assoc,
      List.singleton_append]
  have inside : parent.1 ∈ inOrder (intervals entries) := by
    rw [split, parts]
    exact List.mem_append_left _ (List.mem_append_right _ List.mem_cons_self)
  refine ⟨mem_inOrder.mp inside, surrounds, fun outer member contained => ?_⟩
  have ordered := keys_ordered timed
  rw [split, parts] at ordered
  have orderedBefore := (List.pairwise_append.mp ordered).1
  have placed := mem_before_of_contains timed split member contained
  rw [parts] at placed
  rcases List.mem_append.mp placed with first | rest
  · exact (List.pairwise_append.mp orderedBefore).2.2 outer first parent.1 List.mem_cons_self
  · rcases List.mem_cons.mp rest with same | late
    · exact same ▸ le_refl _
    · have refused := none outer (List.mem_reverse.mp late)
      rw [contained] at refused
      exact (Bool.false_ne_true refused).elim

omit split

/-- An entry with a parent, and the parent, are entries; the parent is the last that
contains it. -/
theorem edge_spec {edge : (Interval × Nat) × (Interval × Nat)}
    (member : edge ∈ (forestOf entries).flatMap Branch.edges) :
    edge.1.1 ∈ intervals entries ∧ edge.2.1 ∈ intervals entries ∧ contains edge.1.1 edge.2.1 = true ∧
      edge.2.2 = edge.1.2 + 1 ∧
        forall outer, outer ∈ intervals entries -> contains outer edge.2.1 = true -> outer.key ≤ edge.1.1.key := by
  rcases mem_edges_nestAll.mp (mem_edges_forestOf.mp member) with ⟨before, after, split, found, deeper⟩
  rcases parent_last timed split found with ⟨parentIn, surrounds, last⟩
  have childIn : edge.2.1 ∈ intervals entries :=
    mem_inOrder.mp (split ▸ List.mem_append_right _ List.mem_cons_self)
  exact ⟨parentIn, childIn, surrounds, deeper, last⟩

/-- An entry is a root when nothing contains it. -/
theorem mem_roots_iff {interval : Interval} (member : interval ∈ intervals entries) :
    interval ∈ (forestOf entries).map Branch.value <->
      forall outer, outer ∈ intervals entries -> contains outer interval = false := by
  have viaHeads : interval ∈ (forestOf entries).map Branch.value <->
      Exists fun depth => (interval, depth) ∈ (forestOf entries).map Branch.head := by
    constructor
    · intro found
      rcases List.mem_map.mp found with ⟨tree, treeIn, rfl⟩
      exact ⟨tree.depth, List.mem_map.mpr ⟨tree, treeIn, rfl⟩⟩
    · rintro ⟨depth, found⟩
      rcases List.mem_map.mp found with ⟨tree, treeIn, same⟩
      exact List.mem_map.mpr ⟨tree, treeIn, congrArg Prod.fst same⟩
  rw [viaHeads]
  simp only [mem_heads_forestOf, mem_heads_nestAll]
  constructor
  · rintro ⟨depth, before, after, split, rootless, _⟩ outer outerIn
    exact root_of_parentIn_none timed split rootless outerIn
  · intro outside
    rcases List.append_of_mem (mem_inOrder.mpr member) with ⟨before, after, split⟩
    refine ⟨0, before, after, split, ?_, rfl⟩
    cases found : parentIn contains (trailOf contains before) interval with
    | none => rfl
    | some parent =>
        rcases parent_last timed split found with ⟨parentIn, surrounds, _⟩
        exact (Bool.false_ne_true (outside _ parentIn ▸ surrounds)).elim

/-- An entry that another contains has a parent. -/
theorem exists_edge {interval outer : Interval} (member : interval ∈ intervals entries)
    (outerIn : outer ∈ intervals entries) (surrounds : contains outer interval = true) :
    Exists fun edge => edge ∈ (forestOf entries).flatMap Branch.edges ∧ edge.2.1 = interval := by
  rcases List.append_of_mem (mem_inOrder.mpr member) with ⟨before, after, split⟩
  cases found : parentIn contains (trailOf contains before) interval with
  | none =>
      exact (Bool.false_ne_true (root_of_parentIn_none timed split found outerIn ▸ surrounds)).elim
  | some parent =>
      refine ⟨(parent, (interval, parent.2 + 1)), mem_edges_forestOf.mpr ?_, rfl⟩
      exact mem_edges_nestAll.mpr ⟨before, after, split, found, rfl⟩

end Timed

/-- Roots are at depth zero, whatever the entries. -/
theorem depth_of_root {tree : Branch Interval} (member : tree ∈ forestOf entries) : tree.depth = 0 := by
  have headIn : (tree.value, tree.depth) ∈ (forestOf entries).map Branch.head := List.mem_map.mpr ⟨tree, member, rfl⟩
  rcases mem_heads_nestAll.mp (mem_heads_forestOf.mp headIn) with ⟨_, _, _, _, top⟩
  exact top

end Forest

/-! ## What a waterfall promises -/

/-- One interval is the parent of another in the forest. -/
def ParentOf (forest : List (Branch Interval)) (parent child : Interval) : Prop :=
  Exists fun edge => edge ∈ forest.flatMap Branch.edges ∧ edge.1.1 = parent ∧ edge.2.1 = child

/-- The trees are the entries, nested by strict containment. -/
structure EnclosureForest (items : List Interval) (forest : List (Branch Interval)) : Prop where
  once : (forest.flatMap Branch.values).Perm items
  root : forall interval, interval ∈ items ->
    (interval ∈ forest.map Branch.value <->
      ¬ Exists fun outer => outer ∈ items ∧ outer ≠ interval ∧ contains outer interval = true)
  encloses : forall parent child, ParentOf forest parent child -> contains parent child = true
  rootDepth : forall tree, tree ∈ forest -> tree.depth = 0
  depth : forall edge, edge ∈ forest.flatMap Branch.edges -> edge.2.2 = edge.1.2 + 1
  acyclic : forall interval, ¬ Relation.TransGen (ParentOf forest) interval interval

/-- The waterfall of some entries shows their forest, with the spans of the entries for the
entries. -/
def ShowsForest (entries : List CapturedEntry) : Prop :=
  match buildWaterfall entries with
  | none => entries = []
  | some waterfall =>
      Exists fun forest => EnclosureForest (intervals entries) forest ∧
        waterfall.spans = forest.map (Branch.map (spanOf waterfall.traceStartMs))

theorem enclosureForest_forestOf {entries : List CapturedEntry} (timed : Timed entries) :
    EnclosureForest (intervals entries) (forestOf entries) where
  once := values_forestOf
  root := by
    intro interval member
    rw [mem_roots_iff timed member, not_exists]
    constructor
    · rintro outside outer ⟨outerIn, _, surrounds⟩
      exact Bool.false_ne_true (outside outer outerIn ▸ surrounds)
    · intro outside outer outerIn
      refine Bool.eq_false_iff.mpr fun surrounds => outside outer ⟨outerIn, ?_, surrounds⟩
      rintro rfl
      exact Bool.false_ne_true (contains_irrefl outer ▸ surrounds)
  encloses := by
    rintro parent child ⟨edge, member, rfl, rfl⟩
    exact (edge_spec timed member).2.2.1
  rootDepth := fun _tree member => depth_of_root member
  depth := fun _edge member => (edge_spec timed member).2.2.2.1
  acyclic := by
    have step : forall parent child, ParentOf (forestOf entries) parent child -> parent.key < child.key := by
      rintro parent child ⟨edge, member, rfl, rfl⟩
      rcases edge_spec timed member with ⟨parentIn, childIn, surrounds, _, _⟩
      exact key_lt_of_contains (timed_of_mem timed parentIn) (timed_of_mem timed childIn) surrounds
    intro interval cycle
    have along : forall first last, Relation.TransGen (ParentOf (forestOf entries)) first last ->
        first.key < last.key := by
      intro first last path
      induction path with
      | single link => exact step _ _ link
      | tail _ link inductionHypothesis => exact inductionHypothesis.trans (step _ _ link)
    exact lt_irrefl _ (along interval interval cycle)

/-- With a date and a duration in every entry, the waterfall shows the forest of
containment. -/
theorem showsForest {entries : List CapturedEntry} (timed : Timed entries) : ShowsForest entries := by
  rw [ShowsForest, buildWaterfall]
  cases entries with
  | nil => rfl
  | cons first rest => exact ⟨forestOf (first :: rest), enclosureForest_forestOf timed, rfl⟩

instance moments_nonempty : NeZero 100 := ⟨by decide⟩

/-- An entry made at a time, with a duration. -/
def sample (id : Units) (ms : Fin 100) (durationMs : Option Number) : CapturedEntry where
  id := id
  batchId := units "batch"
  type := EntryType.request
  familyHash := none
  content := .undefined
  tags := []
  sequence := 0
  durationMs := durationMs
  origin := .http
  instanceId := []
  traceId := none
  spanId := none
  createdAt := some ⟨ms, inRange_fin ms⟩

theorem showsForest_nested :
    Timed [sample (units "inner") 2 none, sample (units "outer") 0 (some (.finite 10))] ∧
      ShowsForest [sample (units "inner") 2 none, sample (units "outer") 0 (some (.finite 10))] := by
  have timed : Timed [sample (units "inner") 2 none, sample (units "outer") 0 (some (.finite 10))] :=
    List.forall_mem_cons.mpr ⟨⟨rfl, fun impossible => by cases impossible⟩,
      List.forall_mem_cons.mpr ⟨⟨rfl, fun impossible => by cases impossible⟩, List.forall_mem_nil _⟩⟩
  exact ⟨timed, showsForest timed⟩

/-- An outer entry, one whose duration is not a number, and an inner one. -/
def unmeasured : List CapturedEntry :=
  [sample (units "outer") 0 (some (.finite 10)), sample (units "middle") 2 (some .nan),
    sample (units "inner") 3 (some (.finite 2))]

/-- A root of the forest is the value of one of its trees. -/
theorem EnclosureForest.mem_of_root {items : List Interval} {forest : List (Branch Interval)}
    (nested : EnclosureForest items forest) {tree : Branch Interval} (member : tree ∈ forest) : tree.value ∈ items := by
  refine nested.once.mem_iff.mp (List.mem_flatMap.mpr ⟨tree, member, ?_⟩)
  rcases tree with ⟨value, depth, children⟩
  rw [Branch.values_node]
  exact List.mem_cons_self

/-- The roots that a waterfall shows are the roots of the forest. -/
theorem shown_ids {entries : List CapturedEntry} {forest : List (Branch Interval)} {traceStartMs : Number}
    (shown : (forestOf entries).map (Branch.map (spanOf traceStartMs)) = forest.map (Branch.map (spanOf traceStartMs))) :
    (forestOf entries).map (fun tree => tree.value.entry.id) = forest.map fun tree => tree.value.entry.id := by
  have sameId : forall tree : Branch Interval,
      (Branch.map (spanOf traceStartMs) tree).value.id = tree.value.entry.id := by
    rintro ⟨value, depth, children⟩
    rw [Branch.map]
    rfl
  have ids := congrArg (List.map fun tree : Branch WaterfallSpan => tree.value.id) shown
  rw [List.map_map, List.map_map] at ids
  simpa only [Function.comp_def, sameId] using ids

/-- The entry without a duration closes the outer one, and the inner one is left without a
parent. -/
theorem unmeasured_hides_parent : ¬ ShowsForest unmeasured := by
  rintro ⟨forest, nested, shown⟩
  have roots : (forestOf unmeasured).map (fun tree => tree.value.entry.id) =
      [units "outer", units "middle", units "inner"] := by decide +kernel
  have innerShown : units "inner" ∈ forest.map fun tree => tree.value.entry.id := by
    rw [← shown_ids shown, roots]
    exact List.mem_cons_of_mem _ (List.mem_cons_of_mem _ List.mem_cons_self)
  rcases List.mem_map.mp innerShown with ⟨tree, treeIn, named⟩
  have member := nested.mem_of_root treeIn
  have rootless := (nested.root tree.value member).mp (List.mem_map_of_mem treeIn)
  have outerIn : intervalOf 0 (sample (units "outer") 0 (some (.finite 10))) ∈ intervals unmeasured :=
    List.mem_cons_self
  have surrounded : forall interval, interval ∈ intervals unmeasured -> interval.entry.id = units "inner" ->
      interval.index = 2 ∧ contains (intervalOf 0 (sample (units "outer") 0 (some (.finite 10)))) interval = true := by
    decide +kernel
  rcases surrounded tree.value member named with ⟨third, surrounds⟩
  refine rootless ⟨_, outerIn, fun same => ?_, surrounds⟩
  rw [← same] at third
  cases third

/-! ## The tightest parent -/

/-- No entry that contains another is shorter than its parent. -/
def TightestParents (entries : List CapturedEntry) : Prop :=
  forall edge, edge ∈ (forestOf entries).flatMap Branch.edges ->
    forall outer, outer ∈ intervals entries -> contains outer edge.2.1 = true ->
      outer.durationMs.lt edge.1.1.durationMs = false

/-- Whatever contains an entry, something that contains it is no longer and starts no
earlier than anything else that does. -/
def ShortestStartsLast (entries : List CapturedEntry) : Prop :=
  forall inner, inner ∈ intervals entries -> forall outer, outer ∈ intervals entries -> contains outer inner = true ->
    Exists fun last => last ∈ intervals entries ∧ contains last inner = true ∧
      outer.durationMs.lt last.durationMs = false ∧
        forall other, other ∈ intervals entries -> contains other inner = true ->
          last.startMs.lt other.startMs = false

/-- Of intervals that start together, the later in order is no longer. -/
theorem duration_le_of_key_le {left right : Interval} (before : left.key ≤ right.key)
    (startsBack : right.startMs.place ≤ left.startMs.place) : right.durationMs.place ≤ left.durationMs.place := by
  have sameStart := le_antisymm (start_le_of_key_le before) startsBack
  rw [Interval.key, Interval.key, Prod.Lex.toLex_le_toLex, Prod.Lex.toLex_le_toLex] at before
  rcases before with first | ⟨_, shorter | ⟨same, _⟩⟩
  · exact (first.ne sameStart).elim
  · exact (OrderDual.toDual_lt_toDual.mp shorter).le
  · exact (OrderDual.toDual_inj.mp same).ge

/-- The parent is the shortest of what contains an entry exactly where a shortest of these
starts no earlier than the others. -/
theorem tightestParents_iff {entries : List CapturedEntry} (timed : Timed entries) :
    TightestParents entries <-> ShortestStartsLast entries := by
  constructor
  · intro tightest inner innerIn outer outerIn surrounds
    rcases exists_edge timed innerIn outerIn surrounds with ⟨edge, member, rfl⟩
    rcases edge_spec timed member with ⟨parentIn, _, parentSurrounds, _, last⟩
    refine ⟨edge.1.1, parentIn, parentSurrounds, tightest edge member outer outerIn surrounds, ?_⟩
    intro other otherIn otherSurrounds
    have parentTimed := timed_of_mem timed parentIn
    have otherTimed := timed_of_mem timed otherIn
    rw [Number.lt_eq_false_iff parentTimed.start_ne otherTimed.start_ne]
    exact start_le_of_key_le (last other otherIn otherSurrounds)
  · intro shortest edge member outer outerIn surrounds
    rcases edge_spec timed member with ⟨parentIn, childIn, parentSurrounds, _, last⟩
    rcases shortest edge.2.1 childIn outer outerIn surrounds with
      ⟨other, otherIn, otherSurrounds, notLonger, latest⟩
    have outerTimed := timed_of_mem timed outerIn
    have otherTimed := timed_of_mem timed otherIn
    have parentTimed := timed_of_mem timed parentIn
    have startsBack := latest edge.1.1 parentIn parentSurrounds
    rw [Number.lt_eq_false_iff otherTimed.start_ne parentTimed.start_ne] at startsBack
    rw [Number.lt_eq_false_iff outerTimed.duration otherTimed.duration] at notLonger
    rw [Number.lt_eq_false_iff outerTimed.duration parentTimed.duration]
    exact (duration_le_of_key_le (last other otherIn otherSurrounds) startsBack).trans notLonger

theorem tightestParents_nested :
    Timed [sample (units "inner") 2 none, sample (units "outer") 0 (some (.finite 10))] ∧
      (TightestParents [sample (units "inner") 2 none, sample (units "outer") 0 (some (.finite 10))] <->
        ShortestStartsLast [sample (units "inner") 2 none, sample (units "outer") 0 (some (.finite 10))]) := by
  have timed : Timed [sample (units "inner") 2 none, sample (units "outer") 0 (some (.finite 10))] :=
    List.forall_mem_cons.mpr ⟨⟨rfl, fun impossible => by cases impossible⟩,
      List.forall_mem_cons.mpr ⟨⟨rfl, fun impossible => by cases impossible⟩, List.forall_mem_nil _⟩⟩
  exact ⟨timed, tightestParents_iff timed⟩

/-- Two entries that overlap, and one inside both. -/
def overlapping : List CapturedEntry :=
  [sample (units "short") 0 (some (.finite 10)), sample (units "long") 1 (some (.finite 19)),
    sample (units "inner") 2 (some (.finite 3))]

/-- The entry inside both hangs below the one that starts later and is longer. -/
theorem overlapping_not_tightest : ¬ TightestParents overlapping := by
  intro tightest
  have longer : Exists fun edge => edge ∈ (forestOf overlapping).flatMap Branch.edges ∧
      contains (intervalOf 0 (sample (units "short") 0 (some (.finite 10)))) edge.2.1 = true ∧
      (intervalOf 0 (sample (units "short") 0 (some (.finite 10)))).durationMs.lt edge.1.1.durationMs = true := by
    decide +kernel
  rcases longer with ⟨edge, member, surrounds, shorter⟩
  have refused := tightest edge member _ List.mem_cons_self surrounds
  exact Bool.false_ne_true (refused ▸ shorter)

end Metrics
end Telescope
