import Telescope.Profiling.AggregateProfile
import Mathlib.Algebra.BigOperators.Ring.List

namespace Telescope
namespace Profiling

/-!
# No sample is lost on the way to the root

Every sample charges one frame, every frame stands at one place of the tree, and a frame
adds up what the frames below it were charged.  So the root shows what all samples took
together.
-/

/-! ## The charges -/

/-- The deltas of the samples, one each and 0 where they run out. -/
def attributed (samples : List Int) (deltas : List Rat) : Rat :=
  ((List.range samples.length).map fun index => deltas.getD index 0).sum

theorem attributed_nil (id : Int) (samples : List Int) : attributed (id :: samples) [] = 0 + attributed samples [] := by
  rw [attributed, attributed, List.length_cons, List.range_succ_eq_map, List.map_cons, List.sum_cons, List.map_map]
  rfl

theorem attributed_cons (id : Int) (samples : List Int) (delta : Rat) (deltas : List Rat) :
    attributed (id :: samples) (delta :: deltas) = delta + attributed samples deltas := by
  rw [attributed, attributed, List.length_cons, List.range_succ_eq_map, List.map_cons, List.sum_cons, List.map_map]
  rfl

/-- More at one of some distinct places is so much more in all. -/
theorem sum_map_update {M : Type*} [AddCommMonoid M] {places : List Int} (distinct : places.Nodup) {place : Int}
    (member : place ∈ places) (weights : Int -> M) (more : M) :
    (places.map (Function.update weights place (weights place + more))).sum = (places.map weights).sum + more := by
  induction places with
  | nil => cases member
  | cons first rest inductionHypothesis =>
      rw [List.nodup_cons] at distinct
      rw [List.map_cons, List.map_cons, List.sum_cons, List.sum_cons]
      by_cases same : first = place
      · have others : rest.map (Function.update weights place (weights place + more)) = rest.map weights := by
          refine List.map_congr_left fun other isOther => Function.update_of_ne ?_ _ _
          exact fun again => distinct.1 (same.trans again.symm ▸ isOther)
        rw [others, same, Function.update_self, add_right_comm]
      · rw [Function.update_of_ne same, inductionHypothesis distinct.2
          ((List.mem_cons.mp member).resolve_left (Ne.symm same)), add_assoc]

/-- What some distinct places were charged by samples that all landed on them. -/
theorem addAll_sums {places : List Int} (distinct : places.Nodup) (charges : Charges) {samples : List Int}
    (landed : forall id, id ∈ samples -> id ∈ places) (deltas : List Rat) :
    (charges.addAll samples deltas).totalMicros = charges.totalMicros + attributed samples deltas ∧
      (places.map (charges.addAll samples deltas).selfMicros).sum =
        (places.map charges.selfMicros).sum + attributed samples deltas ∧
      (places.map (charges.addAll samples deltas).selfSamples).sum =
        (places.map charges.selfSamples).sum + samples.length := by
  induction samples generalizing charges deltas with
  | nil => exact ⟨(add_zero _).symm, (add_zero _).symm, (add_zero _).symm⟩
  | cons id samples inductionHypothesis =>
      rw [List.forall_mem_cons] at landed
      have step : forall delta deltas, attributed (id :: samples) deltas = delta + attributed samples deltas.tail ->
          (charges.addAll (id :: samples) deltas) = (charges.add id delta).addAll samples deltas.tail ->
          (charges.addAll (id :: samples) deltas).totalMicros =
              charges.totalMicros + attributed (id :: samples) deltas ∧
            (places.map (charges.addAll (id :: samples) deltas).selfMicros).sum =
              (places.map charges.selfMicros).sum + attributed (id :: samples) deltas ∧
            (places.map (charges.addAll (id :: samples) deltas).selfSamples).sum =
              (places.map charges.selfSamples).sum + (id :: samples).length := by
        intro delta deltas isSum isCharged
        rcases inductionHypothesis (charges.add id delta) landed.2 deltas.tail with ⟨total, micros, counts⟩
        rw [isCharged, isSum, total, micros, counts]
        refine ⟨add_assoc _ _ _, ?_, ?_⟩
        · rw [Charges.add, sum_map_update distinct landed.1, add_assoc]
        · rw [Charges.add, sum_map_update distinct landed.1, List.length_cons]
          omega
      cases deltas with
      | nil => exact step 0 [] (attributed_nil id samples) rfl
      | cons delta deltas => exact step delta (delta :: deltas) (attributed_cons id samples delta deltas) rfl

/-! ## The tree -/

variable {nodes : List ProfileNode} {charges : Charges}

/-- A flame node shows what the frames of its tree were charged. -/
theorem totalMs_flame (tree : Rose ProfileNode) :
    (flame charges tree).value.totalMs = (tree.values.map fun node => charges.selfMicros node.id / 1000).sum := by
  induction tree using Rose.induct with
  | node node children inductionHypothesis =>
      rw [Rose.sum_values_node, flame_node]
      change _ + ((children.map (flame charges)).map fun child => child.value.totalMs).sum = _
      rw [List.map_map]
      exact congrArg (fun totals : List Rat => _ + totals.sum) (List.map_congr_left inductionHypothesis)

theorem totalSamples_flame (tree : Rose ProfileNode) :
    (flame charges tree).value.totalSamples = (tree.values.map fun node => charges.selfSamples node.id).sum := by
  induction tree using Rose.induct with
  | node node children inductionHypothesis =>
      rw [Rose.sum_values_node, flame_node]
      change _ + ((children.map (flame charges)).map fun child => child.value.totalSamples).sum = _
      rw [List.map_map]
      exact congrArg (fun counts : List Nat => _ + counts.sum) (List.map_congr_left inductionHypothesis)

/-- The total of a node is its self time and the totals of its children. -/
def AddsUp (node : FlameNode) : Prop := node.value.totalMs = node.value.selfMs + totalOf node.children

theorem addsUp_flame (tree : Rose ProfileNode) : forall inside, inside ∈ (flame charges tree).nodes -> AddsUp inside :=
  Rose.forall_nodes_fold (frameOf charges) tree fun _node _children => rfl

/-! ## A forest without a root -/

theorem referenced_append (first second : List ProfileNode) :
    referenced (first ++ second) = referenced first ++ referenced second := List.flatMap_append

/-- The ids of a forest are those that its nodes name and those of its trees, if it is so
of each tree. -/
theorem ids_of_each {trees : List (Rose ProfileNode)}
    (each : forall tree, tree ∈ trees ->
      (referenced tree.values ++ [tree.value.id]).Perm (tree.values.map ProfileNode.id)) :
    (referenced (trees.flatMap Rose.values) ++ trees.map fun tree => tree.value.id).Perm
      ((trees.flatMap Rose.values).map ProfileNode.id) := by
  induction trees with
  | nil => exact List.Perm.refl _
  | cons tree trees inductionHypothesis =>
      rw [List.forall_mem_cons] at each
      rw [List.flatMap_cons, referenced_append, List.map_cons, List.map_append]
      refine List.Perm.trans ?_ (each.1.append (inductionHypothesis each.2))
      rw [List.append_assoc, List.append_assoc]
      exact List.perm_middle.append_left _

theorem ids_of_linked {tree : Rose ProfileNode} (linked : Linked tree) :
    (referenced tree.values ++ [tree.value.id]).Perm (tree.values.map ProfileNode.id) := by
  induction tree using Rose.induct with
  | node node children inductionHypothesis =>
      have below := ids_of_each fun child isChild => inductionHypothesis child isChild
        fun inside isInside => linked inside (Rose.mem_nodes_of_child isChild isInside)
      have named : node.children.getD [] = children.map fun child => child.value.id :=
        linked _ (Rose.mem_nodes_self _)
      rw [Rose.values_node, List.map_cons]
      change ((node.children.getD [] ++ referenced (children.flatMap Rose.values)) ++ [node.id]).Perm _
      rw [named]
      exact (List.perm_append_singleton _ _).trans ((List.perm_append_comm.trans below).cons node.id)

/-- The nodes that no other names are the tops of the forest. -/
theorem topLevel_perm (distinct : DistinctIds nodes) {trees : List (Rose ProfileNode)}
    (linked : forall tree, tree ∈ trees -> Linked tree) (isForest : (trees.flatMap Rose.values).Perm nodes) :
    (topLevel nodes).Perm (trees.map Rose.value) := by
  have ids := (ids_of_each fun tree member => ids_of_linked (linked tree member)).trans
    (isForest.map ProfileNode.id)
  have named : forall id, id ∈ referenced (trees.flatMap Rose.values) <-> id ∈ referenced nodes :=
    fun id => (isForest.flatMap_right _).mem_iff
  have apart := List.nodup_append.mp (ids.nodup_iff.mpr distinct)
  have member : forall tree, tree ∈ trees -> tree.value ∈ nodes := by
    intro tree isTree
    exact isForest.subset (List.mem_flatMap.mpr ⟨tree, isTree, mem_values_of_mem_nodes (Rose.mem_nodes_self tree)⟩)
  have topsDistinct : (trees.map Rose.value).Nodup := by
    refine List.Nodup.of_map ProfileNode.id ?_
    rw [List.map_map]
    exact apart.2.1
  have namedDistinct : (topLevel nodes).Nodup := (List.Nodup.of_map _ distinct).filter _
  refine (List.perm_ext_iff_of_nodup namedDistinct topsDistinct).mpr fun node => ?_
  rw [topLevel, List.mem_filter, Bool.not_eq_true', decide_eq_false_iff_not, ← named, List.mem_map]
  constructor
  · rintro ⟨isNode, unnamed⟩
    have isId := ids.mem_iff.mpr (List.mem_map_of_mem isNode)
    rcases List.mem_map.mp ((List.mem_append.mp isId).resolve_left unnamed) with ⟨tree, isTree, same⟩
    exact ⟨tree, isTree, List.inj_on_of_nodup_map distinct (member tree isTree) isNode same⟩
  · rintro ⟨tree, isTree, rfl⟩
    exact ⟨member tree isTree, fun isNamed => apart.2.2 _ isNamed _ (List.mem_map.mpr ⟨tree, isTree, rfl⟩) rfl⟩

/-! ## The result -/

/-- The flame tree of a profile shows what all frames were charged. -/
theorem exists_flameTree (charges : Charges) (distinct : DistinctIds nodes)
    (shaped : IsTree nodes ∨ IsForest nodes) {depth : Nat} (enough : nodes.length ≤ depth) :
    Exists fun tree => flameTree nodes charges depth = some tree ∧
      tree.value.totalMs = (nodes.map fun node => charges.selfMicros node.id / 1000).sum ∧
      tree.value.totalSamples = (nodes.map fun node => charges.selfSamples node.id).sum ∧
      forall inside, inside ∈ tree.nodes -> AddsUp inside := by
  rcases shaped with ⟨tree, isRoot, linked, perm⟩ | ⟨rootless, trees, linked, perm⟩
  · refine ⟨flame charges tree, ?_, ?_, ?_, addsUp_flame tree⟩
    · rw [flameTree, isRoot]
      exact build_of_linked distinct linked (fun node member => perm.subset member) (perm.length_eq.le.trans enough)
    · rw [totalMs_flame]
      exact (perm.map _).sum_eq
    · rw [totalSamples_flame]
      exact (perm.map _).sum_eq
  · have same : List.Forall₂ (fun node (tree : Rose ProfileNode) => node = tree.value) (trees.map Rose.value) trees :=
      List.forall₂_map_left_iff.mpr (List.forall₂_same.mpr fun _ _ => rfl)
    rcases List.perm_comp_forall₂ (topLevel_perm distinct linked perm) same with ⟨tops, isTops, reordered⟩
    have subset : forall tree, tree ∈ tops -> forall node, node ∈ tree.values -> node ∈ nodes := by
      intro tree isTop node member
      exact perm.subset (List.mem_flatMap.mpr ⟨tree, reordered.subset isTop, member⟩)
    have short : forall tree, tree ∈ tops -> tree.values.length ≤ depth := by
      intro tree isTop
      have part := (List.sublist_flatten_of_mem
        (List.mem_map_of_mem (f := Rose.values) (reordered.subset isTop))).length_le
      rw [← List.flatMap_def] at part
      exact part.trans (perm.length_eq.le.trans enough)
    have topValues : topLevel nodes = tops.map Rose.value := by
      have pairs := List.forall₂_map_right_iff.mpr isTops
      rwa [List.forall₂_eq_eq_eq] at pairs
    have built : (topLevel nodes).mapM (build nodes charges depth) = some (tops.map (flame charges)) := by
      rw [topValues]
      refine Rose.mapM_eq_some_of_forall (List.forall₂_map_left_iff.mpr (List.forall₂_map_right_iff.mpr ?_))
      refine List.forall₂_same.mpr fun tree isTop => ?_
      exact build_of_linked distinct (linked tree (reordered.subset isTop)) (subset tree isTop) (short tree isTop)
    have values : (tops.flatMap Rose.values).Perm nodes := (reordered.flatMap_right _).trans perm
    refine ⟨syntheticRoot (tops.map (flame charges)), ?_, ?_, ?_, ?_⟩
    · rw [flameTree, rootless]
      change ((topLevel nodes).mapM (build nodes charges depth)).map syntheticRoot = _
      rw [built, Option.map_some]
    · change totalOf (tops.map (flame charges)) = _
      rw [← (values.map _).sum_eq, List.map_flatMap, List.flatMap_def, List.sum_flatten, totalOf, List.map_map,
        List.map_map]
      exact congrArg List.sum (List.map_congr_left fun tree _ => totalMs_flame tree)
    · change samplesOf (tops.map (flame charges)) = _
      rw [← (values.map _).sum_eq, List.map_flatMap, List.flatMap_def, List.sum_flatten, samplesOf, List.map_map,
        List.map_map]
      exact congrArg List.sum (List.map_congr_left fun tree _ => totalSamples_flame tree)
    · intro inside isInside
      rw [syntheticRoot, Rose.nodes_node] at isInside
      rcases List.mem_cons.mp isInside with rfl | below
      · exact (zero_add _).symm
      · rcases List.mem_flatMap.mp below with ⟨top, isTop, isBelow⟩
        rcases List.mem_map.mp isTop with ⟨tree, _, rfl⟩
        exact addsUp_flame tree inside isBelow

def frameNamed (name : String) : CallFrame := ⟨units name, [], 0⟩

/-- A root above two frames, the first of them above a third. -/
def smallProfile : CpuProfile where
  nodes := [⟨1, frameNamed "(root)", some [2, 3]⟩, ⟨2, frameNamed "handle", some [4]⟩,
    ⟨3, frameNamed "(idle)", none⟩, ⟨4, frameNamed "", some []⟩]
  startTime := 0
  endTime := 1000
  samples := some [2, 4, 3, 4]
  timeDeltas := some [100, 200, 300]

theorem smallProfile_isTree : IsTree smallProfile.nodes := by
  refine ⟨.node ⟨1, frameNamed "(root)", some [2, 3]⟩
    [.node ⟨2, frameNamed "handle", some [4]⟩ [.node ⟨4, frameNamed "", some []⟩ []],
      .node ⟨3, frameNamed "(idle)", none⟩ []], rfl, ?_, ?_⟩
  · intro inside isInside
    simp only [Rose.nodes, Rose.nodesAll, List.append_nil, List.mem_cons, List.mem_append, List.not_mem_nil,
      or_false] at isInside
    rcases isInside with rfl | (rfl | rfl) | rfl <;> rfl
  · exact ((List.Perm.swap _ _ []).cons _).cons _

end Profiling
end Telescope
