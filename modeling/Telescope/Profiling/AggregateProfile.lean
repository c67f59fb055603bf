import Telescope.Core.Value
import Telescope.Foundation.Rose
import Mathlib.Data.List.Sort

namespace Telescope
namespace Profiling

/-!
# Aggregating a CPU profile

A profile is a flat list of call frames that name their children, and a list of samples.
Each sample charges its time to the frame it landed on; the frames are nested as their
children tell, and each time is added up from the leaves to the root.  Sums of times are
exact.
-/

structure CallFrame where
  functionName : Units
  url : Units
  lineNumber : Int

structure ProfileNode where
  id : Int
  callFrame : CallFrame
  children : Option (List Int)

/-- The raw V8 CPU profile; times are in microseconds. -/
structure CpuProfile where
  nodes : List ProfileNode
  startTime : Rat
  endTime : Rat
  samples : Option (List Int)
  timeDeltas : Option (List Rat)

/-- A node of the flame graph, but for its children. -/
structure FlameFrame where
  name : Units
  file : Units
  selfMs : Rat
  totalMs : Rat
  totalSamples : Nat

abbrev FlameNode := Rose FlameFrame

structure HotFrame where
  name : Units
  file : Units
  selfMs : Rat
  selfPct : Rat

structure Aggregated where
  tree : FlameNode
  durationMs : Rat
  sampleCount : Nat
  hot : List HotFrame

/-- How many hottest-by-self frames to precompute for the dashboard. -/
def HOT_FRAME_LIMIT : Nat := 12

def ROOT_NAME : Units := units "(root)"

/-! ## Charging the samples -/

/-- What the samples charge so far; a frame that is not there has nothing. -/
structure Charges where
  totalMicros : Rat
  selfMicros : Int -> Rat
  selfSamples : Int -> Nat

namespace Charges

def none : Charges := ⟨0, fun _ => 0, fun _ => 0⟩

def add (charges : Charges) (id : Int) (delta : Rat) : Charges where
  totalMicros := charges.totalMicros + delta
  selfMicros := Function.update charges.selfMicros id (charges.selfMicros id + delta)
  selfSamples := Function.update charges.selfSamples id (charges.selfSamples id + 1)

/-- One delta per sample; where they run out it is 0. -/
def addAll (charges : Charges) : List Int -> List Rat -> Charges
  | [], _ => charges
  | id :: samples, [] => (charges.add id 0).addAll samples []
  | id :: samples, delta :: deltas => (charges.add id delta).addAll samples deltas

end Charges

/-! ## The flame tree -/

def normalizeName (name : Units) : Units := if name = [] then units "(anonymous)" else name

def frameFile (node : ProfileNode) : Units :=
  if node.callFrame.url = [] then []
  else if 0 ≤ node.callFrame.lineNumber then
    node.callFrame.url ++ units ":" ++ Number.text (.finite (node.callFrame.lineNumber + 1))
  else node.callFrame.url

/-- The last node under an id. -/
def byId (nodes : List ProfileNode) (id : Int) : Option ProfileNode :=
  nodes.reverse.find? fun node => decide (node.id = id)

def childrenOf (nodes : List ProfileNode) (node : ProfileNode) : List ProfileNode :=
  (node.children.getD []).filterMap (byId nodes)

def totalOf (children : List FlameNode) : Rat := (children.map fun child => child.value.totalMs).sum

def samplesOf (children : List FlameNode) : Nat := (children.map fun child => child.value.totalSamples).sum

def frameOf (charges : Charges) (node : ProfileNode) (children : List FlameNode) : FlameFrame where
  name := normalizeName node.callFrame.functionName
  file := frameFile node
  selfMs := charges.selfMicros node.id / 1000
  totalMs := charges.selfMicros node.id / 1000 + totalOf children
  totalSamples := charges.selfSamples node.id + samplesOf children

/-- The recursion, with a bound on its depth. -/
def build (nodes : List ProfileNode) (charges : Charges) : Nat -> ProfileNode -> Option FlameNode
  | 0, _ => none
  | depth + 1, node =>
      ((childrenOf nodes node).mapM (build nodes charges depth)).map fun children =>
        .node (frameOf charges node children) children

/-- The ids that some node names as a child. -/
def referenced (nodes : List ProfileNode) : List Int := nodes.flatMap fun node => node.children.getD []

def topLevel (nodes : List ProfileNode) : List ProfileNode :=
  nodes.filter fun node => !decide (node.id ∈ referenced nodes)

def syntheticRoot (tops : List FlameNode) : FlameNode :=
  .node ⟨ROOT_NAME, [], 0, totalOf tops, samplesOf tops⟩ tops

def rootNode (nodes : List ProfileNode) : Option ProfileNode :=
  nodes.find? fun node => decide (node.callFrame.functionName = ROOT_NAME)

def flameTree (nodes : List ProfileNode) (charges : Charges) (depth : Nat) : Option FlameNode :=
  match rootNode nodes with
  | some root => build nodes charges depth root
  | none => ((topLevel nodes).mapM (build nodes charges depth)).map syntheticRoot

/-! ## Hot frames -/

def hotFrames (tree : FlameNode) (totalMs : Rat) : List HotFrame :=
  let flat := (tree.values.filter fun frame => decide (0 < frame.selfMs)).map fun frame =>
    HotFrame.mk frame.name frame.file frame.selfMs
      (if 0 < totalMs then frame.selfMs / totalMs * 100 else 0)
  (flat.insertionSort fun left right : HotFrame => right.selfMs ≤ left.selfMs).take HOT_FRAME_LIMIT

/-- Prefer the summed sample deltas; fall back to start and end when samples are absent. -/
def durationFor (profile : CpuProfile) (totalMicros : Rat) : Rat :=
  if 0 < totalMicros then totalMicros / 1000
  else if 0 < profile.endTime - profile.startTime then (profile.endTime - profile.startTime) / 1000
  else 0

namespace CpuProfile

def sampled (profile : CpuProfile) : List Int := profile.samples.getD []

def deltas (profile : CpuProfile) : List Rat := profile.timeDeltas.getD []

def charges (profile : CpuProfile) : Charges := Charges.none.addAll profile.sampled profile.deltas

end CpuProfile

/-- `aggregateCpuProfile`, with a bound on the depth of its recursion. -/
def aggregateCpuProfile (depth : Nat) (profile : CpuProfile) : Option Aggregated :=
  (flameTree profile.nodes profile.charges depth).map fun tree =>
    { tree := tree
      durationMs := durationFor profile profile.charges.totalMicros
      sampleCount := profile.sampled.length
      hot := hotFrames tree (profile.charges.totalMicros / 1000) }

/-! ## The tree that a profile describes -/

/-- The node of a frame, above the flame nodes of the frames below it. -/
def flame (charges : Charges) (tree : Rose ProfileNode) : FlameNode :=
  tree.fold fun node children => .node (frameOf charges node children) children

theorem flame_node (charges : Charges) (node : ProfileNode) (children : List (Rose ProfileNode)) :
    flame charges (.node node children) =
      .node (frameOf charges node (children.map (flame charges))) (children.map (flame charges)) := by
  rw [flame, Rose.fold_node]
  rfl

theorem mapM_map {α β γ : Type*} {step : α -> Option β} {change : β -> γ} (values : List α) :
    (values.mapM fun value => (step value).map change) = (values.mapM step).map (List.map change) := by
  induction values with
  | nil => rfl
  | cons value values inductionHypothesis =>
      rw [List.mapM_cons, List.mapM_cons, inductionHypothesis]
      cases step value with
      | none => rfl
      | some result => cases values.mapM step <;> rfl

/-- `build` unfolds the children and turns the tree into flame nodes. -/
theorem build_eq (nodes : List ProfileNode) (charges : Charges) (depth : Nat) (node : ProfileNode) :
    build nodes charges depth node = (Rose.unfold (childrenOf nodes) depth node).map (flame charges) := by
  induction depth generalizing node with
  | zero => rfl
  | succ depth inductionHypothesis =>
      have same : build nodes charges depth =
          fun node => (Rose.unfold (childrenOf nodes) depth node).map (flame charges) :=
        funext inductionHypothesis
      rw [build, same, mapM_map, Rose.unfold]
      cases (childrenOf nodes node).mapM (Rose.unfold (childrenOf nodes) depth) with
      | none => rfl
      | some children =>
          change some _ = some (flame charges (.node node children))
          rw [flame_node]

/-- Every node of the tree names the children that stand below it. -/
def Linked (tree : Rose ProfileNode) : Prop :=
  forall inside, inside ∈ tree.nodes ->
    inside.value.children.getD [] = inside.children.map fun child => child.value.id

/-- The nodes form a tree below the root node. -/
def IsTree (nodes : List ProfileNode) : Prop :=
  Exists fun tree : Rose ProfileNode => rootNode nodes = some tree.value ∧ Linked tree ∧ tree.values.Perm nodes

/-- The nodes form a forest, and none is a root node. -/
def IsForest (nodes : List ProfileNode) : Prop :=
  rootNode nodes = none ∧ Exists fun trees : List (Rose ProfileNode) =>
    (forall tree, tree ∈ trees -> Linked tree) ∧ (trees.flatMap Rose.values).Perm nodes

def DistinctIds (nodes : List ProfileNode) : Prop := (nodes.map ProfileNode.id).Nodup

variable {nodes : List ProfileNode} {charges : Charges}

theorem byId_of_mem (distinct : DistinctIds nodes) {node : ProfileNode} (member : node ∈ nodes) :
    byId nodes node.id = some node := by
  cases found : byId nodes node.id with
  | none =>
      have absent := List.find?_eq_none.mp found node (List.mem_reverse.mpr member)
      exact (absent (decide_eq_true rfl)).elim
  | some other =>
      have isMember := List.mem_reverse.mp (List.mem_of_find?_eq_some found)
      have same : other.id = node.id := of_decide_eq_true
        (@List.find?_some ProfileNode (fun other => decide (other.id = node.id)) other _ found)
      rw [List.inj_on_of_nodup_map distinct isMember member same]

theorem mem_values_of_mem_nodes {tree inside : Rose ProfileNode} (isInside : inside ∈ tree.nodes) :
    inside.value ∈ tree.values := by
  induction tree using Rose.induct with
  | node value children inductionHypothesis =>
      rw [Rose.nodes_node] at isInside
      rw [Rose.values_node]
      rcases List.mem_cons.mp isInside with rfl | below
      · exact List.mem_cons_self
      · rcases List.mem_flatMap.mp below with ⟨child, isChild, isBelow⟩
        exact List.mem_cons_of_mem _
          (List.mem_flatMap.mpr ⟨child, isChild, inductionHypothesis child isChild isBelow⟩)

theorem mem_nodes_of_child {tree inside child : Rose ProfileNode} (isInside : inside ∈ tree.nodes)
    (isChild : child ∈ inside.children) : child ∈ tree.nodes := by
  induction tree using Rose.induct with
  | node value children inductionHypothesis =>
      rw [Rose.nodes_node] at isInside
      rcases List.mem_cons.mp isInside with rfl | below
      · exact Rose.mem_nodes_of_child isChild (Rose.mem_nodes_self child)
      · rcases List.mem_flatMap.mp below with ⟨top, isTop, isBelow⟩
        exact Rose.mem_nodes_of_child isTop (inductionHypothesis top isTop isBelow)

/-- A linked tree of nodes of the profile is what their children unfold to. -/
theorem spans_of_linked (distinct : DistinctIds nodes) {tree : Rose ProfileNode} (linked : Linked tree)
    (subset : forall node, node ∈ tree.values -> node ∈ nodes) : Rose.Spans (childrenOf nodes) tree := by
  intro inside isInside
  rw [childrenOf, linked inside isInside, List.filterMap_map]
  have each : forall child, child ∈ inside.children -> (byId nodes ∘ fun child => child.value.id) child =
      some child.value := by
    intro child isChild
    exact byId_of_mem distinct (subset _ (mem_values_of_mem_nodes (mem_nodes_of_child isInside isChild)))
  rw [List.filterMap_congr each, List.filterMap_eq_map']

theorem build_of_linked (distinct : DistinctIds nodes) {tree : Rose ProfileNode} (linked : Linked tree)
    (subset : forall node, node ∈ tree.values -> node ∈ nodes) {depth : Nat}
    (enough : tree.values.length ≤ depth) :
    build nodes charges depth tree.value = some (flame charges tree) := by
  rw [build_eq, Rose.unfold_of_spans (spans_of_linked distinct linked subset) enough, Option.map_some]

end Profiling
end Telescope
