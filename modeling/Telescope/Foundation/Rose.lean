import Mathlib.Data.List.Flatten
import Mathlib.Algebra.BigOperators.Group.List.Basic

namespace Telescope

universe u v w

/-!
# Trees of any width

A tree is a value above a list of trees.  A function that lists the values below a value
unfolds it into a tree, if the unfolding ends; it ends for every tree whose values stand
as that function lists them, after as many levels as the tree has values.
-/

inductive Rose (α : Type u)
  | node (value : α) (children : List (Rose α))

namespace Rose

variable {α : Type u} {β : Type v}

def value : Rose α -> α
  | .node value _ => value

def children : Rose α -> List (Rose α)
  | .node _ children => children

/-- Induction on the trees inside a tree. -/
@[elab_as_elim]
theorem induct {motive : Rose α -> Prop}
    (node : forall value children, (forall child, child ∈ children -> motive child) ->
      motive (.node value children))
    (tree : Rose α) : motive tree :=
  @Rose.rec α motive (fun trees => forall tree, tree ∈ trees -> motive tree)
    (fun value children inside => node value children inside)
    (fun _tree member => (List.not_mem_nil member).elim)
    (fun _tree _trees first rest => List.forall_mem_cons.mpr ⟨first, rest⟩) tree

/-! ## Folds -/

mutual

def fold (combine : α -> List β -> β) (tree : Rose α) : β :=
  match tree with
  | .node value children => combine value (foldAll combine children)
termination_by structural tree

def foldAll (combine : α -> List β -> β) (trees : List (Rose α)) : List β :=
  match trees with
  | [] => []
  | tree :: trees => fold combine tree :: foldAll combine trees
termination_by structural trees

end

theorem foldAll_eq (combine : α -> List β -> β) (trees : List (Rose α)) :
    foldAll combine trees = trees.map (fold combine) := by
  induction trees with
  | nil => rfl
  | cons tree trees inductionHypothesis => rw [foldAll, inductionHypothesis, List.map_cons]

theorem fold_node (combine : α -> List β -> β) (value : α) (children : List (Rose α)) :
    fold combine (.node value children) = combine value (children.map (fold combine)) := by
  rw [fold, foldAll_eq]

/-- The values of a tree, each before those below it. -/
def values (tree : Rose α) : List α := tree.fold fun value below => value :: below.flatten

theorem values_node (value : α) (children : List (Rose α)) :
    (Rose.node value children).values = value :: children.flatMap values := by
  rw [values, fold_node, List.flatMap_def]
  rfl

/-- Weights added up over a tree. -/
theorem sum_values_node {M : Type v} [AddCommMonoid M] (weight : α -> M) (value : α) (children : List (Rose α)) :
    ((Rose.node value children).values.map weight).sum =
      weight value + (children.map fun child => (child.values.map weight).sum).sum := by
  rw [values_node, List.map_cons, List.sum_cons, List.map_flatMap, List.flatMap_def, List.sum_flatten, List.map_map]
  rfl

mutual

/-- The trees inside a tree, from the whole on. -/
def nodes (tree : Rose α) : List (Rose α) :=
  match tree with
  | .node value children => .node value children :: nodesAll children
termination_by structural tree

def nodesAll (trees : List (Rose α)) : List (Rose α) :=
  match trees with
  | [] => []
  | tree :: trees => nodes tree ++ nodesAll trees
termination_by structural trees

end

theorem nodesAll_eq (trees : List (Rose α)) : nodesAll trees = trees.flatMap nodes := by
  induction trees with
  | nil => rfl
  | cons tree trees inductionHypothesis => rw [nodesAll, inductionHypothesis, List.flatMap_cons]

theorem nodes_node (value : α) (children : List (Rose α)) :
    (Rose.node value children).nodes = .node value children :: children.flatMap nodes := by
  rw [nodes, nodesAll_eq]

theorem mem_nodes_self (tree : Rose α) : tree ∈ tree.nodes := by
  cases tree with
  | node value children =>
      rw [nodes_node]
      exact List.mem_cons_self

theorem mem_nodes_of_child {value : α} {children : List (Rose α)} {child inside : Rose α}
    (isChild : child ∈ children) (isInside : inside ∈ child.nodes) :
    inside ∈ (Rose.node value children).nodes := by
  rw [nodes_node]
  exact List.mem_cons_of_mem _ (List.mem_flatMap.mpr ⟨child, isChild, isInside⟩)

/-- What holds of a node above children of which it holds, holds inside a fold that
builds nodes. -/
theorem forall_nodes_fold {holds : Rose β -> Prop} (combine : α -> List (Rose β) -> β) (tree : Rose α)
    (local_ : forall value children, holds (.node (combine value children) children)) :
    forall inside, inside ∈ (tree.fold fun value below => Rose.node (combine value below) below).nodes ->
      holds inside := by
  induction tree using induct with
  | node value children inductionHypothesis =>
      intro inside member
      rw [fold_node, nodes_node] at member
      rcases List.mem_cons.mp member with rfl | below
      · exact local_ _ _
      · rcases List.mem_flatMap.mp below with ⟨child, isChild, isInside⟩
        rcases List.mem_map.mp isChild with ⟨source, isSource, rfl⟩
        exact inductionHypothesis source isSource inside isInside

/-! ## Unfolding -/

/-- The tree below a value, if it has no more levels than allowed. -/
def unfold (below : α -> List α) : Nat -> α -> Option (Rose α)
  | 0, _ => none
  | levels + 1, value => ((below value).mapM (unfold below levels)).map (.node value)

/-- Every value of the tree stands above the values that are listed below it. -/
def Spans (below : α -> List α) (tree : Rose α) : Prop :=
  forall inside, inside ∈ tree.nodes -> below inside.value = inside.children.map value

theorem Spans.child {below : α -> List α} {value : α} {children : List (Rose α)}
    (spans : Spans below (.node value children)) {child : Rose α} (isChild : child ∈ children) :
    Spans below child :=
  fun inside isInside => spans inside (mem_nodes_of_child isChild isInside)

theorem mapM_eq_some_of_forall {γ : Type w} {step : α -> Option γ} {values : List α} {results : List γ}
    (each : List.Forall₂ (fun value result => step value = some result) values results) :
    values.mapM step = some results := by
  induction each with
  | nil => rfl
  | cons isResult _ inductionHypothesis =>
      rw [List.mapM_cons, isResult, inductionHypothesis]
      rfl

theorem unfold_of_spans {below : α -> List α} {tree : Rose α} (spans : Spans below tree) {levels : Nat}
    (enough : tree.values.length ≤ levels) : unfold below levels tree.value = some tree := by
  induction tree using induct generalizing levels with
  | node value children inductionHypothesis =>
      rw [values_node, List.length_cons] at enough
      cases levels with
      | zero => omega
      | succ levels =>
          have isBelow : below value = children.map Rose.value := spans _ (mem_nodes_self _)
          have each : (children.map Rose.value).mapM (unfold below levels) = some children := by
            refine mapM_eq_some_of_forall (List.forall₂_map_left_iff.mpr ?_)
            refine List.forall₂_same.mpr fun child isChild => ?_
            refine inductionHypothesis child isChild (spans.child isChild) ?_
            have part := (List.sublist_flatten_of_mem (List.mem_map_of_mem (f := values) isChild)).length_le
            rw [← List.flatMap_def] at part
            omega
          change ((below value).mapM (unfold below levels)).map (Rose.node value) = some (.node value children)
          rw [isBelow, each]
          rfl

end Rose
end Telescope
