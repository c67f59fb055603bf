import Mathlib.Data.List.Induction
import Mathlib.Data.List.Perm.Basic

namespace Telescope
namespace Nesting

universe u

/-!
# Nesting by containment

Items come one after the other.  A stack holds those that are open, the innermost first.
An item closes the open ones that do not contain it, from the innermost on, and is opened
as a child of the first that does.  A tree is handed to its parent when it is closed, so
children stand in the order in which they came.

Where what an item closes cannot contain anything that the item itself does not contain,
the parent of an item is the last one before it that contains it.
-/

/-! ## Trees -/

/-- A tree whose nodes know their depth. -/
inductive Branch (α : Type u)
  | node (value : α) (depth : Nat) (children : List (Branch α))

namespace Branch

variable {α : Type u}

def value : Branch α -> α
  | .node value _ _ => value

def depth : Branch α -> Nat
  | .node _ depth _ => depth

def children : Branch α -> List (Branch α)
  | .node _ _ children => children

/-- A node without its children. -/
def head (tree : Branch α) : α × Nat := (tree.value, tree.depth)

/-- Induction on the trees inside a tree. -/
@[elab_as_elim]
theorem induct {motive : Branch α -> Prop}
    (node : forall value depth children, (forall child, child ∈ children -> motive child) ->
      motive (.node value depth children))
    (tree : Branch α) : motive tree :=
  @Branch.rec α motive (fun trees => forall tree, tree ∈ trees -> motive tree)
    (fun value depth children inside => node value depth children inside)
    (fun _tree member => (List.not_mem_nil member).elim)
    (fun _tree _trees first rest => List.forall_mem_cons.mpr ⟨first, rest⟩) tree

mutual

/-- The values of a tree, each before those below it. -/
def values (tree : Branch α) : List α :=
  match tree with
  | .node value _ children => value :: valuesAll children
termination_by structural tree

def valuesAll (trees : List (Branch α)) : List α :=
  match trees with
  | [] => []
  | tree :: trees => values tree ++ valuesAll trees
termination_by structural trees

end

mutual

/-- The pairs of a node and a child of it. -/
def edges (tree : Branch α) : List ((α × Nat) × (α × Nat)) :=
  match tree with
  | .node value depth children => (children.map fun child => ((value, depth), child.head)) ++ edgesAll children
termination_by structural tree

def edgesAll (trees : List (Branch α)) : List ((α × Nat) × (α × Nat)) :=
  match trees with
  | [] => []
  | tree :: trees => edges tree ++ edgesAll trees
termination_by structural trees

end

theorem valuesAll_eq (trees : List (Branch α)) : valuesAll trees = trees.flatMap values := by
  induction trees with
  | nil => rfl
  | cons tree trees inductionHypothesis => rw [valuesAll, inductionHypothesis, List.flatMap_cons]

theorem edgesAll_eq (trees : List (Branch α)) : edgesAll trees = trees.flatMap edges := by
  induction trees with
  | nil => rfl
  | cons tree trees inductionHypothesis => rw [edgesAll, inductionHypothesis, List.flatMap_cons]

theorem values_node (value : α) (depth : Nat) (children : List (Branch α)) :
    (node value depth children).values = value :: children.flatMap values := by
  rw [values, valuesAll_eq]

theorem edges_node (value : α) (depth : Nat) (children : List (Branch α)) :
    (node value depth children).edges =
      (children.map fun child => ((value, depth), child.head)) ++ children.flatMap edges := by
  rw [edges, edgesAll_eq]

mutual

/-- The same tree of other values. -/
def map {β : Type u} (f : α -> β) (tree : Branch α) : Branch β :=
  match tree with
  | .node value depth children => .node (f value) depth (mapAll f children)
termination_by structural tree

def mapAll {β : Type u} (f : α -> β) (trees : List (Branch α)) : List (Branch β) :=
  match trees with
  | [] => []
  | tree :: trees => map f tree :: mapAll f trees
termination_by structural trees

end

variable {β : Type u}

theorem mapAll_eq (f : α -> β) (trees : List (Branch α)) : mapAll f trees = trees.map (map f) := by
  induction trees with
  | nil => rfl
  | cons tree trees inductionHypothesis => rw [mapAll, inductionHypothesis, List.map_cons]

theorem map_node (f : α -> β) (value : α) (depth : Nat) (children : List (Branch α)) :
    (node value depth children).map f = .node (f value) depth (children.map (map f)) := by
  rw [map, mapAll_eq]

theorem values_map (f : α -> β) (tree : Branch α) : (tree.map f).values = tree.values.map f := by
  induction tree using induct with
  | node value depth children inductionHypothesis =>
      rw [map_node, values_node, values_node, List.map_cons, List.flatMap_map, List.map_flatMap]
      exact congrArg (f value :: ·) (List.flatMap_congr inductionHypothesis)

/-! ## The nodes below a node -/

mutual

/-- A tree with all the trees inside it. -/
def nodes (tree : Branch α) : List (Branch α) :=
  match tree with
  | .node value depth children => .node value depth children :: nodesAll children
termination_by structural tree

def nodesAll (trees : List (Branch α)) : List (Branch α) :=
  match trees with
  | [] => []
  | tree :: trees => nodes tree ++ nodesAll trees
termination_by structural trees

end

theorem nodesAll_eq (trees : List (Branch α)) : nodesAll trees = trees.flatMap nodes := by
  induction trees with
  | nil => rfl
  | cons tree trees inductionHypothesis => rw [nodesAll, inductionHypothesis, List.flatMap_cons]

theorem nodes_node (value : α) (depth : Nat) (children : List (Branch α)) :
    (node value depth children).nodes = node value depth children :: children.flatMap nodes := by
  rw [nodes, nodesAll_eq]

theorem nodes_map (f : α -> β) (tree : Branch α) : (tree.map f).nodes = tree.nodes.map (map f) := by
  induction tree using induct with
  | node value depth children inductionHypothesis =>
      rw [map_node, nodes_node, nodes_node, List.map_cons, List.flatMap_map, List.map_flatMap, map_node]
      exact congrArg (_ :: ·) (List.flatMap_congr inductionHypothesis)

/-- The values below the root of a tree. -/
def descendants (tree : Branch α) : List α := tree.children.flatMap values

theorem descendants_map (f : α -> β) (tree : Branch α) : (tree.map f).descendants = tree.descendants.map f := by
  rcases tree with ⟨value, depth, children⟩
  rw [map_node]
  change (children.map (map f)).flatMap values = (children.flatMap values).map f
  rw [List.flatMap_map, List.map_flatMap]
  exact List.flatMap_congr fun child _ => values_map f child

theorem value_map (f : α -> β) (tree : Branch α) : (tree.map f).value = f tree.value := by
  rcases tree with ⟨value, depth, children⟩
  rw [map_node]
  rfl

theorem values_eq (tree : Branch α) : tree.values = tree.value :: tree.descendants := by
  rcases tree with ⟨value, depth, children⟩
  exact values_node value depth children

theorem values_of_node {tree inside : Branch α} (isInside : inside ∈ tree.nodes) {value : α}
    (member : value ∈ inside.values) : value ∈ tree.values := by
  induction tree using induct with
  | node own depth children inductionHypothesis =>
      rw [nodes_node] at isInside
      rcases List.mem_cons.mp isInside with rfl | deeper
      · exact member
      · rcases List.mem_flatMap.mp deeper with ⟨child, isChild, inChild⟩
        rw [values_node]
        exact List.mem_cons_of_mem _ (List.mem_flatMap.mpr ⟨child, isChild, inductionHypothesis child isChild inChild⟩)

/-- A transitive relation between every node and its children holds between every node and what
is below it. -/
theorem forall_descendants_of_edges (relation : α -> α -> Prop)
    (transitive : forall first second third, relation first second -> relation second third -> relation first third)
    (tree : Branch α) (edges : forall edge, edge ∈ tree.edges -> relation edge.1.1 edge.2.1) :
    forall inside, inside ∈ tree.nodes -> forall value, value ∈ inside.descendants -> relation inside.value value := by
  induction tree using induct with
  | node value depth children inductionHypothesis =>
      rw [edges_node] at edges
      have fromChild : forall child, child ∈ children -> forall edge, edge ∈ child.edges ->
          relation edge.1.1 edge.2.1 :=
        fun child isChild edge member =>
          edges edge (List.mem_append_right _ (List.mem_flatMap.mpr ⟨child, isChild, member⟩))
      intro inside isInside lower isBelow
      rw [nodes_node] at isInside
      rcases List.mem_cons.mp isInside with rfl | deeper
      · rcases List.mem_flatMap.mp isBelow with ⟨child, isChild, inChild⟩
        have direct : relation value child.value :=
          edges ((value, depth), child.head) (List.mem_append_left _ (List.mem_map_of_mem isChild))
        rw [values_eq] at inChild
        rcases List.mem_cons.mp inChild with rfl | farther
        · exact direct
        · have self : child ∈ child.nodes := by
            rcases child with ⟨own, level, grandchildren⟩
            rw [nodes_node]
            exact List.mem_cons_self ..
          exact transitive _ _ _ direct (inductionHypothesis child isChild (fromChild child isChild) child self lower farther)
      · rcases List.mem_flatMap.mp deeper with ⟨child, isChild, inChild⟩
        exact inductionHypothesis child isChild (fromChild child isChild) inside inChild lower isBelow

/-! ## Rearranging children -/

mutual

/-- Every list of children put in another order, which may depend on the node. -/
def arrange (order : α -> List (Branch α) -> List (Branch α)) (tree : Branch α) : Branch α :=
  match tree with
  | .node value depth children => .node value depth (order value (arrangeAll order children))
termination_by structural tree

def arrangeAll (order : α -> List (Branch α) -> List (Branch α)) (trees : List (Branch α)) : List (Branch α) :=
  match trees with
  | [] => []
  | tree :: trees => arrange order tree :: arrangeAll order trees
termination_by structural trees

end

theorem arrangeAll_eq (order : α -> List (Branch α) -> List (Branch α)) (trees : List (Branch α)) :
    arrangeAll order trees = trees.map (arrange order) := by
  induction trees with
  | nil => rfl
  | cons tree trees inductionHypothesis => rw [arrangeAll, inductionHypothesis, List.map_cons]

theorem arrange_node (order : α -> List (Branch α) -> List (Branch α)) (value : α) (depth : Nat)
    (children : List (Branch α)) :
    (node value depth children).arrange order = .node value depth (order value (children.map (arrange order))) := by
  rw [arrange, arrangeAll_eq]

section Arrange

variable {order : α -> List (Branch α) -> List (Branch α)} (perm : forall value trees, (order value trees).Perm trees)

theorem head_arrange (tree : Branch α) : (tree.arrange order).head = tree.head := by
  rcases tree with ⟨value, depth, children⟩
  rw [arrange_node]
  rfl

include perm

theorem values_arrange (tree : Branch α) : (tree.arrange order).values.Perm tree.values := by
  induction tree using induct with
  | node value depth children inductionHypothesis =>
      rw [arrange_node, values_node, values_node]
      refine List.Perm.cons value (((perm value _).flatMap_right _).trans ?_)
      rw [List.flatMap_map]
      exact List.Perm.flatMap_left _ inductionHypothesis

theorem edges_arrange (tree : Branch α) : (tree.arrange order).edges.Perm tree.edges := by
  induction tree using induct with
  | node value depth children inductionHypothesis =>
      rw [arrange_node, edges_node, edges_node]
      refine List.Perm.append (((perm value _).map _).trans ?_) (((perm value _).flatMap_right _).trans ?_)
      · rw [List.map_map]
        refine List.Perm.of_eq (List.map_congr_left fun child _ => ?_)
        rw [Function.comp_apply, head_arrange]
      · rw [List.flatMap_map]
        exact List.Perm.flatMap_left _ inductionHypothesis

end Arrange

end Branch

/-! ## The stack -/

/-- An item that is open, with the children that are closed already. -/
structure Open (α : Type u) where
  value : α
  depth : Nat
  children : List (Branch α) := []

/-- The open items, the innermost first, and the closed roots. -/
structure Nest (α : Type u) where
  openStack : List (Open α) := []
  roots : List (Branch α) := []

section Nest

variable {α : Type u}

namespace Open

def head (item : Open α) : α × Nat := (item.value, item.depth)

/-- The item with one child more, or none. -/
def push (item : Open α) (closed : Option (Branch α)) : Open α :=
  { item with children := item.children ++ closed.toList }

def close (item : Open α) : Branch α := .node item.value item.depth item.children

end Open

/-- Close open items up to the first that is kept; the tree closed last goes to the next
one, or to the roots. -/
def pop (keeps : α -> Bool) (roots : List (Branch α)) : Option (Branch α) -> List (Open α) -> Nest α
  | closed, [] => { roots := roots ++ closed.toList }
  | closed, top :: rest =>
      if keeps top.value then { openStack := top.push closed :: rest, roots := roots }
      else pop keeps roots (some (top.push closed).close) rest

/-- The depth below the innermost open item. -/
def depthBelow : List (α × Nat) -> Nat
  | [] => 0
  | parent :: _ => parent.2 + 1

/-- Close the innermost open items that do not contain an item. -/
def popped (contains : α -> α -> Bool) (nest : Nest α) (item : α) : Nest α :=
  pop (fun outer => contains outer item) nest.roots none nest.openStack

/-- Open an item below those that are open. -/
def descend (nest : Nest α) (item : α) : Nest α :=
  { nest with openStack := { value := item, depth := depthBelow (nest.openStack.map Open.head) } :: nest.openStack }

def enter (contains : α -> α -> Bool) (nest : Nest α) (item : α) : Nest α := descend (popped contains nest item) item

def enterAll (contains : α -> α -> Bool) (items : List α) : Nest α := items.foldl (enter contains) {}

/-- The roots once everything is closed. -/
def closeAll (roots : List (Branch α)) : Option (Branch α) -> List (Open α) -> List (Branch α)
  | closed, [] => roots ++ closed.toList
  | closed, top :: rest => closeAll roots (some (top.push closed).close) rest

def Nest.close (nest : Nest α) : List (Branch α) := closeAll nest.roots none nest.openStack

/-- The trees of the items. -/
def nestAll (contains : α -> α -> Bool) (items : List α) : List (Branch α) := (enterAll contains items).close

/-! ## What entering an item does -/

theorem closeAll_pop (keeps : α -> Bool) (roots : List (Branch α)) (closed : Option (Branch α))
    (stack : List (Open α)) : (pop keeps roots closed stack).close = closeAll roots closed stack := by
  induction stack generalizing closed with
  | nil => exact List.append_nil _
  | cons top rest inductionHypothesis =>
      rw [pop]
      split
      · change closeAll roots (some ((top.push closed).push none).close) rest = _
        rw [Open.push, Option.toList_none, List.append_nil]
        rfl
      · exact inductionHypothesis _

/-- The open items after closing some, without their children. -/
theorem heads_pop (keeps : α -> Bool) (roots : List (Branch α)) (closed : Option (Branch α))
    (stack : List (Open α)) : (pop keeps roots closed stack).openStack.map Open.head =
      (stack.map Open.head).dropWhile fun outer => !keeps outer.1 := by
  induction stack generalizing closed with
  | nil => rfl
  | cons top rest inductionHypothesis =>
      rw [pop, List.map_cons, List.dropWhile_cons]
      by_cases kept : keeps top.value = true
      · have stays : ¬ (!keeps top.head.1) = true := by
          rw [Bool.not_eq_true', Bool.not_eq_false]
          exact kept
        rw [if_pos kept, if_neg stays]
        rfl
      · have goes : (!keeps top.head.1) = true := Bool.not_eq_true' _ ▸ Bool.eq_false_iff.mpr kept
        rw [if_neg kept, if_pos goes]
        exact inductionHypothesis _

/-- The values of the open items, with those below them. -/
def openValues : List (Open α) -> List α
  | [] => []
  | top :: rest => openValues rest ++ top.value :: top.children.flatMap Branch.values

theorem values_closeAll (roots : List (Branch α)) (closed : Option (Branch α)) (stack : List (Open α)) :
    (closeAll roots closed stack).flatMap Branch.values =
      roots.flatMap Branch.values ++ openValues stack ++ closed.toList.flatMap Branch.values := by
  induction stack generalizing closed with
  | nil => rw [closeAll, List.flatMap_append, openValues, List.append_nil]
  | cons top rest inductionHypothesis =>
      rw [closeAll, inductionHypothesis, openValues, Option.toList_some, List.flatMap_singleton, Open.close,
        Branch.values_node, Open.push, List.flatMap_append]
      simp only [List.append_assoc, List.cons_append]

/-- The pairs of a parent and a child among the open items and below them. -/
def openEdges : List (Open α) -> List ((α × Nat) × (α × Nat))
  | [] => []
  | top :: rest =>
      openEdges rest ++ (rest.head?.toList.map fun parent => (parent.head, top.head)) ++
        (top.children.map fun child => (top.head, child.head)) ++ top.children.flatMap Branch.edges

variable {edge : (α × Nat) × (α × Nat)}

theorem mem_edges_closeAll {roots : List (Branch α)} {closed : Option (Branch α)} {stack : List (Open α)} :
    edge ∈ (closeAll roots closed stack).flatMap Branch.edges <->
      edge ∈ roots.flatMap Branch.edges ∨ edge ∈ openEdges stack ∨ edge ∈ closed.toList.flatMap Branch.edges ∨
        Exists fun parent => Exists fun child => stack.head? = some parent ∧ closed = some child ∧
          edge = (parent.head, child.head) := by
  induction stack generalizing closed with
  | nil =>
      rw [closeAll, List.flatMap_append, List.mem_append]
      simp only [openEdges, List.not_mem_nil, List.head?_nil, reduceCtorEq, false_and, exists_false, or_false,
        false_or]
  | cons top rest inductionHypothesis =>
      rw [closeAll, inductionHypothesis]
      simp only [openEdges, Option.toList_some, List.flatMap_singleton, Open.close, Branch.edges_node, Open.push,
        List.mem_append, List.map_append, List.flatMap_append, List.mem_map, List.head?_cons, Option.some.injEq,
        exists_eq_left', exists_and_left, Option.mem_toList, @eq_comm _ edge]
      have sameHead : (Branch.node top.value top.depth (top.children ++ closed.toList)).head = top.head := rfl
      have sameValue : (top.value, top.depth) = top.head := rfl
      simp only [sameHead, sameValue, or_assoc, or_comm, or_left_comm]

/-! ## What opening an item does -/

theorem values_descend (nest : Nest α) (item : α) :
    (descend nest item).close.flatMap Branch.values = nest.close.flatMap Branch.values ++ [item] := by
  rw [Nest.close, Nest.close, values_closeAll, values_closeAll]
  simp only [descend, openValues, Option.toList_none, List.flatMap_nil, List.append_nil, List.append_assoc]

theorem mem_edges_descend {nest : Nest α} {item : α} :
    edge ∈ (descend nest item).close.flatMap Branch.edges <->
      edge ∈ nest.close.flatMap Branch.edges ∨
        edge.2.1 = item ∧ nest.openStack.head?.map Open.head = some edge.1 ∧ edge.2.2 = edge.1.2 + 1 := by
  have attached : edge ∈ (nest.openStack.head?.toList.map fun parent =>
      (parent.head, (item, depthBelow (nest.openStack.map Open.head)))) <->
      edge.2.1 = item ∧ nest.openStack.head?.map Open.head = some edge.1 ∧ edge.2.2 = edge.1.2 + 1 := by
    rcases edge with ⟨parent, child, depth⟩
    cases nest.openStack with
    | nil => exact iff_of_false (List.not_mem_nil (a := _)) fun found => by cases found.2.1
    | cons top rest =>
        simp only [List.head?_cons, Option.toList_some, List.map_cons, List.map_nil, List.mem_singleton,
          Prod.mk.injEq, Option.map_some, Option.some.injEq, depthBelow]
        constructor
        · rintro ⟨rfl, rfl, rfl⟩
          exact ⟨rfl, rfl, rfl⟩
        · rintro ⟨rfl, rfl, rfl⟩
          exact ⟨rfl, rfl, rfl⟩
  rw [Nest.close, Nest.close, mem_edges_closeAll, mem_edges_closeAll, ← attached]
  simp only [descend, openEdges, Option.toList_none, List.map_nil, List.append_nil, List.flatMap_nil,
    List.not_mem_nil, reduceCtorEq, false_and, and_false, exists_false, or_false, List.mem_append, or_assoc]
  rfl

theorem heads_closeAll (roots : List (Branch α)) (closed : Option (Branch α)) (stack : List (Open α)) :
    (closeAll roots closed stack).map Branch.head =
      roots.map Branch.head ++ ((stack.getLast?.map Open.head).or (closed.map Branch.head)).toList := by
  induction stack generalizing closed with
  | nil => cases closed <;> simp [closeAll]
  | cons top rest inductionHypothesis =>
      rw [closeAll, inductionHypothesis, List.getLast?_cons]
      cases rest.getLast? <;> rfl

/-- An item is a root where nothing is open. -/
theorem heads_descend (nest : Nest α) (item : α) : (descend nest item).close.map Branch.head =
    nest.close.map Branch.head ++ if nest.openStack.isEmpty then [(item, 0)] else [] := by
  rw [Nest.close, Nest.close, heads_closeAll, heads_closeAll, descend, List.getLast?_cons]
  cases opened : nest.openStack with
  | nil => simp [Open.head, depthBelow]
  | cons top rest => rw [List.getLast?_cons]; simp

/-! ## The trail -/

/-- The parent that open items give to an item. -/
def parentIn (contains : α -> α -> Bool) (trail : List (α × Nat)) (item : α) : Option (α × Nat) :=
  trail.find? fun outer => contains outer.1 item

/-- The open items and their depths, once one more is open. -/
def extend (contains : α -> α -> Bool) (trail : List (α × Nat)) (item : α) : List (α × Nat) :=
  let left := trail.dropWhile fun outer => !contains outer.1 item
  (item, depthBelow left) :: left

def trailOf (contains : α -> α -> Bool) (items : List α) : List (α × Nat) := items.foldl (extend contains) []

theorem head?_dropWhile (accepts : α -> Bool) (list : List α) :
    (list.dropWhile fun element => !accepts element).head? = list.find? accepts := by
  induction list with
  | nil => rfl
  | cons first rest inductionHypothesis =>
      rw [List.dropWhile_cons, List.find?_cons]
      cases accepts first with
      | true => rfl
      | false => exact inductionHypothesis

variable {contains : α -> α -> Bool}

theorem parentIn_eq (trail : List (α × Nat)) (item : α) :
    (trail.dropWhile fun outer => !contains outer.1 item).head? = parentIn contains trail item :=
  head?_dropWhile (fun outer => contains outer.1 item) trail

theorem enterAll_append (items : List α) (item : α) :
    enterAll contains (items ++ [item]) = enter contains (enterAll contains items) item :=
  List.foldl_append

theorem trailOf_append (items : List α) (item : α) :
    trailOf contains (items ++ [item]) = extend contains (trailOf contains items) item :=
  List.foldl_append

theorem heads_popped (nest : Nest α) (item : α) : (popped contains nest item).openStack.map Open.head =
    (nest.openStack.map Open.head).dropWhile fun outer => !contains outer.1 item :=
  heads_pop _ _ _ _

theorem close_popped (nest : Nest α) (item : α) : (popped contains nest item).close = nest.close :=
  closeAll_pop _ _ _ _

/-- The stack holds the trail. -/
theorem heads_enterAll (items : List α) :
    (enterAll contains items).openStack.map Open.head = trailOf contains items := by
  induction items using List.reverseRecOn with
  | nil => rfl
  | append_singleton items item inductionHypothesis =>
      rw [enterAll_append, trailOf_append, enter, descend, List.map_cons, heads_popped, inductionHypothesis]
      rfl

/-- The parent of an item is the innermost open one that contains it. -/
theorem head?_popped (items : List α) (item : α) :
    (popped contains (enterAll contains items) item).openStack.head?.map Open.head =
      parentIn contains (trailOf contains items) item := by
  rw [← List.head?_map, heads_popped, heads_enterAll, parentIn_eq]

/-! ## The trees of a list -/

/-- Every item is in the trees once. -/
theorem values_nestAll (items : List α) : (nestAll contains items).flatMap Branch.values = items := by
  induction items using List.reverseRecOn with
  | nil => rfl
  | append_singleton items item inductionHypothesis =>
      rw [nestAll, enterAll_append, enter, values_descend, close_popped]
      exact congrArg (· ++ [item]) inductionHypothesis

variable {items : List α}

/-- Where an item stands once one more has come. -/
theorem split_append_iff {before after : List α} {item last : α} :
    items ++ [last] = before ++ item :: after <->
      (before = items ∧ item = last ∧ after = []) ∨
        Exists fun earlier => after = earlier ++ [last] ∧ items = before ++ item :: earlier := by
  rcases List.eq_nil_or_concat' after with rfl | ⟨earlier, final, rfl⟩
  · constructor
    · intro same
      rcases List.append_inj' same rfl with ⟨sameFront, sameLast⟩
      exact .inl ⟨sameFront.symm, (List.singleton_inj.mp sameLast).symm, rfl⟩
    · rintro (⟨rfl, rfl, _⟩ | ⟨earlier, impossible, _⟩)
      · rfl
      · exact (List.append_ne_nil_of_right_ne_nil earlier (List.cons_ne_nil last []) impossible.symm).elim
  · constructor
    · intro same
      have regrouped : items ++ [last] = (before ++ item :: earlier) ++ [final] := by
        rw [same, List.append_assoc, List.cons_append]
      rcases List.append_inj' regrouped rfl with ⟨sameFront, sameLast⟩
      rw [List.singleton_inj.mp sameLast]
      exact .inr ⟨earlier, rfl, sameFront⟩
    · rintro (⟨_, _, impossible⟩ | ⟨others, sameAfter, rfl⟩)
      · exact (List.append_ne_nil_of_right_ne_nil earlier (List.cons_ne_nil final []) impossible).elim
      · rw [sameAfter, List.append_assoc, List.cons_append]

/-- An item hangs below the innermost one that contains it and was open when it came. -/
theorem mem_edges_nestAll :
    edge ∈ (nestAll contains items).flatMap Branch.edges <->
      Exists fun before => Exists fun after => items = before ++ edge.2.1 :: after ∧
        parentIn contains (trailOf contains before) edge.2.1 = some edge.1 ∧ edge.2.2 = edge.1.2 + 1 := by
  induction items using List.reverseRecOn with
  | nil =>
      refine iff_of_false (List.not_mem_nil (a := _)) ?_
      rintro ⟨before, after, impossible, _⟩
      exact List.append_ne_nil_of_right_ne_nil before (List.cons_ne_nil _ after) impossible.symm
  | append_singleton items item inductionHypothesis =>
      rw [nestAll, enterAll_append, enter, mem_edges_descend, close_popped, head?_popped]
      change edge ∈ (nestAll contains items).flatMap Branch.edges ∨ _ <-> _
      rw [inductionHypothesis]
      simp only [split_append_iff]
      constructor
      · rintro (⟨before, after, split, parent⟩ | ⟨rfl, parent⟩)
        · exact ⟨before, after ++ [item], .inr ⟨after, rfl, split⟩, parent⟩
        · exact ⟨items, [], .inl ⟨rfl, rfl, rfl⟩, parent⟩
      · rintro ⟨before, after, ⟨rfl, same, _⟩ | ⟨earlier, _, split⟩, parent⟩
        · exact .inr ⟨same, same ▸ parent⟩
        · exact .inl ⟨before, earlier, split, parent⟩

/-- An item is a root when nothing that was open when it came contains it. -/
theorem mem_heads_nestAll {root : α × Nat} :
    root ∈ (nestAll contains items).map Branch.head <->
      Exists fun before => Exists fun after => items = before ++ root.1 :: after ∧
        parentIn contains (trailOf contains before) root.1 = none ∧ root.2 = 0 := by
  induction items using List.reverseRecOn with
  | nil =>
      refine iff_of_false (List.not_mem_nil (a := _)) ?_
      rintro ⟨before, after, impossible, _⟩
      exact List.append_ne_nil_of_right_ne_nil before (List.cons_ne_nil _ after) impossible.symm
  | append_singleton items item inductionHypothesis =>
      rw [nestAll, enterAll_append, enter, heads_descend, close_popped]
      change root ∈ (nestAll contains items).map Branch.head ++ _ <-> _
      have entered : (root ∈ if (popped contains (enterAll contains items) item).openStack.isEmpty
          then [(item, 0)] else []) <->
          root.1 = item ∧ parentIn contains (trailOf contains items) item = none ∧ root.2 = 0 := by
        rw [← head?_popped]
        cases (popped contains (enterAll contains items) item).openStack with
        | nil => simp [Prod.ext_iff]
        | cons top rest => simp
      rw [List.mem_append, inductionHypothesis, entered]
      simp only [split_append_iff]
      constructor
      · rintro (⟨before, after, split, parent⟩ | ⟨rfl, parent⟩)
        · exact ⟨before, after ++ [item], .inr ⟨after, rfl, split⟩, parent⟩
        · exact ⟨items, [], .inl ⟨rfl, rfl, rfl⟩, parent⟩
      · rintro ⟨before, after, ⟨rfl, same, _⟩ | ⟨earlier, _, split⟩, parent⟩
        · exact .inr ⟨same, same ▸ parent⟩
        · exact .inl ⟨before, earlier, split, parent⟩

/-! ## The innermost of all -/

theorem fst_mem_trailOf {outer : α × Nat} (member : outer ∈ trailOf contains items) :
    outer.1 ∈ items := by
  induction items using List.reverseRecOn with
  | nil => exact (List.not_mem_nil member).elim
  | append_singleton items item inductionHypothesis =>
      rw [trailOf_append, extend] at member
      rcases List.mem_cons.mp member with rfl | left
      · exact List.mem_append_right _ (List.mem_singleton_self item)
      · exact List.mem_append_left _ (inductionHypothesis ((List.dropWhile_sublist _).subset left))

theorem find?_dropWhile {drops accepts : α -> Bool} {list : List α}
    (refused : forall element, element ∈ list -> drops element = true -> accepts element = false) :
    (list.dropWhile drops).find? accepts = list.find? accepts := by
  induction list with
  | nil => rfl
  | cons first rest inductionHypothesis =>
      rcases List.forall_mem_cons.mp refused with ⟨refusedFirst, refusedRest⟩
      rw [List.dropWhile_cons]
      cases dropped : drops first with
      | true =>
          rw [if_pos rfl, List.find?_cons, refusedFirst dropped]
          exact inductionHypothesis refusedRest
      | false => rfl

/-- Where what an item closes contains nothing later that the item does not contain, the
parent is the last item so far that contains the next. -/
theorem parentIn_trailOf {follows : α -> α -> Prop}
    (crossing : forall closed item later, follows closed item -> follows item later -> follows closed later ->
      contains closed item = false -> contains closed later = true -> contains item later = true)
    (ordered : items.Pairwise follows) {later : α} (last : forall item, item ∈ items -> follows item later) :
    (parentIn contains (trailOf contains items) later).map Prod.fst =
      items.reverse.find? fun outer => contains outer later := by
  induction items using List.reverseRecOn with
  | nil => rfl
  | append_singleton items item inductionHypothesis =>
      rcases List.pairwise_append.mp ordered with ⟨orderedItems, _, beforeItem⟩
      have itemLast : follows item later := last item (List.mem_append_right _ (List.mem_singleton_self item))
      have itemsLast : forall earlier, earlier ∈ items -> follows earlier later := fun earlier member =>
        last earlier (List.mem_append_left _ member)
      rw [trailOf_append, extend, parentIn, List.find?_cons, List.reverse_append, List.reverse_singleton,
        List.singleton_append, List.find?_cons]
      cases inside : contains item later with
      | true => rfl
      | false =>
          refine Eq.trans (congrArg _ (find?_dropWhile fun outer member dropped => ?_))
            (inductionHypothesis orderedItems itemsLast)
          have earlier := fst_mem_trailOf member
          refine Bool.eq_false_iff.mpr fun surrounds => Bool.false_ne_true (inside ▸ ?_)
          exact crossing outer.1 item later (beforeItem _ earlier item (List.mem_singleton_self item)) itemLast
            (itemsLast _ earlier) (Bool.not_eq_true' _ ▸ dropped) surrounds

end Nest

end Nesting
end Telescope
