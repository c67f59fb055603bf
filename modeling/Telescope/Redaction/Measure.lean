import Telescope.Core.Redaction
import Mathlib.Algebra.Order.BigOperators.Group.List

namespace Telescope
namespace Redaction

/-!
# Walks without truncation

A walk that clips nothing returns the clone that has no bounds at all, and a value that
fits the bounds is walked without clipping.  What is measured of a value is its nodes,
its bytes, its height, its longest string and its widest array.
-/

/-! ## Measures -/

/-- The nodes of a value. -/
def nodeCount : Value -> Nat :=
  Value.fold
    { leaf _value := 1
      array counts := 1 + counts.sum
      object counts := 1 + (counts.map Prod.snd).sum }

def stringLength : Value -> Nat
  | .string text => text.length
  | _ => 0

/-- The bytes of a value, as the walk charges them. -/
def byteCount : Value -> Nat :=
  Value.fold
    { leaf value := NODE_BYTE_OVERHEAD + stringLength value
      array counts := NODE_BYTE_OVERHEAD + counts.sum
      object counts := NODE_BYTE_OVERHEAD + (counts.map fun count => count.1.length + count.2).sum }

def largest (numbers : List Nat) : Nat := numbers.foldr max 0

/-- How deep objects and arrays are nested. -/
def height : Value -> Nat :=
  Value.fold
    { leaf _value := 0
      array heights := 1 + largest heights
      object heights := 1 + largest (heights.map Prod.snd) }

def longest : Value -> Nat :=
  Value.fold
    { leaf := stringLength
      array := largest
      object lengths := largest (lengths.map Prod.snd) }

def widest : Value -> Nat :=
  Value.fold
    { leaf _value := 0
      array widths := max widths.length (largest widths)
      object widths := largest (widths.map Prod.snd) }

/-- A value that JSON can denote: its numbers are finite and its keys distinct. -/
def IsJson : Value -> Prop :=
  Value.fold
    { leaf value :=
        match value with
        | .null => True
        | .boolean _value => True
        | .number value => value.isFinite = true
        | .string _text => True
        | _ => False
      array elements := forall element, element ∈ elements -> element
      object fields := (fields.map Prod.fst).Nodup ∧ forall field, field ∈ fields -> field.2 }

/-- The value fits all the bounds. -/
structure Fits (limits : Limits) (value : Value) : Prop where
  height : height value ≤ limits.maxDepth
  longest : longest value ≤ limits.maxStringLength
  widest : widest value ≤ limits.maxArrayLength
  nodeCount : nodeCount value ≤ limits.maxNodes
  byteCount : byteCount value ≤ limits.maxContentBytes

theorem le_largest {numbers : List Nat} {number : Nat} (member : number ∈ numbers) :
    number ≤ largest numbers := by
  induction numbers with
  | nil => exact (List.not_mem_nil member).elim
  | cons first numbers inductionHypothesis =>
      rw [largest, List.foldr_cons]
      rcases List.mem_cons.mp member with isFirst | inRest
      · rw [isFirst]
        exact le_max_left _ _
      · exact (inductionHypothesis inRest).trans (le_max_right _ _)

theorem isJson_array {elements : List Value} :
    IsJson (.array elements) <-> forall element, element ∈ elements -> IsJson element := by
  rw [IsJson, Value.fold_array]
  exact List.forall_mem_map

theorem isJson_object {fields : List (Units × Value)} :
    IsJson (.object fields) <->
      (fields.map Prod.fst).Nodup ∧ forall field, field ∈ fields -> IsJson field.2 := by
  rw [IsJson, Value.fold_object]
  refine and_congr ?_ List.forall_mem_map
  rw [List.map_map]
  rfl

section Array

variable (elements : List Value)

theorem nodeCount_array : nodeCount (.array elements) = 1 + (elements.map nodeCount).sum :=
  Value.fold_array _ elements

theorem byteCount_array : byteCount (.array elements) = NODE_BYTE_OVERHEAD + (elements.map byteCount).sum :=
  Value.fold_array _ elements

theorem height_array : height (.array elements) = 1 + largest (elements.map height) := Value.fold_array _ elements

theorem longest_array : longest (.array elements) = largest (elements.map longest) := Value.fold_array _ elements

theorem widest_array : widest (.array elements) = max elements.length (largest (elements.map widest)) := by
  rw [widest, Value.fold_array]
  dsimp only
  rw [List.length_map]

end Array

section Object

variable (fields : List (Units × Value))

theorem nodeCount_object :
    nodeCount (.object fields) = 1 + (fields.map fun field => nodeCount field.2).sum := by
  rw [nodeCount, Value.fold_object]
  dsimp only
  rw [List.map_map]
  rfl

theorem byteCount_object : byteCount (.object fields) =
    NODE_BYTE_OVERHEAD + (fields.map fun field => field.1.length + byteCount field.2).sum := by
  rw [byteCount, Value.fold_object]
  dsimp only
  rw [List.map_map]
  rfl

theorem height_object : height (.object fields) = 1 + largest (fields.map fun field => height field.2) := by
  rw [height, Value.fold_object]
  dsimp only
  rw [List.map_map]
  rfl

theorem longest_object : longest (.object fields) = largest (fields.map fun field => longest field.2) := by
  rw [longest, Value.fold_object]
  dsimp only
  rw [List.map_map]
  rfl

theorem widest_object : widest (.object fields) = largest (fields.map fun field => widest field.2) := by
  rw [widest, Value.fold_object]
  dsimp only
  rw [List.map_map]
  rfl

end Object

/-- Every value fits some bounds. -/
theorem fits_measured (value : Value) (mask : Units) :
    Fits ⟨mask, height value, longest value, widest value, nodeCount value, byteCount value⟩ value :=
  ⟨Nat.le_refl _, Nat.le_refl _, Nat.le_refl _, Nat.le_refl _, Nat.le_refl _⟩

/-! ## The clone without bounds -/

section Clone

variable (spec : CompiledRedactSpec) (mask : Units)

def cloneLeaf : Value -> Value
  | .circular => .string CIRCULAR_MARKER
  | value => value

/-- The clone that a walk without bounds makes, at a location. -/
def clone : Value -> Units -> Value :=
  Value.fold
    { leaf value _path := cloneLeaf value
      array children path :=
        .array (children.mapIdx fun index child => child (childPath path (Number.digits index)))
      object children path :=
        .object (children.foldl (fun result child => Fields.assign result child.1
          (if masked spec path child.1 then .string mask else child.2 (childPath path child.1))) []) }

/-- The fields of a clone, one after another. -/
def cloneField (path : Units) (result : List (Units × Value)) (field : Units × Value) : List (Units × Value) :=
  Fields.assign result field.1
    (if masked spec path field.1 then .string mask else clone spec mask field.2 (childPath path field.1))

theorem mapIdx_map {α β γ : Type*} (change : α -> β) (place : Nat -> β -> γ) (list : List α) :
    (list.map change).mapIdx place = list.mapIdx fun index element => place index (change element) := by
  induction list generalizing place with
  | nil => rfl
  | cons element list inductionHypothesis =>
      rw [List.map_cons, List.mapIdx_cons, List.mapIdx_cons, inductionHypothesis]

theorem clone_array (elements : List Value) (path : Units) : clone spec mask (.array elements) path =
    .array (elements.mapIdx fun index element => clone spec mask element (childPath path (Number.digits index))) := by
  rw [clone, Value.fold_array]
  dsimp only
  rw [mapIdx_map]

theorem clone_object (fields : List (Units × Value)) (path : Units) :
    clone spec mask (.object fields) path = .object (fields.foldl (cloneField spec mask path) []) := by
  rw [clone, Value.fold_object]
  dsimp only
  rw [List.foldl_map]
  rfl

end Clone

end Redaction
end Telescope
