import Telescope.Redaction.Measure

namespace Telescope
namespace Redaction

/-!
# Walks without truncation

A walk that clips nothing returns the clone that has no bounds at all.  A value that
fits the bounds is walked without clipping.
-/

variable {limits : Limits} {spec : CompiledRedactSpec}

/-! ## The walk by kinds of values -/

variable {budget : Budget}

theorem walk_spent (spent : budget.spent = true) (value : Value) (path : Units) (depth : Nat) :
    walk limits spec value path depth budget = (.string SIZE_MARKER, budget.clip) := by
  rw [walk.eq_def]
  exact if_pos spent

theorem walk_array (isLeft : budget.spent = false) {depth : Nat} (shallow : depth < limits.maxDepth)
    (elements : List Value) (path : Units) :
    walk limits spec (.array elements) path depth budget =
      if limits.maxArrayLength < elements.length then
        (.array ((walkElements limits spec elements path 0 (depth + 1) budget.visit).1 ++
            [.string (itemsMarker limits.maxArrayLength elements.length)]),
          (walkElements limits spec elements path 0 (depth + 1) budget.visit).2.clip)
      else
        (.array (walkElements limits spec elements path 0 (depth + 1) budget.visit).1,
          (walkElements limits spec elements path 0 (depth + 1) budget.visit).2) := by
  rw [walk, isLeft, if_neg Bool.false_ne_true, if_neg (Nat.not_le.mpr shallow)]

theorem walk_object (isLeft : budget.spent = false) {depth : Nat} (shallow : depth < limits.maxDepth)
    (fields : List (Units × Value)) (path : Units) :
    walk limits spec (.object fields) path depth budget =
      (.object (walkFields limits spec fields path (depth + 1) [] budget.visit).1,
        (walkFields limits spec fields path (depth + 1) [] budget.visit).2) := by
  rw [walk, isLeft, if_neg Bool.false_ne_true, if_neg (Nat.not_le.mpr shallow)]

/-- An object or array at the greatest depth is cut off. -/
theorem walk_deep (isLeft : budget.spent = false) {depth : Nat} (deep : limits.maxDepth ≤ depth) {value : Value}
    (container : ¬ value.IsLeaf) (path : Units) :
    walk limits spec value path depth budget = (.string DEPTH_MARKER, budget.visit.clip) := by
  cases value with
  | array elements => rw [walk, isLeft, if_neg Bool.false_ne_true, if_pos deep]
  | object fields => rw [walk, isLeft, if_neg Bool.false_ne_true, if_pos deep]
  | _ => exact (container trivial).elim

/-- What becomes of a leaf. -/
def walkLeaf (limits : Limits) (budget : Budget) : Value -> Value × Budget
  | .string text => walkString limits text budget.visit
  | .binary name byteLength => (.string (binaryMarker name byteLength), budget.visit.clip)
  | .circular => (.string CIRCULAR_MARKER, budget.visit)
  | value => (value, budget.visit)

theorem walk_leaf (isLeft : budget.spent = false) {value : Value} (leaf : value.IsLeaf) (path : Units) (depth : Nat) :
    walk limits spec value path depth budget = walkLeaf limits budget value := by
  cases value with
  | array elements => exact leaf.elim
  | object fields => exact leaf.elim
  | _ =>
      rw [walk.eq_def, isLeft]
      rfl

/-! ## The loops -/

theorem walkElements_spent (spent : budget.spent = true) {index : Nat} (below : index < limits.maxArrayLength)
    (element : Value) (elements : List Value) (path : Units) (depth : Nat) :
    walkElements limits spec (element :: elements) path index depth budget =
      ([.string SIZE_MARKER], budget.clip) := by
  rw [walkElements, if_neg (Nat.not_le.mpr below), spent]
  rfl

theorem walkElements_cons (isLeft : budget.spent = false) {index : Nat} (below : index < limits.maxArrayLength)
    (element : Value) (elements : List Value) (path : Units) (depth : Nat) :
    walkElements limits spec (element :: elements) path index depth budget =
      ((walk limits spec element (childPath path (Number.digits index)) depth budget).1 ::
          (walkElements limits spec elements path (index + 1) depth
            (walk limits spec element (childPath path (Number.digits index)) depth budget).2).1,
        (walkElements limits spec elements path (index + 1) depth
          (walk limits spec element (childPath path (Number.digits index)) depth budget).2).2) := by
  rw [walkElements, if_neg (Nat.not_le.mpr below), isLeft]
  rfl

section Field

variable {path key : Units} (value : Value) (fields : List (Units × Value)) (depth : Nat)
  (result : List (Units × Value))

theorem walkFields_spent (spent : budget.spent = true) :
    walkFields limits spec ((key, value) :: fields) path depth result budget =
      (Fields.assign result (units "…") (.string SIZE_MARKER), budget.clip) := by
  rw [walkFields, spent]
  rfl

theorem walkFields_masked (isLeft : budget.spent = false) (isMasked : masked spec path key = true) :
    walkFields limits spec ((key, value) :: fields) path depth result budget =
      walkFields limits spec fields path depth (Fields.assign result key (.string limits.mask))
        (budget.charge key.length) := by
  rw [walkFields, isLeft, isMasked]
  rfl

theorem walkFields_child (isLeft : budget.spent = false) (notMasked : masked spec path key = false) :
    walkFields limits spec ((key, value) :: fields) path depth result budget =
      walkFields limits spec fields path depth
        (Fields.assign result key
          (walk limits spec value (childPath path key) depth (budget.charge key.length)).1)
        (walk limits spec value (childPath path key) depth (budget.charge key.length)).2 := by
  rw [walkFields, isLeft, notMasked]
  rfl

end Field

/-! ## Nothing is clipped -/

/-- The walk of a value, where it clips nothing, makes the clone without bounds. -/
def ClonesWhole (limits : Limits) (spec : CompiledRedactSpec) (value : Value) : Prop :=
  forall (path : Units) (depth : Nat) (budget : Budget),
    (walk limits spec value path depth budget).2.truncated = false ->
      budget.truncated = false ∧
        (walk limits spec value path depth budget).1 = clone spec limits.mask value path

theorem clonesWhole_leaf {value : Value} (leaf : value.IsLeaf) : ClonesWhole limits spec value := by
  intro path depth budget whole
  cases spent : budget.spent with
  | true =>
      rw [walk_spent spent] at whole
      cases whole
  | false =>
      rw [walk_leaf spent leaf] at whole ⊢
      rw [clone, Value.fold_leaf _ leaf]
      cases value with
      | array elements => exact leaf.elim
      | object fields => exact leaf.elim
      | string text =>
          rw [walkLeaf, walkString] at whole ⊢
          by_cases long : limits.maxStringLength < text.length
          · rw [if_pos long] at whole
            cases whole
          · rw [if_neg long] at whole ⊢
            exact ⟨whole, rfl⟩
      | binary name byteLength => cases whole
      | _ => exact ⟨whole, rfl⟩

theorem walkElements_whole {elements : List Value}
    (inside : forall element, element ∈ elements -> ClonesWhole limits spec element) (path : Units)
    (index depth : Nat) (budget : Budget) (fits : index + elements.length ≤ limits.maxArrayLength)
    (whole : (walkElements limits spec elements path index depth budget).2.truncated = false) :
    budget.truncated = false ∧
      (walkElements limits spec elements path index depth budget).1 =
        elements.mapIdx fun place element =>
          clone spec limits.mask element (childPath path (Number.digits (index + place))) := by
  induction elements generalizing index budget with
  | nil => exact ⟨whole, rfl⟩
  | cons element elements inductionHypothesis =>
      rw [List.length_cons] at fits
      have below : index < limits.maxArrayLength := by omega
      cases spent : budget.spent with
      | true =>
          rw [walkElements_spent spent below] at whole
          cases whole
      | false =>
          rw [walkElements_cons spent below] at whole ⊢
          have rest := inductionHypothesis (fun element member => inside element (List.mem_cons_of_mem _ member))
            (index + 1) _ (by omega) whole
          have first := inside element (List.mem_cons_self ..) _ _ _ rest.1
          refine ⟨first.1, ?_⟩
          dsimp only
          rw [List.mapIdx_cons, first.2, rest.2]
          simp only [Nat.add_assoc, Nat.add_comm 1, Nat.add_zero]

theorem walkFields_whole {fields : List (Units × Value)}
    (inside : forall field, field ∈ fields -> ClonesWhole limits spec field.2) (path : Units) (depth : Nat)
    (result : List (Units × Value)) (budget : Budget)
    (whole : (walkFields limits spec fields path depth result budget).2.truncated = false) :
    budget.truncated = false ∧
      (walkFields limits spec fields path depth result budget).1 =
        fields.foldl (cloneField spec limits.mask path) result := by
  induction fields generalizing result budget with
  | nil => exact ⟨whole, rfl⟩
  | cons field fields inductionHypothesis =>
      rcases field with ⟨key, value⟩
      have inRest := fun field member => inside field (List.mem_cons_of_mem _ member)
      rw [List.foldl_cons, cloneField]
      cases spent : budget.spent with
      | true =>
          rw [walkFields_spent _ _ _ _ spent] at whole
          cases whole
      | false =>
          cases isMasked : masked spec path key with
          | true =>
              rw [walkFields_masked _ _ _ _ spent isMasked] at whole ⊢
              exact inductionHypothesis inRest _ _ whole
          | false =>
              rw [walkFields_child _ _ _ _ spent isMasked] at whole ⊢
              have rest := inductionHypothesis inRest _ _ whole
              have first := inside (key, value) (List.mem_cons_self ..) _ _ _ rest.1
              refine ⟨first.1, ?_⟩
              rw [rest.2, first.2]
              rfl

/-- Where nothing is clipped, the walk makes the clone without bounds. -/
theorem clonesWhole (value : Value) : ClonesWhole limits spec value := by
  induction value using Value.containment with
  | leaf value leaf => exact clonesWhole_leaf leaf
  | array elements inside =>
      intro path depth budget whole
      cases spent : budget.spent with
      | true =>
          rw [walk_spent spent] at whole
          cases whole
      | false =>
          by_cases shallow : depth < limits.maxDepth
          · rw [walk_array spent shallow] at whole ⊢
            split at whole
            · cases whole
            · rename_i fits
              rw [if_neg fits, clone_array]
              have walked := walkElements_whole inside path 0 (depth + 1) budget.visit (by omega) whole
              refine ⟨walked.1, ?_⟩
              rw [walked.2]
              simp only [Nat.zero_add]
          · rw [walk_deep spent (Nat.not_lt.mp shallow) id] at whole
            cases whole
  | object fields inside =>
      intro path depth budget whole
      cases spent : budget.spent with
      | true =>
          rw [walk_spent spent] at whole
          cases whole
      | false =>
          by_cases shallow : depth < limits.maxDepth
          · rw [walk_object spent shallow] at whole ⊢
            rw [clone_object]
            have walked := walkFields_whole inside path (depth + 1) [] budget.visit whole
            refine ⟨walked.1, ?_⟩
            rw [walked.2]
          · rw [walk_deep spent (Nat.not_lt.mp shallow) id] at whole
            cases whole

/-! ## What fits is not clipped -/

/-- Nothing is clipped, and the budgets pay no more than the measures of the value. -/
structure Spares (before after : Budget) (nodes bytes : Nat) : Prop where
  truncated : after.truncated = false
  nodes : before.nodes - nodes ≤ after.nodes
  bytes : before.bytes - bytes ≤ after.bytes

/-- A value within the static bounds is walked whole by a budget that covers it. -/
def WalksWhole (limits : Limits) (spec : CompiledRedactSpec) (value : Value) : Prop :=
  forall (path : Units) (depth : Nat) (budget : Budget), budget.truncated = false ->
    depth + height value ≤ limits.maxDepth -> longest value ≤ limits.maxStringLength ->
    widest value ≤ limits.maxArrayLength -> nodeCount value ≤ budget.nodes -> byteCount value ≤ budget.bytes ->
      Spares budget (walk limits spec value path depth budget).2 (nodeCount value) (byteCount value)

theorem nodeCount_leaf {value : Value} (leaf : value.IsLeaf) : nodeCount value = 1 := Value.fold_leaf _ leaf

theorem byteCount_leaf {value : Value} (leaf : value.IsLeaf) :
    byteCount value = NODE_BYTE_OVERHEAD + stringLength value := Value.fold_leaf _ leaf

theorem longest_leaf {value : Value} (leaf : value.IsLeaf) : longest value = stringLength value :=
  Value.fold_leaf _ leaf

theorem walksWhole_leaf {value : Value} (leaf : value.IsLeaf) (json : IsJson value) :
    WalksWhole limits spec value := by
  intro path depth budget untruncated _shallow short _narrow nodes bytes
  rw [nodeCount_leaf leaf] at nodes ⊢
  rw [byteCount_leaf leaf] at bytes ⊢
  rw [longest_leaf leaf] at short
  have isLeft : budget.spent = false := by
    rw [NODE_BYTE_OVERHEAD] at bytes
    exact Budget.not_spent_iff.mpr (by omega)
  rw [walk_leaf isLeft leaf]
  cases value with
  | string text =>
      have fits : ¬ limits.maxStringLength < text.length := Nat.not_lt.mpr short
      rw [walkLeaf, walkString, if_neg fits]
      refine ⟨untruncated, Int.le_refl _, ?_⟩
      dsimp only [Budget.charge, Budget.visit, stringLength]
      omega
  | null => exact ⟨untruncated, Int.le_refl _, Int.le_refl _⟩
  | boolean value => exact ⟨untruncated, Int.le_refl _, Int.le_refl _⟩
  | number value => exact ⟨untruncated, Int.le_refl _, Int.le_refl _⟩
  | array elements => exact leaf.elim
  | object fields => exact leaf.elim
  | _ => exact json.elim

theorem walkElements_spares {elements : List Value}
    (inside : forall element, element ∈ elements -> WalksWhole limits spec element) (path : Units)
    (index depth : Nat) (budget : Budget) (untruncated : budget.truncated = false)
    (narrow : index + elements.length ≤ limits.maxArrayLength)
    (shallow : forall element, element ∈ elements -> depth + height element ≤ limits.maxDepth)
    (short : forall element, element ∈ elements -> longest element ≤ limits.maxStringLength)
    (slim : forall element, element ∈ elements -> widest element ≤ limits.maxArrayLength)
    (nodes : (elements.map nodeCount).sum ≤ budget.nodes) (bytes : (elements.map byteCount).sum ≤ budget.bytes)
    (positive : forall element, element ∈ elements -> 0 < nodeCount element ∧ 0 < byteCount element) :
    Spares budget (walkElements limits spec elements path index depth budget).2
      (elements.map nodeCount).sum (elements.map byteCount).sum := by
  induction elements generalizing index budget with
  | nil => exact ⟨untruncated, by simp [walkElements], by simp [walkElements]⟩
  | cons element elements inductionHypothesis =>
      rw [List.forall_mem_cons] at inside shallow short slim positive
      rw [List.map_cons, List.sum_cons] at nodes bytes ⊢
      rw [List.map_cons, List.sum_cons]
      rw [List.length_cons] at narrow
      have isLeft : budget.spent = false := Budget.not_spent_iff.mpr (by omega)
      rw [walkElements_cons isLeft (by omega)]
      have first := inside.1 (childPath path (Number.digits index)) depth budget untruncated shallow.1 short.1
        slim.1 (by omega) (by omega)
      have firstNodes := first.nodes
      have firstBytes := first.bytes
      have rest := inductionHypothesis inside.2 (index + 1) _ first.truncated (by omega) shallow.2 short.2 slim.2
        (by omega) (by omega) positive.2
      have restNodes := rest.nodes
      have restBytes := rest.bytes
      exact ⟨rest.truncated, by dsimp only; omega, by dsimp only; omega⟩

theorem walkFields_spares {fields : List (Units × Value)}
    (inside : forall field, field ∈ fields -> WalksWhole limits spec field.2) (path : Units) (depth : Nat)
    (result : List (Units × Value)) (budget : Budget) (untruncated : budget.truncated = false)
    (shallow : forall field, field ∈ fields -> depth + height field.2 ≤ limits.maxDepth)
    (short : forall field, field ∈ fields -> longest field.2 ≤ limits.maxStringLength)
    (slim : forall field, field ∈ fields -> widest field.2 ≤ limits.maxArrayLength)
    (nodes : (fields.map fun field => nodeCount field.2).sum ≤ budget.nodes)
    (bytes : (fields.map fun field => field.1.length + byteCount field.2).sum ≤ budget.bytes)
    (positive : forall field, field ∈ fields -> 0 < nodeCount field.2 ∧ 0 < byteCount field.2) :
    Spares budget (walkFields limits spec fields path depth result budget).2
      (fields.map fun field => nodeCount field.2).sum
      (fields.map fun field => field.1.length + byteCount field.2).sum := by
  induction fields generalizing result budget with
  | nil => exact ⟨untruncated, by simp [walkFields], by simp [walkFields]⟩
  | cons field fields inductionHypothesis =>
      rcases field with ⟨key, value⟩
      rw [List.forall_mem_cons] at inside shallow short slim positive
      rw [List.map_cons, List.sum_cons] at nodes bytes ⊢
      rw [List.map_cons, List.sum_cons]
      dsimp only at inside shallow short slim positive nodes bytes ⊢
      have isLeft : budget.spent = false := Budget.not_spent_iff.mpr (by omega)
      have charged : (budget.charge key.length).bytes = budget.bytes - key.length := rfl
      have kept : (budget.charge key.length).nodes = budget.nodes := rfl
      cases isMasked : masked spec path key with
      | true =>
          rw [walkFields_masked _ _ _ _ isLeft isMasked]
          have rest := inductionHypothesis inside.2 (Fields.assign result key (.string limits.mask))
            (budget.charge key.length) untruncated shallow.2 short.2 slim.2 (by omega) (by omega) positive.2
          have restNodes := rest.nodes
          have restBytes := rest.bytes
          exact ⟨rest.truncated, by omega, by omega⟩
      | false =>
          rw [walkFields_child _ _ _ _ isLeft isMasked]
          have first := inside.1 (childPath path key) depth (budget.charge key.length) untruncated shallow.1
            short.1 slim.1 (by omega) (by omega)
          have firstNodes := first.nodes
          have firstBytes := first.bytes
          have rest := inductionHypothesis inside.2 (Fields.assign result key
              (walk limits spec value (childPath path key) depth (budget.charge key.length)).1) _
            first.truncated shallow.2 short.2 slim.2 (by omega) (by omega) positive.2
          have restNodes := rest.nodes
          have restBytes := rest.bytes
          exact ⟨rest.truncated, by omega, by omega⟩

theorem measures_pos (value : Value) : 0 < nodeCount value ∧ 0 < byteCount value := by
  cases value with
  | array elements =>
      rw [nodeCount_array, byteCount_array, NODE_BYTE_OVERHEAD]
      omega
  | object fields =>
      rw [nodeCount_object, byteCount_object, NODE_BYTE_OVERHEAD]
      omega
  | _ => exact ⟨Nat.one_pos, Nat.add_pos_left (by decide) _⟩

theorem walksWhole (value : Value) (json : IsJson value) : WalksWhole limits spec value := by
  induction value using Value.containment with
  | leaf value leaf => exact walksWhole_leaf leaf json
  | array elements inside =>
      rw [isJson_array] at json
      intro path depth budget untruncated shallow short narrow nodes bytes
      rw [height_array] at shallow
      rw [longest_array] at short
      rw [widest_array] at narrow
      rw [nodeCount_array] at nodes ⊢
      rw [byteCount_array] at bytes ⊢
      have isLeft : budget.spent = false := by
        rw [NODE_BYTE_OVERHEAD] at bytes
        exact Budget.not_spent_iff.mpr (by omega)
      have visited : budget.visit.nodes = budget.nodes - 1 := rfl
      have charged : budget.visit.bytes = budget.bytes - NODE_BYTE_OVERHEAD := rfl
      have notWide : ¬ limits.maxArrayLength < elements.length := by omega
      rw [walk_array isLeft (by omega), if_neg notWide]
      have walked := walkElements_spares (fun element member => inside element member (json element member)) path 0
        (depth + 1) budget.visit untruncated (by omega)
        (fun element member => by
          have highest := le_largest (List.mem_map_of_mem member : height element ∈ elements.map height)
          omega)
        (fun element member => (le_largest (List.mem_map_of_mem member)).trans short)
        (fun element member => (le_largest (List.mem_map_of_mem member)).trans ((le_max_right _ _).trans narrow))
        (by omega) (by omega) (fun element _member => measures_pos element)
      have walkedNodes := walked.nodes
      have walkedBytes := walked.bytes
      exact ⟨walked.truncated, by dsimp only; omega, by dsimp only; omega⟩
  | object fields inside =>
      rw [isJson_object] at json
      intro path depth budget untruncated shallow short narrow nodes bytes
      rw [height_object] at shallow
      rw [longest_object] at short
      rw [widest_object] at narrow
      rw [nodeCount_object] at nodes ⊢
      rw [byteCount_object] at bytes ⊢
      have isLeft : budget.spent = false := by
        rw [NODE_BYTE_OVERHEAD] at bytes
        exact Budget.not_spent_iff.mpr (by omega)
      have visited : budget.visit.nodes = budget.nodes - 1 := rfl
      have charged : budget.visit.bytes = budget.bytes - NODE_BYTE_OVERHEAD := rfl
      rw [walk_object isLeft (by omega)]
      have walked := walkFields_spares (fun field member => inside field member (json.2 field member)) path
        (depth + 1) [] budget.visit untruncated
        (fun field member => by
          have highest := le_largest (List.mem_map_of_mem member :
            height field.2 ∈ fields.map fun field => height field.2)
          omega)
        (fun field member => (le_largest (List.mem_map_of_mem member :
          longest field.2 ∈ fields.map fun field => longest field.2)).trans short)
        (fun field member => (le_largest (List.mem_map_of_mem member :
          widest field.2 ∈ fields.map fun field => widest field.2)).trans narrow)
        (by omega) (by omega) (fun field _member => measures_pos field.2)
      have walkedNodes := walked.nodes
      have walkedBytes := walked.bytes
      exact ⟨walked.truncated, by dsimp only; omega, by dsimp only; omega⟩

/-- A JSON value that fits the bounds is cloned whole. -/
theorem redact_of_fits {value : Value} (json : IsJson value) (fits : Fits limits value) :
    redactBoundedWith limits spec value = ⟨clone spec limits.mask value [], false⟩ := by
  have walked := @walksWhole limits spec value json [] 0 limits.budget rfl
    (by rw [Nat.zero_add]; exact fits.height) fits.longest fits.widest
    (Int.ofNat_le.mpr fits.nodeCount) (Int.ofNat_le.mpr fits.byteCount)
  have cloned := clonesWhole value [] 0 limits.budget walked.truncated
  rw [redactBoundedWith, walked.truncated, cloned.2]

/-- Where the result says that nothing was truncated, it is the clone without bounds. -/
theorem value_of_not_truncated {value : Value}
    (whole : (redactBoundedWith limits spec value).truncated = false) :
    (redactBoundedWith limits spec value).value = clone spec limits.mask value [] :=
  (clonesWhole value [] 0 limits.budget whole).2

end Redaction
end Telescope
