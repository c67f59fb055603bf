import Telescope.Redaction.Untruncated
import Mathlib.Data.List.Nodup

namespace Telescope
namespace Redaction

/-!
# The size of a clone

A walk pays for what it keeps with nodes and bytes.  A string is cut before it is paid
for, but a key is not, and neither is the class name in the marker of binary data: only
where these are bounded is the size of every clone bounded by the options.
-/

/-- The characters of the keys and strings of a value. -/
def characters : Value -> Nat :=
  Value.fold
    { leaf := stringLength
      array counts := counts.sum
      object counts := (counts.map fun count => count.1.length + count.2).sum }

theorem characters_array (elements : List Value) : characters (.array elements) = (elements.map characters).sum :=
  Value.fold_array _ elements

theorem characters_object (fields : List (Units × Value)) :
    characters (.object fields) = (fields.map fun field => field.1.length + characters field.2).sum := by
  rw [characters, Value.fold_object]
  dsimp only
  rw [List.map_map]
  rfl

/-- No object has a key twice. -/
def DistinctKeys : Value -> Prop :=
  Value.fold
    { leaf _value := True
      array elements := forall element, element ∈ elements -> element
      object fields := (fields.map Prod.fst).Nodup ∧ forall field, field ∈ fields -> field.2 }

/-- Keys, class names of binary data, and the numerals of lengths are within a limit. -/
def NamesWithin (limit : Nat) : Value -> Prop :=
  Value.fold
    { leaf value :=
        match value with
        | .binary name byteLength => name.length ≤ limit ∧ (Number.digits byteLength).length ≤ limit
        | _ => True
      array elements :=
        (Number.digits elements.length).length ≤ limit ∧ forall element, element ∈ elements -> element
      object fields := forall field, field ∈ fields -> field.1.length ≤ limit ∧ field.2 }

theorem distinctKeys_array {elements : List Value} :
    DistinctKeys (.array elements) <-> forall element, element ∈ elements -> DistinctKeys element := by
  rw [DistinctKeys, Value.fold_array]
  exact List.forall_mem_map

theorem distinctKeys_object {fields : List (Units × Value)} : DistinctKeys (.object fields) <->
    (fields.map Prod.fst).Nodup ∧ forall field, field ∈ fields -> DistinctKeys field.2 := by
  rw [DistinctKeys, Value.fold_object]
  refine and_congr ?_ List.forall_mem_map
  rw [List.map_map]
  rfl

theorem namesWithin_array {limit : Nat} {elements : List Value} : NamesWithin limit (.array elements) <->
    (Number.digits elements.length).length ≤ limit ∧
      forall element, element ∈ elements -> NamesWithin limit element := by
  rw [NamesWithin, Value.fold_array]
  refine and_congr ?_ List.forall_mem_map
  rw [List.length_map]

theorem namesWithin_object {limit : Nat} {fields : List (Units × Value)} :
    NamesWithin limit (.object fields) <->
      forall field, field ∈ fields -> field.1.length ≤ limit ∧ NamesWithin limit field.2 := by
  rw [NamesWithin, Value.fold_object]
  exact List.forall_mem_map

/-! ## What an assignment adds -/

def fieldCharacters (field : Units × Value) : Nat := field.1.length + characters field.2

theorem sum_map_replace {fields : List (Units × Value)} (distinct : (fields.map Prod.fst).Nodup) (name : Units)
    (value : Value) :
    ((fields.map fun field => if field.1 = name then (name, value) else field).map fieldCharacters).sum ≤
      (fields.map fieldCharacters).sum + fieldCharacters (name, value) := by
  induction fields with
  | nil => exact Nat.zero_le _
  | cons field fields inductionHypothesis =>
      rw [List.map_cons, List.nodup_cons] at distinct
      rw [List.map_cons, List.map_cons, List.sum_cons, List.map_cons, List.sum_cons]
      by_cases same : field.1 = name
      · have others : (fields.map fun field => if field.1 = name then (name, value) else field) =
            fields.map id := by
          refine List.map_congr_left fun other member => if_neg fun isName => distinct.1 ?_
          rw [same, ← isName]
          exact List.mem_map_of_mem member
        rw [if_pos same, others, List.map_id]
        omega
      · have rest := inductionHypothesis distinct.2
        rw [if_neg same]
        omega

theorem characters_assign {fields : List (Units × Value)} (distinct : (fields.map Prod.fst).Nodup) (name : Units)
    (value : Value) : ((Fields.assign fields name value).map fieldCharacters).sum ≤
      (fields.map fieldCharacters).sum + (name.length + characters value) := by
  rw [Fields.assign]
  split
  · exact Nat.le_add_right _ _
  · split
    · exact sum_map_replace distinct name value
    · rw [List.map_append, List.sum_append]
      exact Nat.le_refl _

/-! ## What a node and a byte pay for -/

section Costs

variable (limits : Limits) (limit : Nat)

/-- What a visited node may add by itself. -/
def nodeCost : Nat :=
  limits.maxStringLength + limits.mask.length + (Number.digits limits.maxArrayLength).length + 2 * limit + 40

/-- What a charged key may add. -/
def byteCost : Nat := limits.mask.length + limit + SIZE_MARKER.length

/-- What a budget can still pay for. -/
def credit (budget : Budget) : Nat :=
  nodeCost limits limit * budget.nodes.toNat + byteCost limits limit * budget.bytes.toNat

variable {limits : Limits} {limit : Nat}

theorem credit_clip (budget : Budget) : credit limits limit budget.clip = credit limits limit budget := rfl

theorem credit_charge_le (budget : Budget) (length : Nat) :
    credit limits limit (budget.charge length) ≤ credit limits limit budget := by
  refine Nat.add_le_add_left (Nat.mul_le_mul_left _ ?_) _
  dsimp only [Budget.charge]
  omega

/-- A key that is not empty takes a byte at least. -/
theorem credit_charge {budget : Budget} (isLeft : budget.spent = false) {length : Nat} (positive : 0 < length) :
    credit limits limit (budget.charge length) + byteCost limits limit ≤ credit limits limit budget := by
  have left := Budget.not_spent_iff.mp isLeft
  have fewer : (budget.charge length).bytes.toNat + 1 ≤ budget.bytes.toNat := by
    dsimp only [Budget.charge]
    omega
  have paid := Nat.mul_le_mul_left (byteCost limits limit) fewer
  rw [Nat.mul_add, Nat.mul_one] at paid
  have same : (budget.charge length).nodes = budget.nodes := rfl
  rw [credit, credit, same]
  omega

theorem credit_visit {budget : Budget} (isLeft : budget.spent = false) :
    credit limits limit budget.visit + nodeCost limits limit ≤ credit limits limit budget := by
  have left := Budget.not_spent_iff.mp isLeft
  have fewer : budget.visit.nodes.toNat + 1 ≤ budget.nodes.toNat := by
    dsimp only [Budget.visit]
    omega
  have paid := Nat.mul_le_mul_left (nodeCost limits limit) fewer
  rw [Nat.mul_add, Nat.mul_one] at paid
  have bytes : byteCost limits limit * budget.visit.bytes.toNat ≤ byteCost limits limit * budget.bytes.toNat := by
    refine Nat.mul_le_mul_left _ ?_
    dsimp only [Budget.visit, NODE_BYTE_OVERHEAD]
    omega
  rw [credit, credit]
  omega

end Costs

/-! ## The walk pays -/

variable {limits : Limits} {spec : CompiledRedactSpec} {limit : Nat}

/-- The walk keeps no more characters than it pays for. -/
def Pays (limits : Limits) (spec : CompiledRedactSpec) (limit : Nat) (value : Value) : Prop :=
  forall (path : Units) (depth : Nat) (budget : Budget), budget.spent = false ->
    characters (walk limits spec value path depth budget).1 +
      credit limits limit (walk limits spec value path depth budget).2 ≤ credit limits limit budget

theorem length_sizeMarker : SIZE_MARKER.length = 17 := rfl

theorem length_itemsMarker (kept length : Nat) :
    (itemsMarker kept length).length = (Number.digits kept).length + (Number.digits length).length + 23 := by
  have lengths : (units "[Truncated: ").length = 12 ∧ (units " of ").length = 4 ∧ (units " items]").length = 7 :=
    ⟨rfl, rfl, rfl⟩
  rw [itemsMarker, List.length_append, List.length_append, List.length_append, List.length_append,
    lengths.1, lengths.2.1, lengths.2.2]
  omega

theorem length_binaryMarker (name : Units) (byteLength : Nat) :
    (binaryMarker name byteLength).length = name.length + (Number.digits byteLength).length + 10 := by
  have lengths : (units "[").length = 1 ∧ (units ": ").length = 2 ∧ (units " bytes]").length = 7 :=
    ⟨rfl, rfl, rfl⟩
  rw [binaryMarker, List.length_append, List.length_append, List.length_append, List.length_append,
    lengths.1, lengths.2.1, lengths.2.2]
  omega

theorem pays_leaf {value : Value} (leaf : value.IsLeaf) (names : NamesWithin limit value) :
    Pays limits spec limit value := by
  intro path depth budget isLeft
  have visited : credit limits limit budget.visit + nodeCost limits limit ≤ credit limits limit budget :=
    credit_visit isLeft
  rw [walk_leaf isLeft leaf]
  rw [nodeCost] at visited
  cases value with
  | array elements => exact leaf.elim
  | object fields => exact leaf.elim
  | string text =>
      have suffix : STRING_TRUNCATION_SUFFIX.length = 12 := rfl
      rw [walkLeaf, walkString]
      split
      · have charged := @credit_charge_le limits limit budget.visit limits.maxStringLength
        change (text.take limits.maxStringLength ++ STRING_TRUNCATION_SUFFIX).length +
          credit limits limit (budget.visit.charge limits.maxStringLength) ≤ credit limits limit budget
        rw [List.length_append, List.length_take]
        omega
      · have charged := @credit_charge_le limits limit budget.visit text.length
        change text.length + credit limits limit (budget.visit.charge text.length) ≤ credit limits limit budget
        omega
  | binary name byteLength =>
      have bounds : name.length ≤ limit ∧ (Number.digits byteLength).length ≤ limit := names
      change (binaryMarker name byteLength).length + credit limits limit budget.visit ≤ credit limits limit budget
      rw [length_binaryMarker]
      omega
  | circular =>
      have marker : CIRCULAR_MARKER.length = 10 := rfl
      change CIRCULAR_MARKER.length + credit limits limit budget.visit ≤ credit limits limit budget
      omega
  | _ =>
      change 0 + credit limits limit budget.visit ≤ credit limits limit budget
      omega

theorem walkElements_pays {elements : List Value}
    (inside : forall element, element ∈ elements -> Pays limits spec limit element) (path : Units)
    (index depth : Nat) (budget : Budget) :
    ((walkElements limits spec elements path index depth budget).1.map characters).sum +
        credit limits limit (walkElements limits spec elements path index depth budget).2 ≤
      credit limits limit budget + SIZE_MARKER.length := by
  induction elements generalizing index budget with
  | nil =>
      rw [walkElements]
      exact (Nat.zero_add _).le.trans (Nat.le_add_right _ _)
  | cons element elements inductionHypothesis =>
      by_cases below : index < limits.maxArrayLength
      · cases spent : budget.spent with
        | true =>
            rw [walkElements_spent spent below]
            change SIZE_MARKER.length + 0 + credit limits limit budget ≤ _
            omega
        | false =>
            rw [walkElements_cons spent below]
            have first := inside element (List.mem_cons_self ..) (childPath path (Number.digits index)) depth budget
              spent
            have rest := inductionHypothesis (fun element member => inside element (List.mem_cons_of_mem _ member))
              (index + 1) (walk limits spec element (childPath path (Number.digits index)) depth budget).2
            dsimp only
            rw [List.map_cons, List.sum_cons]
            omega
      · rw [walkElements, if_pos (Nat.not_lt.mp below)]
        exact (Nat.zero_add _).le.trans (Nat.le_add_right _ _)

/-- Room for the one empty key that distinct keys may have. -/
def emptyKeys (fields : List (Units × Value)) : Nat := (fields.map Prod.fst).count []

theorem walkFields_pays {fields : List (Units × Value)}
    (inside : forall field, field ∈ fields -> Pays limits spec limit field.2)
    (names : forall field, field ∈ fields -> field.1.length ≤ limit) (path : Units) (depth : Nat)
    (result : List (Units × Value)) (distinct : (result.map Prod.fst).Nodup) (budget : Budget) :
    ((walkFields limits spec fields path depth result budget).1.map fieldCharacters).sum +
        credit limits limit (walkFields limits spec fields path depth result budget).2 ≤
      (result.map fieldCharacters).sum + credit limits limit budget + (1 + SIZE_MARKER.length) +
        limits.mask.length * emptyKeys fields := by
  induction fields generalizing result budget with
  | nil =>
      rw [walkFields]
      dsimp only
      omega
  | cons field fields inductionHypothesis =>
      rcases field with ⟨key, value⟩
      rw [List.forall_mem_cons] at inside names
      have within : key.length ≤ limit := names.1
      cases spent : budget.spent with
      | true =>
          rw [walkFields_spent _ _ _ _ spent]
          have assigned := characters_assign distinct (units "…") (.string SIZE_MARKER)
          change _ ≤ _ + ((units "…").length + SIZE_MARKER.length) at assigned
          have one : (units "…").length = 1 := rfl
          rw [credit_clip]
          dsimp only
          omega
      | false =>
          have empties : emptyKeys ((key, value) :: fields) = emptyKeys fields + if key = [] then 1 else 0 := by
            rw [emptyKeys, List.map_cons, List.count_cons]
            simp only [beq_iff_eq, emptyKeys]
          have paid : key ≠ [] -> credit limits limit (budget.charge key.length) + byteCost limits limit ≤
              credit limits limit budget := fun filled => credit_charge spent (List.length_pos_of_ne_nil filled)
          have notMore := @credit_charge_le limits limit budget key.length
          rw [byteCost] at paid
          cases isMasked : masked spec path key with
          | true =>
              rw [walkFields_masked _ _ _ _ spent isMasked]
              have rest := inductionHypothesis inside.2 names.2 _
                (Fields.nodup_assign distinct key (.string limits.mask)) (budget.charge key.length)
              have assigned := characters_assign distinct key (.string limits.mask)
              change _ ≤ _ + (key.length + limits.mask.length) at assigned
              rw [empties]
              by_cases isEmpty : key = []
              · have none : key.length = 0 := List.length_eq_zero_iff.mpr isEmpty
                rw [if_pos isEmpty, Nat.mul_add, Nat.mul_one]
                omega
              · have charged := paid isEmpty
                rw [if_neg isEmpty, Nat.add_zero]
                omega
          | false =>
              rw [walkFields_child _ _ _ _ spent isMasked, empties]
              have rest := inductionHypothesis inside.2 names.2 _ (Fields.nodup_assign distinct key
                (walk limits spec value (childPath path key) depth (budget.charge key.length)).1)
                (walk limits spec value (childPath path key) depth (budget.charge key.length)).2
              have assigned := characters_assign distinct key
                (walk limits spec value (childPath path key) depth (budget.charge key.length)).1
              have more : limits.mask.length * emptyKeys fields ≤
                  limits.mask.length * (emptyKeys fields + if key = [] then 1 else 0) :=
                Nat.mul_le_mul_left _ (Nat.le_add_right _ _)
              cases stillSpent : (budget.charge key.length).spent with
              | true =>
                  have filled : key ≠ [] := by
                    intro isEmpty
                    rw [isEmpty] at stillSpent
                    have same : budget.charge 0 = budget := by
                      rw [Budget.charge, Int.ofNat_zero, Int.sub_zero]
                    rw [List.length_nil, same, spent] at stillSpent
                    cases stillSpent
                  have charged := paid filled
                  rw [walk_spent stillSpent] at rest assigned ⊢
                  change _ ≤ _ + (key.length + SIZE_MARKER.length) at assigned
                  rw [credit_clip] at rest
                  omega
              | false =>
                  have child := inside.1 (childPath path key) depth (budget.charge key.length) stillSpent
                  dsimp only at child
                  by_cases isEmpty : key = []
                  · have none : key.length = 0 := List.length_eq_zero_iff.mpr isEmpty
                    omega
                  · have charged := paid isEmpty
                    omega

theorem emptyKeys_le {fields : List (Units × Value)} (distinct : (fields.map Prod.fst).Nodup) :
    emptyKeys fields ≤ 1 := List.nodup_iff_count_le_one.mp distinct []

theorem pays (value : Value) (distinct : DistinctKeys value) (names : NamesWithin limit value) :
    Pays limits spec limit value := by
  induction value using Value.containment with
  | leaf value leaf => exact pays_leaf leaf names
  | array elements inside =>
      rw [distinctKeys_array] at distinct
      rw [namesWithin_array] at names
      intro path depth budget isLeft
      have visited : credit limits limit budget.visit + nodeCost limits limit ≤ credit limits limit budget :=
        credit_visit isLeft
      rw [nodeCost] at visited
      by_cases shallow : depth < limits.maxDepth
      · rw [walk_array isLeft shallow]
        have walked := @walkElements_pays limits spec limit _
          (fun element member => inside element member (distinct element member) (names.2 element member)) path 0
          (depth + 1) budget.visit
        rw [length_sizeMarker] at walked
        split
        · dsimp only
          rw [characters_array, List.map_append, List.sum_append]
          change _ + ((itemsMarker limits.maxArrayLength elements.length).length + 0) + _ ≤ _
          rw [length_itemsMarker, credit_clip]
          omega
        · dsimp only
          rw [characters_array]
          omega
      · rw [walk_deep isLeft (Nat.not_lt.mp shallow) id]
        change 18 + credit limits limit budget.visit ≤ credit limits limit budget
        omega
  | object fields inside =>
      rw [distinctKeys_object] at distinct
      rw [namesWithin_object] at names
      intro path depth budget isLeft
      have visited : credit limits limit budget.visit + nodeCost limits limit ≤ credit limits limit budget :=
        credit_visit isLeft
      rw [nodeCost] at visited
      by_cases shallow : depth < limits.maxDepth
      · rw [walk_object isLeft shallow]
        have walked := @walkFields_pays limits spec limit _
          (fun field member => inside field member (distinct.2 field member) (names field member).2)
          (fun field member => (names field member).1) path (depth + 1) [] List.nodup_nil budget.visit
        have empties := Nat.mul_le_mul_left limits.mask.length (emptyKeys_le distinct.1)
        rw [length_sizeMarker, List.map_nil, List.sum_nil] at walked
        dsimp only
        rw [characters_object]
        change ((walkFields limits spec fields path (depth + 1) [] budget.visit).1.map fieldCharacters).sum + _ ≤ _
        omega
      · rw [walk_deep isLeft (Nat.not_lt.mp shallow) id]
        change 18 + credit limits limit budget.visit ≤ credit limits limit budget
        omega

/-- The bound, by the options and the limit of the names. -/
def sizeBound (limits : Limits) (limit : Nat) : Nat :=
  nodeCost limits limit * limits.maxNodes + byteCost limits limit * limits.maxContentBytes + SIZE_MARKER.length

theorem characters_redact_le (value : Value) (distinct : DistinctKeys value) (names : NamesWithin limit value) :
    characters (redactBoundedWith limits spec value).value ≤ sizeBound limits limit := by
  have budget : credit limits limit limits.budget =
      nodeCost limits limit * limits.maxNodes + byteCost limits limit * limits.maxContentBytes := rfl
  change characters (walk limits spec value [] 0 limits.budget).1 ≤ _
  rw [sizeBound, ← budget]
  cases spent : limits.budget.spent with
  | true =>
      rw [walk_spent spent]
      exact Nat.le_add_left SIZE_MARKER.length _
  | false =>
      have paid := @pays limits spec limit value distinct names [] 0 limits.budget spent
      omega

/-- Numbers of the options bound the characters of every clone, of values whose names are
within a limit if there is one. -/
def SizeBounded (limits : Limits) (limit : Option Nat) : Prop :=
  Exists fun bound : Nat => forall (mask : Units) (spec : CompiledRedactSpec) (value : Value),
    mask.length = limits.mask.length -> DistinctKeys value ->
    (forall within, limit = some within -> NamesWithin within value) ->
      characters (redactBoundedWith { limits with mask := mask } spec value).value ≤ bound

/-- A key is kept whole, however long it is. -/
theorem length_key_le (roomy : 0 < limits.maxDepth ∧ 1 < limits.maxNodes ∧ NODE_BYTE_OVERHEAD < limits.maxContentBytes)
    {key : Units} (ordinary : key ≠ units "__proto__") :
    key.length ≤ characters (redactBoundedWith limits spec (.object [(key, .null)])).value := by
  have isLeft : limits.budget.spent = false := by
    refine Budget.not_spent_iff.mpr ?_
    dsimp only [Limits.budget]
    omega
  have stillLeft : limits.budget.visit.spent = false := by
    refine Budget.not_spent_iff.mpr ?_
    dsimp only [Budget.visit, Limits.budget]
    omega
  change key.length ≤ characters (walk limits spec (.object [(key, .null)]) [] 0 limits.budget).1
  rw [walk_object isLeft roomy.1]
  cases isMasked : masked spec [] key with
  | true =>
      rw [walkFields_masked _ _ _ _ stillLeft isMasked, walkFields, Fields.assign_of_new ordinary List.not_mem_nil,
        characters_object, List.nil_append, List.map_singleton, List.sum_singleton]
      exact Nat.le_add_right _ _
  | false =>
      rw [walkFields_child _ _ _ _ stillLeft isMasked, walkFields, Fields.assign_of_new ordinary List.not_mem_nil,
        characters_object, List.nil_append, List.map_singleton, List.sum_singleton]
      exact Nat.le_add_right _ _

end Redaction
end Telescope
