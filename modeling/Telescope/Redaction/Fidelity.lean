import Telescope.Redaction.Untruncated

namespace Telescope
namespace Redaction

/-!
# Fidelity of redaction

A result that is not truncated should be the value with what is masked replaced by the
mask.  Two things escape: a property named `__proto__`, which the assignment to the
result turns into a prototype, and the elements of arrays, which are not compared with
the masked paths.
-/

section Masked

variable (spec : CompiledRedactSpec) (mask : Units)

/-- The value with everything under a masked key or at a masked path replaced. -/
def maskValues : Value -> Units -> Value :=
  Value.fold
    { leaf value _path := value
      array children path :=
        .array (children.mapIdx fun index child =>
          if childPath path (Number.digits index) ∈ spec.paths then .string mask
          else child (childPath path (Number.digits index)))
      object children path :=
        .object (children.map fun child =>
          (child.1, if masked spec path child.1 then .string mask else child.2 (childPath path child.1))) }

theorem maskValues_array (elements : List Value) (path : Units) : maskValues spec mask (.array elements) path =
    .array (elements.mapIdx fun index element =>
      if childPath path (Number.digits index) ∈ spec.paths then .string mask
      else maskValues spec mask element (childPath path (Number.digits index))) := by
  rw [maskValues, Value.fold_array]
  dsimp only
  rw [mapIdx_map]

theorem maskValues_object (fields : List (Units × Value)) (path : Units) :
    maskValues spec mask (.object fields) path =
      .object (fields.map fun field => (field.1, if masked spec path field.1 then .string mask
        else maskValues spec mask field.2 (childPath path field.1))) := by
  rw [maskValues, Value.fold_object]
  dsimp only
  rw [List.map_map]
  rfl

/-- No visible object has a property named `__proto__`, and no visible array an element
at a masked path other than the mask itself. -/
inductive Intact : Value -> Units -> Prop
  | leaf {value path} (isLeaf : value.IsLeaf) : Intact value path
  | array {elements path}
      (replaced : forall (index : Nat) (element : Value), elements[index]? = some element ->
        childPath path (Number.digits index) ∈ spec.paths -> element = .string mask)
      (inside : forall (index : Nat) (element : Value), elements[index]? = some element ->
        childPath path (Number.digits index) ∉ spec.paths ->
          Intact element (childPath path (Number.digits index))) :
      Intact (.array elements) path
  | object {fields path}
      (ordinary : forall field, field ∈ fields -> field.1 ≠ units "__proto__")
      (inside : forall field, field ∈ fields -> masked spec path field.1 = false ->
        Intact field.2 (childPath path field.1)) :
      Intact (.object fields) path

end Masked

variable {spec : CompiledRedactSpec} {mask : Units}

theorem cloneLeaf_json {value : Value} (json : IsJson value) : cloneLeaf value = value := by
  cases value with
  | circular => exact json.elim
  | _ => rfl

theorem clone_leaf {value : Value} (leaf : value.IsLeaf) (json : IsJson value) (path : Units) :
    clone spec mask value path = value := by
  rw [clone, Value.fold_leaf _ leaf]
  exact cloneLeaf_json json

/-- Only a string is cloned to a string. -/
theorem clone_eq_string {value : Value} (json : IsJson value) {path text : Units} :
    clone spec mask value path = .string text <-> value = .string text := by
  by_cases leaf : value.IsLeaf
  · rw [clone_leaf leaf json]
  · cases value with
    | array elements =>
        rw [clone_array]
        exact iff_of_false (fun same => by cases same) (fun same => by cases same)
    | object fields =>
        rw [clone_object]
        exact iff_of_false (fun same => by cases same) (fun same => by cases same)
    | _ => exact (leaf trivial).elim

theorem mapIdx_eq_mapIdx {α β : Type*} {list : List α} {left right : Nat -> α -> β} :
    list.mapIdx left = list.mapIdx right <->
      forall (index : Nat) (element : α), list[index]? = some element -> left index element = right index element := by
  constructor
  · intro same index element found
    have here := congrArg (fun mapped : List β => mapped[index]?) same
    simp only [List.getElem?_mapIdx, found, Option.map_some] at here
    exact Option.some.inj here
  · intro same
    refine List.ext_getElem? fun index => ?_
    rw [List.getElem?_mapIdx, List.getElem?_mapIdx]
    cases found : list[index]? with
    | none => rfl
    | some element => exact congrArg some (same index element found)

/-- The clone of an object drops the property `__proto__`. -/
theorem clone_object_eq {fields : List (Units × Value)} (distinct : (fields.map Prod.fst).Nodup) (path : Units) :
    clone spec mask (.object fields) path =
      .object ((fields.filter fun field => decide (field.1 ≠ units "__proto__")).map fun field =>
        (field.1, if masked spec path field.1 then .string mask
          else clone spec mask field.2 (childPath path field.1))) := by
  rw [clone_object]
  have assigned := Fields.foldl_assign distinct (fun field => if masked spec path field.1 then Value.string mask
    else clone spec mask field.2 (childPath path field.1)) [] (fun _field _member => List.not_mem_nil)
  rw [List.nil_append] at assigned
  exact congrArg Value.object assigned

/-- The clone without bounds is the masked value just when the value is intact. -/
theorem clone_eq_maskValues {value : Value} (json : IsJson value) (path : Units) :
    clone spec mask value path = maskValues spec mask value path <-> Intact spec mask value path := by
  induction value using Value.containment generalizing path with
  | leaf value leaf =>
      refine iff_of_true ?_ (.leaf leaf)
      rw [clone_leaf leaf json, maskValues, Value.fold_leaf _ leaf]
  | array elements inside =>
      rw [isJson_array] at json
      rw [clone_array, maskValues_array, Value.array.injEq, mapIdx_eq_mapIdx]
      constructor
      · intro same
        refine .array (fun index element found named => ?_) (fun index element found unnamed => ?_)
        · have here := same index element found
          rw [if_pos named] at here
          exact (clone_eq_string (json element (List.mem_of_getElem? found))).mp here
        · have here := same index element found
          rw [if_neg unnamed] at here
          exact (inside element (List.mem_of_getElem? found) (json element (List.mem_of_getElem? found)) _).mp here
      · intro intact index element found
        cases intact with
        | leaf isLeaf => exact isLeaf.elim
        | array replaced within =>
            by_cases named : childPath path (Number.digits index) ∈ spec.paths
            · rw [if_pos named]
              exact (clone_eq_string (json element (List.mem_of_getElem? found))).mpr
                (replaced index element found named)
            · rw [if_neg named]
              exact (inside element (List.mem_of_getElem? found) (json element (List.mem_of_getElem? found)) _).mpr
                (within index element found named)
  | object fields inside =>
      rw [isJson_object] at json
      rw [clone_object_eq json.1, maskValues_object, Value.object.injEq]
      constructor
      · intro same
        have ordinary : forall field, field ∈ fields -> field.1 ≠ units "__proto__" := by
          have lengths := congrArg List.length same
          rw [List.length_map, List.length_map] at lengths
          exact fun field member => of_decide_eq_true (List.length_filter_eq_length_iff.mp lengths field member)
        refine .object ordinary fun field member notMasked => ?_
        rw [List.filter_eq_self.mpr fun field member => decide_eq_true (ordinary field member)] at same
        have here := congrArg Prod.snd (List.map_inj_left.mp same field member)
        dsimp only at here
        rw [notMasked, if_neg Bool.false_ne_true, if_neg Bool.false_ne_true] at here
        exact (inside field member (json.2 field member) _).mp here
      · intro intact
        cases intact with
        | leaf isLeaf => exact isLeaf.elim
        | object ordinary within =>
            rw [List.filter_eq_self.mpr fun field member => decide_eq_true (ordinary field member)]
            refine List.map_congr_left fun field member => ?_
            cases isMasked : masked spec path field.1 with
            | true => rfl
            | false =>
                rw [if_neg Bool.false_ne_true, if_neg Bool.false_ne_true,
                  (inside field member (json.2 field member) _).mpr (within field member isMasked)]

/-- Whatever the bounds are, a result that is not truncated is the masked value, and what
fits the bounds is not truncated. -/
def Faithful (toLowerCase : Units -> Units) (options : RedactOptions) (value : Value) : Prop :=
  forall bounds : RedactBounds,
    ((redactBounded toLowerCase (options.within bounds) value).truncated = false ->
      (redactBounded toLowerCase (options.within bounds) value).value =
        maskValues (compileRedactSpec toLowerCase options) options.limits.mask value []) ∧
    (Fits (options.within bounds).limits value ->
      (redactBounded toLowerCase (options.within bounds) value).truncated = false)

/-- A JSON object with a masked key. -/
def loginContent : Value :=
  .object [(units "user", .string (units "ada")), (units "Password", .string (units "secret"))]

theorem loginContent_isJson : IsJson loginContent := by
  refine isJson_object.mpr ⟨by decide, fun field member => ?_⟩
  rcases List.mem_cons.mp member with isUser | isPassword
  · rw [isUser]
    trivial
  · rw [List.mem_singleton.mp isPassword]
    trivial

/-- A JSON object with an own property `__proto__`. -/
def prototypeContent : Value := .object [(units "__proto__", .number (.finite 1))]

end Redaction
end Telescope

namespace Telescope

namespace Fields

universe u

variable {V : Type u}

theorem lookup_cons (field : Units × V) (fields : List (Units × V)) (name : Units) :
    lookup (field :: fields) name = if field.1 = name then some field.2 else lookup fields name := by
  rw [lookup, List.find?_cons]
  by_cases isName : field.1 = name
  · rw [decide_eq_true isName, if_pos isName]
    rfl
  · rw [decide_eq_false isName, if_neg isName]
    rfl

theorem lookup_append (fields more : List (Units × V)) (name : Units) :
    lookup (fields ++ more) name = (lookup fields name).or (lookup more name) := by
  rw [lookup, List.find?_append, lookup, lookup]
  cases fields.find? fun field => decide (field.1 = name) <;> rfl

theorem lookup_replace_of_ne {name other : Units} (different : other ≠ name) (fields : List (Units × V)) (value : V) :
    lookup (fields.map fun field => if field.1 = other then (other, value) else field) name = lookup fields name := by
  induction fields with
  | nil => rfl
  | cons field fields inductionHypothesis =>
      rw [List.map_cons, lookup_cons, lookup_cons, inductionHypothesis]
      by_cases isOther : field.1 = other
      · rw [if_pos isOther, if_neg different, if_neg (isOther ▸ different)]
      · rw [if_neg isOther]

/-- An assignment changes no property of another name. -/
theorem lookup_assign_of_ne {name other : Units} (different : other ≠ name) (fields : List (Units × V)) (value : V) :
    lookup (assign fields other value) name = lookup fields name := by
  rw [assign]
  split
  · rfl
  · split
    · exact lookup_replace_of_ne different fields value
    · rw [lookup_append, lookup_cons, if_neg different]
      exact Option.or_none

end Fields

namespace Redaction

/-!
# Leading fields

The walk takes the fields of an object in their order, so that those in front are cloned
whole where the budgets cover them, whatever stands behind.
-/

variable {limits : Limits} {spec : CompiledRedactSpec}

/-- A walk over fields that clips nothing goes on with the fields behind them. -/
theorem walkFields_append {leading : List (Units × Value)} (rest : List (Units × Value)) (path : Units) (depth : Nat)
    (result : List (Units × Value)) (budget : Budget)
    (whole : (walkFields limits spec leading path depth result budget).2.truncated = false) :
    walkFields limits spec (leading ++ rest) path depth result budget =
      walkFields limits spec rest path depth (walkFields limits spec leading path depth result budget).1
        (walkFields limits spec leading path depth result budget).2 := by
  induction leading generalizing result budget with
  | nil => rfl
  | cons field leading inductionHypothesis =>
      rcases field with ⟨key, value⟩
      rw [List.cons_append]
      cases spent : budget.spent with
      | true =>
          rw [walkFields_spent _ _ _ _ spent] at whole
          cases whole
      | false =>
          cases isMasked : masked spec path key with
          | true =>
              rw [walkFields_masked _ _ _ _ spent isMasked] at whole
              rw [walkFields_masked _ _ _ _ spent isMasked, walkFields_masked _ _ _ _ spent isMasked]
              exact inductionHypothesis _ _ whole
          | false =>
              rw [walkFields_child _ _ _ _ spent isMasked] at whole
              rw [walkFields_child _ _ _ _ spent isMasked, walkFields_child _ _ _ _ spent isMasked]
              exact inductionHypothesis _ _ whole

/-- A walk over fields changes no property of another name. -/
theorem lookup_walkFields {fields : List (Units × Value)} {name : Units} (absent : name ∉ fields.map Prod.fst)
    (notMarker : units "…" ≠ name) (path : Units) (depth : Nat) (result : List (Units × Value)) (budget : Budget) :
    Fields.lookup (walkFields limits spec fields path depth result budget).1 name = Fields.lookup result name := by
  induction fields generalizing result budget with
  | nil => rfl
  | cons field fields inductionHypothesis =>
      rcases field with ⟨key, value⟩
      rw [List.map_cons, List.mem_cons, not_or] at absent
      have different : key ≠ name := fun same => absent.1 same.symm
      cases spent : budget.spent with
      | true =>
          rw [walkFields_spent _ _ _ _ spent]
          exact Fields.lookup_assign_of_ne notMarker ..
      | false =>
          cases isMasked : masked spec path key with
          | true =>
              rw [walkFields_masked _ _ _ _ spent isMasked, inductionHypothesis absent.2]
              exact Fields.lookup_assign_of_ne different ..
          | false =>
              rw [walkFields_child _ _ _ _ spent isMasked, inductionHypothesis absent.2]
              exact Fields.lookup_assign_of_ne different ..

/-- The bounds cover the fields. -/
structure Covers (limits : Limits) (budget : Budget) (depth : Nat) (fields : List (Units × Value)) : Prop where
  height : forall field, field ∈ fields -> depth + height field.2 ≤ limits.maxDepth
  longest : forall field, field ∈ fields -> longest field.2 ≤ limits.maxStringLength
  widest : forall field, field ∈ fields -> widest field.2 ≤ limits.maxArrayLength
  nodes : (fields.map fun field => nodeCount field.2).sum ≤ budget.nodes
  bytes : (fields.map fun field => field.1.length + byteCount field.2).sum ≤ budget.bytes

/-- Leading fields that the bounds cover are there as in the clone without bounds. -/
theorem lookup_leading {leading : List (Units × Value)} (json : forall field, field ∈ leading -> IsJson field.2)
    (ordinary : forall field, field ∈ leading -> field.1 ≠ units "__proto__" ∧ units "…" ≠ field.1)
    {rest : List (Units × Value)} (distinct : ((leading ++ rest).map Prod.fst).Nodup) {path : Units} {depth : Nat}
    {budget : Budget} (untruncated : budget.truncated = false) (covers : Covers limits budget depth leading)
    {field : Units × Value} (member : field ∈ leading) :
    Fields.lookup (walkFields limits spec (leading ++ rest) path depth [] budget).1 field.1 =
      some (if masked spec path field.1 then .string limits.mask
        else clone spec limits.mask field.2 (childPath path field.1)) := by
  have spares : Spares budget (walkFields limits spec leading path depth [] budget).2 _ _ :=
    walkFields_spares (fun field isField => walksWhole field.2 (json field isField)) path depth [] budget untruncated
      covers.height covers.longest covers.widest covers.nodes covers.bytes fun field _ => measures_pos field.2
  have cloned := walkFields_whole (fun field _ => clonesWhole field.2) path depth [] budget spares.truncated
  rw [List.map_append, List.nodup_append] at distinct
  have absent : field.1 ∉ rest.map Prod.fst := by
    intro inRest
    exact distinct.2.2 _ (List.mem_map_of_mem member) _ inRest rfl
  rw [walkFields_append rest path depth [] budget spares.truncated,
    lookup_walkFields absent (ordinary field member).2, cloned.2]
  have appended := Fields.foldl_assign distinct.1 (fun source : Units × Value =>
    if masked spec path source.1 then .string limits.mask
    else clone spec limits.mask source.2 (childPath path source.1)) [] (fun _ _ => List.not_mem_nil)
  have kept : (leading.filter fun source => decide (source.1 ≠ units "__proto__")) = leading :=
    List.filter_eq_self.mpr fun source isSource => decide_eq_true (ordinary source isSource).1
  rw [kept, List.nil_append] at appended
  have isClone : leading.foldl (cloneField spec limits.mask path) [] = _ := appended
  rw [isClone]
  refine Fields.lookup_of_mem ?_ (List.mem_map.mpr ⟨field, member, rfl⟩)
  rw [List.map_map]
  exact distinct.1

/-- The leading fields of a value that is redacted. -/
theorem get_redact_leading {leading : List (Units × Value)} (json : forall field, field ∈ leading -> IsJson field.2)
    (ordinary : forall field, field ∈ leading -> field.1 ≠ units "__proto__" ∧ units "…" ≠ field.1)
    {rest : List (Units × Value)} (distinct : ((leading ++ rest).map Prod.fst).Nodup)
    (shallow : 0 < limits.maxDepth) (isLeft : limits.budget.spent = false)
    (covers : Covers limits limits.budget.visit 1 leading) {field : Units × Value} (member : field ∈ leading) :
    (redactBoundedWith limits spec (.object (leading ++ rest))).value.get field.1 =
      if masked spec [] field.1 then .string limits.mask else clone spec limits.mask field.2 (childPath [] field.1) := by
  rw [redactBoundedWith]
  dsimp only
  rw [walk_object isLeft shallow, Value.get_eq, Value.fields,
    lookup_leading json ordinary distinct rfl covers member, Option.getD_some]

end Redaction
end Telescope
