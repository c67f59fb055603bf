import Telescope.Core.Text
import Telescope.Foundation.Number

namespace Telescope

/-!
# JavaScript values

The content of an entry, as programs that read it see it: a value of one of the
kinds that `typeof` tells apart, with the properties that a lookup finds.  Its
strings are lists of code units and need not be well formed.  A live content may
also hold binary data, and where an object is met again within itself, its finite
unfolding says so.
-/

/-- A JavaScript string. -/
abbrev Units := List Text.CodeUnit

/-- The code units of a literal. -/
def units (literal : String) : Units := Text.codeUnits literal.toList

universe u v

inductive Value
  | undefined
  | null
  | boolean (value : Bool)
  | number (value : Number)
  | bigint (value : Int)
  | string (value : Units)
  | symbol
  | function
  | binary (name : Units) (byteLength : Nat)
  | circular
  | array (elements : List Value)
  | object (fields : List (Units × Value))

/-! ## Objects -/

namespace Fields

variable {V : Type u}

/-- `object[name] = value`.  The name of the prototype is no property of the object. -/
def assign (fields : List (Units × V)) (name : Units) (value : V) : List (Units × V) :=
  if name = units "__proto__" then fields
  else if fields.any fun field => decide (field.1 = name) then
    fields.map fun field => if field.1 = name then (name, value) else field
  else fields ++ [(name, value)]

def lookup (fields : List (Units × V)) (name : Units) : Option V :=
  (fields.find? fun field => decide (field.1 = name)).map Prod.snd

variable {fields : List (Units × V)} {name : Units}

theorem mem_of_lookup {value : V} (found : lookup fields name = some value) : (name, value) ∈ fields := by
  rcases Option.map_eq_some_iff.mp found with ⟨field, isFirst, isValue⟩
  have isName : field.1 = name := by
    have holds := List.find?_some isFirst
    exact of_decide_eq_true holds
  rw [← isValue, ← isName]
  exact List.mem_of_find?_eq_some isFirst

/-- Under distinct names every property is found. -/
theorem lookup_of_mem (distinct : (fields.map Prod.fst).Nodup) {value : V} (member : (name, value) ∈ fields) :
    lookup fields name = some value := by
  induction fields with
  | nil => exact (List.not_mem_nil member).elim
  | cons field fields inductionHypothesis =>
      rw [List.map_cons, List.nodup_cons] at distinct
      rw [lookup, List.find?_cons]
      rcases List.mem_cons.mp member with isFirst | later
      · rw [<- isFirst, decide_eq_true rfl]
        rfl
      · have different : field.1 ≠ name := by
          intro same
          refine distinct.1 ?_
          rw [same]
          exact List.mem_map_of_mem (f := Prod.fst) later
        rw [decide_eq_false different]
        exact inductionHypothesis distinct.2 later

theorem lookup_eq_none (absent : name ∉ fields.map Prod.fst) :
    lookup fields name = none := by
  cases found : lookup fields name with
  | none => rfl
  | some value => exact (absent (List.mem_map_of_mem (mem_of_lookup found))).elim

theorem assign_of_new (ordinary : name ≠ units "__proto__") (absent : name ∉ fields.map Prod.fst) (value : V) :
    assign fields name value = fields ++ [(name, value)] := by
  have isNew : (fields.any fun field => decide (field.1 = name)) = false := by
    refine List.any_eq_false.mpr fun field member same => absent ?_
    rw [← of_decide_eq_true same]
    exact List.mem_map_of_mem member
  rw [assign, if_neg ordinary, isNew, if_neg Bool.false_ne_true]

theorem names_replace (fields : List (Units × V)) (name : Units) (value : V) :
    (fields.map fun field => if field.1 = name then (name, value) else field).map Prod.fst =
      fields.map Prod.fst := by
  rw [List.map_map]
  refine List.map_congr_left fun field _member => ?_
  rw [Function.comp_apply]
  split
  · rename_i same
    exact same.symm
  · rfl

/-- An assignment keeps the names distinct. -/
theorem nodup_assign (distinct : (fields.map Prod.fst).Nodup) (name : Units) (value : V) :
    ((Fields.assign fields name value).map Prod.fst).Nodup := by
  rw [assign]
  split
  · exact distinct
  · split
    · rw [names_replace]
      exact distinct
    · rename_i isNew
      rw [List.map_append]
      refine List.nodup_append.mpr ⟨distinct, List.nodup_cons.mpr ⟨List.not_mem_nil, List.nodup_nil⟩, ?_⟩
      intro key member other isLast same
      rcases List.mem_map.mp member with ⟨field, inFields, isKey⟩
      refine isNew (List.any_eq_true.mpr ⟨field, inFields, decide_eq_true ?_⟩)
      rw [isKey, same]
      exact List.mem_singleton.mp isLast

theorem mem_assign {value : V} {field : Units × V} (member : field ∈ assign fields name value) :
    field = (name, value) ∨ (field ∈ fields ∧ (name ≠ units "__proto__" -> field.1 ≠ name)) := by
  rw [assign] at member
  split at member
  · rename_i isPrototype
    exact .inr ⟨member, fun ordinary => absurd isPrototype ordinary⟩
  · split at member
    · rcases List.mem_map.mp member with ⟨source, inFields, isField⟩
      split at isField
      · exact .inl isField.symm
      · rename_i different
        exact .inr ⟨isField ▸ inFields, fun _ordinary => isField ▸ different⟩
    · rename_i isNew
      rcases List.mem_append.mp member with before | isLast
      · exact .inr ⟨before, fun _ordinary same => isNew (List.any_eq_true.mpr ⟨field, before, decide_eq_true same⟩)⟩
      · exact .inl (List.mem_singleton.mp isLast)

/-- The names of the fields, with the assigned one. -/
theorem mem_names_assign {other : Units} {value : V} :
    other ∈ (assign fields name value).map Prod.fst <->
      other ∈ fields.map Prod.fst ∨ (other = name ∧ name ≠ units "__proto__") := by
  rw [assign]
  split
  · rename_i isPrototype
    exact ⟨Or.inl, fun either => either.elim (fun before => before) fun both => absurd isPrototype both.2⟩
  · rename_i ordinary
    split
    · rename_i present
      rw [names_replace]
      refine ⟨Or.inl, fun either => either.elim (fun before => before) fun both => ?_⟩
      rcases List.any_eq_true.mp present with ⟨field, member, same⟩
      rw [both.1, ← of_decide_eq_true same]
      exact List.mem_map_of_mem member
    · rw [List.map_append, List.mem_append, List.map_singleton, List.mem_singleton]
      exact or_congr_right ⟨fun same => ⟨same, ordinary⟩, And.left⟩

theorem mem_assign_self (fields : List (Units × V)) (ordinary : name ≠ units "__proto__") (value : V) :
    (name, value) ∈ assign fields name value := by
  have isName : name ∈ (assign fields name value).map Prod.fst := mem_names_assign.mpr (.inr ⟨rfl, ordinary⟩)
  rcases List.mem_map.mp isName with ⟨field, member, same⟩
  rcases mem_assign member with isField | ⟨_inFields, different⟩
  · exact isField ▸ member
  · exact absurd same (different ordinary)

/-- Assignments under distinct names append every property but the prototype. -/
theorem foldl_assign {W : Type v} {sources : List (Units × W)} (distinct : (sources.map Prod.fst).Nodup)
    (change : Units × W -> V) (result : List (Units × V))
    (isNew : forall source, source ∈ sources -> source.1 ∉ result.map Prod.fst) :
    sources.foldl (fun result source => assign result source.1 (change source)) result =
      result ++ (sources.filter fun source => decide (source.1 ≠ units "__proto__")).map
        fun source => (source.1, change source) := by
  induction sources generalizing result with
  | nil => exact (List.append_nil result).symm
  | cons source sources inductionHypothesis =>
      rw [List.map_cons, List.nodup_cons] at distinct
      rw [List.foldl_cons]
      by_cases ordinary : source.1 = units "__proto__"
      · have dropped : ¬ decide (source.1 ≠ units "__proto__") = true :=
          fun kept => of_decide_eq_true kept ordinary
        rw [List.filter_cons, if_neg dropped, assign, if_pos ordinary]
        exact inductionHypothesis distinct.2 result fun other member => isNew other (List.mem_cons_of_mem _ member)
      · rw [List.filter_cons, if_pos (decide_eq_true ordinary), List.map_cons,
          assign_of_new ordinary (isNew source (List.mem_cons_self ..))]
        rw [inductionHypothesis distinct.2, List.append_assoc, List.singleton_append]
        intro other member inResult
        rw [List.map_append, List.mem_append] at inResult
        rcases inResult with before | isSource
        · exact isNew other (List.mem_cons_of_mem _ member) before
        · have same : other.1 = source.1 := List.mem_singleton.mp isSource
          refine distinct.1 ?_
          rw [← same]
          exact List.mem_map_of_mem member

end Fields

namespace Value

/-- The value holds no other values. -/
def IsLeaf : Value -> Prop
  | .array _elements => False
  | .object _fields => False
  | _ => True

/-- Induction on the values inside a value. -/
@[elab_as_elim]
theorem containment {motive : Value -> Prop} (leaf : forall value : Value, value.IsLeaf -> motive value)
    (array : forall elements, (forall element, element ∈ elements -> motive element) ->
      motive (.array elements))
    (object : forall fields, (forall field, field ∈ fields -> motive field.2) -> motive (.object fields))
    (value : Value) : motive value :=
  @Value.rec motive (fun elements => forall element, element ∈ elements -> motive element)
    (fun fields => forall field, field ∈ fields -> motive field.2) (fun field => motive field.2)
    (leaf .undefined trivial) (leaf .null trivial) (fun value => leaf (.boolean value) trivial)
    (fun value => leaf (.number value) trivial) (fun value => leaf (.bigint value) trivial)
    (fun value => leaf (.string value) trivial) (leaf .symbol trivial) (leaf .function trivial)
    (fun name byteLength => leaf (.binary name byteLength) trivial) (leaf .circular trivial)
    (fun elements inside => array elements inside) (fun fields inside => object fields inside)
    (fun _element member => (List.not_mem_nil member).elim)
    (fun _element _elements first rest => List.forall_mem_cons.mpr ⟨first, rest⟩)
    (fun _field member => (List.not_mem_nil member).elim)
    (fun _field _fields first rest => List.forall_mem_cons.mpr ⟨first, rest⟩)
    (fun _name _value inside => inside) value

/-- What a recursion does at each kind of value. -/
structure Algebra (α : Type u) where
  leaf : Value -> α
  array : List α -> α
  object : List (Units × α) -> α

mutual

/-- The recursion over the values inside a value. -/
def fold {α : Type u} (algebra : Algebra α) (value : Value) : α :=
  match value with
  | .array elements => algebra.array (foldElements algebra elements)
  | .object fields => algebra.object (foldFields algebra fields)
  | value => algebra.leaf value
termination_by structural value

def foldElements {α : Type u} (algebra : Algebra α) (elements : List Value) : List α :=
  match elements with
  | [] => []
  | element :: elements => fold algebra element :: foldElements algebra elements
termination_by structural elements

def foldFields {α : Type u} (algebra : Algebra α) (fields : List (Units × Value)) : List (Units × α) :=
  match fields with
  | [] => []
  | (name, value) :: fields => (name, fold algebra value) :: foldFields algebra fields
termination_by structural fields

end

section Fold

variable {α : Type u} (algebra : Algebra α)

theorem foldElements_eq (elements : List Value) : foldElements algebra elements = elements.map (fold algebra) := by
  induction elements with
  | nil => rfl
  | cons element elements inductionHypothesis => rw [foldElements, inductionHypothesis, List.map_cons]

theorem foldFields_eq (fields : List (Units × Value)) :
    foldFields algebra fields = fields.map fun field => (field.1, fold algebra field.2) := by
  induction fields with
  | nil => rfl
  | cons field fields inductionHypothesis => rw [foldFields, inductionHypothesis, List.map_cons]

theorem fold_array (elements : List Value) :
    fold algebra (.array elements) = algebra.array (elements.map (fold algebra)) := by
  rw [fold, foldElements_eq]

theorem fold_object (fields : List (Units × Value)) :
    fold algebra (.object fields) = algebra.object (fields.map fun field => (field.1, fold algebra field.2)) := by
  rw [fold, foldFields_eq]

theorem fold_leaf {value : Value} (isLeaf : value.IsLeaf) : fold algebra value = algebra.leaf value := by
  cases value with
  | array elements => exact isLeaf.elim
  | object fields => exact isLeaf.elim
  | _ => rfl

end Fold

/-- `typeof value === 'object' && value !== null`. -/
def isRecord : Value -> Bool
  | .binary _name _byteLength => true
  | .circular => true
  | .array _elements => true
  | .object _fields => true
  | _ => false

/-- The properties of a record under their names. -/
def fields : Value -> List (Units × Value)
  | .object fields => fields
  | _ => []

/-- `name in value`, for a name that is no index of an array. -/
def has (value : Value) (name : Units) : Bool := value.fields.any fun field => decide (field.1 = name)

/-- `value[name]`, for a name that is no index of an array. -/
def get (value : Value) (name : Units) : Value :=
  match value.fields.find? fun field => decide (field.1 = name) with
  | none => .undefined
  | some field => field.2

theorem get_eq (value : Value) (name : Units) :
    value.get name = (Fields.lookup value.fields name).getD .undefined := by
  rw [get, Fields.lookup]
  cases value.fields.find? fun field => decide (field.1 = name) <;> rfl

def string? : Value -> Option Units
  | .string value => some value
  | _ => none

def number? : Value -> Option Number
  | .number value => some value
  | _ => none

def record? (value : Value) : Option Value := if value.isRecord then some value else none

/-- A property with a string in it. -/
def getString (value : Value) (name : Units) : Option Units := (value.get name).string?

/-- A property with a number in it. -/
def getNumber (value : Value) (name : Units) : Option Number := (value.get name).number?

/-- A property with an object in it. -/
def getRecord (value : Value) (name : Units) : Option Value := (value.get name).record?

end Value

/-! ## Numbers as strings -/

namespace Number

def digits (number : Nat) : Units := Text.codeUnits (Nat.toDigits 10 number)

/-- The decimal of so many digits that is nearest to a positive value: its digits, and
the place of its point. -/
def nearestDecimal (value : Rat) (count : Nat) : Nat × Int :=
  let place := Int.log 10 value + 1
  let significand := (nearestEven (value / 10 ^ (place - count))).toNat
  if significand = 10 ^ count then (10 ^ (count - 1), place + 1) else (significand, place)

/-- The decimal of the fewest digits that reads as the double. -/
def shortestDecimal (value : Rat) : Nat × Int :=
  let reads (count : Nat) : Bool :=
    let decimal := nearestDecimal value count
    decide (round (decimal.1 * 10 ^ (decimal.2 - count)) = .finite value)
  nearestDecimal value (((List.range 16).find? fun index => reads (index + 1)).elim 17 (· + 1))

/-- A positive value in decimal or exponential notation. -/
def positiveText (value : Rat) : Units :=
  let decimal := shortestDecimal value
  let significand := digits decimal.1
  let place := decimal.2
  let zeros (count : Int) : Units := List.replicate count.toNat 48
  if significand.length ≤ place ∧ place ≤ 21 then significand ++ zeros (place - significand.length)
  else if 0 < place ∧ place ≤ 21 then
    significand.take place.toNat ++ units "." ++ significand.drop place.toNat
  else if -6 < place ∧ place ≤ 0 then units "0." ++ zeros (-place) ++ significand
  else
    significand.take 1 ++ (if significand.length = 1 then [] else units "." ++ significand.drop 1) ++
      units "e" ++ (if place - 1 < 0 then units "-" else units "+") ++ digits (place - 1).natAbs

/-- `String(number)`. -/
def text : Number -> Units
  | .nan => units "NaN"
  | .infinity negative => if negative then units "-Infinity" else units "Infinity"
  | .finite value =>
      if value = 0 then units "0"
      else if value < 0 then units "-" ++ positiveText (-value)
      else positiveText value

end Number

/-! ## Reading strings -/

namespace Units

/-- `toLowerCase`, on the ASCII letters. -/
def toLowerAscii (text : Units) : Units :=
  text.map fun unit => if 65 ≤ unit.val ∧ unit.val ≤ 90 then Fin.ofNat 65536 (unit.val + 32) else unit

/-- White space and line terminators. -/
def isSpace (unit : Text.CodeUnit) : Bool :=
  decide (unit.val ∈ [9, 10, 11, 12, 13, 32, 160, 5760, 8232, 8233, 8239, 8287, 12288, 65279]) ||
    decide (8192 ≤ unit.val ∧ unit.val ≤ 8202)

/-- `text.trim() === ''`. -/
def isBlank (text : Units) : Bool := text.all isSpace

end Units
end Telescope
