import Telescope.Redaction.Untruncated

namespace Telescope
namespace Redaction

/-!
# Noninterference of redaction

Two contents that differ only in what is masked should have one clone and one flag.  The
walk keeps in step on them as long as no masked path is the location of an array's
element: an element is walked whatever the paths say.
-/

section Agreement

variable (spec : CompiledRedactSpec)

/-- The values differ only under masked keys and at masked paths. -/
inductive Agree : Value -> Value -> Units -> Prop
  | leaf {value path} (isLeaf : value.IsLeaf) : Agree value value path
  | array {lefts rights path} (length : lefts.length = rights.length)
      (inside : forall (index : Nat) (left right : Value), lefts[index]? = some left ->
        rights[index]? = some right -> childPath path (Number.digits index) ∉ spec.paths ->
          Agree left right (childPath path (Number.digits index))) :
      Agree (.array lefts) (.array rights) path
  | object {lefts rights path} (keys : lefts.map Prod.fst = rights.map Prod.fst)
      (inside : forall (index : Nat) (left right : Units × Value), lefts[index]? = some left ->
        rights[index]? = some right -> masked spec path left.1 = false ->
          Agree left.2 right.2 (childPath path left.1)) :
      Agree (.object lefts) (.object rights) path

/-- A location that the walk reaches in some value. -/
inductive Located : Units -> Prop
  | root : Located []
  | field {path key} (located : Located path) (notMasked : masked spec path key = false) :
      Located (childPath path key)
  | element {path} (located : Located path) (index : Nat) : Located (childPath path (Number.digits index))

/-- No masked path is the location of an element of an array. -/
def NamesNoElement : Prop :=
  forall (path : Units) (index : Nat), Located spec path -> childPath path (Number.digits index) ∉ spec.paths

end Agreement

variable {limits : Limits} {spec : CompiledRedactSpec}

/-! ## The walk keeps in step -/

/-- The walk does the same to both values, wherever it meets them at the location. -/
def InStep (limits : Limits) (spec : CompiledRedactSpec) (left right : Value) (path : Units) : Prop :=
  forall (depth : Nat) (budget : Budget),
    walk limits spec left path depth budget = walk limits spec right path depth budget

theorem walkElements_inStep {lefts rights : List Value} (path : Units) (index depth : Nat) (budget : Budget)
    (length : lefts.length = rights.length)
    (inside : forall (place : Nat) (left right : Value), lefts[place]? = some left ->
      rights[place]? = some right -> InStep limits spec left right (childPath path (Number.digits (index + place)))) :
    walkElements limits spec lefts path index depth budget =
      walkElements limits spec rights path index depth budget := by
  induction lefts generalizing rights index budget with
  | nil => rw [List.eq_nil_of_length_eq_zero length.symm]
  | cons left lefts inductionHypothesis =>
      cases rights with
      | nil => cases length
      | cons right rights =>
          have first := inside 0 left right rfl rfl
          rw [Nat.add_zero] at first
          by_cases below : index < limits.maxArrayLength
          · cases spent : budget.spent with
            | true => rw [walkElements_spent spent below, walkElements_spent spent below]
            | false =>
                rw [walkElements_cons spent below, walkElements_cons spent below, first]
                rw [inductionHypothesis (index + 1) _ (Nat.succ.inj length)]
                intro place left right isLeft isRight
                rw [Nat.add_assoc, Nat.add_comm 1]
                exact inside (place + 1) left right isLeft isRight
          · rw [walkElements, walkElements, if_pos (Nat.not_lt.mp below), if_pos (Nat.not_lt.mp below)]

theorem walkFields_inStep {lefts rights : List (Units × Value)} (path : Units) (depth : Nat)
    (result : List (Units × Value)) (budget : Budget) (keys : lefts.map Prod.fst = rights.map Prod.fst)
    (inside : forall (place : Nat) (left right : Units × Value), lefts[place]? = some left ->
      rights[place]? = some right -> masked spec path left.1 = false ->
        InStep limits spec left.2 right.2 (childPath path left.1)) :
    walkFields limits spec lefts path depth result budget =
      walkFields limits spec rights path depth result budget := by
  induction lefts generalizing rights result budget with
  | nil => rw [List.map_eq_nil_iff.mp keys.symm]
  | cons left lefts inductionHypothesis =>
      cases rights with
      | nil => cases keys
      | cons right rights =>
          rcases left with ⟨key, left⟩
          rcases right with ⟨other, right⟩
          rw [List.map_cons, List.map_cons, List.cons.injEq] at keys
          rcases keys with ⟨rfl, keys⟩
          have rest := fun place => inside (place + 1)
          cases spent : budget.spent with
          | true => rw [walkFields_spent _ _ _ _ spent, walkFields_spent _ _ _ _ spent]
          | false =>
              cases isMasked : masked spec path key with
              | true =>
                  rw [walkFields_masked _ _ _ _ spent isMasked, walkFields_masked _ _ _ _ spent isMasked]
                  exact inductionHypothesis _ _ keys rest
              | false =>
                  rw [walkFields_child _ _ _ _ spent isMasked, walkFields_child _ _ _ _ spent isMasked]
                  rw [inside 0 (key, left) (key, right) rfl rfl isMasked]
                  exact inductionHypothesis _ _ keys rest

/-- Values that agree are walked in step, when no element is named. -/
theorem inStep_of_agree (unnamed : NamesNoElement spec) {left right : Value} {path : Units}
    (agree : Agree spec left right path) (located : Located spec path) : InStep limits spec left right path := by
  induction agree with
  | leaf isLeaf => exact fun _depth _budget => rfl
  | @array lefts rights path length inside inductionHypothesis =>
      intro depth budget
      cases spent : budget.spent with
      | true => rw [walk_spent spent, walk_spent spent]
      | false =>
          by_cases shallow : depth < limits.maxDepth
          · rw [walk_array spent shallow, walk_array spent shallow, length]
            rw [walkElements_inStep path 0 (depth + 1) budget.visit length]
            intro place left right isLeft isRight
            rw [Nat.zero_add]
            exact inductionHypothesis place left right isLeft isRight (unnamed path place located)
              (.element located place)
          · rw [walk_deep spent (Nat.not_lt.mp shallow) id, walk_deep spent (Nat.not_lt.mp shallow) id]
  | @object lefts rights path keys inside inductionHypothesis =>
      intro depth budget
      cases spent : budget.spent with
      | true => rw [walk_spent spent, walk_spent spent]
      | false =>
          by_cases shallow : depth < limits.maxDepth
          · rw [walk_object spent shallow, walk_object spent shallow]
            rw [walkFields_inStep path (depth + 1) [] budget.visit keys]
            intro place left right isLeft isRight notMasked
            exact inductionHypothesis place left right isLeft isRight notMasked (.field located notMasked)
          · rw [walk_deep spent (Nat.not_lt.mp shallow) id, walk_deep spent (Nat.not_lt.mp shallow) id]

/-! ## A named element shows -/

/-- Something in the value is clipped, whatever is left of the budget. -/
def AlwaysClipped (limits : Limits) (spec : CompiledRedactSpec) (value : Value) (path : Units) : Prop :=
  forall (depth : Nat) (budget : Budget), (walk limits spec value path depth budget).2.truncated = true

/-- An array whose last element is given, behind so many nulls. -/
def arrayAt (index : Nat) (value : Value) : Value := .array (List.replicate index .null ++ [value])

theorem alwaysClipped_string {text : Units} (long : limits.maxStringLength < text.length) (path : Units) :
    AlwaysClipped limits spec (.string text) path := by
  intro depth budget
  cases spent : budget.spent with
  | true =>
      rw [walk_spent spent]
      rfl
  | false =>
      have isLeaf : (Value.string text).IsLeaf := trivial
      rw [walk_leaf spent isLeaf, walkLeaf, walkString, if_pos long]
      rfl

theorem AlwaysClipped.field {value : Value} {path key : Units} (clipped : AlwaysClipped limits spec value (childPath path key))
    (notMasked : masked spec path key = false) : AlwaysClipped limits spec (.object [(key, value)]) path := by
  intro depth budget
  cases spent : budget.spent with
  | true =>
      rw [walk_spent spent]
      rfl
  | false =>
      by_cases shallow : depth < limits.maxDepth
      · rw [walk_object spent shallow]
        cases isSpent : budget.visit.spent with
        | true =>
            rw [walkFields_spent _ _ _ _ isSpent]
            rfl
        | false =>
            rw [walkFields_child _ _ _ _ isSpent notMasked]
            exact clipped _ _
      · rw [walk_deep spent (Nat.not_lt.mp shallow) id]
        rfl

theorem walkElements_clipped {value : Value} {path : Units} (before : Nat) (index depth : Nat) (budget : Budget)
    (fits : index + before < limits.maxArrayLength)
    (clipped : AlwaysClipped limits spec value (childPath path (Number.digits (index + before)))) :
    (walkElements limits spec (List.replicate before .null ++ [value]) path index depth budget).2.truncated =
      true := by
  induction before generalizing index budget with
  | zero =>
      rw [Nat.add_zero] at fits clipped
      rw [List.replicate_zero, List.nil_append]
      cases spent : budget.spent with
      | true =>
          rw [walkElements_spent spent fits]
          rfl
      | false =>
          rw [walkElements_cons spent fits]
          exact clipped _ _
  | succ before inductionHypothesis =>
      rw [List.replicate_succ, List.cons_append]
      have below : index < limits.maxArrayLength := by omega
      cases spent : budget.spent with
      | true =>
          rw [walkElements_spent spent below]
          rfl
      | false =>
          rw [walkElements_cons spent below]
          rw [← Nat.add_assoc, Nat.add_right_comm] at clipped
          exact inductionHypothesis (index + 1) _ (by omega) clipped

theorem AlwaysClipped.element {value : Value} {path : Units} {index : Nat}
    (clipped : AlwaysClipped limits spec value (childPath path (Number.digits index))) :
    AlwaysClipped limits spec (arrayAt index value) path := by
  intro depth budget
  cases spent : budget.spent with
  | true =>
      rw [walk_spent spent]
      rfl
  | false =>
      by_cases shallow : depth < limits.maxDepth
      · rw [arrayAt, walk_array spent shallow]
        split
        · rfl
        · rename_i fits
          rw [List.length_append, List.length_replicate, List.length_singleton] at fits
          refine walkElements_clipped index 0 (depth + 1) budget.visit (by omega) ?_
          rw [Nat.zero_add]
          exact clipped
      · rw [walk_deep spent (Nat.not_lt.mp shallow) id]
        rfl

theorem getElem?_arrayAt {index place : Nat} {value element : Value}
    (found : (List.replicate index Value.null ++ [value])[place]? = some element) :
    (place < index ∧ element = .null) ∨ (place = index ∧ element = value) := by
  rw [List.getElem?_append, List.length_replicate] at found
  split at found
  · rename_i before
    rw [List.getElem?_replicate, if_pos before] at found
    exact .inl ⟨before, (Option.some.inj found).symm⟩
  · rename_i notBefore
    rw [List.getElem?_singleton] at found
    split at found
    · rename_i isLast
      exact .inr ⟨by omega, (Option.some.inj found).symm⟩
    · cases found

/-- Arrays of nulls agree when their last elements do, or when these are masked. -/
theorem agree_arrayAt {left right : Value} {path : Units} {index : Nat}
    (agree : childPath path (Number.digits index) ∉ spec.paths ->
      Agree spec left right (childPath path (Number.digits index))) :
    Agree spec (arrayAt index left) (arrayAt index right) path := by
  refine .array ?_ fun place first second isFirst isSecond notMasked => ?_
  · rw [List.length_append, List.length_append]
    rfl
  · rcases getElem?_arrayAt isFirst with ⟨before, isNull⟩ | ⟨isLast, isValue⟩
    · rcases getElem?_arrayAt isSecond with ⟨_before, alsoNull⟩ | ⟨isLast, _isValue⟩
      · rw [isNull, alsoNull]
        exact .leaf trivial
      · omega
    · rcases getElem?_arrayAt isSecond with ⟨before, _isNull⟩ | ⟨_isLast, alsoValue⟩
      · omega
      · rw [isValue, alsoValue, isLast]
        rw [isLast] at notMasked
        exact agree notMasked

theorem agree_field {left right : Value} {path key : Units} (agree : Agree spec left right (childPath path key)) :
    Agree spec (.object [(key, left)]) (.object [(key, right)]) path := by
  refine .object rfl fun place first second isFirst isSecond _notMasked => ?_
  rw [List.getElem?_singleton] at isFirst isSecond
  split at isFirst
  · rename_i isZero
    rw [if_pos isZero] at isSecond
    cases isFirst
    cases isSecond
    exact agree
  · cases isFirst

theorem isJson_arrayAt {value : Value} (json : IsJson value) (index : Nat) : IsJson (arrayAt index value) := by
  refine isJson_array.mpr fun element member => ?_
  rcases List.mem_append.mp member with isNull | isValue
  · rw [List.eq_of_mem_replicate isNull]
    trivial
  · rw [List.mem_singleton.mp isValue]
    exact json

theorem isJson_field {value : Value} (json : IsJson value) (key : Units) : IsJson (.object [(key, value)]) := by
  refine isJson_object.mpr ⟨List.nodup_cons.mpr ⟨List.not_mem_nil, List.nodup_nil⟩, fun field member => ?_⟩
  rw [List.mem_singleton.mp member]
  exact json

theorem longest_arrayAt (value : Value) (index : Nat) : longest (arrayAt index value) = longest value := by
  rw [arrayAt, longest_array, largest]
  induction index with
  | zero => exact max_eq_left (Nat.zero_le _)
  | succ index inductionHypothesis =>
      rw [List.replicate_succ, List.cons_append, List.map_cons, List.foldr_cons, inductionHypothesis]
      exact max_eq_right (Nat.zero_le _)

theorem longest_field (value : Value) (key : Units) : longest (.object [(key, value)]) = longest value := by
  rw [longest_object]
  exact max_eq_left (Nat.zero_le _)

/-- A context that puts a value at a location. -/
structure Context (spec : CompiledRedactSpec) (path : Units) where
  around : Value -> Value
  agree : forall {left right : Value}, Agree spec left right path -> Agree spec (around left) (around right) []
  isJson : forall {value : Value}, IsJson value -> IsJson (around value)
  longest : forall value : Value, longest (around value) = longest value
  clipped : forall {limits : Limits} {value : Value}, AlwaysClipped limits spec value path ->
    AlwaysClipped limits spec (around value) []

/-- Every location has a context. -/
theorem exists_context {path : Units} (located : Located spec path) : Nonempty (Context spec path) := by
  induction located with
  | root =>
      exact ⟨{ around := id, agree := id, isJson := id, longest := fun _value => rfl, clipped := id }⟩
  | @field path key located notMasked inductionHypothesis =>
      rcases inductionHypothesis with ⟨context⟩
      exact ⟨{
        around := fun value => context.around (.object [(key, value)])
        agree := fun agree => context.agree (agree_field agree)
        isJson := fun json => context.isJson (isJson_field json key)
        longest := fun value => (context.longest _).trans (longest_field value key)
        clipped := fun clipped => context.clipped (clipped.field notMasked) }⟩
  | @element path located index inductionHypothesis =>
      rcases inductionHypothesis with ⟨context⟩
      exact ⟨{
        around := fun value => context.around (arrayAt index value)
        agree := fun agree => context.agree (agree_arrayAt fun _unnamed => agree)
        isJson := fun json => context.isJson (isJson_arrayAt json index)
        longest := fun value => (context.longest _).trans (longest_arrayAt value index)
        clipped := fun clipped => context.clipped clipped.element }⟩

/-- Redaction does not tell values apart that differ only in what is masked. -/
def NonInterfering (toLowerCase : Units -> Units) (options : RedactOptions) : Prop :=
  forall (bounds : RedactBounds) (left right : Value), Agree (compileRedactSpec toLowerCase options) left right [] ->
    redactBounded toLowerCase (options.within bounds) left =
      redactBounded toLowerCase (options.within bounds) right

def elementOptions : RedactOptions := { paths := [units "items.0"] }

def itemsContent (text : String) : Value := .object [(units "items", .array [.string (units text)])]

end Redaction
end Telescope
