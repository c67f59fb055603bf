import Mathlib.Data.List.TakeWhile
import Telescope.Core.Value

namespace Telescope
namespace Number

/-!
# Numerals

Whole numbers in decimal digits: how they are written, and how they are read again.
-/

/-- `\d`. -/
def isDigit (unit : Text.CodeUnit) : Bool := decide (48 ≤ unit.val ∧ unit.val ≤ 57)

/-- What digits denote. -/
def numeral (units : Units) : Nat := units.foldl (fun value unit => 10 * value + (unit.val - 48)) 0

/-- What follows white space and a sign, and whether the sign is a minus. -/
def splitSign (text : Units) : Bool × Units :=
  match text.dropWhile Units.isSpace with
  | [] => (false, [])
  | unit :: rest => if unit = 45 then (true, rest) else if unit = 43 then (false, rest) else (false, unit :: rest)

/-- `Number.parseInt(text, 10)`, unless it is not a number. -/
def parseInt (text : Units) : Option Int :=
  let (negative, rest) := splitSign text
  let digits := rest.takeWhile isDigit
  if digits = [] then none else some (if negative then -(numeral digits : Int) else numeral digits)

/-! ## Written numbers -/

theorem charUnits_of_isDigit {character : Char} (isDigit : character.isDigit = true) :
    Exists fun small => Text.charUnits character = [⟨character.toNat, small⟩] ∧
      48 ≤ character.toNat ∧ character.toNat ≤ 57 := by
  rw [Char.isDigit, Bool.and_eq_true, decide_eq_true_eq, decide_eq_true_eq] at isDigit
  have low : 48 ≤ character.toNat := isDigit.1
  have high : character.toNat ≤ 57 := isDigit.2
  exact ⟨by omega, dif_pos (by omega), low, high⟩

theorem digits_spec {text : List Char} (all : forall character, character ∈ text -> character.isDigit = true) :
    (forall unit, unit ∈ Text.codeUnits text -> isDigit unit = true) ∧
      (Text.codeUnits text).length = text.length ∧
      forall start, (Text.codeUnits text).foldl (fun value unit => 10 * value + (unit.val - 48)) start =
        Nat.ofDigitChars 10 text start := by
  induction text with
  | nil => exact ⟨fun unit member => (List.not_mem_nil member).elim, rfl, fun start => rfl⟩
  | cons character text inductionHypothesis =>
      rw [List.forall_mem_cons] at all
      rcases inductionHypothesis all.2 with ⟨digits, length, value⟩
      rcases charUnits_of_isDigit all.1 with ⟨small, shape, low, high⟩
      rw [Text.codeUnits, List.flatMap_cons, shape]
      refine ⟨?_, congrArg (· + 1) length, fun start => ?_⟩
      · rw [List.singleton_append, List.forall_mem_cons]
        exact ⟨decide_eq_true ⟨low, high⟩, digits⟩
      · exact (value _).trans (Nat.ofDigitChars_cons).symm

theorem isDigit_of_mem_digits {number : Nat} {unit : Text.CodeUnit} (member : unit ∈ digits number) :
    isDigit unit = true :=
  (digits_spec fun _ => Nat.isDigit_of_mem_toDigits (by decide) (by decide)).1 unit member

/-- What is written is read as the same number. -/
theorem numeral_digits (number : Nat) : numeral (digits number) = number :=
  ((digits_spec fun _ => Nat.isDigit_of_mem_toDigits (by decide) (by decide)).2.2 0).trans Nat.ofDigitChars_ten_toDigits

theorem digits_ne_nil (number : Nat) : digits number ≠ [] := by
  intro none
  have length := (@digits_spec (Nat.toDigits 10 number) fun _ =>
    Nat.isDigit_of_mem_toDigits (by decide) (by decide)).2.1
  rw [<- digits, none] at length
  exact Nat.toDigits_ne_nil (List.eq_nil_of_length_eq_zero length.symm)

theorem parseInt_digits (number : Nat) : parseInt (digits number) = some (number : Int) := by
  have all : forall unit, unit ∈ digits number -> isDigit unit = true := fun _ => isDigit_of_mem_digits
  have value := numeral_digits number
  have someDigit := digits_ne_nil number
  generalize digits number = text at all value someDigit
  cases text with
  | nil => exact (someDigit rfl).elim
  | cons first rest =>
      have bounds : 48 ≤ first.val ∧ first.val ≤ 57 := of_decide_eq_true (all first (List.mem_cons_self ..))
      have notSpace : Units.isSpace first = false := by
        rw [Units.isSpace, Bool.or_eq_false_iff, decide_eq_false_iff_not, decide_eq_false_iff_not]
        constructor
        · intro member
          simp only [List.mem_cons, List.not_mem_nil, or_false] at member
          omega
        · omega
      have sign : splitSign (first :: rest) = (false, first :: rest) := by
        have notMinus : first ≠ 45 := fun isMinus => by rw [isMinus] at bounds; exact absurd bounds (by decide)
        have notPlus : first ≠ 43 := fun isPlus => by rw [isPlus] at bounds; exact absurd bounds (by decide)
        rw [splitSign, List.dropWhile_cons, notSpace, if_neg Bool.false_ne_true]
        dsimp only
        rw [if_neg notMinus, if_neg notPlus]
      rw [parseInt, sign]
      dsimp only
      rw [List.takeWhile_eq_self_iff.mpr all, if_neg someDigit, if_neg Bool.false_ne_true, value]

/-! ## Units of written numbers -/

/-- A unit that the text of a number may hold: a letter, a digit, a sign or the point. -/
def IsTextUnit (unit : Text.CodeUnit) : Prop :=
  unit.val = 43 ∨ unit.val = 45 ∨ unit.val = 46 ∨ (48 ≤ unit.val ∧ unit.val ≤ 57) ∨
    (65 ≤ unit.val ∧ unit.val ≤ 90) ∨ (97 ≤ unit.val ∧ unit.val ≤ 122)

instance (unit : Text.CodeUnit) : Decidable (IsTextUnit unit) := inferInstanceAs (Decidable (_ ∨ _))

theorem isTextUnit_of_all {text : Units} (all : (text.all fun unit => decide (IsTextUnit unit)) = true)
    (unit : Text.CodeUnit) (member : unit ∈ text) : IsTextUnit unit :=
  of_decide_eq_true (List.all_eq_true.mp all unit member)

theorem isTextUnit_digits {number : Nat} {unit : Text.CodeUnit} (member : unit ∈ digits number) : IsTextUnit unit :=
  .inr (.inr (.inr (.inl (of_decide_eq_true (isDigit_of_mem_digits member)))))

theorem isTextUnit_zeros {count : Nat} {unit : Text.CodeUnit} (member : unit ∈ List.replicate count 48) :
    IsTextUnit unit := by
  rw [List.eq_of_mem_replicate member]
  decide

theorem isTextUnit_append {left right : Units} (inLeft : forall unit, unit ∈ left -> IsTextUnit unit)
    (inRight : forall unit, unit ∈ right -> IsTextUnit unit) (unit : Text.CodeUnit)
    (member : unit ∈ left ++ right) : IsTextUnit unit := by
  rcases List.mem_append.mp member with isLeft | isRight
  · exact inLeft unit isLeft
  · exact inRight unit isRight

theorem isTextUnit_positiveText (value : Rat) (unit : Text.CodeUnit) (member : unit ∈ positiveText value) :
    IsTextUnit unit := by
  have point := @isTextUnit_of_all (units ".") (by decide +kernel)
  have zeroPoint := @isTextUnit_of_all (units "0.") (by decide +kernel)
  have exponent := @isTextUnit_of_all (units "e") (by decide +kernel)
  have minus := @isTextUnit_of_all (units "-") (by decide +kernel)
  have plus := @isTextUnit_of_all (units "+") (by decide +kernel)
  have significand : forall unit, unit ∈ digits (shortestDecimal value).1 -> IsTextUnit unit :=
    fun unit member => isTextUnit_digits member
  have taken : forall count unit, unit ∈ (digits (shortestDecimal value).1).take count -> IsTextUnit unit :=
    fun count unit member => significand unit (List.mem_of_mem_take member)
  have dropped : forall count unit, unit ∈ (digits (shortestDecimal value).1).drop count -> IsTextUnit unit :=
    fun count unit member => significand unit (List.mem_of_mem_drop member)
  rw [positiveText] at member
  dsimp only at member
  split at member
  · exact isTextUnit_append significand (fun unit member => isTextUnit_zeros member) unit member
  · split at member
    · exact isTextUnit_append (isTextUnit_append (taken _) point) (dropped _) unit member
    · split at member
      · exact isTextUnit_append (isTextUnit_append zeroPoint fun unit member => isTextUnit_zeros member)
          significand unit member
      · have fraction : forall unit, unit ∈ (if (digits (shortestDecimal value).1).length = 1 then []
            else units "." ++ (digits (shortestDecimal value).1).drop 1) -> IsTextUnit unit := by
          intro unit member
          split at member
          · cases member
          · exact isTextUnit_append point (dropped 1) unit member
        have sign : forall unit, unit ∈ (if (shortestDecimal value).2 - 1 < 0 then units "-" else units "+") ->
            IsTextUnit unit := by
          intro unit member
          split at member
          · exact minus unit member
          · exact plus unit member
        exact isTextUnit_append (isTextUnit_append (isTextUnit_append (isTextUnit_append (taken 1) fraction) exponent)
          sign) (fun unit member => isTextUnit_digits member) unit member

theorem isTextUnit_text (number : Number) (unit : Text.CodeUnit) (member : unit ∈ number.text) :
    IsTextUnit unit := by
  cases number with
  | nan => exact @isTextUnit_of_all (units "NaN") (by decide +kernel) unit member
  | infinity negative =>
      cases negative with
      | false => exact @isTextUnit_of_all (units "Infinity") (by decide +kernel) unit member
      | true => exact @isTextUnit_of_all (units "-Infinity") (by decide +kernel) unit member
  | finite value =>
      rw [text] at member
      split at member
      · exact @isTextUnit_of_all (units "0") (by decide +kernel) unit member
      · split at member
        · exact isTextUnit_append (@isTextUnit_of_all (units "-") (by decide +kernel)) (isTextUnit_positiveText _) unit member
        · exact isTextUnit_positiveText _ unit member

end Number
end Telescope
