import Mathlib.Algebra.Group.Nat.Defs
import Mathlib.Data.Char
import Mathlib.Data.List.Lex
import Mathlib.Order.Lattice

namespace Telescope
namespace Decimal

/-!
# Decimal numerals under the lexicographic order

Numerals are lists of characters.  Among numerals of one width the lexicographic
order is the numeric order, whatever follows them, so that fixed-width numerals
serve as sort keys.  The last section says what becomes of the order when a
numeral leaves its width: a longer run of digits, or a minus sign among the
padding.
-/

/-- All characters are ASCII digits. -/
def IsNumeral (text : List Char) : Prop :=
  forall character, character ∈ text -> character.isDigit = true

/-- The number a numeral denotes. -/
def value (text : List Char) : Nat := Nat.ofDigitChars 10 text 0

theorem isNumeral_toDigits (number : Nat) : IsNumeral (Nat.toDigits 10 number) :=
  fun _ member => Nat.isDigit_of_mem_toDigits (by decide) (by decide) member

variable {text : List Char}

theorem IsNumeral.tail {character : Char} (numeral : IsNumeral (character :: text)) : IsNumeral text :=
  fun other member => numeral other (List.mem_cons_of_mem _ member)

theorem IsNumeral.append {left right : List Char} (leftNumeral : IsNumeral left)
    (rightNumeral : IsNumeral right) : IsNumeral (left ++ right) := by
  intro character member
  rcases List.mem_append.mp member with inLeft | inRight
  · exact leftNumeral character inLeft
  · exact rightNumeral character inRight

theorem isNumeral_zeros (count : Nat) : IsNumeral (List.replicate count '0') := by
  intro character member
  rw [List.eq_of_mem_replicate member]
  rfl

theorem digit_bounds {character : Char} (digit : character.isDigit = true) :
    '0'.toNat ≤ character.toNat ∧ character.toNat ≤ '9'.toNat := by
  simp only [Char.isDigit, Bool.and_eq_true, decide_eq_true_eq] at digit
  exact ⟨UInt32.le_iff_toNat_le.mp digit.1, UInt32.le_iff_toNat_le.mp digit.2⟩

theorem IsNumeral.head_bounds {character : Char} (numeral : IsNumeral (character :: text)) :
    '0'.toNat ≤ character.toNat ∧ character.toNat ≤ '9'.toNat :=
  digit_bounds (numeral character (List.mem_cons_self ..))

theorem char_lt_iff {left right : Char} : left < right <-> left.toNat < right.toNat :=
  UInt32.lt_iff_toNat_lt

@[simp] theorem value_toDigits (number : Nat) : value (Nat.toDigits 10 number) = number :=
  Nat.ofDigitChars_ten_toDigits

theorem value_cons (character : Char) (text : List Char) :
    value (character :: text) =
      10 ^ text.length * (character.toNat - '0'.toNat) + value text := by
  rw [value, Nat.ofDigitChars_cons, Nat.ofDigitChars_eq_ofDigitChars_zero]
  rw [Nat.mul_zero, Nat.zero_add]
  rfl

theorem value_zeros_append (count : Nat) (text : List Char) :
    value (List.replicate count '0' ++ text) = value text := by
  rw [value, Nat.ofDigitChars_append, Nat.ofDigitChars_replicate_zero, Nat.mul_zero]
  rfl

theorem value_lt (numeral : IsNumeral text) :
    value text < 10 ^ text.length := by
  induction text with
  | nil => exact Nat.one_pos
  | cons character text inductionHypothesis =>
      have digit := numeral.head_bounds
      have rest := inductionHypothesis numeral.tail
      have nine : character.toNat - '0'.toNat ≤ 9 := by
        change character.toNat - 48 ≤ 9
        have upper : character.toNat ≤ 57 := digit.2
        omega
      rw [value_cons, List.length_cons, Nat.pow_succ]
      calc 10 ^ text.length * (character.toNat - '0'.toNat) + value text
          < 10 ^ text.length * 9 + 10 ^ text.length :=
            Nat.add_lt_add_of_le_of_lt (Nat.mul_le_mul_left _ nine) rest
        _ = 10 ^ text.length * 10 := by omega

/-! ## One width -/

/-- Numerals of one width compare as numbers, whatever is appended to them. -/
theorem append_lt_append_of_value_lt {left right : List Char} (leftNumeral : IsNumeral left)
    (rightNumeral : IsNumeral right) (width : left.length = right.length)
    (smaller : value left < value right) (leftRest rightRest : List Char) :
    left ++ leftRest < right ++ rightRest := by
  induction left generalizing right with
  | nil =>
      rw [List.length_eq_zero_iff.mp width.symm] at smaller
      exact (lt_irrefl _ smaller).elim
  | cons first left inductionHypothesis =>
      cases right with
      | nil => cases width
      | cons second right =>
          have width : left.length = right.length := Nat.succ.inj width
          have firstDigit := leftNumeral.head_bounds
          have secondDigit := rightNumeral.head_bounds
          rw [List.cons_append, List.cons_append, List.cons_lt_cons_iff]
          rw [value_cons, value_cons, width] at smaller
          rcases lt_trichotomy first.toNat second.toNat with below | same | above
          · exact .inl (char_lt_iff.mpr below)
          · rw [same] at smaller
            exact .inr ⟨Char.toNat_inj.mp same,
              inductionHypothesis leftNumeral.tail rightNumeral.tail width (Nat.lt_of_add_lt_add_left smaller)⟩
          · have tailBound := value_lt rightNumeral.tail
            have more : second.toNat - '0'.toNat + 1 ≤ first.toNat - '0'.toNat := by omega
            have scaled := Nat.mul_le_mul_left (10 ^ right.length) more
            rw [Nat.mul_add, Nat.mul_one] at scaled
            omega

/-- Numerals of one width that denote one number are equal. -/
theorem eq_of_value_eq {left right : List Char} (leftNumeral : IsNumeral left)
    (rightNumeral : IsNumeral right) (width : left.length = right.length)
    (same : value left = value right) : left = right := by
  induction left generalizing right with
  | nil => exact (List.length_eq_zero_iff.mp width.symm).symm
  | cons first left inductionHypothesis =>
      cases right with
      | nil => cases width
      | cons second right =>
          have width : left.length = right.length := Nat.succ.inj width
          have firstDigit := leftNumeral.head_bounds
          have secondDigit := rightNumeral.head_bounds
          have leftBound := value_lt leftNumeral.tail
          have rightBound := value_lt rightNumeral.tail
          rw [value_cons, value_cons, width] at same
          rw [width] at leftBound
          have heads : first.toNat - '0'.toNat = second.toNat - '0'.toNat := by
            have quotients := congrArg (· / 10 ^ right.length) same
            have positive : 0 < 10 ^ right.length := Nat.pow_pos (by decide)
            simp only [Nat.mul_add_div positive, Nat.div_eq_of_lt leftBound,
              Nat.div_eq_of_lt rightBound, Nat.add_zero] at quotients
            exact quotients
          rw [heads] at same
          rw [Char.toNat_inj.mp (by omega : first.toNat = second.toNat),
            inductionHypothesis leftNumeral.tail rightNumeral.tail width
              (Nat.add_left_cancel same)]

/-! ## Padding -/

/-- `padStart`: fill on the left up to a width, never shorten. -/
def padStart (width : Nat) (fill : Char) (text : List Char) : List Char :=
  List.replicate (width - text.length) fill ++ text

theorem padStart_length {width : Nat} (fits : text.length ≤ width) (fill : Char) :
    (padStart width fill text).length = width := by
  rw [padStart, List.length_append, List.length_replicate]
  omega

theorem isNumeral_padded (width number : Nat) :
    IsNumeral (padStart width '0' (Nat.toDigits 10 number)) :=
  (isNumeral_zeros _).append (isNumeral_toDigits number)

theorem value_padded (width number : Nat) :
    value (padStart width '0' (Nat.toDigits 10 number)) = number := by
  rw [padStart, value_zeros_append, value_toDigits]

theorem padded_length {width number : Nat} (positive : 0 < width) (fits : number < 10 ^ width) :
    (padStart width '0' (Nat.toDigits 10 number)).length = width :=
  padStart_length ((Nat.length_toDigits_le_iff (by decide) positive).mpr fits) '0'

/-! ## Outside the width -/

/-- A character above the digits exceeds every numeral, however long. -/
theorem numeral_lt_separator (numeral : IsNumeral text) {separator : Char} (above : '9' < separator)
    (rest : List Char) : text < separator :: rest := by
  cases text with
  | nil => exact List.nil_lt_cons ..
  | cons first text =>
      have digit := numeral.head_bounds
      refine List.cons_lt_cons_iff.mpr (.inl ?_)
      exact char_lt_iff.mpr (Nat.lt_of_le_of_lt digit.2 (char_lt_iff.mp above))

/-- A numeral closed by a character above the digits exceeds a numeral at least
as wide exactly when it is no less than that numeral's digits of its own width. -/
theorem closed_lt_iff {wider : List Char} (numeral : IsNumeral text) (widerNumeral : IsNumeral wider)
    (fits : text.length ≤ wider.length) {separator : Char} (above : '9' < separator) (rest : List Char) :
    text ++ separator :: rest < wider <-> value text < value (wider.take text.length) := by
  have width : text.length = (wider.take text.length).length :=
    (List.length_take_of_le fits).symm
  have digits : IsNumeral (wider.take text.length) :=
    fun character member => widerNumeral character (List.mem_of_mem_take member)
  have split := List.take_append_drop text.length wider
  rcases lt_trichotomy (value text) (value (wider.take text.length)) with below | same | larger
  · have less := append_lt_append_of_value_lt numeral digits width below (separator :: rest)
      (wider.drop text.length)
    rw [split] at less
    exact iff_of_true less below
  · have restDigits : IsNumeral (wider.drop text.length) :=
      fun character member => widerNumeral character (List.mem_of_mem_drop member)
    have greater : text ++ wider.drop text.length < text ++ separator :: rest :=
      List.append_left_lt (numeral_lt_separator restDigits above rest)
    have start := eq_of_value_eq numeral digits width same
    rw [← start] at split
    rw [split] at greater
    exact iff_of_false (lt_asymm greater) (Nat.not_lt.mpr (Nat.le_of_eq same.symm))
  · have greater := append_lt_append_of_value_lt digits numeral width.symm larger
      (wider.drop text.length) (separator :: rest)
    rw [split] at greater
    exact iff_of_false (lt_asymm greater) (Nat.not_lt.mpr (Nat.le_of_lt larger))

/-- Padding that meets a minus sign stays below every wider numeral. -/
theorem signed_lt_numeral (numeral : IsNumeral text) {zeros : Nat} (wider : zeros < text.length) {sign : Char}
    (below : sign < '0') (rest textRest : List Char) :
    List.replicate zeros '0' ++ sign :: rest < text ++ textRest := by
  induction zeros generalizing text with
  | zero =>
      cases text with
      | nil => cases wider
      | cons first text =>
          have digit := numeral.head_bounds
          refine List.cons_lt_cons_iff.mpr (.inl ?_)
          exact char_lt_iff.mpr (Nat.lt_of_lt_of_le (char_lt_iff.mp below) digit.1)
  | succ zeros inductionHypothesis =>
      cases text with
      | nil => cases wider
      | cons first text =>
          have digit := numeral.head_bounds
          refine List.cons_lt_cons_iff.mpr ?_
          rcases Nat.lt_or_eq_of_le digit.1 with above | zero
          · exact .inl (char_lt_iff.mpr above)
          · exact .inr ⟨Char.toNat_inj.mp zero,
              inductionHypothesis numeral.tail (Nat.lt_of_succ_lt_succ wider)⟩

/-! ## Integers -/

/-- The decimal text of an integer. -/
def ofInt : Int -> List Char
  | .ofNat number => Nat.toDigits 10 number
  | .negSucc number => '-' :: Nat.toDigits 10 (number + 1)

/-- The integer a text denotes.  The empty text denotes zero; a text that is
neither empty nor an optional minus sign before digits denotes nothing. -/
def toInt : List Char -> Option Int
  | [] => some 0
  | '-' :: digits =>
      if digits ≠ [] ∧ digits.all Char.isDigit then some (-(value digits : Int)) else none
  | digits => if digits.all Char.isDigit then some (value digits : Int) else none

theorem ofInt_of_nonneg {number : Int} (nonneg : 0 ≤ number) :
    ofInt number = Nat.toDigits 10 number.toNat := by
  cases number with
  | ofNat number => rfl
  | negSucc number => exact (Int.negSucc_not_nonneg number |>.mp nonneg).elim

theorem ofInt_of_neg {number : Int} (negative : number < 0) :
    ofInt number = '-' :: Nat.toDigits 10 number.natAbs := by
  cases number with
  | ofNat number => exact (Int.not_lt.mpr (Int.natCast_nonneg number) negative).elim
  | negSucc number => rfl

theorem toDigits_head_ne {character : Char} (notDigit : character.isDigit = false)
    (number : Nat) (rest : List Char) : Nat.toDigits 10 number ≠ character :: rest := by
  intro same
  have digit := isNumeral_toDigits number character (same ▸ List.mem_cons_self ..)
  rw [notDigit] at digit
  cases digit

theorem all_isDigit (numeral : IsNumeral text) :
    text.all Char.isDigit = true :=
  List.all_eq_true.mpr numeral

/-- Reading back the text of an integer gives the integer. -/
theorem toInt_ofInt (number : Int) : toInt (ofInt number) = some number := by
  cases number with
  | ofNat number =>
      change toInt (Nat.toDigits 10 number) = _
      unfold toInt
      split
      · exact absurd ‹_› Nat.toDigits_ne_nil
      · exact absurd ‹_› (toDigits_head_ne rfl number _)
      · rw [if_pos (all_isDigit (isNumeral_toDigits number)), value_toDigits]
        rfl
  | negSucc number =>
      rw [ofInt, toInt, if_pos ⟨Nat.toDigits_ne_nil, all_isDigit (isNumeral_toDigits _)⟩, value_toDigits]
      rfl

theorem ofInt_not_mem {separator : Char} (notDigit : separator.isDigit = false)
    (notMinus : separator ≠ '-') (number : Int) : separator ∉ ofInt number := by
  have absent : forall number, separator ∉ Nat.toDigits 10 number := by
    intro number member
    have digit := isNumeral_toDigits number separator member
    rw [notDigit] at digit
    cases digit
  cases number with
  | ofNat number => exact absent number
  | negSucc number =>
      intro member
      rcases List.mem_cons.mp member with minus | digits
      · exact notMinus minus
      · exact absent _ digits

end Decimal
end Telescope
