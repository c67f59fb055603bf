import Telescope.Foundation.RoundingOrder

namespace Telescope
namespace Number

/-!
# Doubles on a line

Every number but the missing one has a place on a line with two ends, and the comparisons
of numbers compare their places.  Sums are rounded; a sum with the same finite number keeps
the order of what is added.
-/

/-! ## Sums and comparisons -/

/-- `left + right`. -/
def add : Number -> Number -> Number
  | .finite left, .finite right => round (left + right)
  | .finite _left, .infinity negative => .infinity negative
  | .infinity negative, .finite _right => .infinity negative
  | .infinity true, .infinity true => .infinity true
  | .infinity false, .infinity false => .infinity false
  | _, _ => .nan

/-- `left <= right`. -/
def le (left right : Number) : Bool := right.ge left

/-- The sign of `left - right`, as a comparator is read: what is not a number counts as
zero.  Doubles that differ have a difference that is not zero. -/
def sign (left right : Number) : Int :=
  if left.lt right then -1 else if right.lt left then 1 else 0

/-- `Math.min` of two. -/
def min : Number -> Number -> Number
  | .nan, _right => .nan
  | _left, .nan => .nan
  | left, right => if right.lt left then right else left

/-- `Math.max` of two. -/
def max : Number -> Number -> Number
  | .nan, _right => .nan
  | _left, .nan => .nan
  | left, right => if left.lt right then right else left

/-- `Math.min(...numbers)`. -/
def minAll (numbers : List Number) : Number := numbers.foldl min (.infinity false)

/-- `Math.max(...numbers)`. -/
def maxAll (numbers : List Number) : Number := numbers.foldl max (.infinity true)

/-! ## The line -/

/-- The place of a number on the line. -/
def place : Number -> WithBot (WithTop Rat)
  | .nan => ⊥
  | .infinity negative => if negative then ⊥ else (⊤ : WithTop Rat)
  | .finite value => (value : WithTop Rat)

theorem place_finite (value : Rat) : (finite value).place = ((value : WithTop Rat) : WithBot (WithTop Rat)) := rfl

theorem place_finite_le {left right : Rat} : (finite left).place ≤ (finite right).place <-> left ≤ right := by
  rw [place_finite, place_finite, WithBot.coe_le_coe, WithTop.coe_le_coe]

theorem place_finite_lt {left right : Rat} : (finite left).place < (finite right).place <-> left < right := by
  rw [place_finite, place_finite, WithBot.coe_lt_coe, WithTop.coe_lt_coe]

theorem place_finite_lt_top (value : Rat) : (finite value).place < (infinity false).place := by
  change ((value : WithTop Rat) : WithBot (WithTop Rat)) < ((⊤ : WithTop Rat) : WithBot (WithTop Rat))
  rw [WithBot.coe_lt_coe]
  exact WithTop.coe_lt_top value

theorem bot_lt_place_finite (value : Rat) : (infinity true).place < (finite value).place :=
  WithBot.bot_lt_coe _

theorem bot_lt_top : (infinity true).place < (infinity false).place := WithBot.bot_lt_coe _

variable {left right : Number}

theorem lt_iff (leftNumber : left ≠ .nan) (rightNumber : right ≠ .nan) :
    left.lt right = true <-> left.place < right.place := by
  cases left with
  | nan => exact (leftNumber rfl).elim
  | infinity leftNegative =>
      cases right with
      | nan => exact (rightNumber rfl).elim
      | infinity rightNegative =>
          cases leftNegative with
          | true =>
              cases rightNegative with
              | true => exact iff_of_false Bool.false_ne_true (lt_irrefl _)
              | false => exact iff_of_true rfl bot_lt_top
          | false =>
              cases rightNegative with
              | true => exact iff_of_false Bool.false_ne_true bot_lt_top.asymm
              | false => exact iff_of_false Bool.false_ne_true (lt_irrefl _)
      | finite value =>
          cases leftNegative with
          | true => exact iff_of_true rfl (bot_lt_place_finite value)
          | false => exact iff_of_false Bool.false_ne_true (place_finite_lt_top value).asymm
  | finite value =>
      cases right with
      | nan => exact (rightNumber rfl).elim
      | infinity negative =>
          cases negative with
          | true => exact iff_of_false Bool.false_ne_true (bot_lt_place_finite value).asymm
          | false => exact iff_of_true rfl (place_finite_lt_top value)
      | finite other => exact decide_eq_true_iff.trans place_finite_lt.symm

/-- Numbers are comparable unless one is missing. -/
theorem ge_eq_not_lt (leftNumber : left ≠ .nan) (rightNumber : right ≠ .nan) :
    left.ge right = !left.lt right := by
  cases left with
  | nan => exact (leftNumber rfl).elim
  | infinity leftNegative =>
      cases right with
      | nan => exact (rightNumber rfl).elim
      | infinity rightNegative => cases leftNegative <;> cases rightNegative <;> rfl
      | finite value => rfl
  | finite value =>
      cases right with
      | nan => exact (rightNumber rfl).elim
      | infinity negative => cases negative <;> rfl
      | finite other =>
          rw [ge, lt, ← decide_not]
          exact decide_eq_decide.mpr not_lt.symm

theorem le_iff (leftNumber : left ≠ .nan) (rightNumber : right ≠ .nan) :
    left.le right = true <-> left.place ≤ right.place := by
  rw [le, ge_eq_not_lt rightNumber leftNumber, Bool.not_eq_true', ← Bool.not_eq_true,
    lt_iff rightNumber leftNumber, not_lt]

theorem ne_nan_of_le (atMost : left.le right = true) : left ≠ .nan ∧ right ≠ .nan := by
  constructor
  · rintro rfl
    cases right <;> cases atMost
  · rintro rfl
    cases atMost

theorem le_trans {first second third : Number} (left : first.le second = true) (right : second.le third = true) :
    first.le third = true := by
  rcases ne_nan_of_le left with ⟨firstNumber, secondNumber⟩
  rcases ne_nan_of_le right with ⟨_, thirdNumber⟩
  rw [le_iff firstNumber secondNumber] at left
  rw [le_iff secondNumber thirdNumber] at right
  rw [le_iff firstNumber thirdNumber]
  exact left.trans right

theorem lt_eq_false_iff (leftNumber : left ≠ .nan) (rightNumber : right ≠ .nan) :
    left.lt right = false <-> right.place ≤ left.place := by
  rw [← Bool.not_eq_true, lt_iff leftNumber rightNumber, not_lt]

/-! ## Sums in order -/

theorem round_eq (value : Rat) : round value =
    if 2 ^ 1024 ≤ |nearest value| then .infinity (decide (nearest value < 0)) else .finite (nearest value) := by
  by_cases zero : value = 0
  · rw [zero, nearest_zero, abs_zero, if_neg (by norm_num), round, if_pos rfl]
  · rw [round, if_neg zero]

theorem round_mono {left right : Rat} (atMost : left ≤ right) : (round left).place ≤ (round right).place := by
  have ordered := nearest_mono atMost
  rw [round_eq, round_eq]
  generalize nearest left = left at *
  generalize nearest right = right at *
  have limitPositive : (0 : Rat) < 2 ^ 1024 := by norm_num
  generalize (2 : Rat) ^ 1024 = limit at *
  by_cases leftOver : limit ≤ |left|
  · rw [if_pos leftOver]
    by_cases leftNegative : left < 0
    · rw [decide_eq_true leftNegative]
      exact bot_le
    · have leftLarge : limit ≤ left := abs_of_nonneg (not_lt.mp leftNegative) ▸ leftOver
      have rightLarge : limit ≤ right := leftLarge.trans ordered
      have rightNegative : ¬ right < 0 := not_lt.mpr (limitPositive.le.trans rightLarge)
      rw [if_pos (rightLarge.trans (le_abs_self right)), decide_eq_false leftNegative, decide_eq_false rightNegative]
  · rw [if_neg leftOver]
    by_cases rightOver : limit ≤ |right|
    · rw [if_pos rightOver]
      have leftAbove : -limit < left := (abs_lt.mp (not_le.mp leftOver)).1
      have rightNegative : ¬ right < 0 := by
        intro negative
        rw [abs_of_neg negative] at rightOver
        linarith
      rw [decide_eq_false rightNegative]
      exact (place_finite_lt_top left).le
    · rw [if_neg rightOver]
      exact place_finite_le.mpr ordered

theorem add_ne_nan {left : Rat} (rightNumber : right ≠ .nan) : add (.finite left) right ≠ .nan := by
  cases right with
  | nan => exact rightNumber
  | infinity negative => exact fun impossible => by cases impossible
  | finite value => exact round_ne_nan _

theorem infinity_place_le {negative : Bool} {number : Number} (number_ne : number ≠ .nan)
    (atMost : (infinity negative).place ≤ number.place) : negative = true ∨ number = .infinity false := by
  cases negative with
  | true => exact .inl rfl
  | false =>
      cases number with
      | nan => exact (number_ne rfl).elim
      | infinity negative =>
          cases negative with
          | true => exact absurd atMost (not_le.mpr bot_lt_top)
          | false => exact .inr rfl
      | finite value => exact absurd atMost (not_le.mpr (place_finite_lt_top value))

/-- Adding to a finite number keeps the order of what is added. -/
theorem add_mono {start : Rat} (leftNumber : left ≠ .nan) (rightNumber : right ≠ .nan)
    (atMost : left.place ≤ right.place) : (add (.finite start) left).place ≤ (add (.finite start) right).place := by
  cases left with
  | nan => exact (leftNumber rfl).elim
  | infinity negative =>
      rcases infinity_place_le rightNumber atMost with rfl | rfl
      · exact bot_le
      · cases negative with
        | true => exact bot_le
        | false => exact le_refl _
  | finite left =>
      cases right with
      | nan => exact (rightNumber rfl).elim
      | infinity negative =>
          cases negative with
          | true => exact absurd atMost (not_le.mpr (bot_lt_place_finite left))
          | false =>
              change (round (start + left)).place ≤ ((⊤ : WithTop Rat) : WithBot (WithTop Rat))
              exact le_top
      | finite right => exact round_mono (add_le_add_right (place_finite_le.mp atMost) start)

end Number
end Telescope

namespace Telescope
namespace Number

/-!
# Whole doubles

A whole number below two to the fifty-third is a double.  So a product or a difference of
two numbers is on the same side of it as the exact one.
-/

/-- `left * right`. -/
def mul : Number -> Number -> Number
  | .finite left, .finite right => round (left * right)
  | .finite left, .infinity negative => if left = 0 then .nan else .infinity (negative != decide (left < 0))
  | .infinity negative, .finite right => if right = 0 then .nan else .infinity (negative != decide (right < 0))
  | .infinity left, .infinity right => .infinity (left != right)
  | _, _ => .nan

theorem nearest_intCast {value : Int} (small : |value| < 2 ^ 53) : nearest value = value := by
  by_cases zero : value = 0
  · rw [zero, Int.cast_zero, nearest_zero]
  · have positive : (0 : Rat) < |(value : Rat)| := abs_pos.mpr (by exact_mod_cast zero)
    have log : Int.log 2 |(value : Rat)| < 53 := by
      refine (Int.lt_zpow_iff_log_lt (by norm_num) positive).mp ?_
      exact_mod_cast small
    rcases @exists_multiple 0 value (by omega) with ⟨multiple, isMultiple⟩
    have nonzero := (ulp_pos value).ne'
    have scaled : (value : Rat) / ulp value = (value * multiple : Int) := by
      rw [Int.cast_mul, <- isMultiple, zpow_zero, mul_one_div]
    rw [nearest, scaled, nearestEven_intCast, <- scaled, div_mul_cancel₀ _ nonzero]

/-- Whole numbers are not rounded. -/
theorem round_intCast {value : Int} (small : |value| < 2 ^ 53) : round value = .finite value := by
  have inRange : ¬ (2 : Rat) ^ 1024 ≤ |(value : Rat)| := by
    have below : |(value : Rat)| < 2 ^ 53 := by exact_mod_cast small
    exact not_le.mpr (below.trans (pow_lt_pow_right₀ (by norm_num) (by norm_num)))
  rw [round_eq, nearest_intCast small, if_neg inRange]

/-- What is at most a whole number is rounded to at most that. -/
theorem round_place_le {value : Rat} {bound : Int} (small : |bound| < 2 ^ 53) (atMost : value ≤ bound) :
    (round value).place ≤ (finite bound).place :=
  round_intCast small ▸ round_mono atMost

theorem le_round_place {value : Rat} {bound : Int} (small : |bound| < 2 ^ 53) (atLeast : (bound : Rat) ≤ value) :
    (finite bound).place ≤ (round value).place :=
  round_intCast small ▸ round_mono atLeast

/-- Between whole numbers rounding stays between them. -/
theorem exists_round_between {value : Rat} {lower upper : Int} (lowerSmall : |lower| < 2 ^ 53)
    (upperSmall : |upper| < 2 ^ 53) (atLeast : (lower : Rat) ≤ value) (atMost : value ≤ upper) :
    Exists fun result : Rat => round value = .finite result ∧ (lower : Rat) ≤ result ∧ result ≤ upper := by
  have above := le_round_place lowerSmall atLeast
  have below := round_place_le upperSmall atMost
  cases rounded : round value with
  | nan => exact (round_ne_nan value rounded).elim
  | infinity negative =>
      rw [rounded] at above below
      cases negative with
      | true => exact absurd above (not_le.mpr (bot_lt_place_finite _))
      | false => exact absurd below (not_le.mpr (place_finite_lt_top _))
  | finite result =>
      rw [rounded] at above below
      exact ⟨result, rfl, place_finite_le.mp above, place_finite_le.mp below⟩

end Number
end Telescope
