import Mathlib.Algebra.Order.Field.Power
import Mathlib.Data.Int.Log
import Mathlib.Data.Rat.Floor

namespace Telescope

/-!
# Doubles

A double is not a number, infinite, or an exact rational; zeros are not told apart by
their sign.  The difference of two doubles is the exact difference, rounded to the
nearest double with ties to even.  Rounding moves a number by no more than itself and
one, so that it overflows only from far beyond what is subtracted here.
-/

/-- A JavaScript number, by its exact value. -/
inductive Number
  | nan
  | infinity (negative : Bool)
  | finite (value : Rat)
  deriving DecidableEq

namespace Number

/-! ## Rounding -/

/-- The nearest integer, the even one of two. -/
def nearestEven (value : Rat) : Int :=
  let below := ⌊value⌋
  if value - below < 1 / 2 then below
  else if 1 / 2 < value - below then below + 1
  else if below % 2 = 0 then below
  else below + 1

theorem abs_nearestEven_sub_le (value : Rat) : |(nearestEven value : Rat) - value| ≤ 1 / 2 := by
  have lower : ((⌊value⌋ : Int) : Rat) ≤ value := Int.floor_le value
  have upper : value < (⌊value⌋ : Int) + 1 := Int.lt_floor_add_one value
  have bounds : (nearestEven value = ⌊value⌋ ∧ value - ⌊value⌋ ≤ 1 / 2) ∨
      (nearestEven value = ⌊value⌋ + 1 ∧ 1 / 2 ≤ value - ⌊value⌋) := by
    rw [nearestEven]
    split
    · rename_i small
      exact .inl ⟨rfl, small.le⟩
    · rename_i notSmall
      split
      · rename_i large
        exact .inr ⟨rfl, large.le⟩
      · rename_i notLarge
        split
        · exact .inl ⟨rfl, not_lt.mp notLarge⟩
        · exact .inr ⟨rfl, not_lt.mp notSmall⟩
  rcases bounds with ⟨isBelow, near⟩ | ⟨isAbove, near⟩
  · rw [isBelow, abs_le]
    constructor <;> linarith
  · rw [isAbove, abs_le]
    push_cast
    constructor <;> linarith

/-- The distance of doubles around a value. -/
def ulp (value : Rat) : Rat := 2 ^ max (Int.log 2 |value| - 52) (-1074)

theorem ulp_pos (value : Rat) : 0 < ulp value := zpow_pos (by norm_num) _

/-- The nearest double of a value that is not zero, if it does not overflow. -/
def nearest (value : Rat) : Rat := nearestEven (value / ulp value) * ulp value

/-- The double nearest to an exact value. -/
def round (value : Rat) : Number :=
  if value = 0 then .finite 0
  else if 2 ^ 1024 ≤ |nearest value| then .infinity (decide (nearest value < 0))
  else .finite (nearest value)

theorem round_ne_nan (value : Rat) : round value ≠ .nan := by
  rw [round]
  split
  · exact fun same => by cases same
  · split <;> exact fun same => by cases same

/-! ## Arithmetic and comparison -/

/-- `left - right`. -/
def sub : Number -> Number -> Number
  | .finite left, .finite right => round (left - right)
  | .finite _left, .infinity negative => .infinity (!negative)
  | .infinity negative, .finite _right => .infinity negative
  | .infinity true, .infinity false => .infinity true
  | .infinity false, .infinity true => .infinity false
  | _, _ => .nan

/-- `left >= right`. -/
def ge : Number -> Number -> Bool
  | .finite left, .finite right => decide (right ≤ left)
  | .finite _left, .infinity negative => negative
  | .infinity negative, .finite _right => !negative
  | .infinity left, .infinity right => !left || right
  | _, _ => false

/-- `left < right`. -/
def lt : Number -> Number -> Bool
  | .finite left, .finite right => decide (left < right)
  | .finite _left, .infinity negative => !negative
  | .infinity negative, .finite _right => negative
  | .infinity left, .infinity right => left && !right
  | _, _ => false

/-- `Number.isFinite`. -/
def isFinite : Number -> Bool
  | .finite _value => true
  | _ => false

/-- `Math.max(0, value)`. -/
def maxZero : Number -> Number
  | .nan => .nan
  | .infinity negative => if negative then .finite 0 else .infinity false
  | .finite value => .finite (max 0 value)

end Number
end Telescope
