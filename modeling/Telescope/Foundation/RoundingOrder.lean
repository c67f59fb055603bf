import Telescope.Foundation.Number

namespace Telescope
namespace Number

/-!
# Rounding keeps order

Rounding to the nearest double is odd and monotone.  Two positive values with the same
distance of doubles are compared by their nearest multiples of it; otherwise a power of two
lies between them, and both round to their side of it.
-/

/-! ## Nearest integers -/

theorem nearestEven_intCast (value : Int) : nearestEven value = value := by
  rw [nearestEven, Int.floor_intCast, sub_self]
  exact if_pos (by norm_num)

theorem nearestEven_mono {left right : Rat} (atMost : left ≤ right) : nearestEven left ≤ nearestEven right := by
  refine Int.le_of_lt_add_one (lt_of_not_ge fun beyond => ?_)
  have leftNear := (abs_le.mp (abs_nearestEven_sub_le left)).2
  have rightNear := (abs_le.mp (abs_nearestEven_sub_le right)).1
  have apart : (nearestEven right : Rat) + 1 ≤ nearestEven left := by exact_mod_cast beyond
  have same : left = right := le_antisymm atMost (by linarith)
  rw [same] at beyond
  omega

/-- A nearest integer, even where there are two. -/
theorem eq_nearestEven {value : Rat} {integer : Int} (near : |(integer : Rat) - value| ≤ 1 / 2)
    (tie : |(integer : Rat) - value| = 1 / 2 -> integer % 2 = 0) : nearestEven value = integer := by
  have lower : ((⌊value⌋ : Int) : Rat) ≤ value := Int.floor_le value
  have upper : value < (⌊value⌋ : Int) + 1 := Int.lt_floor_add_one value
  rcases abs_le.mp near with ⟨notBelow, notAbove⟩
  have sides : integer = ⌊value⌋ ∨ integer = ⌊value⌋ + 1 := by
    have atLeast : (⌊value⌋ : Int) - 1 < integer := by
      have cast : (((⌊value⌋ : Int) - 1 : Int) : Rat) < integer := by
        push_cast
        linarith
      exact_mod_cast cast
    have atMost : integer < (⌊value⌋ : Int) + 2 := by
      have cast : (integer : Rat) < (((⌊value⌋ : Int) + 2 : Int) : Rat) := by
        push_cast
        linarith
      exact_mod_cast cast
    omega
  rw [nearestEven]
  rcases sides with rfl | rfl
  · by_cases small : value - ⌊value⌋ < 1 / 2
    · exact if_pos small
    · have half : |((⌊value⌋ : Int) : Rat) - value| = 1 / 2 := by
        rw [abs_of_nonpos (by linarith)]
        linarith
      have notLarge : ¬ 1 / 2 < value - ⌊value⌋ := by
        rw [not_lt]
        linarith
      rw [if_neg small, if_neg notLarge, if_pos (tie half)]
  · push_cast at near notBelow notAbove tie
    have notSmall : ¬ value - ⌊value⌋ < 1 / 2 := by
      rw [not_lt]
      linarith
    rw [if_neg notSmall]
    by_cases large : 1 / 2 < value - ⌊value⌋
    · exact if_pos large
    · have half : |((⌊value⌋ : Int) : Rat) + 1 - value| = 1 / 2 := by
        rw [abs_of_nonneg (by linarith)]
        linarith
      have even := tie half
      rw [if_neg large, if_neg (by omega)]

theorem nearestEven_neg (value : Rat) : nearestEven (-value) = -nearestEven value := by
  have mirrored : |((-nearestEven value : Int) : Rat) - -value| = |(nearestEven value : Rat) - value| := by
    rw [← abs_neg]
    congr 1
    push_cast
    ring
  refine eq_nearestEven (mirrored ▸ abs_nearestEven_sub_le value) fun tie => ?_
  have lower : ((⌊value⌋ : Int) : Rat) ≤ value := Int.floor_le value
  have upper : value < (⌊value⌋ : Int) + 1 := Int.lt_floor_add_one value
  rw [mirrored] at tie
  have even : nearestEven value % 2 = 0 := by
    rw [nearestEven] at tie ⊢
    split at tie
    · rename_i small
      rw [abs_of_nonpos (by linarith)] at tie
      linarith
    · rename_i notSmall
      split at tie
      · rename_i large
        push_cast at tie
        rw [abs_of_nonneg (by linarith)] at tie
        linarith
      · rename_i notLarge
        rw [if_neg notSmall, if_neg notLarge]
        split
        · rename_i even
          exact even
        · omega
  omega

/-! ## Nearest doubles -/

theorem nearest_zero : nearest 0 = 0 := by
  rw [nearest, zero_div, ← Int.cast_zero, nearestEven_intCast, Int.cast_zero, zero_mul]

theorem ulp_neg (value : Rat) : ulp (-value) = ulp value := by rw [ulp, ulp, abs_neg]

theorem nearest_neg (value : Rat) : nearest (-value) = -nearest value := by
  rw [nearest, nearest, ulp_neg, neg_div, nearestEven_neg]
  push_cast
  ring

theorem nearest_nonneg {value : Rat} (nonnegative : 0 ≤ value) : 0 ≤ nearest value := by
  have quotient : 0 ≤ nearestEven (value / ulp value) := by
    have mono := nearestEven_mono (div_nonneg nonnegative (ulp_pos value).le)
    rwa [← Int.cast_zero, nearestEven_intCast] at mono
  exact mul_nonneg (by exact_mod_cast quotient) (ulp_pos value).le

theorem ulp_mono {left right : Rat} (positive : 0 < left) (atMost : left ≤ right) : ulp left ≤ ulp right := by
  rw [ulp, ulp, abs_of_pos positive, abs_of_pos (positive.trans_le atMost)]
  have logs : Int.log 2 left ≤ Int.log 2 right := Int.log_mono_right positive atMost
  exact zpow_le_zpow_right₀ (by norm_num) (by omega)

/-- The lower end of the binade of a value is a multiple of every distance that is no longer. -/
theorem exists_multiple {exponent : Int} {value : Rat} (within : max (Int.log 2 |value| - 52) (-1074) ≤ exponent) :
    Exists fun multiple : Int => (2 : Rat) ^ exponent / ulp value = multiple := by
  rw [ulp]
  generalize max (Int.log 2 |value| - 52) (-1074) = least at within ⊢
  refine ⟨(2 : Int) ^ (exponent - least).toNat, ?_⟩
  rw [← zpow_sub₀ (by norm_num)]
  have size : ((exponent - least).toNat : Int) = exponent - least := Int.toNat_of_nonneg (by omega)
  rw [← size, zpow_natCast]
  push_cast
  rfl

/-- Positive values keep their order. -/
theorem nearest_mono_of_pos {left right : Rat} (positive : 0 < left) (atMost : left ≤ right) :
    nearest left ≤ nearest right := by
  have rightPositive := positive.trans_le atMost
  rcases (ulp_mono positive atMost).lt_or_eq with finer | same
  · -- A power of two lies between the values, and rounding does not cross it.
    have logs : max (Int.log 2 left - 52) (-1074) < max (Int.log 2 right - 52) (-1074) := by
      rw [ulp, ulp, abs_of_pos positive, abs_of_pos rightPositive] at finer
      exact (zpow_lt_zpow_iff_right₀ (by norm_num)).mp finer
    have below : left ≤ 2 ^ Int.log 2 right := by
      have binade : left < 2 ^ (Int.log 2 left + 1) := Int.lt_zpow_succ_log_self (by norm_num) left
      refine binade.le.trans (zpow_le_zpow_right₀ (by norm_num) ?_)
      omega
    have above : (2 : Rat) ^ Int.log 2 right ≤ right := Int.zpow_log_le_self (by norm_num) rightPositive
    have leftSide : nearest left ≤ 2 ^ Int.log 2 right := by
      rcases @exists_multiple (Int.log 2 right) left (by rw [abs_of_pos positive]; omega) with ⟨multiple, isMultiple⟩
      have mono := nearestEven_mono (div_le_div_of_nonneg_right below (ulp_pos left).le)
      rw [isMultiple, nearestEven_intCast] at mono
      have cast : (nearestEven (left / ulp left) : Rat) ≤ 2 ^ Int.log 2 right / ulp left := by
        rw [isMultiple]
        exact_mod_cast mono
      exact (le_div_iff₀ (ulp_pos left)).mp cast
    have rightSide : (2 : Rat) ^ Int.log 2 right ≤ nearest right := by
      rcases @exists_multiple (Int.log 2 right) right (by rw [abs_of_pos rightPositive]; omega) with
        ⟨multiple, isMultiple⟩
      have mono := nearestEven_mono (div_le_div_of_nonneg_right above (ulp_pos right).le)
      rw [isMultiple, nearestEven_intCast] at mono
      have cast : (2 : Rat) ^ Int.log 2 right / ulp right ≤ nearestEven (right / ulp right) := by
        rw [isMultiple]
        exact_mod_cast mono
      exact (div_le_iff₀ (ulp_pos right)).mp cast
    exact leftSide.trans rightSide
  · rw [nearest, nearest, same]
    have scaled := nearestEven_mono (div_le_div_of_nonneg_right atMost (ulp_pos right).le)
    exact mul_le_mul_of_nonneg_right (by exact_mod_cast scaled) (ulp_pos right).le

theorem nearest_mono {left right : Rat} (atMost : left ≤ right) : nearest left ≤ nearest right := by
  rcases lt_trichotomy left 0 with negative | zero | positive
  · rcases lt_or_ge right 0 with rightNegative | nonnegative
    · have mirrored := nearest_mono_of_pos (neg_pos.mpr rightNegative) (neg_le_neg atMost)
      rw [nearest_neg, nearest_neg] at mirrored
      exact neg_le_neg_iff.mp mirrored
    · have below := nearest_nonneg (neg_nonneg.mpr negative.le)
      rw [nearest_neg] at below
      exact (neg_nonneg.mp below).trans (nearest_nonneg nonnegative)
  · rw [zero, nearest_zero]
    exact nearest_nonneg (zero ▸ atMost)
  · exact nearest_mono_of_pos positive atMost

end Number
end Telescope
