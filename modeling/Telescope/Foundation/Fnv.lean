import Telescope.Foundation.Decimal

namespace Telescope
namespace Fnv

/-!
# FNV-1a

The 32-bit hash of a text of code units, and its hexadecimal digits.  A round is
injective in the hash and in the code unit, so that texts that differ in one place have
different hashes.
-/

/-- `hash ^= unit; hash = Math.imul(hash, 0x01000193)`. -/
def step (hash : UInt32) (unit : Nat) : UInt32 := (hash ^^^ UInt32.ofNat unit) * 0x01000193

def hash (input : List Nat) : UInt32 := input.foldl step 0x811c9dc5

/-- The hash in eight hexadecimal digits. -/
def text (hash : UInt32) : List Char := Decimal.padStart 8 '0' (Nat.toDigits 16 hash.toNat)

/-! ## One round -/

/-- The prime has an inverse. -/
theorem mul_prime_injective {left right : UInt32} (same : left * 0x01000193 = right * 0x01000193) :
    left = right := by
  have inverse : (0x01000193 : UInt32) * 0x359c449b = 1 := by decide
  have undone := congrArg (· * (0x359c449b : UInt32)) same
  simp only [UInt32.mul_assoc, inverse, UInt32.mul_one] at undone
  exact undone

theorem step_injective_hash {left right : UInt32} {unit : Nat} (same : step left unit = step right unit) :
    left = right :=
  UInt32.xor_left_inj _ |>.mp (mul_prime_injective same)

theorem step_injective_unit {hash : UInt32} {left right : Nat} (leftSmall : left < 4294967296)
    (rightSmall : right < 4294967296) (same : step hash left = step hash right) : left = right := by
  have sameUnit : UInt32.ofNat left = UInt32.ofNat right := (UInt32.xor_right_inj _).mp (mul_prime_injective same)
  have sameValue := congrArg UInt32.toNat sameUnit
  rw [UInt32.toNat_ofNat_of_lt' leftSmall, UInt32.toNat_ofNat_of_lt' rightSmall] at sameValue
  exact sameValue

theorem foldl_injective {left right : UInt32} (input : List Nat)
    (same : input.foldl step left = input.foldl step right) : left = right := by
  induction input generalizing left right with
  | nil => exact same
  | cons unit rest inductionHypothesis => exact step_injective_hash (inductionHypothesis same)

/-- Texts that differ in one place have different hashes. -/
theorem hash_injective_at {front back : List Nat} {left right : Nat} (leftSmall : left < 4294967296)
    (rightSmall : right < 4294967296) (same : hash (front ++ left :: back) = hash (front ++ right :: back)) :
    left = right := by
  rw [hash, hash, List.foldl_append, List.foldl_append, List.foldl_cons, List.foldl_cons] at same
  exact step_injective_unit leftSmall rightSmall (foldl_injective back same)

/-! ## Hexadecimal digits -/

def digitValue (character : Char) : Nat :=
  if character.isDigit then character.toNat - 48 else character.toNat - 87

def value (digits : List Char) : Nat := digits.foldl (fun value character => 16 * value + digitValue character) 0

theorem digitValue_digitChar {digit : Nat} (small : digit < 16) : digitValue (Nat.digitChar digit) = digit := by
  decide +revert

theorem value_append_singleton (digits : List Char) (character : Char) :
    value (digits ++ [character]) = 16 * value digits + digitValue character := by
  rw [value, List.foldl_append, value]
  rfl

theorem value_toDigits (number : Nat) : value (Nat.toDigits 16 number) = number := by
  induction number using Nat.strong_induction_on with
  | _ number inductionHypothesis =>
      rw [Nat.toDigits_eq_if (by decide)]
      split
      · rename_i small
        change 16 * 0 + digitValue (Nat.digitChar number) = number
        rw [digitValue_digitChar small, Nat.mul_zero, Nat.zero_add]
      · rename_i large
        have shorter : number / 16 < number := Nat.div_lt_self (by omega) (by decide)
        rw [value_append_singleton, inductionHypothesis _ shorter, digitValue_digitChar (Nat.mod_lt _ (by decide))]
        exact Nat.div_add_mod number 16

theorem value_padStart (width : Nat) (digits : List Char) : value (Decimal.padStart width '0' digits) = value digits := by
  rw [Decimal.padStart]
  induction width - digits.length with
  | zero => rfl
  | succ count inductionHypothesis => exact inductionHypothesis

theorem text_injective {left right : UInt32} (same : text left = text right) : left = right := by
  have values := congrArg value same
  rw [text, text, value_padStart, value_padStart, value_toDigits, value_toDigits] at values
  exact UInt32.toNat_inj.mp values

end Fnv
end Telescope
