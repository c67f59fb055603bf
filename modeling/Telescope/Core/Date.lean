import Telescope.Core.Value
import Telescope.Foundation.Calendar
import Telescope.Foundation.Decimal

namespace Telescope

/-!
# Dates

A `Date` holds an integral number of milliseconds within a hundred million days of the
epoch, or none when it is invalid.  `toISOString` throws at an invalid date; of a valid
one it shows every field in a fixed width, the year with a sign when it has not four
digits.
-/

def MAX_TIME : Int := 8640000000000000

def MS_PER_DAY : Int := 86400000

/-- The milliseconds of a valid date. -/
structure TimeValue where
  ms : Int
  inRange : -MAX_TIME ≤ ms ∧ ms ≤ MAX_TIME

theorem inRange_zero : -MAX_TIME ≤ 0 ∧ 0 ≤ MAX_TIME := by decide

theorem inRange_fin (ms : Fin 100) : -MAX_TIME ≤ ms.val ∧ ms.val ≤ MAX_TIME := by
  have bound := ms.isLt
  rw [MAX_TIME]
  omega

/-- A `Date`; an invalid one holds no time. -/
abbrev JsDate := Option TimeValue

/-- `date.getTime()`. -/
def getTime : JsDate -> Number
  | none => .nan
  | some time => .finite time.ms

/-- Round toward zero. -/
def truncate (value : Rat) : Int := if value < 0 then ⌈value⌉ else ⌊value⌋

theorem truncate_inRange {value : Rat} (small : |value| ≤ MAX_TIME) :
    -MAX_TIME ≤ truncate value ∧ truncate value ≤ MAX_TIME := by
  have bounds := abs_le.mp small
  have lower : ((-MAX_TIME : Int) : Rat) ≤ value := by
    push_cast
    exact bounds.1
  rw [truncate]
  by_cases negative : value < 0
  · rw [if_pos negative]
    have rounded : (⌈value⌉ : Int) ≤ 0 := Int.ceil_le.mpr (by exact_mod_cast negative.le)
    exact ⟨Int.cast_le.mp (lower.trans (Int.le_ceil value)), rounded.trans (by decide)⟩
  · rw [if_neg negative]
    exact ⟨Int.le_floor.mpr lower, Int.cast_le.mp ((Int.floor_le value).trans bounds.2)⟩

/-- `new Date(number)`. -/
def newDate : Number -> JsDate
  | .finite value => if small : |value| ≤ MAX_TIME then some ⟨truncate value, truncate_inRange small⟩ else none
  | _ => none

/-! ## ISO strings -/

/-- What an ISO string shows. -/
structure IsoFields where
  year : Int
  month : Nat
  day : Nat
  hour : Nat
  minute : Nat
  second : Nat
  millisecond : Nat
  year_bounds : -999999 ≤ year ∧ year ≤ 999999
  month_bounds : 1 ≤ month ∧ month ≤ 12
  day_bounds : 1 ≤ day ∧ day ≤ 31
  hour_lt : hour < 24
  minute_lt : minute < 60
  second_lt : second < 60
  millisecond_lt : millisecond < 1000

def padded (width number : Nat) : Text := Decimal.padStart width '0' (Nat.toDigits 10 number)

namespace IsoFields

def yearText (year : Int) : Text :=
  if 0 ≤ year ∧ year ≤ 9999 then padded 4 year.toNat
  else (if year < 0 then '-' else '+') :: padded 6 year.natAbs

/-- `YYYY-MM-DDTHH:mm:ss.sssZ`, where a year that has not four digits has a sign and six. -/
def text (fields : IsoFields) : Text :=
  yearText fields.year ++ '-' :: (padded 2 fields.month ++ '-' :: (padded 2 fields.day ++
    'T' :: (padded 2 fields.hour ++ ':' :: (padded 2 fields.minute ++ ':' :: (padded 2 fields.second ++
      '.' :: (padded 3 fields.millisecond ++ ['Z']))))))

end IsoFields

theorem days_bounds (time : TimeValue) :
    -100000000 ≤ time.ms / MS_PER_DAY ∧ time.ms / MS_PER_DAY ≤ 100000000 := by
  have inRange := time.inRange
  rw [MAX_TIME] at inRange
  rw [MS_PER_DAY]
  omega

theorem inDay_bounds (time : TimeValue) :
    0 ≤ time.ms % MS_PER_DAY ∧ time.ms % MS_PER_DAY < 86400000 := by
  rw [MS_PER_DAY]
  omega

/-- The fields of a time. -/
def isoFields (time : TimeValue) : IsoFields where
  year := (Calendar.ofDays (time.ms / MS_PER_DAY)).year
  month := (Calendar.ofDays (time.ms / MS_PER_DAY)).month.toNat
  day := (Calendar.ofDays (time.ms / MS_PER_DAY)).day.toNat
  hour := (time.ms % MS_PER_DAY / 3600000).toNat
  minute := (time.ms % MS_PER_DAY / 60000 % 60).toNat
  second := (time.ms % MS_PER_DAY / 1000 % 60).toNat
  millisecond := (time.ms % MS_PER_DAY % 1000).toNat
  year_bounds := Calendar.year_bounds (days_bounds time).1 (days_bounds time).2
  month_bounds := by
    have bounds := Calendar.month_bounds (time.ms / MS_PER_DAY)
    omega
  day_bounds := by
    have bounds := Calendar.day_bounds (time.ms / MS_PER_DAY)
    omega
  hour_lt := by
    have bounds := inDay_bounds time
    omega
  minute_lt := by omega
  second_lt := by omega
  millisecond_lt := by omega

/-- `date.toISOString()`; `none` when it throws. -/
def toISOString (date : JsDate) : Option Text := date.map fun time => (isoFields time).text

example : toISOString (newDate (.finite 1709210096007)) = some "2024-02-29T12:34:56.007Z".toList := by
  decide +kernel

end Telescope
