import Mathlib.Data.Int.Order.Basic
import Mathlib.Tactic.Common

namespace Telescope
namespace Calendar

/-!
# The proleptic Gregorian calendar

Days are counted from 1970-01-01.  A year of the computation begins in March, so that
the leap day is its last; four hundred of these years are one era, which repeats.
-/

structure CivilDate where
  year : Int
  month : Int
  day : Int
  deriving DecidableEq

def DAYS_PER_ERA : Int := 146097

/-- The days from the first of March of the year zero to the first of January 1970. -/
def DAYS_BEFORE_EPOCH : Int := 719468

/-! ## Eras -/

/-- Where a day falls in its era: the century, the cycle of four years in it, the year
of the cycle, and the day of the year. -/
structure EraDay where
  century : Int
  cycle : Int
  year : Int
  day : Int

namespace EraDay

/-- The last century of an era is a day longer, and so is the last year of a cycle. -/
def ofDay (dayOfEra : Int) : EraDay :=
  let century := min 3 (dayOfEra / 36524)
  let dayOfCentury := dayOfEra - 36524 * century
  let year := min 3 (dayOfCentury % 1461 / 365)
  { century := century
    cycle := dayOfCentury / 1461
    year := year
    day := dayOfCentury % 1461 - 365 * year }

def yearOfEra (position : EraDay) : Int := 100 * position.century + 4 * position.cycle + position.year

structure Bounds (position : EraDay) : Prop where
  century : 0 ≤ position.century ∧ position.century ≤ 3
  cycle : 0 ≤ position.cycle ∧ position.cycle ≤ 24
  year : 0 ≤ position.year ∧ position.year ≤ 3
  day : 0 ≤ position.day ∧ position.day ≤ 365

theorem bounds_ofDay {day : Int} (least : 0 ≤ day) (below : day < DAYS_PER_ERA) : (ofDay day).Bounds := by
  rw [DAYS_PER_ERA] at below
  constructor <;> dsimp only [ofDay] <;> omega

theorem Bounds.yearOfEra {position : EraDay} (bounds : position.Bounds) :
    0 ≤ position.yearOfEra ∧ position.yearOfEra < 400 := by
  have century := bounds.century
  have cycle := bounds.cycle
  have year := bounds.year
  rw [EraDay.yearOfEra]
  omega

end EraDay

/-! ## Months -/

/-- The month of a day, where March is zero. -/
def monthOfYear (dayOfYear : Int) : Int := (5 * dayOfYear + 2) / 153

/-- The days of a year before a month. -/
def daysBeforeMonth (monthOfYear : Int) : Int := (153 * monthOfYear + 2) / 5

/-- The number of a month in the calendar. -/
def calendarMonth (monthOfYear : Int) : Int := if monthOfYear < 10 then monthOfYear + 3 else monthOfYear - 9

theorem monthOfYear_bounds {day : Int} (bounds : 0 ≤ day ∧ day ≤ 365) :
    0 ≤ monthOfYear day ∧ monthOfYear day ≤ 11 := by
  rw [monthOfYear]
  omega

theorem calendarMonth_bounds {month : Int} (bounds : 0 ≤ month ∧ month ≤ 11) :
    1 ≤ calendarMonth month ∧ calendarMonth month ≤ 12 := by
  rw [calendarMonth]
  split <;> omega

theorem dayOfMonth_bounds (day : Int) :
    0 ≤ day - daysBeforeMonth (monthOfYear day) ∧ day - daysBeforeMonth (monthOfYear day) ≤ 30 := by
  rw [daysBeforeMonth, monthOfYear]
  omega

/-! ## Dates -/

/-- January and February belong to the year of the computation that began before. -/
def turnOfYear (month : Int) : Int := if month ≤ 2 then 1 else 0

def ofDays (days : Int) : CivilDate :=
  let position := EraDay.ofDay ((days + DAYS_BEFORE_EPOCH) % DAYS_PER_ERA)
  let month := monthOfYear position.day
  { year := 400 * ((days + DAYS_BEFORE_EPOCH) / DAYS_PER_ERA) + position.yearOfEra +
      turnOfYear (calendarMonth month)
    month := calendarMonth month
    day := position.day - daysBeforeMonth month + 1 }

/-- The era of a day, and its position there. -/
theorem era_bounds (days : Int) :
    (EraDay.ofDay ((days + DAYS_BEFORE_EPOCH) % DAYS_PER_ERA)).Bounds :=
  EraDay.bounds_ofDay (Int.emod_nonneg _ (by decide)) (Int.emod_lt_of_pos _ (by decide))

theorem month_bounds (days : Int) : 1 ≤ (ofDays days).month ∧ (ofDays days).month ≤ 12 :=
  calendarMonth_bounds (monthOfYear_bounds (era_bounds days).day)

theorem day_bounds (days : Int) : 1 ≤ (ofDays days).day ∧ (ofDays days).day ≤ 31 := by
  have bounds := dayOfMonth_bounds (EraDay.ofDay ((days + DAYS_BEFORE_EPOCH) % DAYS_PER_ERA)).day
  dsimp only [ofDays]
  omega

/-- The days that a date can hold have years of six digits. -/
theorem year_bounds {days : Int} (least : -100000000 ≤ days) (most : days ≤ 100000000) :
    -999999 ≤ (ofDays days).year ∧ (ofDays days).year ≤ 999999 := by
  have yearOfEra := (era_bounds days).yearOfEra
  dsimp only [ofDays]
  rw [turnOfYear]
  rw [DAYS_BEFORE_EPOCH, DAYS_PER_ERA] at *
  split <;> omega

example : (ofDays 19782, ofDays (-1)) = (⟨2024, 2, 29⟩, ⟨1969, 12, 31⟩) := by decide

end Calendar
end Telescope
