/-!
# Dates

The proleptic Gregorian calendar: dates, which of them exist, and counting days from 1970-01-01.
Years are counted from March, so that the leap day is the last of its year; four hundred years
always have the same number of days.
-/

namespace TransitSim
namespace Calendar

/-- A year, a month from 1 and a day from 1; not every one exists. -/
structure Date where
  year : Int
  month : Nat
  day : Nat
  deriving DecidableEq, Repr

/-!
# Which dates exist
-/

def isLeapYear (year : Int) : Bool :=
  year % 4 == 0 && (year % 100 != 0 || year % 400 == 0)

def daysInMonth (year : Int) (month : Nat) : Nat :=
  match month with
  | 2 => if isLeapYear year then 29 else 28
  | 4 | 6 | 9 | 11 => 30
  | _ => 31

def firstYear : Int := -262143

def lastYear : Int := 262142

def Date.exists (d : Date) : Bool :=
  firstYear ≤ d.year && d.year ≤ lastYear && 1 ≤ d.month && d.month ≤ 12
    && 1 ≤ d.day && d.day ≤ daysInMonth d.year d.month

/-!
# Counting days
-/

def daysInEra : Int := 146097

def daysBeforeEpoch : Int := 719468

def dayOfMarchYear (month day : Nat) : Nat :=
  (153 * month + 2) / 5 + day - 1

def Date.toDays (d : Date) : Int :=
  let year := if d.month ≤ 2 then d.year - 1 else d.year
  let month := if d.month ≤ 2 then d.month + 9 else d.month - 3
  let era := year / 400
  let yearOfEra := year % 400
  let dayOfEra := yearOfEra * 365 + yearOfEra / 4 - yearOfEra / 100
    + dayOfMarchYear month d.day
  era * daysInEra + dayOfEra - daysBeforeEpoch

def Date.ofDays (days : Int) : Date :=
  let shifted := days + daysBeforeEpoch
  let era := shifted / daysInEra
  let dayOfEra := (shifted % daysInEra).toNat
  let yearOfEra := (dayOfEra - dayOfEra / 1460 + dayOfEra / 36524 - dayOfEra / 146096) / 365
  let dayOfYear := dayOfEra - (365 * yearOfEra + yearOfEra / 4 - yearOfEra / 100)
  let month := (5 * dayOfYear + 2) / 153
  let day := dayOfYear - (153 * month + 2) / 5 + 1
  let year := era * 400 + yearOfEra
  if month < 10 then ⟨year, month + 3, day⟩ else ⟨year + 1, month - 9, day⟩

example : (Date.mk 1970 1 1).toDays = 0 := by decide

example : Date.ofDays 19783 = ⟨2024, 3, 1⟩ := by decide

end Calendar
end TransitSim
