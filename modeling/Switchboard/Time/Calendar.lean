/-!
# The Gregorian calendar

Dates are counted in days from 1 January 1970, in the Gregorian calendar
extended without limit to both sides; there is a year 0.

The count starts its years on 1 March, so that the leap day is the last day of
its year, and its eras of 400 years, which all have the same number of days,
at a multiple of 400.
-/

namespace Switchboard

/-- **A day of the calendar.** -/
structure Date where
  /-- The year; the year before 1 is 0. -/
  year : Int
  /-- The month, from 1. -/
  month : Nat
  /-- The day of the month, from 1. -/
  day : Nat
deriving Repr, DecidableEq

namespace Date

/-- Whether a year has a leap day. -/
def isLeap (year : Int) : Bool :=
  year % 4 == 0 && (year % 100 != 0 || year % 400 == 0)

/-- The number of days of a month. -/
def monthLength (year : Int) (month : Nat) : Nat :=
  if month = 2 then if isLeap year then 29 else 28
  else if month = 4 ∨ month = 6 ∨ month = 9 ∨ month = 11 then 30
  else 31

/-- Whether month and day exist in their year. -/
def Exists (d : Date) : Prop :=
  1 ≤ d.month ∧ d.month ≤ 12 ∧ 1 ≤ d.day ∧ d.day ≤ monthLength d.year d.month

instance (d : Date) : Decidable d.Exists := by unfold Exists; infer_instance

/-- The number of days in 400 years. -/
def eraLength : Int := 146097

/-- The days from 1 March of year 0 to 1 January 1970. -/
def epochShift : Int := 719468

/-- The day of a year that starts on 1 March, of a month counted from March. -/
def monthStart (month : Nat) : Nat := (153 * month + 2) / 5

/-- **The days from 1 January 1970 to a date.** -/
def toDays (d : Date) : Int :=
  let year := if d.month ≤ 2 then d.year - 1 else d.year
  let month := if d.month ≤ 2 then d.month + 9 else d.month - 3
  let era := year / 400
  let yearOfEra := year % 400
  let dayOfYear : Int := monthStart month + d.day - 1
  era * eraLength + (yearOfEra * 365 + yearOfEra / 4 - yearOfEra / 100 + dayOfYear) - epochShift

/-- **The date that lies a number of days after 1 January 1970.** -/
def ofDays (days : Int) : Date :=
  let shifted := days + epochShift
  let era := shifted / eraLength
  let dayOfEra := (shifted % eraLength).toNat
  let yearOfEra := (dayOfEra - dayOfEra / 1460 + dayOfEra / 36524 - dayOfEra / 146096) / 365
  let dayOfYear := dayOfEra - (365 * yearOfEra + yearOfEra / 4 - yearOfEra / 100)
  let month := (5 * dayOfYear + 2) / 153
  let year := era * 400 + yearOfEra
  { year := if month < 10 then year else year + 1
    month := if month < 10 then month + 3 else month - 9
    day := dayOfYear - monthStart month + 1 }

end Date

end Switchboard
