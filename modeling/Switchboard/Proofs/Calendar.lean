import Mathlib.Tactic.IntervalCases
import Switchboard.Time.Calendar

/-!
# Days and dates

The days from the beginning of 1970 and the dates of the calendar are two
names for the same thing.
-/

namespace Switchboard.Date

/-! ## Days of an era -/

/-- **A day of an era**, by the century, the four years, the year and the day in which it
lies. Years start on 1 March here. The last four years of a century have no leap day,
unless they are the last of the era. -/
structure EraDay where
  /-- The century of the era. -/
  century : Nat
  /-- The four years of the century. -/
  fourYears : Nat
  /-- The year of the four. -/
  year : Nat
  /-- The day of the year. -/
  day : Nat
  century_lt : century < 4
  fourYears_lt : fourYears < 25
  year_lt : year < 4
  day_le : day ≤ 365
  /-- The last day of a longer year comes at the end of four years. -/
  leapDay : day = 365 → year = 3 ∧ (fourYears < 24 ∨ century = 3)

namespace EraDay

/-- The days of the era before a day. -/
def number (x : EraDay) : Nat :=
  36524 * x.century + 1461 * x.fourYears + 365 * x.year + x.day

/-- The year of the era in which a day lies. -/
def yearOfEra (x : EraDay) : Nat := 100 * x.century + 4 * x.fourYears + x.year

/-- Every number below the length of an era is that of a day. -/
theorem exists_number_eq {n : Nat} (lt : n < 146097) : ∃ x : EraDay, x.number = n := by
  let century := min 3 (n / 36524)
  let inCentury := n - 36524 * century
  let fourYears := inCentury / 1461
  let inFourYears := inCentury - 1461 * fourYears
  let year := min 3 (inFourYears / 365)
  refine ⟨⟨century, fourYears, year, inFourYears - 365 * year, ?_, ?_, ?_, ?_, ?_⟩, ?_⟩
  all_goals simp only [number, century, inCentury, fourYears, inFourYears, year]; omega

/-- An era ends where the next begins. -/
theorem number_lt (x : EraDay) : x.number < 146097 := by
  obtain ⟨c, q, y, d, hc, hq, hy, hd, leap⟩ := x
  show 36524 * c + 1461 * q + 365 * y + d < 146097
  omega

/-- **The year that is computed from the number of a day.** Each of the corrections counts
the leap days before the day, or one more on a day that ends a period. -/
theorem year_of_number (x : EraDay) :
    (x.number - x.number / 1460 + x.number / 36524 - x.number / 146096) / 365 = x.yearOfEra := by
  obtain ⟨c, q, y, d, hc, hq, hy, hd, leap⟩ := x
  show _ = 100 * c + 4 * q + y
  generalize hn : number _ = n
  replace hn : 36524 * c + 1461 * q + 365 * y + d = n := hn
  have centuries : n / 36524 = c + if c = 3 ∧ q = 24 ∧ d = 365 then 1 else 0 := by
    split <;> omega
  have eras : n / 146096 = if c = 3 ∧ q = 24 ∧ d = 365 then 1 else 0 := by
    rw [show 146096 = 36524 * 4 by decide, ← Nat.div_div_eq_div_mul, centuries]
    split <;> omega
  have rest : n = 1460 * (25 * c + q) + (24 * c + q + 365 * y + d) := by omega
  have leaps : n / 1460 = 25 * c + q + if 1460 ≤ 24 * c + q + 365 * y + d then 1 else 0 := by
    rw [rest, Nat.mul_add_div (by decide)]
    split <;> omega
  rw [centuries, eras, leaps]
  -- the quotients are known, and the day itself is all that is left of them
  clear hn centuries eras leaps
  subst rest
  split <;> split <;> omega

/-- The days before a year of an era. -/
theorem days_before (x : EraDay) :
    365 * x.yearOfEra + x.yearOfEra / 4 - x.yearOfEra / 100 + x.day = x.number := by
  obtain ⟨c, q, y, d, hc, hq, hy, hd, leap⟩ := x
  show 365 * (100 * c + 4 * q + y) + (100 * c + 4 * q + y) / 4 - (100 * c + 4 * q + y) / 100 + d =
    36524 * c + 1461 * q + 365 * y + d
  omega

theorem yearOfEra_lt (x : EraDay) : x.yearOfEra < 400 := by
  obtain ⟨c, q, y, d, hc, hq, hy, hd, leap⟩ := x
  show 100 * c + 4 * q + y < 400
  omega

/-- The year that ends on a leap day has one in the calendar. -/
theorem isLeap_of_day (x : EraDay) (era : Int) (last : x.day = 365) :
    isLeap (era * 400 + x.yearOfEra + 1) = true := by
  obtain ⟨c, q, y, d, hc, hq, hy, hd, leap⟩ := x
  obtain ⟨hy, hleap⟩ := leap last
  simp only [yearOfEra, isLeap, Bool.and_eq_true, Bool.or_eq_true, beq_iff_eq, bne_iff_ne] at hy ⊢
  omega

/-! ## The date of a day -/

/-- The month of a day, counted from March. -/
def month (x : EraDay) : Nat := (5 * x.day + 2) / 153

theorem month_lt (x : EraDay) : x.month < 12 := by
  have := x.day_le
  show (5 * x.day + 2) / 153 < 12
  omega

/-- A day lies between the start of its month and the start of the next. -/
theorem monthStart_le (x : EraDay) : monthStart x.month ≤ x.day := by
  show (153 * ((5 * x.day + 2) / 153) + 2) / 5 ≤ x.day
  omega

theorem lt_monthStart (x : EraDay) : x.day < monthStart (x.month + 1) := by
  show x.day < (153 * ((5 * x.day + 2) / 153 + 1) + 2) / 5
  omega

/-- **The date of a day** in a given era. -/
def date (era : Int) (x : EraDay) : Date where
  year := if x.month < 10 then era * 400 + x.yearOfEra else era * 400 + x.yearOfEra + 1
  month := if x.month < 10 then x.month + 3 else x.month - 9
  day := x.day - monthStart x.month + 1

/-- The length of a month other than February is what lies between two starts. -/
theorem monthLength_of_lt {m : Nat} (year : Int) (lt : m < 11) :
    monthLength year (if m < 10 then m + 3 else m - 9) = monthStart (m + 1) - monthStart m := by
  interval_cases m <;> rfl

/-- **The date of a day exists.** -/
theorem exists_date (era : Int) (x : EraDay) : (x.date era).Exists := by
  have le := x.monthStart_le
  have lt := x.lt_monthStart
  have twelve := x.month_lt
  have bounds : 1 ≤ (x.date era).month ∧ (x.date era).month ≤ 12 := by
    simp only [date]
    split <;> omega
  refine ⟨bounds.1, bounds.2, Nat.le_add_left 1 _, ?_⟩
  rcases Nat.lt_or_ge x.month 11 with earlier | february
  · show x.day - monthStart x.month + 1 ≤ monthLength _ (if x.month < 10 then _ else _)
    rw [monthLength_of_lt _ earlier]
    omega
  · have february : x.month = 11 := by omega
    have length := x.day_le
    have leap := x.isLeap_of_day era
    simp only [date, february] at *
    show x.day - 337 + 1 ≤ if isLeap (era * 400 + x.yearOfEra + 1) then 29 else 28
    split <;> grind

/-- **The days to the date of a day.** -/
theorem toDays_date (era : Int) (x : EraDay) :
    (x.date era).toDays = era * eraLength + x.number - epochShift := by
  have le := x.monthStart_le
  have lt := x.yearOfEra_lt
  have before := x.days_before
  have twelve := x.month_lt
  have year : (if (x.date era).month ≤ 2 then (x.date era).year - 1 else (x.date era).year) =
      era * 400 + x.yearOfEra := by
    simp only [date]
    grind
  have month : (if (x.date era).month ≤ 2 then (x.date era).month + 9
      else (x.date era).month - 3) = x.month := by
    simp only [date]
    grind
  have day : (x.date era).day = x.day - monthStart x.month + 1 := rfl
  have quotient : (era * 400 + x.yearOfEra) / 400 = era := by omega
  have remainder : (era * 400 + x.yearOfEra) % 400 = (x.yearOfEra : Int) := by omega
  unfold toDays
  simp only [year, month, day, quotient, remainder]
  omega

/-- **The date that lies as many days after 1970 as an era and a day of it.** -/
theorem ofDays_number (era : Int) (x : EraDay) :
    ofDays (era * eraLength + x.number - epochShift) = x.date era := by
  have lt := x.number_lt
  have before := x.days_before
  have quotient : (era * eraLength + x.number) / eraLength = era := by
    show (era * 146097 + x.number) / 146097 = era
    omega
  have remainder : ((era * eraLength + x.number) % eraLength).toNat = x.number := by
    show ((era * 146097 + x.number) % 146097).toNat = x.number
    omega
  have day : x.number - (365 * x.yearOfEra + x.yearOfEra / 4 - x.yearOfEra / 100) = x.day := by
    omega
  unfold ofDays
  simp only [Int.sub_add_cancel, quotient, remainder, x.year_of_number, day]
  rfl

end EraDay

/-! ## Days and dates -/

/-- Every number of days after 1970 is that of a day of an era. -/
theorem exists_eraDay (days : Int) :
    ∃ (era : Int) (x : EraDay), days = era * eraLength + x.number - epochShift := by
  have lt : ((days + epochShift) % eraLength).toNat < 146097 := by
    show ((days + 719468) % 146097).toNat < 146097
    omega
  obtain ⟨x, hx⟩ := EraDay.exists_number_eq lt
  refine ⟨(days + epochShift) / eraLength, x, ?_⟩
  rw [hx]
  show days = (days + 719468) / 146097 * 146097 + ((days + 719468) % 146097).toNat - 719468
  omega

/-- **A date lies as many days after 1970 as it was computed from.** -/
theorem toDays_ofDays (days : Int) : (ofDays days).toDays = days := by
  obtain ⟨era, x, rfl⟩ := exists_eraDay days
  rw [EraDay.ofDays_number, EraDay.toDays_date]

/-- **A date that is computed from a number of days exists.** -/
theorem exists_ofDays (days : Int) : (ofDays days).Exists := by
  obtain ⟨era, x, rfl⟩ := exists_eraDay days
  rw [EraDay.ofDays_number]
  exact x.exists_date era

end Switchboard.Date
