/-!
# Calendar dates

Dates of the Gregorian calendar, extended to all years, and days counted from 1 January 1970. The
count goes through years that start on 1 March: the leap day is then the last day of its year, and
the month lengths repeat every five months.

## Main results

- `dayNumber_ofDayNumber`: counting the days of the date of a day gives that day back.
- `yearOfDay_bounds`: the year within 400 and the day within the year are in range.
-/

namespace RecordStore

/-- A day of the calendar; January is month 1. -/
structure Date where
  year : Int
  month : Nat
  day : Nat
  deriving DecidableEq, Repr

namespace Date

def isLeapYear (year : Int) : Bool := year % 4 = 0 && (year % 100 ≠ 0 || year % 400 = 0)

/-- The number of days in a month; none has any outside 1 to 12. -/
def daysInMonth (year : Int) (month : Nat) : Nat :=
  match month with
  | 1 | 3 | 5 | 7 | 8 | 10 | 12 => 31
  | 4 | 6 | 9 | 11 => 30
  | 2 => if isLeapYear year then 29 else 28
  | _ => 0

/-- The date with these parts, if the month has that day. -/
def ofParts? (year : Int) (month day : Nat) : Option Date :=
  if 1 ≤ day ∧ day ≤ daysInMonth year month then some ⟨year, month, day⟩ else none

/-- The number of days in 400 years. -/
def daysPerEra : Int := 146097

/-- The days from 1 March of year 0 to 1 January 1970. -/
def epochShift : Int := 719468

/-- The days before the `month`-th month of a year that starts with March, counted from zero. -/
def daysBefore (month : Int) : Int := (153 * month + 2) / 5

/-- The days before the `yearOfEra`-th year of 400. -/
def daysBeforeYear (yearOfEra : Int) : Int := 365 * yearOfEra + yearOfEra / 4 - yearOfEra / 100

/-- The days from 1 March of year 0 to a day of a year that starts with March, whose months are
counted from zero and whose days from one. -/
def marchDays (year month day : Int) : Int :=
  year / 400 * daysPerEra + daysBeforeYear (year % 400) + daysBefore month + (day - 1)

/-- The date of a day of a year that starts with March. -/
def ofMarch (year month day : Int) : Date :=
  if month < 10 then ⟨year, (month + 3).toNat, day.toNat⟩
  else ⟨year + 1, (month - 9).toNat, day.toNat⟩

/-- The days from 1 January 1970 to a date. -/
def dayNumber (date : Date) : Int :=
  if 2 < date.month then marchDays date.year (date.month - 3) date.day - epochShift
  else marchDays (date.year - 1) (date.month + 9) date.day - epochShift

/-- The year of 400 that a day of them falls in: the century, the four years within it and the year
within those, of which the last century and the last year may be a day longer. -/
def yearOfDay (dayOfEra : Int) : Int :=
  let century := min (dayOfEra / 36524) 3
  let dayOfCentury := dayOfEra - 36524 * century
  let leapCycle := dayOfCentury / 1461
  let year := min ((dayOfCentury - 1461 * leapCycle) / 365) 3
  100 * century + 4 * leapCycle + year

/-- The month, counted from March as zero, that a day of the year falls in. -/
def monthOfDay (dayOfYear : Int) : Int := (5 * dayOfYear + 2) / 153

/-- The date that is `n` days after 1 January 1970. -/
def ofDayNumber (n : Int) : Date :=
  let dayOfEra := (n + epochShift) % daysPerEra
  let yearOfEra := yearOfDay dayOfEra
  let dayOfYear := dayOfEra - daysBeforeYear yearOfEra
  let month := monthOfDay dayOfYear
  ofMarch ((n + epochShift) / daysPerEra * 400 + yearOfEra) month (dayOfYear - daysBefore month + 1)

/-! ## Counting back -/

theorem dayNumber_ofMarch {year month day : Int} (hMonth : 0 ≤ month) (hMonth' : month ≤ 11)
    (hDay : 0 ≤ day) : (ofMarch year month day).dayNumber = marchDays year month day - epochShift := by
  unfold ofMarch
  split
  · have hBack : ((month + 3).toNat : Int) - 3 = month := by omega
    have hSelf : (day.toNat : Int) = day := by omega
    simp only [dayNumber]
    rw [if_pos (by omega), hBack, hSelf]
  · have hBack : ((month - 9).toNat : Int) + 9 = month := by omega
    have hSelf : (day.toNat : Int) = day := by omega
    simp only [dayNumber]
    rw [if_neg (by omega), hBack, hSelf, Int.add_sub_cancel]

/-- The year of a day of 400 years is in range, and so is the day within it. -/
theorem yearOfDay_bounds {d : Int} (h : 0 ≤ d) (h' : d < daysPerEra) :
    0 ≤ yearOfDay d ∧ yearOfDay d < 400 ∧
      0 ≤ d - daysBeforeYear (yearOfDay d) ∧ d - daysBeforeYear (yearOfDay d) ≤ 365 := by
  simp only [daysPerEra] at h'
  simp only [yearOfDay]
  generalize hCentury : min (d / 36524) 3 = century
  generalize hCycle : (d - 36524 * century) / 1461 = cycle
  generalize hYear : min ((d - 36524 * century - 1461 * cycle) / 365) 3 = year
  have hCentury' : 0 ≤ century ∧ century ≤ 3 := by omega
  have hCycle' : 0 ≤ cycle ∧ cycle ≤ 24 := by omega
  have hYear' : 0 ≤ year ∧ year ≤ 3 := by omega
  have hDays : daysBeforeYear (100 * century + 4 * cycle + year) =
      36524 * century + 1461 * cycle + 365 * year := by
    simp only [daysBeforeYear]
    omega
  rw [hDays]
  omega

theorem monthOfDay_bounds {d : Int} (h : 0 ≤ d) (h' : d ≤ 365) :
    0 ≤ monthOfDay d ∧ monthOfDay d ≤ 11 ∧ 0 ≤ d - daysBefore (monthOfDay d) := by
  simp only [monthOfDay, daysBefore]
  omega

theorem dayNumber_ofDayNumber (n : Int) : (ofDayNumber n).dayNumber = n := by
  simp only [ofDayNumber]
  have hSplit : (n + epochShift) / daysPerEra * daysPerEra + (n + epochShift) % daysPerEra =
      n + epochShift := by rw [Int.mul_comm]; exact Int.mul_ediv_add_emod _ _
  have hLower : 0 ≤ (n + epochShift) % daysPerEra := Int.emod_nonneg _ (by decide)
  have hUpper : (n + epochShift) % daysPerEra < daysPerEra := Int.emod_lt_of_pos _ (by decide)
  generalize (n + epochShift) / daysPerEra = era at *
  generalize (n + epochShift) % daysPerEra = dayOfEra at *
  obtain ⟨hYear, hYear', hDay, hDay'⟩ := yearOfDay_bounds hLower hUpper
  obtain ⟨hMonth, hMonth', hRest⟩ := monthOfDay_bounds hDay hDay'
  rw [dayNumber_ofMarch hMonth hMonth' (by omega)]
  generalize yearOfDay dayOfEra = year at *
  have hEra : (era * 400 + year) / 400 = era ∧ (era * 400 + year) % 400 = year := by omega
  simp only [marchDays, hEra.1, hEra.2]
  omega

end Date

end RecordStore
