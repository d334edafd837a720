import Mathlib.Tactic.IntervalCases
import RecordStore.Time.Calendar

/-!
# Days in calendar order

Days are counted through years that start with March, so that one rule gives the length of every
month and the leap day comes last. Here that count is put back beside the calendar: each month begins
when the one before it is over, and each year after its December. So the count follows the order of
dates by year, month and day, and since every day has a date of the calendar, with a month of its year
and a day of that month, the dates of days are in the order of the days.

## Main results

- `compare_dayNumber`: dates of the calendar compare as their numbers do.
- `isValid_ofDayNumber`: every day has a date of the calendar.
- `order_ofDayNumber`: days compare as their dates do.
-/

namespace RecordStore.Date

/-- The month of a date is one of twelve, and it has that day. -/
structure IsValid (date : Date) : Prop where
  month_pos : 1 ≤ date.month
  month_le : date.month ≤ 12
  day_pos : 1 ≤ date.day
  day_le : date.day ≤ daysInMonth date.year date.month

theorem IsValid.ofParts? {date : Date} (h : date.IsValid) :
    ofParts? date.year date.month date.day = some date := by
  rw [Date.ofParts?, if_pos ⟨h.day_pos, h.day_le⟩]

/-! ## Months and years -/

/-- The days from 1 March of year 0 to 1 March of a year. -/
def marchStart (year : Int) : Int := marchDays year 0 1

theorem marchDays_eq (year month day : Int) :
    marchDays year month day = marchStart year + daysBefore month + (day - 1) := by
  simp only [marchStart, marchDays, daysBefore]
  omega

/-- A year that starts with March has its leap day at the end. -/
theorem marchStart_succ (year : Int) :
    marchStart (year + 1) = marchStart year + if isLeapYear (year + 1) then 366 else 365 := by
  have hLeap : isLeapYear (year + 1) = true ↔
      (year + 1) % 4 = 0 ∧ ((year + 1) % 100 ≠ 0 ∨ (year + 1) % 400 = 0) := by
    simp [isLeapYear]
  simp only [marchStart, marchDays, daysBeforeYear, daysPerEra, hLeap]
  split <;> omega

theorem marchStart_mono {year later : Int} (h : year ≤ later) :
    marchStart year ≤ marchStart later := by
  simp only [marchStart, marchDays, daysBeforeYear, daysPerEra]
  omega

/-- The number of the first day of a month. -/
def monthStart (year : Int) (month : Nat) : Int := dayNumber ⟨year, month, 1⟩

theorem dayNumber_eq (date : Date) :
    date.dayNumber = monthStart date.year date.month + (date.day - 1) := by
  simp only [monthStart, dayNumber, marchDays]
  split <;> omega

theorem monthStart_of_march (year : Int) {month : Nat} (h : 3 ≤ month) :
    monthStart year month = marchStart year + daysBefore (month - 3) - epochShift := by
  have hMarch : 2 < month := h
  simp only [monthStart, dayNumber, if_pos hMarch, marchDays_eq]
  omega

theorem monthStart_of_not_march (year : Int) {month : Nat} (h : month < 3) :
    monthStart year month = marchStart (year - 1) + daysBefore (month + 9) - epochShift := by
  have hNotMarch : ¬ 2 < month := by omega
  simp only [monthStart, dayNumber, if_neg hNotMarch, marchDays_eq]
  omega

/-- From March on the lengths of months follow one rule. -/
theorem daysInMonth_of_march (year : Int) {month : Nat} (h : 3 ≤ month) (h' : month ≤ 12) :
    (daysInMonth year month : Int) = daysBefore (month - 2) - daysBefore (month - 3) := by
  interval_cases month <;> rfl

theorem daysInMonth_le (year : Int) (month : Nat) : daysInMonth year month ≤ 31 := by
  fun_cases daysInMonth year month <;> omega

theorem daysInMonth_february (year : Int) :
    daysInMonth year 2 = if isLeapYear year then 29 else 28 := rfl

theorem monthStart_succ (year : Int) {month : Nat} (h : 1 ≤ month) (h' : month < 12) :
    monthStart year (month + 1) = monthStart year month + daysInMonth year month := by
  by_cases hMarch : 3 ≤ month
  · have hNext : ((month + 1 : Nat) : Int) - 3 = month - 2 := by omega
    rw [daysInMonth_of_march year hMarch (by omega), monthStart_of_march year hMarch,
      monthStart_of_march year (by omega), hNext]
    omega
  · rcases (by omega : month = 1 ∨ month = 2) with rfl | rfl
    · have hJanuary : daysInMonth year 1 = 31 := rfl
      rw [hJanuary, monthStart_of_not_march year (by decide),
        monthStart_of_not_march year (by decide)]
      simp only [daysBefore]
      omega
    · have hYear := marchStart_succ (year - 1)
      rw [Int.sub_add_cancel] at hYear
      rw [daysInMonth_february, monthStart_of_march year (by decide),
        monthStart_of_not_march year (by decide), hYear]
      simp only [daysBefore]
      split <;> omega

theorem monthStart_newYear (year : Int) :
    monthStart (year + 1) 1 = monthStart year 12 + 31 := by
  rw [monthStart_of_march year (by decide), monthStart_of_not_march (year + 1) (by decide),
    Int.add_sub_cancel]
  simp only [daysBefore]
  omega

/-- A month is over before a later one of its year begins. -/
theorem monthEnd_le (year : Int) {month later : Nat} (h : 1 ≤ month) (hLater : month < later)
    (h' : later ≤ 12) : monthStart year month + daysInMonth year month ≤ monthStart year later := by
  induction later, hLater using Nat.le_induction with
  | base => exact Int.le_of_eq (monthStart_succ year h h').symm
  | succ later hLater ih =>
    have hBefore := ih (by omega)
    have hNext := monthStart_succ year (by omega : 1 ≤ later) (by omega)
    omega

variable {a b : Date}

theorem yearStart_le (h : a.IsValid) : monthStart a.year 1 ≤ a.dayNumber := by
  have hDay := h.day_pos
  rw [dayNumber_eq]
  by_cases hJanuary : a.month = 1
  · rw [hJanuary]
    omega
  · have hBefore := monthEnd_le a.year (Nat.le_refl 1)
      (Nat.lt_of_le_of_ne h.month_pos (Ne.symm hJanuary)) h.month_le
    omega

theorem dayNumber_lt_newYear (h : a.IsValid) : a.dayNumber < monthStart (a.year + 1) 1 := by
  have hDay := h.day_le
  rw [dayNumber_eq, monthStart_newYear]
  by_cases hDecember : a.month = 12
  · have hLength : daysInMonth a.year 12 = 31 := rfl
    rw [hDecember] at hDay ⊢
    omega
  · have hBefore := monthEnd_le a.year h.month_pos
      (Nat.lt_of_le_of_ne h.month_le hDecember) (Nat.le_refl 12)
    omega

/-- The order of dates: by year, month and day. -/
def order : Date → Date → Ordering :=
  compareLex (compareOn year) (compareLex (compareOn month) (compareOn day))

theorem order_eq_lt_iff :
    order a b = .lt ↔ a.year < b.year ∨
      a.year = b.year ∧ (a.month < b.month ∨ a.month = b.month ∧ a.day < b.day) := by
  simp only [order, compareLex, compareOn, Ordering.then_eq_lt, Int.compare_eq_lt,
    Int.compare_eq_eq, Nat.compare_eq_lt, Nat.compare_eq_eq]

theorem order_eq_eq_iff : order a b = .eq ↔ a = b := by
  simp only [order, compareLex, compareOn, Ordering.then_eq_eq, Int.compare_eq_eq,
    Nat.compare_eq_eq]
  cases a
  cases b
  simp

instance : Std.OrientedCmp order :=
  inferInstanceAs (Std.OrientedCmp
    (compareLex (compareOn year) (compareLex (compareOn month) (compareOn day))))

theorem dayNumber_lt (ha : a.IsValid) (hb : b.IsValid) (h : order a b = .lt) :
    a.dayNumber < b.dayNumber := by
  rcases order_eq_lt_iff.1 h with hYear | ⟨hYear, hMonth | ⟨hMonth, hDay⟩⟩
  · -- There may be years between the two, and only those that start with March are known to be in
    -- order. Both Januaries are counted from the March before.
    have hEnd := dayNumber_lt_newYear ha
    have hStart := yearStart_le hb
    have hMono := marchStart_mono (by omega : a.year ≤ b.year - 1)
    have hStartA := monthStart_of_not_march (a.year + 1) (by decide : 1 < 3)
    have hStartB := monthStart_of_not_march b.year (by decide : 1 < 3)
    rw [Int.add_sub_cancel] at hStartA
    omega
  · have hEnd := monthEnd_le a.year ha.month_pos hMonth hb.month_le
    have hLast := ha.day_le
    have hFirst := hb.day_pos
    rw [dayNumber_eq, dayNumber_eq, ← hYear]
    omega
  · rw [dayNumber_eq, dayNumber_eq, ← hYear, ← hMonth]
    omega

/-- Counting days keeps the order of dates. -/
theorem compare_dayNumber (ha : a.IsValid) (hb : b.IsValid) :
    compare a.dayNumber b.dayNumber = order a b := by
  cases h : order a b with
  | lt => exact Int.compare_eq_lt.2 (dayNumber_lt ha hb h)
  | eq => rw [order_eq_eq_iff.1 h]; exact Int.compare_eq_eq.2 rfl
  | gt => exact Int.compare_eq_gt.2 (dayNumber_lt hb ha (Std.OrientedCmp.lt_of_gt h))

/-! ## Dates of days -/

/-- Only the last of four years has a 366th day, and of the last four of a century only if it is the
last of four centuries. -/
theorem yearOfDay_of_lastDay {d : Int} (h : 0 ≤ d) (h' : d < daysPerEra)
    (hLast : d - daysBeforeYear (yearOfDay d) = 365) :
    (yearOfDay d + 1) % 4 = 0 ∧ ((yearOfDay d + 1) % 100 ≠ 0 ∨ (yearOfDay d + 1) % 400 = 0) := by
  simp only [daysPerEra] at h'
  simp only [yearOfDay] at hLast ⊢
  generalize hCentury : min (d / 36524) 3 = century at hLast ⊢
  generalize hCycle : (d - 36524 * century) / 1461 = cycle at hLast ⊢
  generalize hYear : min ((d - 36524 * century - 1461 * cycle) / 365) 3 = year at hLast ⊢
  have hCentury' : 0 ≤ century ∧ century ≤ 3 := by omega
  have hCycle' : 0 ≤ cycle ∧ cycle ≤ 24 := by omega
  have hYear' : 0 ≤ year ∧ year ≤ 3 := by omega
  have hDays : daysBeforeYear (100 * century + 4 * cycle + year) =
      36524 * century + 1461 * cycle + 365 * year := by
    simp only [daysBeforeYear]
    omega
  rw [hDays] at hLast
  have hLeap : year = 3 ∧ (cycle < 24 ∨ century = 3 ∧ cycle = 24) := by omega
  omega

/-- A day of a year that starts with March has a place in the calendar. -/
theorem isValid_ofMarch {year d : Int} (h : 0 ≤ d) (h' : d ≤ 365)
    (hLeap : d = 365 → isLeapYear (year + 1) = true) :
    (ofMarch year (monthOfDay d) (d - daysBefore (monthOfDay d) + 1)).IsValid := by
  obtain ⟨hMonth, hMonth', hFirst⟩ := monthOfDay_bounds h h'
  have hLast : d < daysBefore (monthOfDay d + 1) := by
    simp only [monthOfDay, daysBefore]
    omega
  generalize monthOfDay d = month at hMonth hMonth' hFirst hLast ⊢
  have hDay : 1 ≤ (d - daysBefore month + 1).toNat := by omega
  unfold ofMarch
  split
  · have hLength := daysInMonth_of_march year (by omega : 3 ≤ (month + 3).toNat) (by omega)
    have hBack : ((month + 3).toNat : Int) = month + 3 := by omega
    have hNext : month + 3 - 2 = month + 1 := by omega
    rw [hBack, Int.add_sub_cancel, hNext] at hLength
    have hDay' : (d - daysBefore month + 1).toNat ≤ daysInMonth year (month + 3).toNat := by omega
    have hPos : 1 ≤ (month + 3).toNat := by omega
    have hLe : (month + 3).toNat ≤ 12 := by omega
    exact ⟨hPos, hLe, hDay, hDay'⟩
  · -- January and February are the end of the year before. The day after 28 February is one only
    -- if the hypothesis on leap years allows for it.
    have hWinter : month = 10 ∨ month = 11 := by omega
    rcases hWinter with rfl | rfl
    · have hBefore : daysBefore 10 = 306 ∧ daysBefore (10 + 1) = 337 := by decide
      have hDay' : (d - daysBefore 10 + 1).toNat ≤ 31 := by omega
      have hOne : 1 ≤ 12 := by decide
      exact ⟨Nat.le_refl 1, hOne, hDay, hDay'⟩
    · have hBefore : daysBefore 11 = 337 := by decide
      have hDay' : (d - daysBefore 11 + 1).toNat ≤ daysInMonth (year + 1) 2 := by
        rw [daysInMonth_february]
        by_cases hLong : d = 365
        · rw [if_pos (hLeap hLong)]
          omega
        · split <;> omega
      have hTwo : 2 ≤ 12 := by decide
      exact ⟨Nat.le_succ 1, hTwo, hDay, hDay'⟩

/-- Every day has a date of the calendar. -/
theorem isValid_ofDayNumber (n : Int) : (ofDayNumber n).IsValid := by
  have hLower : 0 ≤ (n + epochShift) % daysPerEra := Int.emod_nonneg _ (by decide)
  have hUpper : (n + epochShift) % daysPerEra < daysPerEra := Int.emod_lt_of_pos _ (by decide)
  obtain ⟨-, -, hDay, hDay'⟩ := yearOfDay_bounds hLower hUpper
  refine isValid_ofMarch hDay hDay' fun hLast => ?_
  have hRule := yearOfDay_of_lastDay hLower hUpper hLast
  simp only [isLeapYear, Bool.and_eq_true, Bool.or_eq_true, decide_eq_true_eq]
  omega

/-- Later days have later dates. -/
theorem order_ofDayNumber (m n : Int) : order (ofDayNumber m) (ofDayNumber n) = compare m n := by
  rw [← compare_dayNumber (isValid_ofDayNumber m) (isValid_ofDayNumber n), dayNumber_ofDayNumber,
    dayNumber_ofDayNumber]

end RecordStore.Date
