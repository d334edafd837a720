import RecordStore.Evaluation.Command
import RecordStore.Number.Decimal.Reading
import RecordStore.Proofs.CalendarDays

/-!
# The parts of a written moment

A moment is written in UTC part by part: a date of the calendar, the hours, minutes and seconds of
the day that are over, and the milliseconds of the second. As long as the year is one of 0 to 9999,
every part has a number of digits of its own (`Spells`), so moments are written with one length and
with each part in one place.

## Main results

- `spells_padded`: a small number with zeros in front.
- `stampChars_eq`: the written form, part by part.
- `HasFourDigitYear.spelledParts`: how many digits each part has.
- `Record.stampedAt_created`: what a new record is stamped with.
-/

namespace RecordStore

namespace Moment

/-! ## Numbers with zeros in front -/

/-- The characters are a number in so many decimal digits. -/
structure Spells (width n : Nat) (cs : List Char) : Prop where
  length_eq : cs.length = width
  digits : ∀ c ∈ cs, c.isDigit = true
  value : Nat.ofDigitChars 10 cs 0 = n

theorem spells_padded {width n : Nat} (hWidth : 0 < width) (h : n < tens width) :
    Spells width n (padded width n) := by
  have hLength : (Nat.toDigits 10 n).length ≤ width :=
    (Nat.length_toDigits_le_iff (by decide) hWidth).2 h
  refine ⟨?_, ?_, ?_⟩
  · rw [padded, List.length_append, List.length_replicate]
    omega
  · intro c hc
    rcases List.mem_append.1 hc with hZero | hShown
    · rw [List.eq_of_mem_replicate hZero]
      rfl
    · exact Decimal.isDigit_toDigits n c hShown
  · rw [padded, Nat.ofDigitChars_append, Nat.ofDigitChars_replicate_zero, Nat.mul_zero,
      Nat.ofDigitChars_ten_toDigits]

/-! ## Parts of a moment -/

/-- The whole milliseconds since the start of 1970, rounding down. -/
def millisecond (m : Moment) : Int := m.nanoseconds / nanosecondsPerMillisecond

/-- The whole seconds since the start of 1970, rounding down. -/
def second (m : Moment) : Int := m.nanoseconds / nanosecondsPerSecond

/-- The date of a moment in UTC. -/
def date (m : Moment) : Date := Date.ofDayNumber (m.second / secondsPerDay)

/-- The seconds of the day in UTC that are over. -/
def timeOfDay (m : Moment) : Nat := (m.second % secondsPerDay).toNat

/-- The milliseconds of the second that are over. -/
def millisecondOfSecond (m : Moment) : Nat := (m.millisecond % 1000).toNat

/-- The year in UTC needs neither a sign nor a fifth digit. -/
def HasFourDigitYear (m : Moment) : Prop := 0 ≤ m.date.year ∧ m.date.year ≤ 9999

instance (m : Moment) : Decidable m.HasFourDigitYear := inferInstanceAs (Decidable (_ ∧ _))

theorem millisecond_div (m : Moment) : m.millisecond / 1000 = m.second := by
  simp only [millisecond, second, nanosecondsPerMillisecond, nanosecondsPerSecond]
  omega

theorem timeOfDay_lt (m : Moment) : m.timeOfDay < 86400 := by
  simp only [timeOfDay, secondsPerDay]
  omega

theorem millisecondOfSecond_lt (m : Moment) : m.millisecondOfSecond < 1000 := by
  rw [millisecondOfSecond]
  omega

variable {m : Moment}

theorem yearChars_of_nonneg {year : Int} (h : 0 ≤ year) :
    yearChars year = padded 4 year.toNat := by
  have hNat : year.natAbs = year.toNat := by omega
  rw [yearChars, if_neg (Int.not_lt.2 h), hNat, List.nil_append]

/-- The written form, each part in front of what follows it. -/
theorem stampChars_eq (h : m.HasFourDigitYear) :
    m.stampChars = padded 4 m.date.year.toNat ++ '-' :: (padded 2 m.date.month ++
      '-' :: (padded 2 m.date.day ++ 'T' :: (padded 2 (m.timeOfDay / 3600) ++
      ':' :: (padded 2 (m.timeOfDay / 60 % 60) ++ ':' :: (padded 2 (m.timeOfDay % 60) ++
      '.' :: (padded 3 m.millisecondOfSecond ++ ['Z'])))))) := by
  have hSecond : m.nanoseconds / nanosecondsPerMillisecond / 1000 = m.second := millisecond_div m
  rw [← yearChars_of_nonneg h.1]
  simp only [stampChars, date, timeOfDay, millisecondOfSecond, millisecond, hSecond,
    List.append_assoc, List.cons_append]

/-- Every part of the written form has its own number of digits. -/
structure SpelledParts (m : Moment) : Prop where
  year : Spells 4 m.date.year.toNat (padded 4 m.date.year.toNat)
  month : Spells 2 m.date.month (padded 2 m.date.month)
  day : Spells 2 m.date.day (padded 2 m.date.day)
  hour : Spells 2 (m.timeOfDay / 3600) (padded 2 (m.timeOfDay / 3600))
  minute : Spells 2 (m.timeOfDay / 60 % 60) (padded 2 (m.timeOfDay / 60 % 60))
  second : Spells 2 (m.timeOfDay % 60) (padded 2 (m.timeOfDay % 60))
  millisecond : Spells 3 m.millisecondOfSecond (padded 3 m.millisecondOfSecond)

theorem HasFourDigitYear.spelledParts (h : m.HasFourDigitYear) : m.SpelledParts := by
  have hValid : m.date.IsValid := Date.isValid_ofDayNumber _
  have hYear := h.2
  have hMonth := hValid.month_le
  have hDay := Nat.le_trans hValid.day_le (Date.daysInMonth_le m.date.year m.date.month)
  have hTime := m.timeOfDay_lt
  have hMillisecond := m.millisecondOfSecond_lt
  have hTens : tens 4 = 10000 ∧ tens 3 = 1000 ∧ tens 2 = 100 := by decide
  constructor <;> refine spells_padded (by decide) ?_ <;> omega

end Moment

/-! ## Stamped records -/

/-- A field of a row is a written moment. -/
def Row.StampedAt (row : Row) (field : Plan.Field) (m : Moment) : Prop :=
  m.HasFourDigitYear ∧ row.field field = some (.text m.stamp)

/-- A field of a record is a written moment. -/
def Record.StampedAt (r : Record) (name : String) (m : Moment) : Prop :=
  m.HasFourDigitYear ∧ r.get? name = some (.text m.stamp)

/-- A new record whose time is left open is stamped with the time at which it is made. -/
theorem Record.stampedAt_created {fields : List (String × Datum)} {clock : Moment}
    (hYear : clock.HasFourDigitYear)
    (hBlank : Datum.isBlank ((Record.ofList fields).get? createdAt) = true) :
    (Record.created fields clock).StampedAt createdAt clock := by
  have hCreated : ((Record.ofList fields).stamped clock createdAt).get? createdAt =
      some (.text clock.stamp) := by
    rw [stamped, if_pos hBlank, get?_insert_self]
  refine ⟨hYear, ?_⟩
  show (Record.stamped clock (Record.stamped clock _ createdAt) updatedAt).get? createdAt = _
  rw [stamped]
  split
  · rw [get?_insert, if_neg (by decide), hCreated]
  · exact hCreated

end RecordStore
