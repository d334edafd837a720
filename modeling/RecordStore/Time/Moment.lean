import RecordStore.Number.Power
import RecordStore.Text.CharClass
import RecordStore.Time.Calendar

/-!
# Moments

A moment is a point in time, counted in nanoseconds, together with the offset from UTC at which it
was given. Moments are compared as points in time. They are written in UTC to the millisecond
(`2024-05-01T09:30:00.125Z`), rounding down, and read in two forms: that of RFC 3339, with any
number of digits of the second and an offset, and `2024-05-01 09:30:00`, which is in UTC.
-/

namespace RecordStore

/-- A point in time, in nanoseconds since the start of 1970 in UTC, seen at an offset in seconds. -/
structure Moment where
  nanoseconds : Int
  offset : Int
  deriving DecidableEq, Repr

namespace Moment

def secondsPerDay : Int := 86400

def nanosecondsPerSecond : Int := 1000000000

def nanosecondsPerMillisecond : Int := 1000000

/-- The same point in time seen in UTC. -/
def inUtc (m : Moment) : Moment := ⟨m.nanoseconds, 0⟩

/-- The moment with everything below a millisecond left out, in UTC. -/
def toMillisecond (m : Moment) : Moment :=
  ⟨m.nanoseconds / nanosecondsPerMillisecond * nanosecondsPerMillisecond, 0⟩

/-! ## Writing -/

/-- A number with zeros in front, `width` digits at least. -/
def padded (width n : Nat) : List Char :=
  let shown := Nat.toDigits 10 n
  List.replicate (width - shown.length) '0' ++ shown

/-- A year: four digits at least, with a sign if it is before year 0. -/
def yearChars (year : Int) : List Char :=
  (if year < 0 then ['-'] else []) ++ padded 4 year.natAbs

/-- The written form of a moment. -/
def stampChars (m : Moment) : List Char :=
  let milliseconds := m.nanoseconds / nanosecondsPerMillisecond
  let seconds := milliseconds / 1000
  let date := Date.ofDayNumber (seconds / secondsPerDay)
  let time := (seconds % secondsPerDay).toNat
  yearChars date.year ++ '-' :: padded 2 date.month ++ '-' :: padded 2 date.day ++
    'T' :: padded 2 (time / 3600) ++ ':' :: padded 2 (time / 60 % 60) ++
    ':' :: padded 2 (time % 60) ++ '.' :: padded 3 (milliseconds % 1000).toNat ++ ['Z']

/-- The written form of a moment, as a text. -/
def stamp (m : Moment) : String := String.ofList m.stampChars

/-! ## Reading -/

/-- Exactly `count` digits, continuing a number. -/
def fixedDigits? (count acc : Nat) (cs : List Char) : Option (Nat × List Char) :=
  match count, cs with
  | 0, cs => some (acc, cs)
  | _ + 1, [] => none
  | count + 1, c :: cs =>
    if c.isDigit then fixedDigits? count (Nat.ofDigitChars 10 [c] acc) cs else none

/-- One character that must be there. -/
def literal? (expected : Char) : List Char → Option (List Char)
  | [] => none
  | c :: cs => if c = expected then some cs else none

/-- Two digits after a character that must be there. -/
def twoDigitsAfter? (expected : Char) (cs : List Char) : Option (Nat × List Char) :=
  (literal? expected cs).bind (fixedDigits? 2 0)

/-- The nanoseconds of the digits behind the point of a second; those beyond the ninth are passed
over. -/
def fractionNanoseconds (ds : List Char) : Nat :=
  Nat.ofDigitChars 10 (ds.take 9) 0 * tens (9 - min ds.length 9)

/-- The digits behind the point of a second, if there is a point: then one at least. -/
def readFraction? : List Char → Option (Nat × List Char)
  | '.' :: cs =>
    let ds := cs.takeWhile Char.isDigit
    if ds.isEmpty then none else some (fractionNanoseconds ds, cs.dropWhile Char.isDigit)
  | cs => some (0, cs)

/-- The end of a text with an offset from UTC: `Z`, or hours and minutes with a sign. -/
def readOffset? : List Char → Option Int
  | ['Z'] | ['z'] => some 0
  | sign :: cs => do
    let (hours, cs) ← fixedDigits? 2 0 cs
    let (minutes, cs) ← twoDigitsAfter? ':' cs
    if cs ≠ [] ∨ 23 < hours ∨ 59 < minutes then none
    else if sign = '+' then some (hours * 3600 + minutes * 60 : Nat)
    else if sign = '-' then some (-(hours * 3600 + minutes * 60 : Nat))
    else none
  | [] => none

/-- The time of day, in seconds. -/
def secondOfDay? (hour minute second : Nat) : Option Nat :=
  if hour ≤ 23 ∧ minute ≤ 59 ∧ second ≤ 59 then some (hour * 3600 + minute * 60 + second) else none

/-- The point in time of a date and a time of day seen at an offset. -/
def ofLocal (date : Date) (second nanosecond : Nat) (offset : Int) : Moment :=
  ⟨(date.dayNumber * secondsPerDay + second - offset) * nanosecondsPerSecond + nanosecond, offset⟩

/-- Whether a moment lies in the last second of a month in UTC. -/
def endsMonth (m : Moment) : Bool :=
  let seconds := m.nanoseconds / nanosecondsPerSecond
  let date := Date.ofDayNumber (seconds / secondsPerDay)
  seconds % secondsPerDay == secondsPerDay - 1 && date.day == Date.daysInMonth date.year date.month

/-- Year, month and day with hyphens between them, the year given. -/
def readDate? (year : Int) (cs : List Char) : Option (Date × List Char) := do
  let (month, cs) ← twoDigitsAfter? '-' cs
  let (day, cs) ← twoDigitsAfter? '-' cs
  let date ← Date.ofParts? year month day
  return (date, cs)

/-- Reads the form of RFC 3339. Any character of one byte may stand between date and time. A sixtieth
second stands for the last nanosecond before it, and only at the end of a month in UTC. -/
def readInternet? (cs : List Char) : Option Moment := do
  let (year, cs) ← fixedDigits? 4 0 cs
  let (date, cs) ← readDate? year cs
  let separator ← cs.head?
  if separator.utf8Size ≠ 1 then none
  else
    let (hour, cs) ← fixedDigits? 2 0 (cs.drop 1)
    let (minute, cs) ← twoDigitsAfter? ':' cs
    let (second, cs) ← twoDigitsAfter? ':' cs
    let (nanosecond, cs) ← readFraction? cs
    let offset ← readOffset? cs
    if second = 60 then
      let time ← secondOfDay? hour minute 59
      let m := ofLocal date time 999999999 offset
      if m.endsMonth then some m else none
    else
      let time ← secondOfDay? hour minute second
      return ofLocal date time nanosecond offset

/-- Reads a date and a time of day in UTC with a blank between them. The year may have a sign. -/
def readPlain? (cs : List Char) : Option Moment := do
  let negative := cs.head? == some '-'
  let signed := negative || cs.head? == some '+'
  let (year, cs) ← fixedDigits? 4 0 (if signed then cs.drop 1 else cs)
  let (date, cs) ← readDate? (if negative then -(year : Int) else year) cs
  let (hour, cs) ← twoDigitsAfter? ' ' cs
  let (minute, cs) ← twoDigitsAfter? ':' cs
  let (second, cs) ← twoDigitsAfter? ':' cs
  let time ← secondOfDay? hour minute second
  if cs ≠ [] then none else return ofLocal date time 0 0

/-- Reads a moment from characters without blanks around them. -/
def readChars? (cs : List Char) : Option Moment := (readInternet? cs).or (readPlain? cs)

/-- Reads a moment from a text. -/
def read? (s : String) : Option Moment := readChars? (Text.trim s.toList)

end Moment

end RecordStore
