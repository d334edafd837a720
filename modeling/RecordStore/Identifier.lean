import RecordStore.Time.Moment

/-!
# Identifiers

An identifier for a new record is the time in milliseconds, a hyphen and nine hexadecimal digits
that are to be chosen at random, so that two identifiers made at the same time differ.

## Main results

- `length_randomDigits`: an identifier ends in nine digits.
-/

namespace RecordStore.Identifier

/-- The lowest `count` hexadecimal digits of a number. -/
def randomDigits : Nat → Nat → List Char
  | 0, _ => []
  | count + 1, n => randomDigits count (n / 16) ++ [Nat.digitChar (n % 16)]

theorem length_randomDigits (count n : Nat) : (randomDigits count n).length = count := by
  induction count generalizing n with
  | zero => rfl
  | succ count ih => simp [randomDigits, ih]

/-- The number of random digits. -/
def suffixLength : Nat := 9

/-- The milliseconds since the start of 1970; none have passed before. -/
def milliseconds (clock : Moment) : Nat :=
  (clock.nanoseconds / Moment.nanosecondsPerMillisecond).toNat

/-- The identifier for a time and a random number. -/
def make (clock : Moment) (random : Nat) : String :=
  s!"{milliseconds clock}-{String.ofList (randomDigits suffixLength random)}"

end RecordStore.Identifier
