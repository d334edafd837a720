import RecordStore.Datum
import RecordStore.Number.Decimal.Reading

/-!
# Number literals

A literal without a point is an integer if it fits into 64 bits with its sign, and a decimal
otherwise; one with a point is always a decimal. A row count is an unsigned 64-bit integer.

## Main results

- `numberValue?_of_fits`: digits within the integers are read as an integer.
-/

namespace RecordStore.Sql

open Decimal (digitsValue)

/-- The integer of a sign and digits. -/
def signedValue (negative : Bool) (digits : List Char) : Int :=
  if negative then -(digitsValue digits : Int) else digitsValue digits

/-- Whether an integer fits into 64 bits with its sign. -/
def fitsInt64 (i : Int) : Bool := Int64.minValue.toInt ≤ i && i ≤ Int64.maxValue.toInt

/-- Whether a text is made of digits only, one at least. -/
def isDigits (cs : List Char) : Bool := !cs.isEmpty && cs.all Char.isDigit

/-- The value of a number literal with the sign in front of it. -/
def numberValue? (negative : Bool) (digits : List Char) : Option Datum :=
  if isDigits digits && fitsInt64 (signedValue negative digits) then
    some (.integer (Int64.ofInt (signedValue negative digits)))
  else
    (Decimal.ofUnsigned? negative digits).map .decimal

/-- A number literal as messages show it. -/
def numberText (negative : Bool) (digits : String) : String :=
  if negative then s!"-{digits}" else digits

/-- The number of rows a literal stands for. -/
def rowCount? (digits : List Char) : Option Nat :=
  if isDigits digits && digitsValue digits < UInt64.size then some (digitsValue digits) else none

theorem numberValue?_of_fits {negative : Bool} {digits : List Char}
    (hDigits : isDigits digits = true) (hFits : fitsInt64 (signedValue negative digits) = true) :
    numberValue? negative digits =
      some (.integer (Int64.ofInt (signedValue negative digits))) := by
  simp [numberValue?, hDigits, hFits]

end RecordStore.Sql
