import RecordStore.Number.Decimal
import RecordStore.Number.Binary64

/-!
# Decimals and doubles

A decimal is written out as a double and a double is read in as a decimal, and both directions
round.

A double that is an integer is exact or too large. From another double `m / 2 ^ k` the twos are
turned into tens one step at a time in a mantissa of 96 bits, losing low digits where it overflows.
What is left is cut to the largest scale, then digit by digit to the precision of a double, each cut
rounding a five upwards, and zeros at the end of the fraction are dropped.

To a double the whole part and the fraction are converted apart and added, and the sum is rounded
again at the scale of the decimal. Without a fraction the whole part is all there is.

## Main results

- `tradeTwos_zero`: a mantissa that needs no step is left alone.
-/

namespace RecordStore.Decimal

/-- The number `m / 2 ^ k` as a mantissa and a number of tens that divide it: two halves of an even
mantissa are traded against one of the tens, an odd one is multiplied by five, and one without room
for that is halved with loss. -/
def tradeTwos : Nat → Nat → Nat → Nat × Nat
  | 0, m, tens => (m, tens)
  | k + 1, m, tens =>
    if m % 2 = 0 then tradeTwos k (m / 2) tens
    else if m * 5 < mantissaLimit then tradeTwos k (m * 5) (tens + 1)
    else tradeTwos k (m / 2) tens

/-- The mantissa without its last digit, rounded by it. -/
def dropDigit (m : Nat) : Nat := m / 10 + if 5 ≤ m % 10 then 1 else 0

/-- The mantissa without its last `k` digits; none once nothing of it is left. -/
def dropDigits : Nat → Nat → Option Nat
  | 0, m => some m
  | k + 1, m => if m / 10 = 0 then none else dropDigits k (dropDigit m)

/-- Drops digits of the fraction until the mantissa has no more than 52 bits. -/
def trimPrecision : Nat → Nat → Nat × Nat
  | 0, m => (m, 0)
  | scale + 1, m => if Binary64.leadingBit ≤ m then trimPrecision scale (dropDigit m) else (m, scale + 1)

/-- Drops zeros at the end of the fraction. -/
def trimZeros : Nat → Nat → Nat × Nat
  | 0, m => (m, 0)
  | scale + 1, m => if m % 10 = 0 then trimZeros scale (m / 10) else (m, scale + 1)

theorem tradeTwos_zero (m tens : Nat) : tradeTwos 0 m tens = (m, tens) := rfl

/-- The decimal for a double; none if the double is too large. Zero keeps its sign. -/
def ofBinary64? (b : Binary64) : Option Decimal :=
  let signedZero := { zero with negative := b.negative }
  if b.significand = 0 then some signedZero
  else if 0 ≤ b.exponent then ofParts? b.negative (b.significand * twos b.exponent.toNat) 0
  else
    let (m, scale) := tradeTwos b.exponent.natAbs b.significand 0
    match dropDigits (scale - maxScale) m with
    | none => some signedZero
    | some m =>
      let (m, scale) := trimPrecision (min scale maxScale) m
      let (m, scale) := trimZeros scale m
      ofParts? b.negative m scale

/-- The double for the sum of a whole number and the fraction `part / 10 ^ scale`, rounded to as
many digits after the point. -/
def sumToBinary64? (whole : Binary64) (part scale : Nat) : Option Binary64 := do
  let power ← Binary64.tenPow? scale
  let part ← (← Binary64.ofNat? part).div? power
  let sum ← Binary64.nearest? false (whole.magnitude + part.magnitude)
  let shifted ← sum.mul? power
  (← Binary64.ofNat? (roundHalfUp shifted.magnitude)).div? power

/-- The double for a decimal. One whose fraction is zero is rounded once; the zero without digits
after the point has no sign, other zeros keep theirs. -/
def toBinary64? (d : Decimal) : Option Binary64 := do
  let whole ← Binary64.ofNat? (d.mantissa / tens d.scale)
  let size ←
    if d.isWhole then some whole else sumToBinary64? whole (d.mantissa % tens d.scale) d.scale
  return { size with negative := d.negative && (d.mantissa != 0 || d.scale != 0) }

end RecordStore.Decimal
