import RecordStore.Number.Binary64

/-!
# The shortest digits of a double

The digits written for a double are the fewest that still read back as it, and of those the nearest
to its value. The doubles that round to it form an interval, ends included when the significand is
even. For one, two, … seventeen digits the two neighbours of the value on that decimal grid are
tried, and the first grid with a neighbour inside the interval wins.

`Style` says how the digits are laid out: which magnitudes are written positionally, and what the
exponent form of the others looks like.
-/

namespace RecordStore

/-- The number `digits * 10 ^ exponent`. -/
structure Digits where
  digits : Nat
  exponent : Int
  deriving DecidableEq, Repr

namespace Digits

/-- The number that the digits stand for. -/
def value (d : Digits) : Rat := d.digits * tenPow d.exponent

/-- Moves zeros at the end of the digits into the exponent, `fuel` at most. -/
def withoutZeros : Nat → Digits → Digits
  | 0, d => d
  | fuel + 1, d =>
    if d.digits ≠ 0 ∧ d.digits % 10 = 0 then withoutZeros fuel ⟨d.digits / 10, d.exponent + 1⟩ else d

end Digits

/-- The exponent `k` of a positive number `q` with `10 ^ (k - 1) ≤ q < 10 ^ k`. -/
def decimalExponent (q : Rat) : Int :=
  let k : Int := ((Nat.toDigits 10 q.num.toNat).length : Int) - (Nat.toDigits 10 q.den).length
  if tenPow k ≤ q then k + 1 else k

namespace Binary64

/-- The lower end of the interval of numbers that round to a positive double. The double below a
power of two is half as far away as the one above. -/
def lowerEnd (b : Binary64) : Rat :=
  let step : Rat := if b.significand = leadingBit ∧ -1074 < b.exponent then 1 / 4 else 1 / 2
  (b.significand - step) * twoPow b.exponent

/-- The upper end of the interval of numbers that round to a positive double. -/
def upperEnd (b : Binary64) : Rat := (b.significand + 1 / 2) * twoPow b.exponent

/-- Whether a number rounds to the double. -/
def covers (b : Binary64) (q : Rat) : Bool :=
  if b.significand % 2 = 0 then b.lowerEnd ≤ q && q ≤ b.upperEnd
  else b.lowerEnd < q && q < b.upperEnd

/-- The number with `count` digits that is nearest to the double among those that read back as it;
a tie goes to the even one. -/
def withDigits? (b : Binary64) (count : Nat) : Option Digits :=
  let exponent := decimalExponent b.magnitude - count
  let scaled := b.magnitude / tenPow exponent
  let below := scaled.floor.toNat
  let distance := scaled - below
  let preferred :=
    if distance < 1 / 2 ∨ (distance = 1 / 2 ∧ below % 2 = 0) then [below, below + 1]
    else [below + 1, below]
  (preferred.find? fun d : Nat => b.covers (d * tenPow exponent)).map fun d => ⟨d, exponent⟩

/-- The fewest digits that read back as the magnitude of the double. -/
def shortest (b : Binary64) : Digits :=
  if b.significand = 0 then ⟨0, 0⟩
  else
    match (List.range 17).findSome? fun i => b.withDigits? (i + 1) with
    | some d => d.withoutZeros 20
    | none => ⟨roundHalfEven b.magnitude, 0⟩

/-! ## Layout -/

/-- How a double is written. -/
structure Style where
  /-- Positional from this position of the point on; `0` is in front of the first digit. -/
  firstPlace : Int
  /-- Positional up to this position of the point. -/
  lastPlace : Int
  /-- Whether a whole number ends in `.0` in positional form. -/
  pointZero : Bool
  /-- Whether a positive exponent has a sign. -/
  signedExponent : Bool

/-- Digits laid out with the point after the first `place` of them. -/
def positional (style : Style) (shown : List Char) (place : Int) : List Char :=
  if place ≤ 0 then
    ['0', '.'] ++ List.replicate (-place).toNat '0' ++ shown
  else if shown.length ≤ place.toNat then
    shown ++ List.replicate (place.toNat - shown.length) '0' ++
      (if style.pointZero then ['.', '0'] else [])
  else
    shown.take place.toNat ++ '.' :: shown.drop place.toNat

/-- Digits laid out as one digit, the others behind a point, and a power of ten. -/
def exponential (style : Style) (shown : List Char) (place : Int) : List Char :=
  let power := place - 1
  let sign := if power < 0 then ['-'] else if style.signedExponent then ['+'] else []
  let fraction := if shown.length ≤ 1 then [] else '.' :: shown.drop 1
  shown.take 1 ++ fraction ++ 'e' :: sign ++ Nat.toDigits 10 power.natAbs

/-- The written form of a double. -/
def toChars (style : Style) (b : Binary64) : List Char :=
  let sign := if b.negative then ['-'] else []
  let short := b.shortest
  let shown := Nat.toDigits 10 short.digits
  let place : Int := shown.length + short.exponent
  sign ++
    (if style.firstPlace ≤ place ∧ place ≤ style.lastPlace then positional style shown place
    else exponential style shown place)

end Binary64

end RecordStore
