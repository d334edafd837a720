import RecordStore.Number.Power

/-!
# Decimal numbers

A decimal is a sign, a mantissa of at most 96 bits and a scale, the number of its digits after the
point (at most 28). `1.0` and `1.00` are different decimals of equal value: the text keeps the scale,
while comparison goes by value.

Every decimal is a whole number of units of `10 ^ -28`, so values are compared as the integers
`units`, and no fraction is ever formed.

## Main results

- `Decimal.sameValue_iff`: two decimals have one value exactly when their units agree.
- `Decimal.units_ofInt64`: an integer stands for that many times `10 ^ 28` units.
-/

namespace RecordStore

/-- The first number that no mantissa reaches. -/
def mantissaLimit : Nat := 0x1000000000000000000000000

/-- The most digits a decimal has after its point. -/
def maxScale : Nat := 28

/-- The decimal `± mantissa / 10 ^ scale`. -/
structure Decimal where
  negative : Bool
  mantissa : Nat
  scale : Nat
  mantissa_lt : mantissa < mantissaLimit
  scale_le : scale ≤ maxScale
  deriving DecidableEq

namespace Decimal

/-- The decimal zero without a sign and without digits after the point. -/
def zero : Decimal := ⟨false, 0, 0, by decide, by decide⟩

instance : Inhabited Decimal := ⟨zero⟩

/-- The decimal with the given parts, if they are in range. -/
def ofParts? (negative : Bool) (mantissa scale : Nat) : Option Decimal :=
  if h : mantissa < mantissaLimit ∧ scale ≤ maxScale then
    some ⟨negative, mantissa, scale, h.1, h.2⟩
  else
    none

/-- A natural number as a decimal without digits after the point. -/
def ofNat? (n : Nat) : Option Decimal := ofParts? false n 0

/-- A 64-bit integer as a decimal without digits after the point. -/
def ofInt64 (i : Int64) : Decimal where
  negative := i.toInt < 0
  mantissa := i.toInt.natAbs
  scale := 0
  mantissa_lt := by
    have hLower := i.le_toInt
    have hUpper := i.toInt_lt
    simp only [mantissaLimit]
    omega
  scale_le := Nat.zero_le _

/-! ## Value -/

/-- The value in units of `10 ^ -28`. -/
def units (d : Decimal) : Int :=
  let magnitude : Int := d.mantissa * tens (maxScale - d.scale)
  if d.negative then -magnitude else magnitude

/-- The number of units in one. -/
def unitsPerOne : Int := tens maxScale

theorem units_ofInt64 (i : Int64) : (ofInt64 i).units = i.toInt * unitsPerOne := by
  by_cases h : i.toInt < 0
  · have hAbs : (i.toInt.natAbs : Int) = -i.toInt := Int.ofNat_natAbs_of_nonpos (Int.le_of_lt h)
    simp only [units, ofInt64, h, hAbs, decide_true, if_true, unitsPerOne, Nat.sub_zero]
    rw [Int.neg_mul, Int.neg_neg]
  · have hAbs : (i.toInt.natAbs : Int) = i.toInt := Int.natAbs_of_nonneg (Int.not_lt.1 h)
    simp [units, ofInt64, unitsPerOne, h, hAbs]

/-- Equality of value, whatever the scales. -/
def sameValue (a b : Decimal) : Bool := a.units == b.units

theorem sameValue_iff {a b : Decimal} : a.sameValue b = true ↔ a.units = b.units := by
  simp [sameValue]

/-- Whether all digits after the point are zero. -/
def isWhole (d : Decimal) : Bool := d.mantissa % tens d.scale == 0

/-- The value as a 64-bit integer, if it is whole and in range. -/
def toInt64? (d : Decimal) : Option Int64 :=
  let whole : Int := d.mantissa / tens d.scale
  let value := if d.negative then -whole else whole
  if d.isWhole && Int64.minValue.toInt ≤ value && value ≤ Int64.maxValue.toInt then
    some (Int64.ofInt value)
  else
    none

/-! ## Text -/

/-- The digits of the mantissa, with zeros in front so that one digit is left of the point. -/
def digits (d : Decimal) : List Char :=
  let shown := Nat.toDigits 10 d.mantissa
  List.replicate (d.scale + 1 - shown.length) '0' ++ shown

/-- The written form: exactly `scale` digits after the point, and no point without digits. -/
def toChars (d : Decimal) : List Char :=
  let sign := if d.negative then ['-'] else []
  let whole := d.digits.take (d.digits.length - d.scale)
  let fraction := d.digits.drop (d.digits.length - d.scale)
  sign ++ whole ++ (if d.scale = 0 then [] else '.' :: fraction)

/-- The written form as a text. -/
def text (d : Decimal) : String := String.ofList d.toChars

end Decimal

end RecordStore
