import RecordStore.Number.Power

/-!
# Double precision numbers

Finite numbers of the IEEE 754 format with 53 significant bits, as exact values: a sign, a
significand and a power of two in the one form that the format stores. No machine arithmetic is
involved. An operation is the operation on rationals followed by `nearest?`, the rounding to the
nearest double with ties to the even significand, and fails only where the result is too large.

## Main results

- `ofParts?_eq_some_iff`: the parts that are a double are those in range and normalised.
-/

namespace RecordStore

/-- The first bit of a significand that uses all 53. -/
def Binary64.leadingBit : Nat := 0x10000000000000

/-- The double `± significand * 2 ^ exponent`. -/
structure Binary64 where
  negative : Bool
  significand : Nat
  exponent : Int
  significand_lt : significand < 2 * Binary64.leadingBit
  exponent_ge : -1074 ≤ exponent
  exponent_le : exponent ≤ 971
  normalised : Binary64.leadingBit ≤ significand ∨ exponent = -1074
  deriving DecidableEq

/-- The power of two with an integer exponent. -/
def twoPow (e : Int) : Rat := (2 : Rat) ^ e

/-- The power of ten with an integer exponent. -/
def tenPow (e : Int) : Rat := (10 : Rat) ^ e

/-- The integer nearest to a number that is not negative, a half going to the even neighbour. -/
def roundHalfEven (q : Rat) : Nat :=
  let n := q.num.toNat
  let whole := n / q.den
  let remainder := n % q.den
  if 2 * remainder < q.den then whole
  else if q.den < 2 * remainder then whole + 1
  else whole + whole % 2

/-- The integer nearest to a number that is not negative, a half going up. -/
def roundHalfUp (q : Rat) : Nat := (q + 1 / 2).floor.toNat

/-- The exponent `k` of a positive number `q` with `2 ^ k ≤ q < 2 ^ (k + 1)`. -/
def binaryExponent (q : Rat) : Int :=
  let k : Int := (Nat.log2 q.num.toNat : Int) - Nat.log2 q.den
  if twoPow k ≤ q then k else k - 1

namespace Binary64

/-- Zero, with a sign. -/
def zero (negative : Bool) : Binary64 :=
  ⟨negative, 0, -1074, by decide, by decide, by decide, .inr rfl⟩

instance : Inhabited Binary64 := ⟨zero false⟩

/-- The double with the given parts, if they are in range and normalised. -/
def ofParts? (negative : Bool) (significand : Nat) (exponent : Int) : Option Binary64 :=
  if h : significand < 2 * leadingBit ∧ -1074 ≤ exponent ∧ exponent ≤ 971 ∧
      (leadingBit ≤ significand ∨ exponent = -1074) then
    some ⟨negative, significand, exponent, h.1, h.2.1, h.2.2.1, h.2.2.2⟩
  else
    none

theorem ofParts?_eq_some_iff {negative : Bool} {significand : Nat} {exponent : Int}
    {b : Binary64} :
    ofParts? negative significand exponent = some b ↔
      b.negative = negative ∧ b.significand = significand ∧ b.exponent = exponent := by
  constructor
  · intro h
    simp only [ofParts?] at h
    split at h
    · cases h; exact ⟨rfl, rfl, rfl⟩
    · cases h
  · rintro ⟨rfl, rfl, rfl⟩
    exact dif_pos ⟨b.significand_lt, b.exponent_ge, b.exponent_le, b.normalised⟩

/-- The value without its sign. -/
def magnitude (b : Binary64) : Rat := b.significand * twoPow b.exponent

/-- The value. -/
def value (b : Binary64) : Rat := if b.negative then -b.magnitude else b.magnitude

/-- The double nearest to `± q`, for `q` not negative; none if `q` is beyond the largest double. -/
def nearest? (negative : Bool) (q : Rat) : Option Binary64 :=
  if q = 0 then some (zero negative)
  else
    let exponent := max (binaryExponent q - 52) (-1074)
    let significand := roundHalfEven (q / twoPow exponent)
    if significand = 2 * leadingBit then ofParts? negative leadingBit (exponent + 1)
    else ofParts? negative significand exponent

/-- The double nearest to a natural number. -/
def ofNat? (n : Nat) : Option Binary64 := nearest? false n

/-- The sign turned round. -/
def neg (b : Binary64) : Binary64 := { b with negative := !b.negative }

/-- The rounded product. -/
def mul? (a b : Binary64) : Option Binary64 :=
  nearest? (a.negative != b.negative) (a.magnitude * b.magnitude)

/-- The rounded quotient by a number other than zero. -/
def div? (a b : Binary64) : Option Binary64 :=
  nearest? (a.negative != b.negative) (a.magnitude / b.magnitude)

/-- The double nearest to a power of ten. -/
def tenPow? (k : Nat) : Option Binary64 := nearest? false (tens k : Nat)

end Binary64

end RecordStore
