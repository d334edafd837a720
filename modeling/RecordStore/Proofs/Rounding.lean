import Mathlib.Algebra.Order.Field.Power
import Mathlib.Data.Rat.Cast.Order
import Mathlib.Tactic.FieldSimp
import Mathlib.Tactic.Linarith
import Mathlib.Tactic.Positivity
import Mathlib.Tactic.Ring
import RecordStore.Number.Decimal.Conversion

/-!
# Bounds on rounded numbers

A number is rounded to a double by scaling it to 53 bits, rounding the significand and scaling back.
The scaled number lies between the first bit of a significand and twice that bit unless the number
is very small (`scaled_bounds`), so only numbers beyond `2 ^ 1000` can have no double
(`exists_nearest?`).

No result is more than twice what was rounded, and from one up none is less than half of it. These
bounds are rough, and they carry over to products, quotients and sums: the double of a decimal stays
far below the largest one (`magnitude_toBinary64?_le`).

## Main results

- `binaryExponent_spec`: a positive number lies in the range of its binary exponent.
- `exists_nearest?`: numbers up to `2 ^ 1000` have a nearest double.
- `magnitude_toBinary64?_le`: a bound on the double of any decimal.
-/

namespace RecordStore

/-! ## Powers -/

theorem twoPow_pos (e : Int) : 0 < twoPow e := zpow_pos (by norm_num) e

theorem twoPow_add (a b : Int) : twoPow (a + b) = twoPow a * twoPow b :=
  zpow_add₀ (by norm_num) a b

theorem twoPow_sub (a b : Int) : twoPow (a - b) = twoPow a / twoPow b :=
  zpow_sub₀ (by norm_num) a b

theorem twoPow_natCast (n : Nat) : twoPow n = 2 ^ n := zpow_natCast 2 n

theorem twoPow_neg_natCast (n : Nat) : twoPow (-(n : Int)) = 1 / 2 ^ n := by
  rw [twoPow, zpow_neg, zpow_natCast, one_div]

theorem two_mul_twoPow (e : Int) : 2 * twoPow e = twoPow (e + 1) := by
  rw [twoPow_add, mul_comm]
  exact congrArg (twoPow e * ·) (zpow_one 2).symm

theorem twoPow_le_twoPow {a b : Int} (h : a ≤ b) : twoPow a ≤ twoPow b :=
  zpow_le_zpow_right₀ (by norm_num) h

theorem tenPow_pos (e : Int) : 0 < tenPow e := zpow_pos (by norm_num) e

theorem tenPow_add (a b : Int) : tenPow (a + b) = tenPow a * tenPow b :=
  zpow_add₀ (by norm_num) a b

theorem tenPow_le_tenPow {a b : Int} (h : a ≤ b) : tenPow a ≤ tenPow b :=
  zpow_le_zpow_right₀ (by norm_num) h

/-- Four binary places are more than one decimal place. -/
theorem tens_le_twoPow (n : Nat) : (tens n : Rat) ≤ twoPow (4 * n) := by
  have hLe : tens n ≤ 16 ^ n := Nat.pow_le_pow_left (by decide) n
  have hPow : twoPow (4 * n) = ((16 ^ n : Nat) : Rat) := by
    rw [show (4 * n : Int) = ((4 * n : Nat) : Int) by omega, twoPow_natCast, pow_mul, Nat.cast_pow]
    norm_num
  rw [hPow]
  exact_mod_cast hLe

theorem tenPow_natCast (n : Nat) : tenPow n = (tens n : Nat) := by
  show tenPow n = ((10 ^ n : Nat) : Rat)
  rw [Nat.cast_pow]
  exact zpow_natCast 10 n

theorem tenPow_neg (e : Int) : tenPow (-e) = (tenPow e)⁻¹ := zpow_neg 10 e

theorem div_tens_eq (m scale : Nat) : (m : Rat) / tens scale = m * tenPow (-(scale : Int)) := by
  rw [tenPow_neg, tenPow_natCast, div_eq_mul_inv]

theorem tens_sub_mul {m n : Nat} (h : m ≤ n) : tens (n - m) * tens m = tens n := by
  rw [← tens_add, Nat.sub_add_cancel h]

theorem tens_le_tens {m n : Nat} (h : m ≤ n) : tens m ≤ tens n := Nat.pow_le_pow_right (by decide) h

/-- The least positive number with fifteen places. -/
theorem le_div_tens {m scale : Nat} (hPos : 0 < m) (hScale : scale ≤ 15) :
    (1 : Rat) / 10 ^ 15 ≤ m / tens scale := by
  have hTens : (0 : Rat) < tens scale := by exact_mod_cast tens_pos scale
  have hOne : (1 : Rat) ≤ m := by exact_mod_cast hPos
  have hTensLe : tens scale ≤ 10 ^ 15 := tens_le_tens hScale
  have hLe : (tens scale : Rat) ≤ 10 ^ 15 := by exact_mod_cast hTensLe
  gcongr

/-! ## Rounding to an integer -/

/-- A number that is not negative is its numerator over its denominator, as naturals. -/
theorem eq_div_of_nonneg {q : Rat} (h : 0 ≤ q) : q = (q.num.toNat : Rat) / q.den := by
  have hNum : ((q.num.toNat : Int) : Rat) = q.num := by
    rw [Int.toNat_of_nonneg (Rat.num_nonneg.2 h)]
  rw [← Int.cast_natCast, hNum]
  exact (Rat.num_div_den q).symm

/-- A number is rounded by less than a half, or by a half to an even integer. -/
theorem roundHalfEven_spec {q : Rat} (h : 0 ≤ q) :
    |(roundHalfEven q : Rat) - q| < 1 / 2 ∨
      (|(roundHalfEven q : Rat) - q| = 1 / 2 ∧ roundHalfEven q % 2 = 0) := by
  have hDen : (0 : Rat) < q.den := by exact_mod_cast q.den_pos
  have hSplit : (q.num.toNat : Rat) =
      q.den * (q.num.toNat / q.den : Nat) + (q.num.toNat % q.den : Nat) := by
    exact_mod_cast (Nat.div_add_mod q.num.toNat q.den).symm
  have hLess : q.num.toNat % q.den < q.den := Nat.mod_lt _ q.den_pos
  have hValue : q = (q.num.toNat / q.den : Nat) + (q.num.toNat % q.den : Nat) / (q.den : Rat) := by
    conv_lhs => rw [eq_div_of_nonneg h, hSplit]
    field_simp
  simp only [roundHalfEven]
  generalize q.num.toNat / q.den = whole at hValue ⊢
  generalize q.num.toNat % q.den = remainder at hValue hLess ⊢
  -- What is left over is less than one, and the branches compare it with a half.
  have hPart : (remainder : Rat) / q.den < 1 := by
    rw [div_lt_one hDen]
    exact_mod_cast hLess
  have hNonneg : 0 ≤ (remainder : Rat) / q.den := by positivity
  by_cases hBelow : 2 * remainder < q.den
  · have hHalf : (remainder : Rat) / q.den < 1 / 2 := by
      rw [div_lt_iff₀ hDen]
      have : (2 * remainder : Rat) < q.den := by exact_mod_cast hBelow
      linarith
    simp only [if_pos hBelow]
    left
    rw [abs_lt]
    constructor <;> linarith
  by_cases hAbove : q.den < 2 * remainder
  · have hHalf : 1 / 2 < (remainder : Rat) / q.den := by
      rw [lt_div_iff₀ hDen]
      have : (q.den : Rat) < 2 * remainder := by exact_mod_cast hAbove
      linarith
    simp only [if_neg hBelow, if_pos hAbove, Nat.cast_add, Nat.cast_one]
    left
    rw [abs_lt]
    constructor <;> linarith
  · have hTie : (remainder : Rat) / q.den = 1 / 2 := by
      have hTwice : (2 * remainder : Rat) = q.den := by
        exact_mod_cast Nat.le_antisymm (Nat.not_lt.1 hAbove) (Nat.not_lt.1 hBelow)
      rw [div_eq_iff (ne_of_gt hDen)]
      linarith
    simp only [if_neg hBelow, if_neg hAbove]
    refine .inr ⟨?_, by omega⟩
    rcases Nat.mod_two_eq_zero_or_one whole with hEven | hOdd
    · have hDown : (whole : Rat) - q = -(1 / 2) := by linarith
      rw [hEven, Nat.add_zero, hDown, abs_neg]
      norm_num
    · have hUp : ((whole + 1 : Nat) : Rat) - q = 1 / 2 := by
        push_cast
        linarith
      rw [hOdd, hUp]
      norm_num

theorem roundHalfEven_bounds {q : Rat} (h : 0 ≤ q) :
    q - 1 / 2 ≤ roundHalfEven q ∧ (roundHalfEven q : Rat) ≤ q + 1 / 2 := by
  have hAbs : |(roundHalfEven q : Rat) - q| ≤ 1 / 2 :=
    (roundHalfEven_spec h).elim le_of_lt fun hTie => le_of_eq hTie.1
  rw [abs_le] at hAbs
  constructor <;> linarith

/-- Rounding does not cross an integer from below. -/
theorem le_roundHalfEven {n : Nat} {q : Rat} (h : (n : Rat) ≤ q) : n ≤ roundHalfEven q := by
  have hNonneg : 0 ≤ q := le_trans (Nat.cast_nonneg n) h
  have hLower := (roundHalfEven_bounds hNonneg).1
  have hLess : (n : Rat) < roundHalfEven q + 1 := by linarith
  exact Nat.le_of_lt_succ (by exact_mod_cast hLess)

/-- Rounding does not cross an integer from above. -/
theorem roundHalfEven_le {n : Nat} {q : Rat} (hNonneg : 0 ≤ q) (h : q ≤ n) :
    roundHalfEven q ≤ n := by
  have hUpper := (roundHalfEven_bounds hNonneg).2
  have hLess : (roundHalfEven q : Rat) < n + 1 := by linarith
  exact Nat.le_of_lt_succ (by exact_mod_cast hLess)

theorem roundHalfEven_le_double {q : Rat} (h : 0 ≤ q) : (roundHalfEven q : Rat) ≤ 2 * q := by
  by_cases hSmall : q < 1 / 2
  · have hUpper := (roundHalfEven_bounds h).2
    have hLess : (roundHalfEven q : Rat) < 1 := by linarith
    have hZero : roundHalfEven q = 0 := Nat.lt_one_iff.1 (by exact_mod_cast hLess)
    rw [hZero, Nat.cast_zero]
    linarith
  · have hUpper := (roundHalfEven_bounds h).2
    linarith

theorem half_le_roundHalfEven {q : Rat} (h : 1 ≤ q) : q / 2 ≤ roundHalfEven q := by
  have hLower := (roundHalfEven_bounds (le_trans zero_le_one h)).1
  linarith

/-- A number that is not negative lies between its floor and the next integer. -/
theorem floor_spec {q : Rat} (h : 0 ≤ q) :
    (q.floor.toNat : Rat) ≤ q ∧ q < (q.floor.toNat : Rat) + 1 := by
  have hFloor : 0 ≤ q.floor := by
    rw [Rat.le_floor_iff]
    exact h
  have hCast : ((q.floor.toNat : Nat) : Rat) = q.floor := by
    rw [← Int.cast_natCast, Int.toNat_of_nonneg hFloor]
  have hLt := Rat.lt_floor_add_one q
  rw [Int.cast_add, Int.cast_one] at hLt
  rw [hCast]
  exact ⟨Rat.floor_le q, hLt⟩

theorem roundHalfUp_le {q : Rat} (h : 0 ≤ q) : (roundHalfUp q : Rat) ≤ q + 1 := by
  have hFloor := (floor_spec (show 0 ≤ q + 1 / 2 by linarith)).1
  show ((q + 1 / 2).floor.toNat : Rat) ≤ q + 1
  linarith

theorem roundHalfUp_of_abs_sub_lt {q : Rat} {n : Nat} (h : |q - n| < 1 / 2) :
    roundHalfUp q = n := by
  obtain ⟨hLower, hUpper⟩ := abs_lt.1 h
  have hNonneg : (0 : Rat) ≤ n := Nat.cast_nonneg n
  obtain ⟨hLe, hLt⟩ := floor_spec (show 0 ≤ q + 1 / 2 by linarith)
  have hBelow : ((q + 1 / 2).floor.toNat : Rat) < n + 1 := by linarith
  have hAbove : (n : Rat) < (q + 1 / 2).floor.toNat + 1 := by linarith
  exact Nat.le_antisymm (Nat.le_of_lt_succ (by exact_mod_cast hBelow))
    (Nat.le_of_lt_succ (by exact_mod_cast hAbove))

/-- Multiples of a number that are less than that number apart are equal. -/
theorem eq_of_abs_sub_lt {m n : Nat} {unit : Rat} (hUnit : 0 < unit)
    (h : |(m : Rat) * unit - n * unit| < unit) : m = n := by
  rw [← sub_mul, abs_mul, abs_of_pos hUnit] at h
  have hLess : |(m : Rat) - n| < 1 := lt_of_mul_lt_mul_right (by rwa [one_mul]) (le_of_lt hUnit)
  obtain ⟨hLower, hUpper⟩ := abs_lt.1 hLess
  have hAbove : (n : Rat) < m + 1 := by linarith
  have hBelow : (m : Rat) < n + 1 := by linarith
  exact Nat.le_antisymm (Nat.le_of_lt_succ (by exact_mod_cast hBelow))
    (Nat.le_of_lt_succ (by exact_mod_cast hAbove))

/-! ## The exponent of a number -/

theorem binaryExponent_spec {q : Rat} (h : 0 < q) :
    twoPow (binaryExponent q) ≤ q ∧ q < twoPow (binaryExponent q + 1) := by
  have hNum : q.num.toNat ≠ 0 := by
    have := Rat.num_pos.2 h
    omega
  have hDen : (0 : Rat) < q.den := by exact_mod_cast q.den_pos
  have hNumLower : twoPow q.num.toNat.log2 ≤ q.num.toNat := by
    rw [twoPow_natCast]
    exact_mod_cast Nat.log2_self_le hNum
  have hNumUpper : (q.num.toNat : Rat) < twoPow (q.num.toNat.log2 + 1) := by
    rw [← Nat.cast_succ, twoPow_natCast]
    exact_mod_cast Nat.lt_log2_self
  have hDenLower : twoPow q.den.log2 ≤ q.den := by
    rw [twoPow_natCast]
    exact_mod_cast Nat.log2_self_le q.den_nz
  have hDenUpper : (q.den : Rat) < twoPow (q.den.log2 + 1) := by
    rw [← Nat.cast_succ, twoPow_natCast]
    exact_mod_cast Nat.lt_log2_self
  have hProduct : q * q.den = q.num.toNat :=
    (eq_div_iff (ne_of_gt hDen)).1 (eq_div_of_nonneg (le_of_lt h))
  -- The lengths of numerator and denominator leave two candidates, and one comparison decides.
  have hUpper : q < twoPow ((q.num.toNat.log2 : Int) - q.den.log2 + 1) := by
    rw [show (q.num.toNat.log2 : Int) - q.den.log2 + 1 = q.num.toNat.log2 + 1 - q.den.log2 by omega,
      twoPow_sub, lt_div_iff₀ (twoPow_pos _)]
    calc q * twoPow q.den.log2 ≤ q * q.den := by gcongr
      _ = q.num.toNat := hProduct
      _ < twoPow (q.num.toNat.log2 + 1) := hNumUpper
  have hLower : twoPow ((q.num.toNat.log2 : Int) - q.den.log2 - 1) ≤ q := by
    rw [show (q.num.toNat.log2 : Int) - q.den.log2 - 1 = q.num.toNat.log2 - (q.den.log2 + 1) by omega,
      twoPow_sub, div_le_iff₀ (twoPow_pos _)]
    calc twoPow q.num.toNat.log2 ≤ q.num.toNat := hNumLower
      _ = q * q.den := hProduct.symm
      _ ≤ q * twoPow (q.den.log2 + 1) := by gcongr
  simp only [binaryExponent]
  by_cases hFits : twoPow ((q.num.toNat.log2 : Int) - q.den.log2) ≤ q
  · rw [if_pos hFits]
    exact ⟨hFits, hUpper⟩
  · rw [if_neg hFits, sub_add_cancel]
    exact ⟨hLower, not_le.1 hFits⟩

namespace Binary64

theorem leadingBit_eq : (leadingBit : Rat) = twoPow 52 := by
  rw [show (52 : Int) = (52 : Nat) from rfl, twoPow_natCast]
  norm_num [leadingBit]

theorem leadingBit_eq_pow : leadingBit = 2 ^ 52 := by decide

theorem twice_leadingBit_eq : ((2 * leadingBit : Nat) : Rat) = twoPow 53 := by
  rw [Nat.cast_mul, leadingBit_eq, Nat.cast_ofNat, two_mul_twoPow]
  rfl

theorem magnitude_nonneg (b : Binary64) : 0 ≤ b.magnitude :=
  mul_nonneg (Nat.cast_nonneg _) (le_of_lt (twoPow_pos _))

@[simp] theorem magnitude_zero (negative : Bool) : (zero negative).magnitude = 0 := by
  simp [magnitude, zero]

/-! ## The nearest double -/

/-- The exponent with which a number is rounded. -/
def roundingExponent (q : Rat) : Int := max (binaryExponent q - 52) (-1074)

/-- A number counted in the units in which it is rounded. -/
def scaled (q : Rat) : Rat := q / twoPow (roundingExponent q)

theorem scaled_nonneg {q : Rat} (h : 0 ≤ q) : 0 ≤ scaled q :=
  div_nonneg h (le_of_lt (twoPow_pos _))

theorem scaled_mul (q : Rat) : scaled q * twoPow (roundingExponent q) = q :=
  div_mul_cancel₀ q (ne_of_gt (twoPow_pos _))

theorem nearest?_eq {negative : Bool} {q : Rat} (h : q ≠ 0) :
    nearest? negative q =
      if roundHalfEven (scaled q) = 2 * leadingBit then
        ofParts? negative leadingBit (roundingExponent q + 1)
      else ofParts? negative (roundHalfEven (scaled q)) (roundingExponent q) := by
  rw [nearest?, if_neg h]
  rfl

/-- The magnitude of a nearest double is a rounded significand in its units. A significand that
reaches the next power of two is the same number with the next exponent. -/
theorem magnitude_of_nearest? {negative : Bool} {q : Rat} {b : Binary64} (hq : q ≠ 0)
    (h : nearest? negative q = some b) :
    b.magnitude = roundHalfEven (scaled q) * twoPow (roundingExponent q) := by
  rw [nearest?_eq hq] at h
  by_cases hCarry : roundHalfEven (scaled q) = 2 * leadingBit
  · rw [if_pos hCarry] at h
    obtain ⟨-, hSignificand, hExponent⟩ := ofParts?_eq_some_iff.1 h
    rw [magnitude, hSignificand, hExponent, hCarry, ← two_mul_twoPow, Nat.cast_mul]
    push_cast
    ring
  · rw [if_neg hCarry] at h
    obtain ⟨-, hSignificand, hExponent⟩ := ofParts?_eq_some_iff.1 h
    rw [magnitude, hSignificand, hExponent]

theorem magnitude_nearest?_le {negative : Bool} {q : Rat} {b : Binary64} (hq : 0 ≤ q)
    (h : nearest? negative q = some b) : b.magnitude ≤ 2 * q := by
  by_cases hZero : q = 0
  · rw [nearest?, if_pos hZero] at h
    cases h
    rw [magnitude_zero, hZero, mul_zero]
  · have hUnit := twoPow_pos (roundingExponent q)
    have hRound := roundHalfEven_le_double (scaled_nonneg hq)
    calc b.magnitude = roundHalfEven (scaled q) * twoPow (roundingExponent q) :=
          magnitude_of_nearest? hZero h
      _ ≤ 2 * scaled q * twoPow (roundingExponent q) := by gcongr
      _ = 2 * q := by rw [mul_assoc, scaled_mul]

theorem half_le_magnitude_nearest? {negative : Bool} {q : Rat} {b : Binary64} (hq : 1 ≤ q)
    (h : nearest? negative q = some b) : q / 2 ≤ b.magnitude := by
  have hPos : 0 < q := lt_of_lt_of_le zero_lt_one hq
  have hUnit := twoPow_pos (roundingExponent q)
  have hSpec := binaryExponent_spec hPos
  -- From one up the unit is no larger than the number.
  have hExponent : 0 < binaryExponent q + 1 := by
    by_contra hNot
    have hLe : twoPow (binaryExponent q + 1) ≤ twoPow 0 := twoPow_le_twoPow (not_lt.1 hNot)
    have hOne : twoPow 0 = 1 := zpow_zero 2
    linarith [hSpec.2]
  have hUnitLe : twoPow (roundingExponent q) ≤ q := by
    refine le_trans (twoPow_le_twoPow ?_) hSpec.1
    unfold roundingExponent
    omega
  have hScaled : 1 ≤ scaled q := (one_le_div hUnit).2 hUnitLe
  calc q / 2 = scaled q / 2 * twoPow (roundingExponent q) := by
        rw [div_mul_eq_mul_div, scaled_mul]
    _ ≤ roundHalfEven (scaled q) * twoPow (roundingExponent q) := by
        gcongr
        exact half_le_roundHalfEven hScaled
    _ = b.magnitude := (magnitude_of_nearest? (ne_of_gt hPos) h).symm

/-- A scaled number is below `2 ^ 53`, and from `2 ^ 52` up unless the smallest unit is used. -/
theorem scaled_bounds {q : Rat} (h : 0 < q) :
    scaled q ≤ (2 * leadingBit : Nat) ∧
      ((leadingBit : Rat) ≤ scaled q ∨ roundingExponent q = -1074) := by
  have hUnit := twoPow_pos (roundingExponent q)
  obtain ⟨hLower, hUpper⟩ := binaryExponent_spec h
  constructor
  · rw [scaled, div_le_iff₀ hUnit, twice_leadingBit_eq, ← twoPow_add]
    refine le_trans (le_of_lt hUpper) (twoPow_le_twoPow ?_)
    unfold roundingExponent
    omega
  · by_cases hSmall : binaryExponent q - 52 < -1074
    · exact .inr (max_eq_right (le_of_lt hSmall))
    · refine .inl ?_
      have hExponent : roundingExponent q = binaryExponent q - 52 := max_eq_left (not_lt.1 hSmall)
      rw [scaled, le_div_iff₀ hUnit, leadingBit_eq, ← twoPow_add, hExponent, add_sub_cancel]
      exact hLower

/-- A number that is not too large has a nearest double. -/
theorem exists_nearest? (negative : Bool) {q : Rat} (hNonneg : 0 ≤ q) (hLe : q ≤ twoPow 1000) :
    ∃ b, nearest? negative q = some b := by
  by_cases hZero : q = 0
  · exact ⟨zero negative, if_pos hZero⟩
  · have hPos : 0 < q := lt_of_le_of_ne hNonneg (Ne.symm hZero)
    obtain ⟨hUpper, hNormal⟩ := scaled_bounds hPos
    have hSignificand := roundHalfEven_le (scaled_nonneg hNonneg) hUpper
    have hExponent : binaryExponent q ≤ 1000 := by
      by_contra hNot
      have hLess : twoPow (1000 + 1) ≤ twoPow (binaryExponent q) :=
        twoPow_le_twoPow (not_le.1 hNot)
      have hTwo := two_mul_twoPow 1000
      have hThousand := twoPow_pos 1000
      linarith [(binaryExponent_spec hPos).1]
    have hRange : -1074 ≤ roundingExponent q ∧ roundingExponent q ≤ 948 := by
      unfold roundingExponent
      omega
    rw [nearest?_eq hZero]
    by_cases hCarry : roundHalfEven (scaled q) = 2 * leadingBit
    · rw [if_pos hCarry]
      exact ⟨_, dif_pos ⟨by decide, by omega, by omega, .inl (Nat.le_refl _)⟩⟩
    · rw [if_neg hCarry]
      have hKept : leadingBit ≤ roundHalfEven (scaled q) ∨ roundingExponent q = -1074 :=
        hNormal.imp le_roundHalfEven id
      exact ⟨_, dif_pos ⟨by omega, hRange.1, by omega, hKept⟩⟩

/-! ## Operations -/

theorem magnitude_mul?_le {a b c : Binary64} (h : a.mul? b = some c) :
    c.magnitude ≤ 2 * (a.magnitude * b.magnitude) :=
  magnitude_nearest?_le (mul_nonneg a.magnitude_nonneg b.magnitude_nonneg) h

theorem magnitude_div?_le {a b c : Binary64} (hb : 1 / 2 ≤ b.magnitude) (h : a.div? b = some c) :
    c.magnitude ≤ 4 * a.magnitude := by
  have hPos : 0 < b.magnitude := lt_of_lt_of_le (by norm_num) hb
  have hQuotient : a.magnitude / b.magnitude ≤ 2 * a.magnitude := by
    rw [div_le_iff₀ hPos]
    nlinarith [a.magnitude_nonneg]
  have hRounded := magnitude_nearest?_le (div_nonneg a.magnitude_nonneg (le_of_lt hPos)) h
  linarith

theorem magnitude_ofNat?_le {n : Nat} {b : Binary64} (h : ofNat? n = some b) :
    b.magnitude ≤ 2 * n := magnitude_nearest?_le (Nat.cast_nonneg n) h

theorem magnitude_tenPow?_bounds {k : Nat} {b : Binary64} (h : tenPow? k = some b) :
    1 / 2 ≤ b.magnitude ∧ b.magnitude ≤ 2 * tens k := by
  have hOne : (1 : Rat) ≤ tens k := by exact_mod_cast tens_pos k
  have hLower := half_le_magnitude_nearest? hOne h
  exact ⟨by linarith, magnitude_nearest?_le (Nat.cast_nonneg _) h⟩

end Binary64

namespace Decimal

open Binary64

theorem mantissaLimit_eq : (mantissaLimit : Rat) = 2 ^ 96 := by norm_num [mantissaLimit]

theorem magnitude_sumToBinary64?_le {whole b : Binary64} {part scale : Nat}
    (hWhole : whole.magnitude ≤ 2 ^ 97) (hPart : (part : Rat) ≤ 2 ^ 96) (hScale : scale ≤ maxScale)
    (h : sumToBinary64? whole part scale = some b) : b.magnitude ≤ 2 ^ 210 := by
  simp only [sumToBinary64?, Option.bind_eq_bind, Option.bind_eq_some_iff] at h
  obtain ⟨power, hPower, digits, hDigits, fraction, hFraction, sum, hSum, shifted, hShifted, rounded,
    hRounded, hQuotient⟩ := h
  obtain ⟨hPowerLower, hPowerUpper⟩ := magnitude_tenPow?_bounds hPower
  have hTens : (tens scale : Rat) ≤ 2 ^ 96 := by
    have hLe : tens scale ≤ tens maxScale := Nat.pow_le_pow_right (by decide) hScale
    calc (tens scale : Rat) ≤ tens maxScale := by exact_mod_cast hLe
      _ ≤ 2 ^ 96 := by norm_num [tens, maxScale]
  have hFractionLe : fraction.magnitude ≤ 2 ^ 99 := by
    have h₁ := magnitude_ofNat?_le hDigits
    have h₂ := magnitude_div?_le hPowerLower hFraction
    linarith
  have hSumLe : sum.magnitude ≤ 2 ^ 101 := by
    have h₁ := magnitude_nearest?_le (add_nonneg whole.magnitude_nonneg fraction.magnitude_nonneg) hSum
    linarith
  have hShiftedLe : shifted.magnitude ≤ 2 ^ 199 := by
    calc shifted.magnitude ≤ 2 * (sum.magnitude * power.magnitude) := magnitude_mul?_le hShifted
      _ ≤ 2 * (2 ^ 101 * (2 * 2 ^ 96)) := by
          have := sum.magnitude_nonneg
          have := power.magnitude_nonneg
          gcongr
          linarith
      _ = 2 ^ 199 := by norm_num
  have hRoundedLe : rounded.magnitude ≤ 2 ^ 201 := by
    have h₁ := magnitude_ofNat?_le hRounded
    have h₂ := roundHalfUp_le shifted.magnitude_nonneg
    linarith
  have hQuotientLe := magnitude_div?_le hPowerLower hQuotient
  linarith

/-- The double of a decimal is far from the largest one. -/
theorem magnitude_toBinary64?_le {d : Decimal} {b : Binary64} (h : d.toBinary64? = some b) :
    b.magnitude ≤ 2 ^ 210 := by
  obtain ⟨whole, hWhole, hSize⟩ := Option.bind_eq_some_iff.1 h
  have hMantissa : (d.mantissa : Rat) ≤ 2 ^ 96 := by
    rw [← mantissaLimit_eq]
    exact_mod_cast Nat.le_of_lt d.mantissa_lt
  have hWholeLe : whole.magnitude ≤ 2 ^ 97 := by
    have h₁ := magnitude_ofNat?_le hWhole
    have h₂ : ((d.mantissa / tens d.scale : Nat) : Rat) ≤ d.mantissa := by
      exact_mod_cast Nat.div_le_self _ _
    linarith
  by_cases hIsWhole : d.isWhole = true
  · rw [if_pos hIsWhole] at hSize
    cases hSize
    show whole.magnitude ≤ 2 ^ 210
    linarith
  · rw [if_neg hIsWhole] at hSize
    obtain ⟨size, hSum, hSign⟩ := Option.bind_eq_some_iff.1 hSize
    cases hSign
    have hPart : ((d.mantissa % tens d.scale : Nat) : Rat) ≤ d.mantissa := by
      exact_mod_cast Nat.mod_le _ _
    show size.magnitude ≤ 2 ^ 210
    exact magnitude_sumToBinary64?_le hWholeLe (le_trans hPart hMantissa) d.scale_le hSum

end Decimal

end RecordStore
