import RecordStore.Proofs.NearestDouble

/-!
# The double of a short decimal

A decimal is converted to a double in two parts that are added, and the sum is rounded again at the
scale of the decimal. Each of the operations may be off by one part in `2 ^ 53`. For a mantissa of
49 bits all of them together are off by less than half of the last digit, so the rounding at the end
finds the mantissa again, and the double is the one nearest to the decimal.

## Main results

- `sumToBinary64?_eq`: what is found by adding up is the nearest double.
- `toBinary64?_of_fits`: so is the double of any decimal with a short mantissa.
-/

namespace RecordStore.Decimal

open Binary64

/-- The value without its sign. -/
def magnitude (d : Decimal) : Rat := d.mantissa / tens d.scale

theorem magnitude_nonneg (d : Decimal) : 0 ≤ d.magnitude :=
  div_nonneg (Nat.cast_nonneg _) (Nat.cast_nonneg _)

theorem magnitude_mul_tens (d : Decimal) : d.magnitude * tens d.scale = d.mantissa := by
  have hTens : (0 : Rat) < tens d.scale := by exact_mod_cast tens_pos d.scale
  exact div_mul_cancel₀ _ (ne_of_gt hTens)

theorem magnitude_of_isWhole {d : Decimal} (h : d.isWhole = true) :
    d.magnitude = (d.mantissa / tens d.scale : Nat) := by
  have hTens : (0 : Rat) < tens d.scale := by exact_mod_cast tens_pos d.scale
  have hSplit := Nat.div_add_mod' d.mantissa (tens d.scale)
  rw [show d.mantissa % tens d.scale = 0 from beq_iff_eq.1 h, Nat.add_zero] at hSplit
  rw [magnitude, div_eq_iff (ne_of_gt hTens)]
  exact_mod_cast hSplit.symm

/-- Short enough for the digits of a double: a mantissa of 49 bits and at most 15 digits behind the
point. -/
structure Fits (d : Decimal) : Prop where
  mantissa_lt : d.mantissa < 2 ^ 49
  scale_le : d.scale ≤ 15

theorem Fits.cast_lt {d : Decimal} (h : d.Fits) : (d.mantissa : Rat) < 2 ^ 49 := by
  exact_mod_cast h.mantissa_lt

theorem magnitude_le (d : Decimal) : d.magnitude ≤ d.mantissa := by
  have hTens : (1 : Rat) ≤ tens d.scale := by exact_mod_cast tens_pos d.scale
  exact div_le_self (Nat.cast_nonneg _) hTens

theorem Fits.magnitude_lt {d : Decimal} (h : d.Fits) : d.magnitude < 2 ^ 49 :=
  lt_of_le_of_lt d.magnitude_le h.cast_lt

theorem Fits.le_magnitude {d : Decimal} (h : d.Fits) (hPos : 0 < d.mantissa) :
    1 / 10 ^ 15 ≤ d.magnitude := le_div_tens hPos h.scale_le

theorem Fits.normal {d : Decimal} (h : d.Fits) (hPos : 0 < d.mantissa) :
    twoPow (-1022) ≤ d.magnitude := twoPow_min_le_div_tens hPos h.scale_le

/-- Three rounded operations on a number below `2 ^ 49`: the fraction, its sum with the whole part
and the shift to an integer. -/
theorem abs_sub_lt_half {whole part fraction sum shifted : Rat} (hWhole : 0 ≤ whole)
    (hSize : whole + part < 2 ^ 49) (hFraction : |fraction - part| ≤ part / 2 ^ 53)
    (hSum : |sum - (whole + fraction)| ≤ (whole + fraction) / 2 ^ 53)
    (hShifted : |shifted - sum| ≤ sum / 2 ^ 53) : |shifted - (whole + part)| < 1 / 2 := by
  rw [abs_le] at hFraction hSum hShifted
  rw [abs_lt]
  constructor <;> linarith

theorem abs_mul_sub_mul_le {x y z c t : Rat} (ht : 0 ≤ t) (h : |x - y| ≤ z / c) :
    |x * t - y * t| ≤ z * t / c := by
  rw [← sub_mul, abs_mul, abs_of_nonneg ht, mul_div_right_comm]
  exact mul_le_mul_of_nonneg_right h ht

theorem sumToBinary64?_eq {whole : Binary64} {n part scale : Nat} (hWhole : whole.magnitude = n)
    (hPos : 0 < part) (hPart : part < tens scale) (hFits : n * tens scale + part < 2 ^ 49)
    (hScale : scale ≤ 15) :
    sumToBinary64? whole part scale =
      nearest? false ((n * tens scale + part : Nat) / tens scale) := by
  have hTensLe : tens scale ≤ 10 ^ 15 := tens_le_tens hScale
  have hBit := leadingBit_eq_pow
  obtain ⟨power, hPower, hPowerSize, hPowerSign⟩ :=
    exists_nearest?_natCast false (show tens scale < 2 * leadingBit by omega)
  obtain ⟨digits, hDigits, hDigitsSize, hDigitsSign⟩ :=
    exists_nearest?_natCast false (show part < 2 * leadingBit by omega)
  obtain ⟨rounded, hRounded, hRoundedSize, hRoundedSign⟩ :=
    exists_nearest?_natCast false (show n * tens scale + part < 2 * leadingBit by omega)
  have hTensPos : (0 : Rat) < tens scale := by exact_mod_cast tens_pos scale
  have hTens : (tens scale : Rat) ≤ 10 ^ 15 := by exact_mod_cast hTensLe
  have hOne : (1 : Rat) ≤ tens scale := by exact_mod_cast tens_pos scale
  have hPartOne : (1 : Rat) ≤ part := by exact_mod_cast hPos
  have hPartLess : (part : Rat) < tens scale := by exact_mod_cast hPart
  have hMantissa : (n : Rat) * tens scale + part < 2 ^ 49 := by exact_mod_cast hFits
  have hWholeNonneg : (0 : Rat) ≤ n := Nat.cast_nonneg n
  have hWholeLe : (n : Rat) ≤ n * tens scale := le_mul_of_one_le_right hWholeNonneg hOne
  have hShare : (1 : Rat) / 10 ^ 15 ≤ part / tens scale := le_div_tens hPos hScale
  have hShareLess : (part : Rat) / tens scale < 1 := (div_lt_one hTensPos).2 hPartLess
  -- The fraction, then the sum, then its shift, each with the double it has.
  obtain ⟨fraction, hFraction, hFractionSign, hFractionNear⟩ :=
    exists_close false (q := part / tens scale) (by linarith) (by linarith)
  obtain ⟨hFractionLower, hFractionUpper⟩ := abs_le.1 hFractionNear
  obtain ⟨sum, hSum, hSumSign, hSumNear⟩ :=
    exists_close false (q := n + fraction.magnitude) (by linarith) (by linarith)
  obtain ⟨hSumLower, hSumUpper⟩ := abs_le.1 hSumNear
  have hSumLe : sum.magnitude ≤ sum.magnitude * tens scale :=
    le_mul_of_one_le_right sum.magnitude_nonneg hOne
  have hShiftedLe : sum.magnitude * tens scale ≤ 2 ^ 50 * 10 ^ 15 :=
    mul_le_mul (by linarith) hTens (by linarith) (by norm_num)
  obtain ⟨shifted, hShifted, -, hShiftedNear⟩ :=
    exists_close false (q := sum.magnitude * tens scale) (by linarith) (by linarith)
  have hTotal : (n : Rat) * tens scale + part / tens scale * tens scale =
      (n * tens scale + part : Nat) := by
    rw [div_mul_cancel₀ _ (ne_of_gt hTensPos)]
    push_cast
    rfl
  have hNear : |shifted.magnitude - (n * tens scale + part : Nat)| < 1 / 2 := by
    have hPartNear := abs_mul_sub_mul_le (le_of_lt hTensPos) hFractionNear
    have hSumNear := abs_mul_sub_mul_le (le_of_lt hTensPos) hSumNear
    rw [add_mul] at hSumNear
    rw [← hTotal]
    refine abs_sub_lt_half ?_ ?_ hPartNear hSumNear hShiftedNear
    · exact mul_nonneg hWholeNonneg (le_of_lt hTensPos)
    · rw [hTotal]
      exact_mod_cast hFits
  have hQuotient : rounded.div? power =
      nearest? false ((n * tens scale + part : Nat) / tens scale) := by
    rw [div?, hRoundedSign, hPowerSign, hRoundedSize, hPowerSize]
    rfl
  have hFractionEq : digits.div? power = some fraction := by
    rw [div?, hDigitsSign, hPowerSign, hDigitsSize, hPowerSize]
    exact hFraction
  have hShiftedEq : sum.mul? power = some shifted := by
    rw [mul?, hSumSign, hPowerSign, hPowerSize]
    exact hShifted
  simp only [sumToBinary64?, tenPow?, Binary64.ofNat?, hPower, hDigits, Option.bind_eq_bind,
    Option.bind_some, hFractionEq, hWhole, hSum, hShiftedEq, roundHalfUp_of_abs_sub_lt hNear, hRounded,
    hQuotient]

/-- The sign that the double of a decimal has. -/
def doubleSign (d : Decimal) : Bool := d.negative && (d.mantissa != 0 || d.scale != 0)

theorem toBinary64?_of_fits {d : Decimal} (h : d.Fits) :
    d.toBinary64? = nearest? d.doubleSign d.magnitude := by
  have hBit := leadingBit_eq_pow
  have hMantissa := h.mantissa_lt
  have hDivLe : d.mantissa / tens d.scale ≤ d.mantissa := Nat.div_le_self _ _
  have hSplit := Nat.div_add_mod' d.mantissa (tens d.scale)
  obtain ⟨whole, hWhole, hWholeSize, -⟩ :=
    exists_nearest?_natCast false (show d.mantissa / tens d.scale < 2 * leadingBit by omega)
  rw [nearest?_withSign]
  by_cases hIsWhole : d.isWhole = true
  · rw [magnitude_of_isWhole hIsWhole, hWhole]
    simp only [toBinary64?, Binary64.ofNat?, hWhole, if_pos hIsWhole, Option.bind_eq_bind,
      Option.bind_some]
    rfl
  · have hPart : d.mantissa % tens d.scale ≠ 0 := fun hZero => hIsWhole (beq_iff_eq.2 hZero)
    have hSum := sumToBinary64?_eq hWholeSize (Nat.pos_of_ne_zero hPart)
      (Nat.mod_lt _ (tens_pos d.scale)) (by rw [hSplit]; exact hMantissa) h.scale_le
    rw [hSplit] at hSum
    simp only [toBinary64?, Binary64.ofNat?, hWhole, if_neg hIsWhole, Option.bind_eq_bind,
      Option.bind_some, hSum, magnitude]
    cases nearest? false ((d.mantissa : Rat) / tens d.scale) <;> rfl

end RecordStore.Decimal
