import RecordStore.Number.Binary64.Shortest
import RecordStore.Proofs.Rounding

/-!
# How large shortest digits are

The digits written for a double stand for a number that the double covers, so they cannot be larger
than twice the double, and they are zero only where the double is zero or rounds to it. From this
follows where the point of the digits can stand (`place_shortest_le`).

## Main results

- `value_shortest_le`: digits stand for no more than twice the double.
- `place_shortest_le`: a double up to `2 ^ 210` has its point among the first 64 places.
-/

namespace RecordStore

/-! ## The number of digits -/

theorem tenPow_length_le {n : Nat} (h : n ≠ 0) : tenPow ((Nat.toDigits 10 n).length - 1) ≤ n := by
  have hPos : 0 < (Nat.toDigits 10 n).length := Nat.length_toDigits_pos
  have hLe : tens ((Nat.toDigits 10 n).length - 1) ≤ n := by
    by_cases hOne : (Nat.toDigits 10 n).length = 1
    · rw [hOne]
      exact Nat.one_le_iff_ne_zero.2 h
    · have hNot : ¬ (Nat.toDigits 10 n).length ≤ (Nat.toDigits 10 n).length - 1 := by omega
      rw [Nat.length_toDigits_le_iff (by decide) (by omega)] at hNot
      exact Nat.not_lt.1 hNot
  have hLength :
      ((Nat.toDigits 10 n).length : Int) - 1 = ((Nat.toDigits 10 n).length - 1 : Nat) := by
    omega
  rw [hLength, tenPow_natCast]
  exact_mod_cast hLe

theorem lt_tenPow_length (n : Nat) : (n : Rat) < tenPow (Nat.toDigits 10 n).length := by
  have hLess : n < tens (Nat.toDigits 10 n).length :=
    (Nat.length_toDigits_le_iff (by decide) Nat.length_toDigits_pos).1 (Nat.le_refl _)
  rw [tenPow_natCast]
  exact_mod_cast hLess

theorem decimalExponent_spec {q : Rat} (h : 0 < q) :
    tenPow (decimalExponent q - 1) ≤ q ∧ q < tenPow (decimalExponent q) := by
  have hNum : q.num.toNat ≠ 0 := by
    have := Rat.num_pos.2 h
    omega
  have hDen : (0 : Rat) < q.den := by exact_mod_cast q.den_pos
  have hProduct : q * q.den = q.num.toNat :=
    (eq_div_iff (ne_of_gt hDen)).1 (eq_div_of_nonneg (le_of_lt h))
  have hNumLower := tenPow_length_le hNum
  have hNumUpper := lt_tenPow_length q.num.toNat
  have hDenLower := tenPow_length_le q.den_nz
  have hDenUpper := lt_tenPow_length q.den
  unfold decimalExponent
  simp only
  generalize ((Nat.toDigits 10 q.num.toNat).length : Int) = top at *
  generalize ((Nat.toDigits 10 q.den).length : Int) = bottom at *
  -- The lengths of numerator and denominator leave two candidates, and one comparison decides.
  have hUpper : q < tenPow (top - bottom + 1) := by
    refine lt_of_mul_lt_mul_right ?_ (le_of_lt (tenPow_pos (bottom - 1)))
    calc q * tenPow (bottom - 1) ≤ q * q.den := by gcongr
      _ = q.num.toNat := hProduct
      _ < tenPow top := hNumUpper
      _ = tenPow (top - bottom + 1) * tenPow (bottom - 1) := by
          rw [← tenPow_add]
          congr 1
          omega
  have hLower : tenPow (top - bottom - 1) ≤ q := by
    refine le_of_mul_le_mul_right ?_ (tenPow_pos bottom)
    calc tenPow (top - bottom - 1) * tenPow bottom = tenPow (top - 1) := by
          rw [← tenPow_add]
          congr 1
          omega
      _ ≤ q.num.toNat := hNumLower
      _ = q * q.den := hProduct.symm
      _ ≤ q * tenPow bottom := by gcongr
  by_cases hFits : tenPow (top - bottom) ≤ q
  · rw [if_pos hFits, add_sub_cancel_right]
    exact ⟨hFits, hUpper⟩
  · rw [if_neg hFits]
    exact ⟨hLower, not_le.1 hFits⟩

namespace Digits

theorem value_withoutZeros (fuel : Nat) (d : Digits) : (d.withoutZeros fuel).value = d.value := by
  induction fuel generalizing d with
  | zero => rfl
  | succ fuel ih =>
    unfold withoutZeros
    by_cases h : d.digits ≠ 0 ∧ d.digits % 10 = 0
    · have hTen : d.digits = d.digits / 10 * 10 := by omega
      have hStep : tenPow (d.exponent + 1) = 10 * tenPow d.exponent := by
        rw [tenPow_add, mul_comm]
        exact congrArg (· * tenPow d.exponent) (zpow_one 10)
      rw [if_pos h, ih]
      show ((d.digits / 10 : Nat) : Rat) * tenPow (d.exponent + 1) = d.digits * tenPow d.exponent
      conv_rhs => rw [hTen]
      rw [hStep, Nat.cast_mul, mul_assoc]
      rfl
    · rw [if_neg h]

/-- A number whose last digit stands at a power of ten is at least its first digit's power. -/
theorem tenPow_le_value {d : Digits} (h : d.digits ≠ 0) :
    tenPow ((Nat.toDigits 10 d.digits).length - 1 + d.exponent) ≤ d.value := by
  have hLe : (tenPow ((Nat.toDigits 10 d.digits).length - 1) : Rat) ≤ d.digits := tenPow_length_le h
  rw [tenPow_add]
  exact mul_le_mul_of_nonneg_right hLe (le_of_lt (tenPow_pos d.exponent))

end Digits

namespace Binary64

theorem le_of_covers {b : Binary64} {q : Rat} (h : b.covers q = true) :
    b.lowerEnd ≤ q ∧ q ≤ b.upperEnd := by
  unfold covers at h
  by_cases hEven : b.significand % 2 = 0
  · rw [if_pos hEven, Bool.and_eq_true, decide_eq_true_eq, decide_eq_true_eq] at h
    exact h
  · rw [if_neg hEven, Bool.and_eq_true, decide_eq_true_eq, decide_eq_true_eq] at h
    exact ⟨le_of_lt h.1, le_of_lt h.2⟩

theorem covers_of_withDigits? {b : Binary64} {count : Nat} {d : Digits}
    (h : b.withDigits? count = some d) : b.covers d.value = true := by
  obtain ⟨n, hFind, hDigits⟩ := Option.map_eq_some_iff.1 h
  have hCovers := List.find?_some hFind
  subst hDigits
  exact hCovers

theorem lowerEnd_pos {b : Binary64} (h : b.significand ≠ 0) : 0 < b.lowerEnd := by
  have hOne : (1 : Rat) ≤ b.significand := by exact_mod_cast Nat.one_le_iff_ne_zero.2 h
  have hUnit := twoPow_pos b.exponent
  unfold lowerEnd
  by_cases hStep : b.significand = leadingBit ∧ -1074 < b.exponent
  · simp only [if_pos hStep]
    exact mul_pos (by linarith) hUnit
  · simp only [if_neg hStep]
    exact mul_pos (by linarith) hUnit

theorem upperEnd_le {b : Binary64} (h : b.significand ≠ 0) : b.upperEnd ≤ 2 * b.magnitude := by
  have hOne : (1 : Rat) ≤ b.significand := by exact_mod_cast Nat.one_le_iff_ne_zero.2 h
  have hUnit := twoPow_pos b.exponent
  calc b.upperEnd = (b.significand + 1 / 2) * twoPow b.exponent := rfl
    _ ≤ 2 * b.significand * twoPow b.exponent := by
        gcongr
        linarith
    _ = 2 * b.magnitude := mul_assoc _ _ _

/-- Shortest digits are covered digits without their zeros, or a rounded integer. -/
theorem shortest_cases (b : Binary64) :
    (b.significand ≠ 0 ∧ ∃ d : Digits, b.covers d.value = true ∧ b.shortest = d.withoutZeros 20) ∨
      b.shortest = ⟨roundHalfEven b.magnitude, 0⟩ := by
  unfold shortest
  by_cases hZero : b.significand = 0
  · have hRound : roundHalfEven 0 = 0 := rfl
    rw [if_pos hZero, magnitude, hZero, Nat.cast_zero, zero_mul, hRound]
    exact .inr rfl
  · rw [if_neg hZero]
    split
    · next d hFound =>
      obtain ⟨count, -, hCount⟩ := List.exists_of_findSome?_eq_some hFound
      exact .inl ⟨hZero, d, covers_of_withDigits? hCount, rfl⟩
    · exact .inr rfl

theorem value_shortest_le (b : Binary64) : b.shortest.value ≤ 2 * b.magnitude := by
  rcases b.shortest_cases with ⟨hZero, d, hCovers, hShortest⟩ | hShortest
  · rw [hShortest, Digits.value_withoutZeros]
    exact le_trans (le_of_covers hCovers).2 (upperEnd_le hZero)
  · have hOne : tenPow 0 = 1 := zpow_zero 10
    rw [hShortest, Digits.value, hOne, mul_one]
    exact roundHalfEven_le_double b.magnitude_nonneg

/-- No digits but a plain zero are zero. -/
theorem exponent_shortest_of_zero {b : Binary64} (h : b.shortest.digits = 0) :
    b.shortest.exponent = 0 := by
  rcases b.shortest_cases with ⟨hZero, d, hCovers, hShortest⟩ | hShortest
  · have hValue : b.shortest.value = d.value := by rw [hShortest, Digits.value_withoutZeros]
    have hPos : 0 < d.value := lt_of_lt_of_le (lowerEnd_pos hZero) (le_of_covers hCovers).1
    rw [← hValue, Digits.value, h, Nat.cast_zero, zero_mul] at hPos
    exact absurd hPos (lt_irrefl 0)
  · rw [hShortest]

theorem place_shortest_le {b : Binary64} (h : b.magnitude ≤ 2 ^ 210) :
    (Nat.toDigits 10 b.shortest.digits).length + b.shortest.exponent ≤ 64 := by
  by_cases hZero : b.shortest.digits = 0
  · rw [exponent_shortest_of_zero hZero, hZero]
    decide
  · by_contra hNot
    have hPlace : 64 ≤ ((Nat.toDigits 10 b.shortest.digits).length : Int) - 1 +
        b.shortest.exponent := by omega
    have hLower : tenPow 64 ≤ b.shortest.value :=
      le_trans (tenPow_le_tenPow hPlace) (Digits.tenPow_le_value hZero)
    have hTens : tenPow 64 = (tens 64 : Nat) := tenPow_natCast 64
    have hLarge : (2 : Rat) ^ 211 < (tens 64 : Nat) := by norm_num [tens]
    have hUpper := b.value_shortest_le
    rw [hTens] at hLower
    linarith

end Binary64

end RecordStore
