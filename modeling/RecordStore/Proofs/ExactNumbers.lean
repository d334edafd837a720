import RecordStore.Proofs.ExactDigits
import RecordStore.Proofs.JsonNumbers

/-!
# Short numbers are read back exactly

A number is read by rounding its digits to a double and scaling that by a rounded power of ten, so
its last bit may be wrong. With digits of 53 bits and a power up to `10 ^ 15` neither of the two is
rounded, and the one rounding that is left gives the nearest double. So what is written for the double
of a short number is read as that double again.

## Main results

- `value?_of_fits`: the value of a number with digits of 64 bits.
- `scaledDouble?_of_fits`: few digits and a small power of ten are rounded once.
- `value?_doubleText_of_nearest?`: the double of a short number is written and read as itself.
-/

namespace RecordStore.Json

open Binary64

/-- Whole part and fraction of a number, as one number without a point. -/
def NumberText.digits (t : NumberText) : Nat :=
  Nat.ofDigitChars 10 (t.whole ++ t.fraction.getD []) 0

/-- The power of ten that the last digit of a number stands for. -/
def NumberText.place (t : NumberText) : Int := t.exponent.getD 0 - (t.fraction.getD []).length

theorem value?_of_fits {t : NumberText} {negative : Bool}
    (hParts : (t.fraction.isNone && t.exponent.isNone) = false)
    (hFits : t.digits ≤ significandMax) :
    t.value? negative = (scaledDouble? negative t.digits t.place).map .double := by
  unfold NumberText.digits at hFits
  rw [Nat.ofDigitChars_append] at hFits
  have hWhole := gather_of_fits (Nat.le_trans (Decimal.le_ofDigitChars _ _) hFits)
  have hFraction := gather_of_fits hFits
  have hPlace : (([] : List Char).length : Int) -
      ((t.fraction.getD []).length - ([] : List Char).length) + t.exponent.getD 0 = t.place := by
    unfold NumberText.place
    rw [List.length_nil]
    omega
  simp only [NumberText.value?, hWhole, hFraction, hParts, Bool.false_and, Bool.false_eq_true,
    if_false, hPlace, NumberText.digits, Nat.ofDigitChars_append]

/-! ## One rounding -/

theorem scaledDouble?_of_fits (negative : Bool) {n : Nat} {place : Int} (hn : n < 2 * leadingBit)
    (hLower : -15 ≤ place) (hUpper : place ≤ 15) :
    scaledDouble? negative n place = nearest? negative (n * tenPow place) := by
  have hTensLe : tens place.natAbs ≤ tens 15 := tens_le_tens (by omega)
  have hBit : tens 15 < 2 * leadingBit := by decide
  obtain ⟨digits, hDigits, hDigitsSize, hDigitsSign⟩ := exists_nearest?_natCast negative hn
  obtain ⟨power, hPower, hPowerSize, hPowerSign⟩ :=
    exists_nearest?_natCast false (show tens place.natAbs < 2 * leadingBit by omega)
  unfold scaledDouble?
  rw [hDigits]
  by_cases hNegative : place < 0
  · have hShare : (n : Rat) / tens place.natAbs = n * tenPow place := by
      have hPlace : -(place.natAbs : Int) = place := by omega
      rw [div_tens_eq, hPlace]
    have hQuotient : digits.div? power = nearest? negative (n * tenPow place) := by
      rw [div?, hDigitsSign, hPowerSign, hDigitsSize, hPowerSize, hShare, Bool.bne_false]
    obtain ⟨b, hb⟩ : ∃ b, nearest? negative (n * tenPow place) = some b := by
      have hPow : tenPow place ≤ 1 :=
        le_trans (tenPow_le_tenPow (le_of_lt hNegative)) (le_of_eq (zpow_zero 10))
      have hLe : (n : Rat) * tenPow place ≤ n := mul_le_of_le_one_right (Nat.cast_nonneg n) hPow
      have hNonneg := mul_nonneg (Nat.cast_nonneg n) (le_of_lt (tenPow_pos place))
      exact exists_nearest? negative hNonneg (le_trans hLe (natCast_le_twoPow hn))
    have hDivided : divideTens digits place.natAbs = b := by
      rw [divideTens]
      simp only [if_pos (show place.natAbs ≤ 308 by omega), tenPow?, hPower, Option.bind_some,
        hQuotient, hb, Option.getD_some]
    show (if place < 0 then some (divideTens digits place.natAbs) else _) = _
    rw [if_pos hNegative, hDivided, hb]
  · have hProduct : digits.mul? power = nearest? negative (n * tenPow place) := by
      have hPlace : (place.natAbs : Int) = place := by omega
      rw [mul?, hDigitsSign, hPowerSign, hDigitsSize, hPowerSize, Bool.bne_false, ← tenPow_natCast,
        hPlace]
    show (if place < 0 then _ else
      if place ≤ 308 then (tenPow? place.natAbs).bind digits.mul? else _) = _
    rw [if_neg hNegative, if_pos (by omega), tenPow?, hPower]
    exact hProduct

/-! ## Short numbers -/

theorem ofDigitChars_zeros (k n : Nat) :
    Nat.ofDigitChars 10 (List.replicate k '0') n = n * tens k := by
  rw [Nat.ofDigitChars_replicate_zero, Nat.mul_comm]
  rfl

/-- Read as one number, positional digits have the value of the digits: behind a whole number one
zero more is written. -/
theorem digits_positionalText (n : Nat) (exponent : Int) :
    let t := positionalText (Nat.toDigits 10 n) ((Nat.toDigits 10 n).length + exponent)
    (t.digits = n ∧ t.place = exponent) ∨
      (0 ≤ exponent ∧ t.digits = n * tens (exponent.toNat + 1) ∧ t.place = -1) := by
  have hPos : 0 < (Nat.toDigits 10 n).length := Nat.length_toDigits_pos
  have hBack : Nat.ofDigitChars 10 (Nat.toDigits 10 n) 0 = n := Nat.ofDigitChars_ten_toDigits
  generalize Nat.toDigits 10 n = shown at *
  unfold positionalText NumberText.digits NumberText.place
  by_cases hFront : (shown.length : Int) + exponent ≤ 0
  · left
    simp only [if_pos hFront, Option.getD_some, Option.getD_none, List.length_append,
      List.length_replicate]
    refine ⟨?_, by omega⟩
    rw [← List.append_assoc, Nat.ofDigitChars_append, Nat.ofDigitChars_append, ofDigitChars_zeros]
    show Nat.ofDigitChars 10 shown (0 * tens _) = n
    rw [Nat.zero_mul, hBack]
  · by_cases hWhole : shown.length ≤ ((shown.length : Int) + exponent).toNat
    · right
      simp only [if_neg hFront, if_pos hWhole, Option.getD_some, Option.getD_none]
      refine ⟨by omega, ?_, rfl⟩
      have hZeros : ((shown.length : Int) + exponent).toNat - shown.length = exponent.toNat := by
        omega
      rw [hZeros, List.append_assoc, ← List.replicate_succ', Nat.ofDigitChars_append, hBack,
        ofDigitChars_zeros]
    · left
      simp only [if_neg hFront, if_neg hWhole, Option.getD_some, Option.getD_none,
        List.take_append_drop, List.length_drop]
      exact ⟨hBack, by omega⟩

theorem digits_exponentialText (n : Nat) (exponent : Int) :
    let t := exponentialText (Nat.toDigits 10 n) ((Nat.toDigits 10 n).length + exponent)
    t.digits = n ∧ t.place = exponent := by
  have hPos : 0 < (Nat.toDigits 10 n).length := Nat.length_toDigits_pos
  have hBack : Nat.ofDigitChars 10 (Nat.toDigits 10 n) 0 = n := Nat.ofDigitChars_ten_toDigits
  generalize Nat.toDigits 10 n = shown at *
  have hFraction :
      (if shown.length ≤ 1 then none else some (shown.drop 1)).getD [] = shown.drop 1 := by
    split
    · rw [Option.getD_none, List.drop_eq_nil_of_le (by omega)]
    · rfl
  simp only [exponentialText, NumberText.digits, NumberText.place, hFraction, Option.getD_some,
    List.take_append_drop, List.length_drop]
  exact ⟨hBack, by omega⟩

/-- What is written for a double is no integer. -/
theorem isNone_doubleText (b : Binary64) :
    ((doubleText b).fraction.isNone && (doubleText b).exponent.isNone) = false := by
  simp only [doubleText]
  split
  · unfold positionalText
    split
    · rfl
    · split <;> rfl
  · exact Bool.and_false _

/-- Read as one number, what is written for a double has the value of its digits. -/
theorem digits_doubleText (b : Binary64) :
    ((doubleText b).digits = b.shortest.digits ∧ (doubleText b).place = b.shortest.exponent) ∨
      (0 ≤ b.shortest.exponent ∧
        (doubleText b).digits = b.shortest.digits * tens (b.shortest.exponent.toNat + 1) ∧
        (doubleText b).place = -1) := by
  simp only [doubleText]
  split
  · exact digits_positionalText b.shortest.digits b.shortest.exponent
  · exact .inl (digits_exponentialText b.shortest.digits b.shortest.exponent)

/-- A number of 53 bits and a small power of ten is read as the double nearest to it. -/
theorem value?_of_nearest? {t : NumberText} {negative : Bool} {b : Binary64}
    (hParts : (t.fraction.isNone && t.exponent.isNone) = false)
    (hDigits : t.digits < 2 * leadingBit) (hLower : -15 ≤ t.place) (hUpper : t.place ≤ 15)
    (h : nearest? negative (t.digits * tenPow t.place) = some b) :
    t.value? negative = some (.double b) := by
  have hFits : t.digits ≤ significandMax := Nat.le_trans (Nat.le_of_lt hDigits) (by decide)
  rw [value?_of_fits hParts hFits, scaledDouble?_of_fits negative hDigits hLower hUpper, h]
  rfl

/-- What is written for the double nearest to a short number is read as that double. -/
theorem value?_doubleText_of_nearest? {negative : Bool} {m scale : Nat} {b : Binary64}
    (hPos : 0 < m) (hLess : m < 2 ^ 49) (hScale : scale ≤ 15)
    (h : nearest? negative ((m : Rat) / tens scale) = some b) :
    (doubleText b).value? negative = some (.double b) := by
  obtain ⟨hValue, hDigits, hLower, hUpper⟩ :=
    shortest_of_nearest? hPos (Nat.lt_of_lt_of_le hLess (by decide)) hScale h
  rcases digits_doubleText b with ⟨hRead, hPlace⟩ | ⟨hNonneg, hRead, hPlace⟩
  · refine value?_of_nearest? (isNone_doubleText b) (by omega) (by omega) (by omega) ?_
    rw [hRead, hPlace]
    rwa [← hValue] at h
  · -- The number is whole, so its digits with one more zero still have 53 bits.
    have hWhole :
        b.shortest.value = (b.shortest.digits * tens b.shortest.exponent.toNat : Nat) := by
      rw [Digits.value, Nat.cast_mul, ← tenPow_natCast, Int.toNat_of_nonneg hNonneg]
    have hLe : b.shortest.digits * tens b.shortest.exponent.toNat ≤ m := by
      have hTens : (1 : Rat) ≤ tens scale := by exact_mod_cast tens_pos scale
      have hDiv : (m : Rat) / tens scale ≤ m := div_le_self (Nat.cast_nonneg m) hTens
      rw [← hValue, hWhole] at hDiv
      exact_mod_cast hDiv
    have hBit : 10 * 2 ^ 49 < 2 * leadingBit := by decide
    rw [tens_succ, ← Nat.mul_assoc] at hRead
    refine value?_of_nearest? (isNone_doubleText b) (by omega) (by omega) (by omega) ?_
    have hShift :
        ((doubleText b).digits : Rat) * tenPow (doubleText b).place = b.shortest.value := by
      rw [hRead, hPlace, hWhole, Nat.cast_mul _ 10, mul_assoc]
      norm_num [tenPow]
    rw [hShift, hValue, h]

end RecordStore.Json
