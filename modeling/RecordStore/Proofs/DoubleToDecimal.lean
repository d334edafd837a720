import RecordStore.Proofs.DecimalDigits
import RecordStore.Proofs.DecimalToDouble

/-!
# The decimal of the double of a short decimal

A short decimal and the double nearest to it are at most half a unit of the double apart, and what is
cut off of the double on the way back to a decimal is about half a unit of the scale. If the scale that
is left has places for all of the decimal, the mantissa is less than one away from that of the decimal,
so it is the same.

This needs the unit of the double to be smaller than eight ninths of the unit of the scale. A power of
ten can come closer than that to the next power of two: `1000` to `1024`, and the powers of both. The
decimals concerned are `delicate`, and for them the last digit may come out wrong.

## Main results

- `Close.mul_tens_eq`: a cut leaves the value of a decimal that is not delicate.
- `ofBinary64?_nearest?`: the double nearest to a short decimal is made a decimal of its value.
-/

namespace RecordStore.Decimal

open Binary64 (leadingBit leadingBit_eq_pow)

/-- A double with a unit of `2 ^ -k` near a short decimal, and the number that trading its twos for
tens has left of it. -/
structure Close (d : Decimal) (k : Nat) (size x : Rat) : Prop where
  fits : d.Fits
  pos : 0 < d.mantissa
  size_ge : 2 ^ 52 ≤ size * 2 ^ k
  size_near : |size - d.magnitude| ≤ 1 / 2 ^ (k + 1)
  le_size : x ≤ size
  size_le : size * (1 - 1 / 2 ^ 80) ≤ x

section Close

variable {d : Decimal} {k scale m : Nat} {size x : Rat}

theorem Close.unit_le (h : Close d k size x) : 1 / 2 ^ (k + 1) ≤ size / 2 ^ 53 := by
  have hPow : (0 : Rat) < 2 ^ k := by positivity
  have hSize := h.size_ge
  rw [div_le_div_iff₀ (by positivity) (by norm_num), one_mul, pow_succ 2 k, ← mul_assoc]
  linarith

theorem Close.abs_sub_le (h : Close d k size x) : |x - d.magnitude| ≤ x / 2 ^ 52 := by
  have hUnit := h.unit_le
  have hLe := h.le_size
  have hGe := h.size_le
  obtain ⟨hLower, hUpper⟩ := abs_le.1 h.size_near
  rw [abs_le]
  constructor <;> linarith

theorem Close.nonneg (h : Close d k size x) : 0 ≤ x := by
  have hDiv : 0 ≤ x / 2 ^ 52 := le_trans (abs_nonneg _) h.abs_sub_le
  linarith

theorem Close.le_twice (h : Close d k size x) : x ≤ 2 * d.magnitude := by
  have hPos := d.magnitude_nonneg
  have hUpper := (abs_le.1 h.abs_sub_le).2
  linarith

theorem Close.two_le (h : Close d k size x) : 2 ≤ x * tens maxScale := by
  have hLarge := h.fits.le_magnitude h.pos
  have hLower := (abs_le.1 h.abs_sub_le).1
  have hTens : (tens maxScale : Rat) = 10 ^ 28 := by norm_num [tens, maxScale]
  rw [hTens]
  norm_num at hLarge ⊢
  linarith

/-! ## Without rounding -/

theorem mul_tens_eq_natCast {n places : Nat} (hPlaces : places ≤ scale) (hx : x * tens places = n) :
    x * tens scale = (n * tens (scale - places) : Nat) := by
  rw [← tens_sub_mul hPlaces, Nat.cast_mul, mul_left_comm, hx, mul_comm, Nat.cast_mul]

/-- A mantissa less than one away from a number of fewer places has the value of that number. -/
theorem mul_tens_eq_of_le {n places : Nat} (hPlaces : places ≤ scale) (hx : x * tens places = n)
    (h : |(m : Rat) - x * tens scale| < 1) : m * tens places = n * tens scale := by
  rw [mul_tens_eq_natCast hPlaces hx] at h
  have hSame : m = n * tens (scale - places) := by
    refine eq_of_abs_sub_lt one_pos ?_
    rwa [mul_one, mul_one]
  rw [hSame, Nat.mul_assoc, tens_sub_mul hPlaces]

/-- An exact mantissa has the value of the decimal. -/
theorem Close.mul_tens_eq_of_exact (h : Close d k size x) (hExact : x * tens scale = m)
    (hShort : m < leadingBit) : m * tens d.scale = d.mantissa * tens scale := by
  have hNear (places : Nat) : |(x * tens places : Rat) - d.magnitude * tens places| ≤
      x * tens places / 2 ^ 52 := abs_mul_sub_mul_le (Nat.cast_nonneg _) h.abs_sub_le
  by_cases hScale : d.scale ≤ scale
  · refine mul_tens_eq_of_le hScale d.magnitude_mul_tens ?_
    rw [leadingBit_eq_pow] at hShort
    have hLess : (m : Rat) < 2 ^ 52 := by exact_mod_cast hShort
    have hOff := hNear scale
    rw [hExact] at hOff
    linarith
  · refine (mul_tens_eq_of_le (by omega) hExact ?_).symm
    have hTwice : x * tens d.scale ≤ 2 * d.mantissa := by
      rw [← d.magnitude_mul_tens, ← mul_assoc]
      exact mul_le_mul_of_nonneg_right h.le_twice (Nat.cast_nonneg _)
    rw [abs_sub_comm, ← d.magnitude_mul_tens]
    linarith [hNear d.scale, h.fits.cast_lt]

/-! ## With rounding -/

/-- Digits are not dropped in front of the last one of the decimal. -/
theorem Close.scale_le_of_tooLong (h : Close d k size x) (hLong : TooLong x (scale + 1)) :
    d.scale ≤ scale := by
  obtain ⟨dropped, hBits, hNear⟩ := hLong
  by_contra hNot
  have hTens : (tens (scale + 1) : Rat) ≤ tens d.scale := by
    exact_mod_cast tens_le_tens (by omega)
  rw [leadingBit_eq_pow] at hBits
  have hBits : (2 : Rat) ^ 52 ≤ dropped := by exact_mod_cast hBits
  have hTwice : x * tens (scale + 1) ≤ 2 * d.mantissa := by
    rw [← d.magnitude_mul_tens, ← mul_assoc]
    exact mul_le_mul h.le_twice hTens (Nat.cast_nonneg _) (by linarith [d.magnitude_nonneg])
  linarith [(abs_le.1 hNear).2, h.fits.cast_lt]

/-- Without places behind the point the mantissa is that of a short decimal. -/
theorem Close.lt_leadingBit (h : Close d k size x) (hCut : Cut x scale m) : m < leadingBit := by
  rcases hCut.short with hShort | rfl
  · exact hShort
  · have hUpper := (abs_le.1 hCut.near).2
    rw [tens_zero, Nat.cast_one, mul_one] at hUpper
    have hCast : (m : Rat) < 2 ^ 52 := by linarith [h.le_twice, h.fits.magnitude_lt]
    rw [leadingBit_eq_pow]
    exact_mod_cast hCast

/-- At the scale of a cut, the number has less than 53 bits. -/
theorem Close.mul_tens_lt (h : Close d k size x) (hCut : Cut x scale m) :
    x * tens scale < 2 ^ 52 := by
  have hShort := h.lt_leadingBit hCut
  rw [leadingBit_eq_pow] at hShort
  have hLess : (m : Rat) + 1 ≤ 2 ^ 52 := by exact_mod_cast hShort
  linarith [(abs_le.1 hCut.near).1]

/-- What is off is what the roundings have added, and what the double is off in units of the scale. -/
theorem Close.abs_sub_le_of_cut (h : Close d k size x) (hCut : Cut x scale m) :
    |(m : Rat) - d.magnitude * tens scale| ≤
      5 / 9 + 1 / 2 ^ 26 + |size - d.magnitude| * tens scale := by
  have hTens : (0 : Rat) ≤ tens scale := Nat.cast_nonneg _
  have hTraded : |x - size| ≤ x * (1 / 2 ^ 79) := by
    rw [abs_sub_comm, abs_of_nonneg (by linarith [h.le_size])]
    linarith [h.size_le, h.nonneg]
  have hLost : |(x - size) * tens scale| ≤ 1 / 2 ^ 26 := by
    rw [abs_mul, abs_of_nonneg hTens]
    calc |x - size| * tens scale ≤ x * (1 / 2 ^ 79) * tens scale := by gcongr
      _ = x * tens scale * (1 / 2 ^ 79) := by ring
      _ ≤ 1 / 2 ^ 26 := by linarith [h.mul_tens_lt hCut]
  have hSplit : (m : Rat) - d.magnitude * tens scale = ((m : Rat) - x * tens scale) +
      (x - size) * tens scale + (size - d.magnitude) * tens scale := by ring
  calc |(m : Rat) - d.magnitude * tens scale|
      ≤ |(m : Rat) - x * tens scale| + |(x - size) * tens scale| +
        |(size - d.magnitude) * tens scale| := by
        rw [hSplit]
        exact abs_add_three _ _ _
    _ ≤ 5 / 9 + 1 / 2 ^ 26 + |size - d.magnitude| * tens scale := by
        rw [abs_mul (size - d.magnitude), abs_of_nonneg hTens]
        gcongr
        exact hCut.near

/-- The unit of the scale is hardly smaller than that of the double. -/
theorem Close.tens_lt (h : Close d k size x) (hCut : Cut x scale m) :
    tens scale * (2 ^ 80 - 1) < 2 ^ k * 2 ^ 80 := by
  have hTens : (0 : Rat) ≤ tens scale := Nat.cast_nonneg _
  have hPow : (0 : Rat) < 2 ^ k := by positivity
  have hChain : (2 : Rat) ^ 52 * (tens scale * (1 - 1 / 2 ^ 80)) < 2 ^ 52 * 2 ^ k := by
    calc (2 : Rat) ^ 52 * (tens scale * (1 - 1 / 2 ^ 80))
        ≤ size * 2 ^ k * (tens scale * (1 - 1 / 2 ^ 80)) := by
          have := h.size_ge
          gcongr
      _ = size * (1 - 1 / 2 ^ 80) * tens scale * 2 ^ k := by ring
      _ ≤ x * tens scale * 2 ^ k := by
          have := h.size_le
          gcongr
      _ < 2 ^ 52 * 2 ^ k := by
          gcongr
          exact h.mul_tens_lt hCut
  have hCast : ((tens scale * (2 ^ 80 - 1) : Nat) : Rat) < (2 ^ k * 2 ^ 80 : Nat) := by
    push_cast
    linarith
  exact_mod_cast hCast

/-! ## Powers of ten close to powers of two -/

/-- Where a power of ten is not far below a power of two, the exponents are as three to ten. -/
theorem tens_lt_or (hk : k < 104) (hPos : 0 < k) (hScale : scale ≤ maxScale)
    (h : tens scale * (2 ^ 80 - 1) < 2 ^ k * 2 ^ 80) :
    9 * 2048 * tens scale < 8 * 2047 * 2 ^ k ∨
      ∃ i ∈ [1, 2, 3, 4], k = 10 * i ∧ scale = 3 * i := by
  have hAll : ∀ k < 104, ∀ scale < 29, 0 < k ∧ tens scale * (2 ^ 80 - 1) < 2 ^ k * 2 ^ 80 →
      9 * 2048 * tens scale < 8 * 2047 * 2 ^ k ∨
        ∃ i ∈ [1, 2, 3, 4], k = 10 * i ∧ scale = 3 * i := by
    decide +kernel
  exact hAll k hk scale (Nat.lt_succ_of_le hScale) ⟨hPos, h⟩

/-- Half a unit of the double, counted in such units. -/
theorem half_unit (k : Nat) : (1 : Rat) / 2 ^ (k + 1) * 2 ^ k = 1 / 2 := by
  rw [pow_succ]
  field_simp

/-- If the unit of the scale is not smaller than that of the double, the decimal is an integer at that
scale, and not far above the mantissa. -/
theorem Close.mul_tens_le (h : Close d k size x) (hCut : Cut x scale m) (hScale : d.scale ≤ scale)
    (hLe : tens scale ≤ 2 ^ k) : d.mantissa * tens scale ≤ 2 ^ 52 * tens d.scale := by
  have hWhole := mul_tens_eq_natCast hScale d.magnitude_mul_tens
  have hUnit : |size - d.magnitude| * tens scale ≤ 1 / 2 := by
    have hCast : (tens scale : Rat) ≤ 2 ^ k := by exact_mod_cast hLe
    calc |size - d.magnitude| * tens scale ≤ 1 / 2 ^ (k + 1) * 2 ^ k :=
          mul_le_mul h.size_near hCast (Nat.cast_nonneg _) (by positivity)
      _ = 1 / 2 := half_unit k
  have hLower := (abs_le.1 (h.abs_sub_le_of_cut hCut)).1
  rw [hWhole] at hLower
  have hCast : ((d.mantissa * tens (scale - d.scale) : Nat) : Rat) < (m + 2 : Nat) := by
    push_cast at hLower ⊢
    linarith
  have hBound : d.mantissa * tens (scale - d.scale) < m + 2 := by exact_mod_cast hCast
  have hShort := h.lt_leadingBit hCut
  rw [leadingBit_eq_pow] at hShort
  calc d.mantissa * tens scale = d.mantissa * tens (scale - d.scale) * tens d.scale := by
        rw [Nat.mul_assoc, tens_sub_mul hScale]
    _ ≤ 2 ^ 52 * tens d.scale := Nat.mul_le_mul_right _ (by omega)

/-- The double is not below a power of two, and neither is the decimal, if its last place is not finer
than the unit of the double. -/
theorem Close.le_mul_pow (h : Close d k size x) (hk : k ≤ 52) (hLe : tens d.scale ≤ 2 ^ k) :
    2 ^ 52 * tens d.scale ≤ d.mantissa * 2 ^ k := by
  have hCast : (2 ^ 53 : Rat) * tens d.scale ≤ 2 * d.mantissa * 2 ^ k + tens d.scale := by
    have hTens : (0 : Rat) ≤ tens d.scale := Nat.cast_nonneg _
    have hUpper := (abs_le.1 h.size_near).2
    have hSize := h.size_ge
    calc (2 ^ 53 : Rat) * tens d.scale = 2 * 2 ^ 52 * tens d.scale := by norm_num
      _ ≤ 2 * (size * 2 ^ k) * tens d.scale := by gcongr
      _ ≤ 2 * ((d.magnitude + 1 / 2 ^ (k + 1)) * 2 ^ k) * tens d.scale := by
          gcongr
          linarith
      _ = 2 * (d.magnitude * tens d.scale) * 2 ^ k +
          2 * (1 / 2 ^ (k + 1) * 2 ^ k) * tens d.scale := by ring
      _ = 2 * d.mantissa * 2 ^ k + tens d.scale := by
          rw [magnitude_mul_tens, half_unit]
          ring
  -- The power of two is a whole number of units, so half a unit makes no difference.
  have hPowSplit : 2 ^ 52 = 2 ^ (52 - k) * 2 ^ k := by
    rw [← pow_add]
    congr 1
    omega
  have hInteger : 2 * (2 ^ (52 - k) * tens d.scale) * 2 ^ k ≤ (2 * d.mantissa + 1) * 2 ^ k := by
    calc 2 * (2 ^ (52 - k) * tens d.scale) * 2 ^ k = 2 ^ 53 * tens d.scale := by
          rw [pow_succ 2 52, hPowSplit]
          ring
      _ ≤ 2 * d.mantissa * 2 ^ k + tens d.scale := by exact_mod_cast hCast
      _ ≤ (2 * d.mantissa + 1) * 2 ^ k := by
          rw [Nat.add_mul, Nat.one_mul]
          exact Nat.add_le_add_left hLe _
  have hLeast : 2 ^ (52 - k) * tens d.scale ≤ d.mantissa := by
    have hTwice := Nat.le_of_mul_le_mul_right hInteger (Nat.two_pow_pos k)
    omega
  calc 2 ^ 52 * tens d.scale = 2 ^ (52 - k) * tens d.scale * 2 ^ k := by
        rw [hPowSplit]
        ring
    _ ≤ d.mantissa * 2 ^ k := Nat.mul_le_mul_right _ hLeast

/-- The last digit is in doubt: the decimal is not whole, it is large enough for a double with a unit of
`1024 ^ -i` and small enough to be kept to a last place of `1000 ^ -i`, which is hardly coarser. -/
def delicate (d : Decimal) : Bool :=
  !d.isWhole && [1, 2, 3, 4].any fun i =>
    d.mantissa * 1000 ^ i ≤ 2 ^ 52 * tens d.scale && 2 ^ 52 * tens d.scale ≤ d.mantissa * 1024 ^ i

theorem Close.delicate_of_eq (h : Close d k size x) (hCut : Cut x scale m) (hScale : d.scale ≤ scale)
    {i : Nat} (hi : i ∈ [1, 2, 3, 4]) (hk : k = 10 * i) (hs : scale = 3 * i)
    (hWhole : d.isWhole = false) : d.delicate = true := by
  have hTens : tens scale = 1000 ^ i := by
    rw [hs]
    exact pow_mul 10 3 i
  have hTwos : 2 ^ k = 1024 ^ i := by
    rw [hk]
    exact pow_mul 2 10 i
  have hLe : tens scale ≤ 2 ^ k := by
    rw [hTens, hTwos]
    exact Nat.pow_le_pow_left (by decide) i
  have hSmall : k ≤ 52 := by
    simp only [List.mem_cons, List.not_mem_nil, or_false] at hi
    omega
  have hUpper := h.mul_tens_le hCut hScale hLe
  have hLower := h.le_mul_pow hSmall (Nat.le_trans (tens_le_tens hScale) hLe)
  rw [hTens] at hUpper
  rw [hTwos] at hLower
  rw [delicate, hWhole, Bool.not_false, Bool.true_and, List.any_eq_true]
  refine ⟨i, hi, ?_⟩
  rw [Bool.and_eq_true, decide_eq_true_eq, decide_eq_true_eq]
  exact ⟨hUpper, hLower⟩

/-! ## All cases -/

/-- What the double is off is less than four ninths of the unit of the scale. -/
theorem Close.unit_lt (h : Close d k size x) (hLess : 9 * 2048 * tens scale < 8 * 2047 * 2 ^ k) :
    |size - d.magnitude| * tens scale ≤ 4 / 9 * (2047 / 2048) := by
  have hPow : (0 : Rat) < 2 ^ (k + 1) := by positivity
  have hCast : (9 * 2048 * tens scale : Rat) ≤ 8 * 2047 * 2 ^ k := by
    exact_mod_cast Nat.le_of_lt hLess
  calc |size - d.magnitude| * tens scale ≤ 1 / 2 ^ (k + 1) * tens scale := by
        gcongr
        exact h.size_near
    _ ≤ 4 / 9 * (2047 / 2048) := by
        rw [div_mul_eq_mul_div, one_mul, div_le_iff₀ hPow, pow_succ 2 k]
        linarith

theorem Close.mul_tens_eq (h : Close d k size x) (hPos : 0 < k) (hk : k < 104)
    (hCut : Cut x scale m) (hWhole : d.isWhole = true → size = d.magnitude)
    (hPlain : d.delicate = false) : m * tens d.scale = d.mantissa * tens scale := by
  have hPlaces : x * tens scale = m ∨ d.scale ≤ scale := by
    rcases hCut.least with hExact | hMax | hLong
    · exact .inl hExact
    · refine .inr (Nat.le_trans h.fits.scale_le ?_)
      rw [hMax]
      decide
    · exact .inr (h.scale_le_of_tooLong hLong)
  rcases hPlaces with hExact | hScale
  · exact h.mul_tens_eq_of_exact hExact (h.lt_leadingBit hCut)
  refine mul_tens_eq_of_le hScale d.magnitude_mul_tens ?_
  have hOff := h.abs_sub_le_of_cut hCut
  cases hIsWhole : d.isWhole with
  | true =>
    rw [hWhole hIsWhole, sub_self, abs_zero, zero_mul] at hOff
    linarith
  | false =>
    rcases tens_lt_or hk hPos hCut.scale_le (h.tens_lt hCut) with hLess | ⟨i, hi, hEq, hs⟩
    · linarith [h.unit_lt hLess]
    · have hDelicate := h.delicate_of_eq hCut hScale hi hEq hs hIsWhole
      rw [hPlain] at hDelicate
      cases hDelicate

end Close

/-! ## The decimal of the nearest double -/

section Nearest

variable {d : Decimal} {negative : Bool} {b : Binary64}

/-- The double nearest to a short decimal has places behind the point. -/
theorem exponent_nearest?_neg (h : d.Fits) (hPos : 0 < d.mantissa)
    (hb : Binary64.nearest? negative d.magnitude = some b) : b.exponent < 0 := by
  by_contra hNot
  have hUnit : 1 ≤ twoPow b.exponent :=
    le_trans (le_of_eq (zpow_zero 2).symm) (twoPow_le_twoPow (not_lt.1 hNot))
  have hBits := Binary64.leadingBit_le_significand (h.normal hPos) hb
  rw [leadingBit_eq_pow] at hBits
  have hSignificand : (2 : Rat) ^ 52 ≤ b.significand := by exact_mod_cast hBits
  have hSize : (2 : Rat) ^ 52 * 1 ≤ b.magnitude :=
    mul_le_mul hSignificand hUnit zero_le_one (Nat.cast_nonneg _)
  linarith [Binary64.magnitude_nearest?_le d.magnitude_nonneg hb, h.magnitude_lt]

theorem lt_exponent_nearest? (h : d.Fits) (hPos : 0 < d.mantissa)
    (hb : Binary64.nearest? negative d.magnitude = some b) : -104 < b.exponent := by
  by_contra hNot
  have hUnit : twoPow b.exponent ≤ 1 / 2 ^ 104 := by
    rw [← twoPow_neg_natCast]
    exact twoPow_le_twoPow (not_lt.1 hNot)
  have hSignificand : (b.significand : Rat) ≤ 2 ^ 53 := by
    have hLess := b.significand_lt
    rw [leadingBit_eq_pow] at hLess
    have hLe : b.significand ≤ 2 ^ 53 := by omega
    exact_mod_cast hLe
  have hSize : b.magnitude ≤ 2 ^ 53 * (1 / 2 ^ 104) :=
    mul_le_mul hSignificand hUnit (le_of_lt (twoPow_pos _)) (by norm_num)
  have hLower := (abs_le.1 (Binary64.abs_magnitude_sub_le_mul (h.normal hPos) hb)).1
  have hLarge := h.le_magnitude hPos
  rw [show (-53 : Int) = -(53 : Nat) from rfl, twoPow_neg_natCast] at hLower
  norm_num at hSize hLarge hLower
  linarith

/-- Trading the twos of the double nearest to a short decimal leaves a number near that decimal. -/
theorem close_tradeTwos (h : d.Fits) (hPos : 0 < d.mantissa)
    (hb : Binary64.nearest? negative d.magnitude = some b) {k : Nat} (hk : b.exponent = -(k : Int))
    (hkLess : k < 104) :
    Close d k b.magnitude
      ((tradeTwos k b.significand 0).1 / tens (tradeTwos k b.significand 0).2) := by
  have hPow : (0 : Rat) < 2 ^ k := by positivity
  have hSize : b.magnitude = b.significand / 2 ^ k := by
    rw [Binary64.magnitude, hk, twoPow_neg_natCast, mul_one_div]
  obtain ⟨hLe, hLoss⟩ := tradeTwos_keeps k b.significand 0
  rw [tens_zero, Nat.cast_one, mul_one, ← hSize] at hLe hLoss
  refine ⟨h, hPos, ?_, ?_, hLe, le_trans ?_ hLoss⟩
  · have hBits := Binary64.leadingBit_le_significand (h.normal hPos) hb
    rw [leadingBit_eq_pow] at hBits
    rw [hSize, div_mul_cancel₀ _ (ne_of_gt hPow)]
    exact_mod_cast hBits
  · have hMagnitude : 0 < d.magnitude := lt_of_lt_of_le (twoPow_pos _) (h.normal hPos)
    calc |b.magnitude - d.magnitude| ≤ twoPow (Binary64.roundingExponent d.magnitude) / 2 :=
          Binary64.abs_magnitude_sub_le hMagnitude hb
      _ ≤ twoPow b.exponent / 2 := by
          have := twoPow_le_twoPow (Binary64.roundingExponent_le hMagnitude hb)
          gcongr
      _ = 1 / 2 ^ (k + 1) := by rw [hk, twoPow_neg_natCast, pow_succ, div_div]
  · have hSteps : (k : Rat) * halvingLoss ≤ 1 / 2 ^ 80 := by
      have hCast : (k : Rat) ≤ 104 := by exact_mod_cast Nat.le_of_lt hkLess
      calc (k : Rat) * halvingLoss ≤ 104 * halvingLoss :=
            mul_le_mul_of_nonneg_right hCast (by norm_num [halvingLoss])
        _ ≤ 1 / 2 ^ 80 := by norm_num [halvingLoss]
    have := b.magnitude_nonneg
    gcongr

theorem magnitude_nearest?_of_isWhole (h : d.Fits) (hWhole : d.isWhole = true)
    (hb : Binary64.nearest? negative d.magnitude = some b) : b.magnitude = d.magnitude := by
  have hLess : d.mantissa / tens d.scale < 2 * leadingBit := by
    have hMantissa := h.mantissa_lt
    have hLe := Nat.div_le_self d.mantissa (tens d.scale)
    rw [leadingBit_eq_pow]
    omega
  rw [magnitude_of_isWhole hWhole] at hb ⊢
  exact Binary64.magnitude_nearest?_natCast hLess hb

/-- The decimal made from the double nearest to a short decimal has the value of that decimal, unless
that is delicate. -/
theorem ofBinary64?_nearest? (h : d.Fits) (hPos : 0 < d.mantissa) (hPlain : d.delicate = false)
    (hb : Binary64.nearest? negative d.magnitude = some b) :
    ∃ d', ofBinary64? b = some d' ∧ d'.negative = negative ∧
      d'.mantissa * tens d.scale = d.mantissa * tens d'.scale := by
  have hExponent := exponent_nearest?_neg h hPos hb
  have hExponentLarge := lt_exponent_nearest? h hPos hb
  obtain ⟨k, hk⟩ : ∃ k, k = b.exponent.natAbs := ⟨_, rfl⟩
  have hClose := close_tradeTwos h hPos hb (show b.exponent = -(k : Int) by omega) (by omega)
  have hNonzero : b.significand ≠ 0 := by
    have hBits := Binary64.leadingBit_le_significand (h.normal hPos) hb
    rw [leadingBit_eq_pow] at hBits
    omega
  obtain ⟨m, scale, hTraded⟩ : ∃ m scale, tradeTwos k b.significand 0 = (m, scale) := ⟨_, _, rfl⟩
  rw [hTraded] at hClose
  have hTens : (0 : Rat) < tens scale := by exact_mod_cast tens_pos scale
  obtain ⟨m₁, m₂, scale₂, hDropped, hTrimmed, hCut⟩ :=
    exists_cut (x := (m : Rat) / tens scale) (div_mul_cancel₀ _ (ne_of_gt hTens)) hClose.two_le
  have hValue := hClose.mul_tens_eq (by omega) (by omega) hCut
    (fun hWhole => magnitude_nearest?_of_isWhole h hWhole hb) hPlain
  obtain ⟨m₃, scale₃, hZeros, hScale, hLe, hSame⟩ := trimZeros_spec scale₂ m₂
  have hFits : m₃ < mantissaLimit ∧ scale₃ ≤ maxScale := by
    have hShort := hClose.lt_leadingBit hCut
    have hLimit : leadingBit < mantissaLimit := by decide
    exact ⟨by omega, Nat.le_trans hScale hCut.scale_le⟩
  refine ⟨⟨negative, m₃, scale₃, hFits.1, hFits.2⟩, ?_, rfl, ?_⟩
  · rw [ofBinary64?, if_neg hNonzero, if_neg (by omega), ← hk, hTraded]
    simp only [hDropped, hTrimmed, hZeros]
    rw [ofParts?, dif_pos hFits, Binary64.negative_of_nearest? hb]
  · refine Nat.eq_of_mul_eq_mul_right (tens_pos scale₂) ?_
    calc m₃ * tens d.scale * tens scale₂ = m₃ * tens scale₂ * tens d.scale := by
          rw [Nat.mul_right_comm]
      _ = m₂ * tens d.scale * tens scale₃ := by rw [hSame, Nat.mul_right_comm]
      _ = d.mantissa * tens scale₃ * tens scale₂ := by rw [hValue, Nat.mul_right_comm]

end Nearest

end RecordStore.Decimal
