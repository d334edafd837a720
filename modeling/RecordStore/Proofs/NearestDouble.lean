import RecordStore.Proofs.ShortestDigits

/-!
# How near the nearest double is

A number is at most half a unit away from its double, and the unit is the `2 ^ 52`-th part of the
number or less, unless the number is very small. Naturals of 53 bits are their own doubles. A double
covers the numbers that it is nearest to: a number half a unit away is covered where the rounding
went to the even neighbour, and in front of a power of two the units are half as large.

## Main results

- `abs_magnitude_sub_le`: the distance between a number and its double.
- `magnitude_nearest?_natCast`: naturals of 53 bits are kept.
- `covers_of_nearest?`: a number is covered by its double.
-/

namespace RecordStore.Binary64

variable {negative : Bool} {q : Rat} {b : Binary64}

/-! ## Distances -/

theorem abs_magnitude_sub_le (hq : 0 < q) (h : nearest? negative q = some b) :
    |b.magnitude - q| ≤ twoPow (roundingExponent q) / 2 := by
  have hUnit := twoPow_pos (roundingExponent q)
  have hDistance : b.magnitude - q =
      ((roundHalfEven (scaled q) : Rat) - scaled q) * twoPow (roundingExponent q) := by
    rw [magnitude_of_nearest? (ne_of_gt hq) h, sub_mul, scaled_mul]
  have hRound : |(roundHalfEven (scaled q) : Rat) - scaled q| ≤ 1 / 2 := by
    have hBounds := roundHalfEven_bounds (scaled_nonneg (le_of_lt hq))
    rw [abs_le]
    constructor <;> linarith
  rw [hDistance, abs_mul, abs_of_pos hUnit]
  calc |(roundHalfEven (scaled q) : Rat) - scaled q| * twoPow (roundingExponent q)
      ≤ 1 / 2 * twoPow (roundingExponent q) := by gcongr
    _ = twoPow (roundingExponent q) / 2 := by ring

/-- A power of two that is not above a number is not above the power of its exponent. -/
theorem le_binaryExponent {e : Int} (h : twoPow e ≤ q) : e ≤ binaryExponent q := by
  by_contra hNot
  have hUpper := (binaryExponent_spec (lt_of_lt_of_le (twoPow_pos e) h)).2
  have hLe : twoPow (binaryExponent q + 1) ≤ twoPow e := twoPow_le_twoPow (by omega)
  linarith

theorem binaryExponent_lt {e : Int} (hq : 0 < q) (h : q < twoPow e) : binaryExponent q < e := by
  by_contra hNot
  have hLower := (binaryExponent_spec hq).1
  have hLe : twoPow e ≤ twoPow (binaryExponent q) := twoPow_le_twoPow (by omega)
  linarith

/-- All 53 bits are used from `2 ^ -1022` up. -/
theorem roundingExponent_of_normal (h : twoPow (-1022) ≤ q) :
    roundingExponent q = binaryExponent q - 52 := by
  have := le_binaryExponent h
  exact max_eq_left (by omega)

theorem abs_magnitude_sub_le_mul (hq : twoPow (-1022) ≤ q) (h : nearest? negative q = some b) :
    |b.magnitude - q| ≤ q * twoPow (-53) := by
  have hPos : 0 < q := lt_of_lt_of_le (twoPow_pos _) hq
  have hUnit := two_mul_twoPow (binaryExponent q - 53)
  rw [sub_add_eq_add_sub, show binaryExponent q + 1 - 53 = binaryExponent q - 52 by omega] at hUnit
  calc |b.magnitude - q| ≤ twoPow (roundingExponent q) / 2 := abs_magnitude_sub_le hPos h
    _ = twoPow (binaryExponent q - 53) := by
        rw [roundingExponent_of_normal hq, ← hUnit]
        ring
    _ = twoPow (binaryExponent q) * twoPow (-53) := by rw [← twoPow_add]; rfl
    _ ≤ q * twoPow (-53) := by
        have := twoPow_pos (-53)
        gcongr
        exact (binaryExponent_spec hPos).1

theorem roundHalfEven_natCast (n : Nat) : roundHalfEven n = n :=
  Nat.le_antisymm (roundHalfEven_le (Nat.cast_nonneg n) (le_refl _)) (le_roundHalfEven (le_refl _))

theorem magnitude_nearest?_natCast {n : Nat} (hn : n < 2 * leadingBit)
    (h : nearest? negative n = some b) : b.magnitude = n := by
  by_cases hZero : n = 0
  · rw [hZero, Nat.cast_zero, nearest?, if_pos rfl] at h
    cases h
    rw [magnitude_zero, hZero, Nat.cast_zero]
  have hOne : (1 : Rat) ≤ n := by exact_mod_cast Nat.one_le_iff_ne_zero.2 hZero
  have hPos : (0 : Rat) < n := lt_of_lt_of_le zero_lt_one hOne
  have hLower : 0 ≤ binaryExponent n := le_binaryExponent (le_trans (le_of_eq (zpow_zero 2)) hOne)
  have hUpper : binaryExponent n < 53 := by
    refine binaryExponent_lt hPos ?_
    rw [← twice_leadingBit_eq]
    exact_mod_cast hn
  -- The number is a whole number of its units, so nothing is rounded.
  have hScaled : scaled n = (n * 2 ^ (52 - binaryExponent n).toNat : Nat) := by
    have hExponent : roundingExponent (n : Rat) = -((52 - binaryExponent n).toNat : Int) := by
      unfold roundingExponent
      omega
    have hUnit := twoPow_pos ((52 - binaryExponent n).toNat : Int)
    have hInverse :
        twoPow (roundingExponent n) * twoPow ((52 - binaryExponent n).toNat : Int) = 1 := by
      rw [← twoPow_add, hExponent, neg_add_cancel]
      exact zpow_zero 2
    rw [scaled, div_eq_iff (ne_of_gt (twoPow_pos _)), Nat.cast_mul, Nat.cast_pow, Nat.cast_ofNat,
      ← twoPow_natCast, mul_assoc, mul_comm (twoPow _), hInverse, mul_one]
  rw [magnitude_of_nearest? (ne_of_gt hPos) h, hScaled, roundHalfEven_natCast, ← hScaled,
    scaled_mul]

/-! ## What a double covers -/

/-- Numbers are covered by what they are rounded to, in the units of the double. Below a power of
two only half as many are. -/
theorem covers_of_abs_sub_le {x : Rat}
    (hBelow : b.significand = leadingBit → leadingBit ≤ x + 1 / 4)
    (hNear : |(b.significand : Rat) - x| < 1 / 2 ∨
      (|(b.significand : Rat) - x| = 1 / 2 ∧ b.significand % 2 = 0)) :
    b.covers (x * twoPow b.exponent) = true := by
  have hUnit := twoPow_pos b.exponent
  have hAbs : |(b.significand : Rat) - x| ≤ 1 / 2 := hNear.elim le_of_lt fun hTie => le_of_eq hTie.1
  obtain ⟨hLower, hUpper⟩ := abs_le.1 hAbs
  unfold covers lowerEnd upperEnd
  by_cases hEven : b.significand % 2 = 0
  · rw [if_pos hEven, Bool.and_eq_true, decide_eq_true_eq, decide_eq_true_eq]
    constructor
    · by_cases hLeading : b.significand = leadingBit
      · have hx := hBelow hLeading
        have hStep : (b.significand : Rat) -
            (if b.significand = leadingBit ∧ -1074 < b.exponent then 1 / 4 else 1 / 2) ≤ x := by
          rw [hLeading]
          split <;> linarith
        exact mul_le_mul_of_nonneg_right hStep (le_of_lt hUnit)
      · rw [if_neg fun h => hLeading h.1]
        exact mul_le_mul_of_nonneg_right (by linarith) (le_of_lt hUnit)
    · exact mul_le_mul_of_nonneg_right (by linarith) (le_of_lt hUnit)
  · have hLess : |(b.significand : Rat) - x| < 1 / 2 := hNear.resolve_right fun hTie => hEven hTie.2
    obtain ⟨hLower, hUpper⟩ := abs_lt.1 hLess
    have hLeading : b.significand ≠ leadingBit := by
      intro hEq
      rw [hEq] at hEven
      exact hEven (by decide)
    rw [if_neg hEven, Bool.and_eq_true, decide_eq_true_eq, decide_eq_true_eq,
      if_neg fun h => hLeading h.1]
    constructor
    · exact mul_lt_mul_of_pos_right (by linarith) hUnit
    · exact mul_lt_mul_of_pos_right (by linarith) hUnit

theorem leadingBit_le_scaled (hq : twoPow (-1022) ≤ q) : (leadingBit : Rat) ≤ scaled q := by
  have hPos : 0 < q := lt_of_lt_of_le (twoPow_pos _) hq
  rw [scaled, le_div_iff₀ (twoPow_pos _), leadingBit_eq, ← twoPow_add,
    roundingExponent_of_normal hq, add_sub_cancel]
  exact (binaryExponent_spec hPos).1

theorem leadingBit_le_significand (hq : twoPow (-1022) ≤ q) (h : nearest? negative q = some b) :
    leadingBit ≤ b.significand := by
  have hPos : 0 < q := lt_of_lt_of_le (twoPow_pos _) hq
  rw [nearest?_eq (ne_of_gt hPos)] at h
  by_cases hCarry : roundHalfEven (scaled q) = 2 * leadingBit
  · rw [if_pos hCarry] at h
    exact le_of_eq (ofParts?_eq_some_iff.1 h).2.1.symm
  · rw [if_neg hCarry] at h
    rw [(ofParts?_eq_some_iff.1 h).2.1]
    exact le_roundHalfEven (leadingBit_le_scaled hq)

theorem roundingExponent_le (hq : 0 < q) (h : nearest? negative q = some b) :
    roundingExponent q ≤ b.exponent := by
  rw [nearest?_eq (ne_of_gt hq)] at h
  by_cases hCarry : roundHalfEven (scaled q) = 2 * leadingBit
  · rw [if_pos hCarry] at h
    have := (ofParts?_eq_some_iff.1 h).2.2
    omega
  · rw [if_neg hCarry] at h
    exact le_of_eq (ofParts?_eq_some_iff.1 h).2.2.symm

theorem covers_of_nearest? (hq : twoPow (-1022) ≤ q) (h : nearest? negative q = some b) :
    b.covers q = true := by
  have hPos : 0 < q := lt_of_lt_of_le (twoPow_pos _) hq
  have hSpec := roundHalfEven_spec (scaled_nonneg (le_of_lt hPos))
  have hLeading := leadingBit_le_scaled hq
  rw [nearest?_eq (ne_of_gt hPos)] at h
  by_cases hCarry : roundHalfEven (scaled q) = 2 * leadingBit
  · -- The number lies just below a power of two, and the units of its double are twice its own.
    rw [if_pos hCarry] at h
    obtain ⟨-, hSignificand, hExponent⟩ := ofParts?_eq_some_iff.1 h
    have hAbs : |(roundHalfEven (scaled q) : Rat) - scaled q| ≤ 1 / 2 :=
      hSpec.elim le_of_lt fun hTie => le_of_eq hTie.1
    rw [hCarry, Nat.cast_mul, Nat.cast_ofNat] at hAbs
    obtain ⟨hLower, hUpper⟩ := abs_le.1 hAbs
    have hUnits : scaled q / 2 * twoPow b.exponent = q := by
      rw [hExponent, ← two_mul_twoPow, div_mul_eq_mul_div, mul_comm 2, ← mul_assoc, scaled_mul]
      exact mul_div_cancel_right₀ q two_ne_zero
    rw [← hUnits]
    refine covers_of_abs_sub_le (fun _ => by linarith) (.inl ?_)
    rw [hSignificand, abs_lt]
    constructor <;> linarith
  · rw [if_neg hCarry] at h
    obtain ⟨-, hSignificand, hExponent⟩ := ofParts?_eq_some_iff.1 h
    rw [← scaled_mul q, ← hExponent]
    rw [← hSignificand] at hSpec
    exact covers_of_abs_sub_le (fun _ => by linarith) hSpec

theorem covers_magnitude (b : Binary64) : b.covers b.magnitude = true := by
  refine covers_of_abs_sub_le (fun hEq => ?_) (.inl ?_)
  · rw [hEq]
    linarith
  · rw [sub_self, abs_zero]
    norm_num

/-- What lies between two covered numbers is covered. -/
theorem covers_of_between {q₁ q₂ : Rat} (h₁ : b.covers q₁ = true) (h₂ : b.covers q₂ = true)
    (hLower : q₁ ≤ q) (hUpper : q ≤ q₂) : b.covers q = true := by
  unfold covers at h₁ h₂ ⊢
  by_cases hEven : b.significand % 2 = 0
  · rw [if_pos hEven, Bool.and_eq_true, decide_eq_true_eq, decide_eq_true_eq] at h₁ h₂ ⊢
    exact ⟨le_trans h₁.1 hLower, le_trans hUpper h₂.2⟩
  · rw [if_neg hEven, Bool.and_eq_true, decide_eq_true_eq, decide_eq_true_eq] at h₁ h₂ ⊢
    exact ⟨lt_of_lt_of_le h₁.1 hLower, lt_of_le_of_lt hUpper h₂.2⟩

/-- Covered numbers are at most a unit apart. -/
theorem abs_sub_le_of_covers {q₁ q₂ : Rat} (h₁ : b.covers q₁ = true) (h₂ : b.covers q₂ = true) :
    |q₁ - q₂| ≤ twoPow b.exponent := by
  have hUnit := twoPow_pos b.exponent
  obtain ⟨hLower₁, hUpper₁⟩ := le_of_covers h₁
  obtain ⟨hLower₂, hUpper₂⟩ := le_of_covers h₂
  have hWidth : b.upperEnd - b.lowerEnd ≤ twoPow b.exponent := by
    unfold upperEnd lowerEnd
    rw [← sub_mul]
    split <;> nlinarith
  rw [abs_le]
  constructor <;> linarith

/-! ## Signs and operations -/

/-- A double with a sign. -/
def withSign (negative : Bool) (b : Binary64) : Binary64 := { b with negative }

theorem ofParts?_withSign (negative : Bool) (significand : Nat) (exponent : Int) :
    ofParts? negative significand exponent =
      (ofParts? false significand exponent).map (withSign negative) := by
  unfold ofParts?
  split <;> rfl

/-- Rounding does not look at the sign. -/
theorem nearest?_withSign (negative : Bool) (q : Rat) :
    nearest? negative q = (nearest? false q).map (withSign negative) := by
  by_cases hZero : q = 0
  · rw [nearest?, nearest?, if_pos hZero, if_pos hZero]
    rfl
  · rw [nearest?_eq hZero, nearest?_eq hZero]
    split
    · exact ofParts?_withSign negative _ _
    · exact ofParts?_withSign negative _ _

theorem negative_of_nearest? (h : nearest? negative q = some b) : b.negative = negative := by
  rw [nearest?_withSign] at h
  obtain ⟨c, -, hc⟩ := Option.map_eq_some_iff.1 h
  rw [← hc]
  rfl

theorem twoPow_min_le : twoPow (-1022) ≤ 1 / 2 ^ 100 := by
  calc twoPow (-1022) ≤ twoPow (-100) := twoPow_le_twoPow (by decide)
    _ = 1 / 2 ^ 100 := twoPow_neg_natCast 100

theorem twoPow_min_le_div_tens {m scale : Nat} (hPos : 0 < m) (hScale : scale ≤ 15) :
    twoPow (-1022) ≤ (m : Rat) / tens scale :=
  le_trans (le_trans twoPow_min_le (by norm_num)) (le_div_tens hPos hScale)

/-- A number that is neither enormous nor tiny has a double, which is off by one part in `2 ^ 53` at
most. -/
theorem exists_close (negative : Bool) {q : Rat} (hLower : 1 / 2 ^ 100 ≤ q) (hUpper : q ≤ 2 ^ 100) :
    ∃ b, nearest? negative q = some b ∧ b.negative = negative ∧ |b.magnitude - q| ≤ q / 2 ^ 53 := by
  have hLarge : (2 : Rat) ^ 100 ≤ twoPow 1000 := by
    calc (2 : Rat) ^ 100 = twoPow 100 := (twoPow_natCast 100).symm
      _ ≤ twoPow 1000 := twoPow_le_twoPow (by decide)
  have hNonneg : 0 ≤ q := le_trans (by norm_num) hLower
  obtain ⟨b, hb⟩ := exists_nearest? negative hNonneg (le_trans hUpper hLarge)
  refine ⟨b, hb, negative_of_nearest? hb, ?_⟩
  calc |b.magnitude - q| ≤ q * twoPow (-53) :=
        abs_magnitude_sub_le_mul (le_trans twoPow_min_le hLower) hb
    _ = q / 2 ^ 53 := by norm_num [twoPow, div_eq_mul_inv]

theorem natCast_le_twoPow {n : Nat} (hn : n < 2 * leadingBit) : (n : Rat) ≤ twoPow 1000 := by
  calc (n : Rat) ≤ (2 * leadingBit : Nat) := by exact_mod_cast Nat.le_of_lt hn
    _ = twoPow 53 := twice_leadingBit_eq
    _ ≤ twoPow 1000 := twoPow_le_twoPow (by decide)

/-- A natural of 53 bits has a double, which is the number itself. -/
theorem exists_nearest?_natCast (negative : Bool) {n : Nat} (hn : n < 2 * leadingBit) :
    ∃ b, nearest? negative n = some b ∧ b.magnitude = n ∧ b.negative = negative := by
  obtain ⟨b, hb⟩ := exists_nearest? negative (Nat.cast_nonneg n) (natCast_le_twoPow hn)
  exact ⟨b, hb, magnitude_nearest?_natCast hn hb, negative_of_nearest? hb⟩

end RecordStore.Binary64
