import RecordStore.Proofs.NearestDouble

/-!
# Doubles with few digits

A double covers at most one number of fifteen digits, since its unit is smaller than the last of
them. If there is such a number, the search for digits finds it: a neighbour of the double on the grid
of fifteen digits lies between the two, and numbers of fewer digits are on that grid as well. So the
digits written for a double that covers a short number are those of the number.

## Main results

- `exists_withDigits?`: where a covered number is on the grid, digits are found.
- `shortest_of_covers`: the shortest digits of a double that covers a short number.
-/

namespace RecordStore

theorem tenPow_eq_of_le {m n : Int} (h : m ≤ n) : tenPow n = tens (n - m).toNat * tenPow m := by
  rw [← tenPow_natCast, ← tenPow_add]
  congr 1
  omega

namespace Digits

/-- With enough fuel no zeros are left at the end of the digits. -/
theorem digits_withoutZeros (fuel : Nat) (d : Digits) (hPos : d.digits ≠ 0)
    (hFuel : d.digits < tens fuel) :
    (d.withoutZeros fuel).digits % 10 ≠ 0 ∧ (d.withoutZeros fuel).digits ≤ d.digits := by
  induction fuel generalizing d with
  | zero =>
    rw [tens_zero] at hFuel
    omega
  | succ fuel ih =>
    rw [tens_succ] at hFuel
    unfold withoutZeros
    by_cases h : d.digits ≠ 0 ∧ d.digits % 10 = 0
    · rw [if_pos h]
      have hStep := ih ⟨d.digits / 10, d.exponent + 1⟩ (show d.digits / 10 ≠ 0 by omega)
        (show d.digits / 10 < tens fuel by omega)
      exact ⟨hStep.1, Nat.le_trans hStep.2 (Nat.div_le_self _ _)⟩
    · rw [if_neg h]
      exact ⟨fun hZero => h ⟨hPos, hZero⟩, Nat.le_refl _⟩

end Digits

namespace Binary64

variable {b : Binary64} {q : Rat}

/-- The exponent of the last of `count` digits of a double. -/
def lastPlace (b : Binary64) (count : Nat) : Int := decimalExponent b.magnitude - count

theorem exponent_of_withDigits? {count : Nat} {d : Digits} (h : b.withDigits? count = some d) :
    d.exponent = b.lastPlace count := by
  obtain ⟨n, -, hDigits⟩ := Option.map_eq_some_iff.1 h
  rw [← hDigits]
  rfl

/-- If a covered number has no more digits, one of the two neighbours of the double is covered. -/
theorem exists_withDigits? {count n : Nat} (hq : q = n * tenPow (b.lastPlace count))
    (hCovers : b.covers q = true) : ∃ d, b.withDigits? count = some d := by
  have hUnit := tenPow_pos (b.lastPlace count)
  have hSelf := b.covers_magnitude
  obtain ⟨below, hBelow⟩ : ∃ below,
      below = (b.magnitude / tenPow (b.lastPlace count)).floor.toNat := ⟨_, rfl⟩
  obtain ⟨hLe, hLt⟩ := floor_spec (div_nonneg b.magnitude_nonneg (le_of_lt hUnit))
  rw [← hBelow, le_div_iff₀ hUnit] at hLe
  rw [← hBelow, div_lt_iff₀ hUnit, ← Nat.cast_succ] at hLt
  have hNeighbour : b.covers (below * tenPow (b.lastPlace count)) = true ∨
      b.covers ((below + 1 : Nat) * tenPow (b.lastPlace count)) = true := by
    by_cases hSide : n ≤ below
    · refine .inl (covers_of_between hCovers hSelf ?_ hLe)
      rw [hq]
      gcongr
    · refine .inr (covers_of_between hSelf hCovers (le_of_lt hLt) ?_)
      rw [hq]
      gcongr
      omega
  refine Option.isSome_iff_exists.1 ?_
  unfold withDigits?
  simp only [Option.isSome_map, List.find?_isSome]
  -- Either neighbour is tried, whichever is preferred.
  subst hBelow
  rcases hNeighbour with hCovers | hCovers
  · exact ⟨_, by split <;> simp [lastPlace], hCovers⟩
  · exact ⟨_, by split <;> simp [lastPlace], hCovers⟩

theorem lastPlace_add (b : Binary64) (count : Nat) :
    tenPow (decimalExponent b.magnitude) = tens count * tenPow (b.lastPlace count) := by
  rw [← tenPow_natCast, ← tenPow_add, lastPlace, add_sub_cancel]

theorem magnitude_pos (h : b.significand ≠ 0) : 0 < b.magnitude := by
  have hPos : (0 : Rat) < b.significand := by exact_mod_cast Nat.pos_of_ne_zero h
  exact mul_pos hPos (twoPow_pos b.exponent)

/-- The unit of a double is smaller than the last of fifteen digits. -/
theorem twoPow_exponent_lt (h : leadingBit ≤ b.significand) :
    twoPow b.exponent < tenPow (b.lastPlace 15) := by
  have hUnit := twoPow_pos b.exponent
  have hLess : tens 15 < leadingBit := by decide
  have hPos : 0 < b.magnitude := magnitude_pos (by omega)
  refine lt_of_mul_lt_mul_left ?_ (Nat.cast_nonneg (tens 15))
  calc (tens 15 : Rat) * twoPow b.exponent ≤ b.significand * twoPow b.exponent := by
        gcongr
        omega
    _ < tenPow (decimalExponent b.magnitude) := (decimalExponent_spec hPos).2
    _ = tens 15 * tenPow (b.lastPlace 15) := b.lastPlace_add 15

/-- Digits that are found stand for the covered number, if that is on the grid of fifteen digits. -/
theorem value_of_withDigits? {count n : Nat} {d : Digits} (hNormal : leadingBit ≤ b.significand)
    (hCount : count ≤ 15) (hq : q = n * tenPow (b.lastPlace 15)) (hCovers : b.covers q = true)
    (h : b.withDigits? count = some d) : d.value = q := by
  have hPlaces : b.lastPlace 15 ≤ d.exponent := by
    rw [exponent_of_withDigits? h]
    unfold lastPlace
    omega
  have hValue : d.value =
      (d.digits * tens (d.exponent - b.lastPlace 15).toNat : Nat) * tenPow (b.lastPlace 15) := by
    rw [Digits.value, tenPow_eq_of_le hPlaces, Nat.cast_mul, mul_assoc]
  have hNear : |d.value - q| < tenPow (b.lastPlace 15) :=
    lt_of_le_of_lt (abs_sub_le_of_covers (covers_of_withDigits? h) hCovers)
      (twoPow_exponent_lt hNormal)
  rw [hValue, hq] at hNear
  rw [hValue, hq, eq_of_abs_sub_lt (tenPow_pos _) hNear]

theorem digits_of_withDigits?_lt {count : Nat} {d : Digits} (hPos : b.significand ≠ 0)
    (h : b.withDigits? count = some d) : d.digits ≠ 0 ∧ d.digits < 2 * tens count := by
  have hUnit := tenPow_pos (b.lastPlace count)
  obtain ⟨hLower, hUpper⟩ := le_of_covers (covers_of_withDigits? h)
  rw [Digits.value, exponent_of_withDigits? h] at hLower hUpper
  constructor
  · intro hZero
    rw [hZero, Nat.cast_zero, zero_mul] at hLower
    exact absurd (lowerEnd_pos hPos) (not_lt.2 hLower)
  · have hLess : (d.digits : Rat) * tenPow (b.lastPlace count) <
        (2 * tens count : Nat) * tenPow (b.lastPlace count) := by
      calc (d.digits : Rat) * tenPow (b.lastPlace count) ≤ 2 * b.magnitude :=
            le_trans hUpper (upperEnd_le hPos)
        _ < 2 * tenPow (decimalExponent b.magnitude) := by
            gcongr
            exact (decimalExponent_spec (magnitude_pos hPos)).2
        _ = (2 * tens count : Nat) * tenPow (b.lastPlace count) := by
            rw [b.lastPlace_add count]
            push_cast
            ring
    exact_mod_cast lt_of_mul_lt_mul_right hLess (le_of_lt hUnit)

/-- If fifteen digits are enough, no more of them are written. -/
theorem exists_shortest_eq {found : Digits} (hPos : b.significand ≠ 0)
    (h : b.withDigits? 15 = some found) :
    ∃ count ≤ 15, ∃ d, b.withDigits? count = some d ∧ b.shortest = d.withoutZeros 20 := by
  have hSome : ((List.range 15).findSome? fun i => b.withDigits? (i + 1)).isSome = true := by
    rw [List.findSome?_isSome_iff]
    exact ⟨14, by decide, by rw [h]; rfl⟩
  obtain ⟨d, hd⟩ := Option.isSome_iff_exists.1 hSome
  obtain ⟨i, hMem, hi⟩ := List.exists_of_findSome?_eq_some hd
  refine ⟨i + 1, List.mem_range.1 hMem, d, hi, ?_⟩
  have hFound : ((List.range 17).findSome? fun i => b.withDigits? (i + 1)) = some d := by
    rw [show List.range 17 = List.range 15 ++ [15, 16] from rfl, List.findSome?_append, hd]
    rfl
  rw [shortest, if_neg hPos, hFound]

/-- The digits written for a double that covers a number of fifteen digits stand for that number.
They are no more than a double can hold, and there are no zeros at their end. -/
theorem shortest_of_covers {n : Nat} (hNormal : leadingBit ≤ b.significand)
    (hq : q = n * tenPow (b.lastPlace 15)) (hCovers : b.covers q = true) :
    b.shortest.value = q ∧ b.shortest.digits < 2 * leadingBit ∧ b.shortest.digits % 10 ≠ 0 := by
  have hPos : b.significand ≠ 0 := by
    have : 0 < leadingBit := by decide
    omega
  obtain ⟨found, hFound⟩ := exists_withDigits? hq hCovers
  obtain ⟨count, hCount, d, hd, hShortest⟩ := exists_shortest_eq hPos hFound
  obtain ⟨hNe, hLess⟩ := digits_of_withDigits?_lt hPos hd
  have hTens : tens count ≤ tens 15 := Nat.pow_le_pow_right (by decide) hCount
  have hFuel : 2 * tens 15 < tens 20 := by decide
  have hBit : 2 * tens 15 < 2 * leadingBit := by decide
  obtain ⟨hLast, hLe⟩ := Digits.digits_withoutZeros 20 d hNe (by omega)
  rw [hShortest, Digits.value_withoutZeros]
  exact ⟨value_of_withDigits? hNormal hCount hq hCovers hd, by omega, hLast⟩

/-! ## Nearest doubles -/

section Nearest

variable {negative : Bool} {m scale : Nat}

/-- The double nearest to a number of fifteen digits does not reach the next power of ten. -/
theorem magnitude_nearest?_mul_lt (hPos : 0 < m) (hLess : m < tens 15) (hScale : scale ≤ 15)
    (h : nearest? negative ((m : Rat) / tens scale) = some b) :
    b.magnitude * tens scale < tens 15 := by
  have hTens : (0 : Rat) < tens scale := by exact_mod_cast tens_pos scale
  have hNear := (abs_le.1 (abs_magnitude_sub_le_mul (twoPow_min_le_div_tens hPos hScale) h)).2
  have hNumber : (m : Rat) / tens scale * tens scale = m := div_mul_cancel₀ _ (ne_of_gt hTens)
  have hMax : (m : Rat) + 1 ≤ tens 15 := by exact_mod_cast hLess
  have hUnit := twoPow_pos (-53)
  have hRest : (m : Rat) * twoPow (-53) < 1 := by
    calc (m : Rat) * twoPow (-53) ≤ tens 15 * twoPow (-53) := by
          gcongr
      _ < 1 := by norm_num [twoPow, tens]
  calc b.magnitude * tens scale
      ≤ ((m : Rat) / tens scale + m / tens scale * twoPow (-53)) * tens scale := by
        gcongr
        linarith
    _ = m + m * twoPow (-53) := by rw [add_mul, mul_right_comm, hNumber]
    _ < tens 15 := by linarith

/-- The fifteenth digit of that double is not in front of the last digit of the number. -/
theorem lastPlace_nearest?_le (hPos : 0 < m) (hLess : m < tens 15) (hScale : scale ≤ 15)
    (h : nearest? negative ((m : Rat) / tens scale) = some b) :
    b.lastPlace 15 ≤ -(scale : Int) := by
  have hNormal := leadingBit_le_significand (twoPow_min_le_div_tens hPos hScale) h
  have hBit : 0 < leadingBit := by decide
  have hTens : (0 : Rat) < tens scale := by exact_mod_cast tens_pos scale
  by_contra hNot
  have hPlace : (15 : Int) - scale ≤ decimalExponent b.magnitude - 1 := by
    unfold lastPlace at hNot
    omega
  have hLarge : (tens 15 : Rat) ≤ b.magnitude * tens scale := by
    calc (tens 15 : Rat) = tenPow (15 - scale) * tens scale := by
          rw [← tenPow_natCast, ← tenPow_natCast, ← tenPow_add, sub_add_cancel]
          rfl
      _ ≤ b.magnitude * tens scale := by
          gcongr
          exact le_trans (tenPow_le_tenPow hPlace)
            (decimalExponent_spec (magnitude_pos (by omega))).1
  exact absurd hLarge (not_le.2 (magnitude_nearest?_mul_lt hPos hLess hScale h))

/-- The digits written for that double are those of the number, and their places are among those of
the number. -/
theorem shortest_of_nearest? (hPos : 0 < m) (hLess : m < tens 15) (hScale : scale ≤ 15)
    (h : nearest? negative ((m : Rat) / tens scale) = some b) :
    b.shortest.value = (m : Rat) / tens scale ∧ b.shortest.digits < 2 * leadingBit ∧
      -(scale : Int) ≤ b.shortest.exponent ∧ b.shortest.exponent ≤ 15 := by
  have hLower := twoPow_min_le_div_tens hPos hScale
  have hGrid := lastPlace_nearest?_le hPos hLess hScale h
  have hq : (m : Rat) / tens scale =
      (m * tens (-(scale : Int) - b.lastPlace 15).toNat : Nat) * tenPow (b.lastPlace 15) := by
    rw [Nat.cast_mul, mul_assoc, ← tenPow_eq_of_le hGrid, div_tens_eq]
  obtain ⟨hValue, hDigits, hLast⟩ := shortest_of_covers (leadingBit_le_significand hLower h) hq
    (covers_of_nearest? hLower h)
  refine ⟨hValue, hDigits, ?_, ?_⟩
  · -- Digits behind the last digit of the number would be zeros.
    by_contra hNot
    obtain ⟨k, hk⟩ : ∃ k : Nat, (-(scale : Int) - b.shortest.exponent).toNat = k + 1 :=
      ⟨(-(scale : Int) - b.shortest.exponent).toNat - 1, by omega⟩
    rw [Digits.value, div_tens_eq, tenPow_eq_of_le (le_of_lt (not_le.1 hNot)), hk, ← mul_assoc]
      at hValue
    have hDigitsEq := mul_right_cancel₀ (ne_of_gt (tenPow_pos _)) hValue
    have hDigitsEq : b.shortest.digits = m * tens (k + 1) := by exact_mod_cast hDigitsEq
    rw [hDigitsEq, tens_succ, ← mul_assoc] at hLast
    exact hLast (Nat.mul_mod_left _ _)
  · by_contra hNot
    have hTens : (1 : Rat) ≤ tens scale := by exact_mod_cast tens_pos scale
    have hOne : (1 : Rat) ≤ b.shortest.digits := by
      have : 1 ≤ b.shortest.digits := by omega
      exact_mod_cast this
    have hLarge : (tens 15 : Rat) ≤ b.shortest.value := by
      calc (tens 15 : Rat) = tenPow 15 := (tenPow_natCast 15).symm
        _ ≤ tenPow b.shortest.exponent := tenPow_le_tenPow (le_of_lt (not_le.1 hNot))
        _ ≤ b.shortest.value := le_mul_of_one_le_left (le_of_lt (tenPow_pos _)) hOne
    have hSmall : (m : Rat) / tens scale ≤ m := div_le_self (Nat.cast_nonneg m) hTens
    have hMax : (m : Rat) < tens 15 := by exact_mod_cast hLess
    rw [hValue] at hLarge
    linarith

end Nearest

end Binary64

end RecordStore
