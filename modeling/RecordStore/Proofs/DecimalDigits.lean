import RecordStore.Proofs.Rounding

/-!
# Digits of a decimal made from a double

A double is made a decimal in steps, none of which is exact in all cases. Trading twos for tens
loses at most five parts in `2 ^ 96` at a time. Dropping digits one by one rounds again and again,
but all these roundings together are off by no more than five ninths of the last digit that is left:
a tenth of five ninths and a half are five ninths again.

## Main results

- `tradeTwos_keeps`: how much trading twos for tens can lose.
- `exists_dropDigits`, `trimPrecision_spec`: how far dropping digits can be off, and when it ends.
- `exists_cut`: what is left when all digits that are too many have been dropped.
- `trimZeros_spec`: zeros at the end can be dropped.
-/

namespace RecordStore.Decimal

open Binary64 (leadingBit)

/-! ## Twos and tens -/

/-- The most that is lost when a mantissa without room is halved: one in a fifth of its range. -/
def halvingLoss : Rat := 5 / 2 ^ 96

theorem halvingLoss_nonneg : 0 ≤ halvingLoss := by norm_num [halvingLoss]

/-- After so many steps a mantissa and a number of tens stand for a number or for a little less. -/
structure Keeps (steps : Nat) (x : Rat) (parts : Nat × Nat) : Prop where
  le : (parts.1 : Rat) / tens parts.2 ≤ x
  loss : x * (1 - steps * halvingLoss) ≤ (parts.1 : Rat) / tens parts.2

theorem Keeps.step {steps : Nat} {x y : Rat} {parts : Nat × Nat} (h : Keeps steps y parts)
    (hLe : y ≤ x) (hLoss : x * (1 - halvingLoss) ≤ y) : Keeps (steps + 1) x parts := by
  refine ⟨le_trans h.le hLe, le_trans ?_ h.loss⟩
  have hRest := mul_le_mul_of_nonneg_right hLe
    (mul_nonneg (Nat.cast_nonneg steps) halvingLoss_nonneg)
  push_cast
  linarith

/-- A step that changes nothing keeps the number. -/
theorem Keeps.same {steps : Nat} {x : Rat} {parts : Nat × Nat} (h : Keeps steps x parts)
    (hx : 0 ≤ x) : Keeps (steps + 1) x parts := by
  refine h.step (le_refl x) ?_
  have hLoss := mul_nonneg hx halvingLoss_nonneg
  linarith

/-- One of the twos is traded against half of the mantissa. -/
theorem Keeps.halve {k m t : Nat} {parts : Nat × Nat}
    (h : Keeps k (((m / 2 : Nat) : Rat) / (2 ^ k * tens t)) parts)
    (hLoss : (m : Rat) * (1 - halvingLoss) ≤ 2 * (m / 2 : Nat)) :
    Keeps (k + 1) (m / (2 ^ (k + 1) * tens t)) parts := by
  have hTens : (0 : Rat) < tens t := by exact_mod_cast tens_pos t
  have hUnits : (0 : Rat) < 2 ^ (k + 1) * tens t := by positivity
  have hHalf : ((m / 2 : Nat) : Rat) / (2 ^ k * tens t) =
      2 * (m / 2 : Nat) / (2 ^ (k + 1) * tens t) := by
    rw [pow_succ']
    field_simp
  have hLe : 2 * ((m / 2 : Nat) : Rat) ≤ m := by exact_mod_cast Nat.mul_div_le m 2
  rw [hHalf] at h
  refine h.step ?_ ?_
  · gcongr
  · rw [div_mul_eq_mul_div]
    gcongr

theorem tradeTwos_keeps (k m t : Nat) : Keeps k (m / (2 ^ k * tens t)) (tradeTwos k m t) := by
  induction k generalizing m t with
  | zero =>
    rw [tradeTwos_zero]
    refine ⟨?_, ?_⟩ <;> simp
  | succ k ih =>
    have hTens : (0 : Rat) < tens t := by exact_mod_cast tens_pos t
    unfold tradeTwos
    by_cases hEven : m % 2 = 0
    · rw [if_pos hEven]
      refine (ih (m / 2) t).halve ?_
      have hTwice : 2 * ((m / 2 : Nat) : Rat) = m := by
        have : 2 * (m / 2) = m := by omega
        exact_mod_cast this
      have hLoss := mul_nonneg (Nat.cast_nonneg m) halvingLoss_nonneg
      rw [hTwice]
      linarith
    · rw [if_neg hEven]
      by_cases hRoom : m * 5 < mantissaLimit
      · rw [if_pos hRoom]
        have hValue : (m : Rat) / (2 ^ (k + 1) * tens t) =
            (m * 5 : Nat) / (2 ^ k * tens (t + 1)) := by
          rw [tens_succ, pow_succ']
          push_cast
          field_simp
          ring
        rw [hValue]
        exact (ih (m * 5) (t + 1)).same (by positivity)
      · rw [if_neg hRoom]
        refine (ih (m / 2) t).halve ?_
        -- The half that is lost is little in a mantissa without room.
        have hLarge : (2 : Rat) ^ 96 ≤ m * 5 := by
          rw [← mantissaLimit_eq]
          exact_mod_cast Nat.not_lt.1 hRoom
        have hTwice : 2 * ((m / 2 : Nat) : Rat) + 1 = m := by
          have : 2 * (m / 2) + 1 = m := by omega
          exact_mod_cast this
        have hOne : (1 : Rat) ≤ m * halvingLoss := by
          rw [halvingLoss, mul_div_assoc', le_div_iff₀ (by norm_num)]
          linarith
        linarith

/-! ## Dropping digits -/

/-- The mantissa of a number at a scale, off by no more than what dropping digits one by one adds. -/
def Near (x : Rat) (scale m : Nat) : Prop := |(m : Rat) - x * tens scale| ≤ 5 / 9

/-- The mantissa of a number at a scale has more bits than a mantissa may keep. -/
def TooLong (x : Rat) (scale : Nat) : Prop := ∃ m, leadingBit ≤ m ∧ Near x scale m

theorem near_of_eq {x : Rat} {scale m : Nat} (h : x * tens scale = m) : Near x scale m := by
  rw [Near, h, sub_self, abs_zero]
  norm_num

theorem near_dropDigit {x : Rat} {scale m : Nat} (h : Near x (scale + 1) m) :
    Near x scale (dropDigit m) := by
  have hLower : 10 * dropDigit m ≤ m + 5 := by
    unfold dropDigit
    split <;> omega
  have hUpper : m ≤ 10 * dropDigit m + 5 := by
    unfold dropDigit
    split <;> omega
  have hLower : 10 * (dropDigit m : Rat) ≤ m + 5 := by exact_mod_cast hLower
  have hUpper : (m : Rat) ≤ 10 * dropDigit m + 5 := by exact_mod_cast hUpper
  unfold Near at h ⊢
  rw [tens_succ, Nat.cast_mul, Nat.cast_ofNat, abs_le] at h
  rw [abs_le]
  constructor <;> linarith

theorem exists_dropDigits {x : Rat} {scale : Nat} (k : Nat) {m : Nat} (hLarge : 2 ≤ x * tens scale)
    (h : Near x (scale + k) m) : ∃ m', dropDigits k m = some m' ∧ Near x scale m' := by
  induction k generalizing m with
  | zero => exact ⟨m, rfl, h⟩
  | succ k ih =>
    have hNear : Near x (scale + k) (dropDigit m) := near_dropDigit h
    have hTen : 10 ≤ m := by
      have hTens : (10 : Rat) ≤ tens (k + 1) := by
        have : tens 1 ≤ tens (k + 1) := tens_le_tens (by omega)
        exact_mod_cast this
      have hLarge : 2 * 10 ≤ x * tens scale * tens (k + 1) :=
        mul_le_mul hLarge hTens (by norm_num) (by linarith)
      unfold Near at h
      rw [tens_add, Nat.cast_mul, ← mul_assoc, abs_le] at h
      have hCast : (10 : Rat) ≤ m := by linarith
      exact_mod_cast hCast
    obtain ⟨m', hDropped, hNear⟩ := ih hNear
    refine ⟨m', ?_, hNear⟩
    rw [dropDigits, if_neg (by omega), hDropped]

/-- Digits are dropped until a mantissa fits or there is no digit left behind the point. With the
digit that was dropped last it did not fit. -/
theorem trimPrecision_spec {x : Rat} (scale : Nat) {m : Nat} (h : Near x scale m) :
    ∃ m' scale', trimPrecision scale m = (m', scale') ∧ scale' ≤ scale ∧ Near x scale' m' ∧
      (m' < leadingBit ∨ scale' = 0) ∧ ((scale' = scale ∧ m' = m) ∨ TooLong x (scale' + 1)) := by
  induction scale generalizing m with
  | zero => exact ⟨m, 0, rfl, Nat.le_refl 0, h, .inr rfl, .inl ⟨rfl, rfl⟩⟩
  | succ scale ih =>
    unfold trimPrecision
    by_cases hLong : leadingBit ≤ m
    · rw [if_pos hLong]
      obtain ⟨m', scale', hTrimmed, hScale, hNear, hEnd, hLast⟩ := ih (near_dropDigit h)
      refine ⟨m', scale', hTrimmed, Nat.le_succ_of_le hScale, hNear, hEnd, .inr ?_⟩
      rcases hLast with ⟨hSame, -⟩ | hDropped
      · exact ⟨m, hLong, by rw [hSame]; exact h⟩
      · exact hDropped
    · rw [if_neg hLong]
      exact ⟨m, scale + 1, rfl, Nat.le_refl _, h, .inl (Nat.not_le.1 hLong), .inl ⟨rfl, rfl⟩⟩

theorem trimZeros_spec (scale m : Nat) :
    ∃ m' scale', trimZeros scale m = (m', scale') ∧ scale' ≤ scale ∧ m' ≤ m ∧
      m' * tens scale = m * tens scale' := by
  induction scale generalizing m with
  | zero => exact ⟨m, 0, rfl, Nat.le_refl 0, Nat.le_refl m, rfl⟩
  | succ scale ih =>
    unfold trimZeros
    by_cases hZero : m % 10 = 0
    · rw [if_pos hZero]
      obtain ⟨m', scale', hTrimmed, hScale, hLe, hValue⟩ := ih (m / 10)
      refine ⟨m', scale', hTrimmed, Nat.le_succ_of_le hScale,
        Nat.le_trans hLe (Nat.div_le_self m 10), ?_⟩
      rw [tens_succ, ← Nat.mul_assoc, hValue, Nat.mul_right_comm,
        Nat.div_mul_cancel (Nat.dvd_of_mod_eq_zero hZero)]
    · rw [if_neg hZero]
      exact ⟨m, scale + 1, rfl, Nat.le_refl _, Nat.le_refl m, rfl⟩

/-! ## All cuts -/

/-- A mantissa and a scale as they come out of dropping digits: near the number at the scale, short
enough, and either exact or no shorter than need be. -/
structure Cut (x : Rat) (scale m : Nat) : Prop where
  scale_le : scale ≤ maxScale
  near : Near x scale m
  short : m < leadingBit ∨ scale = 0
  least : x * tens scale = m ∨ scale = maxScale ∨ TooLong x (scale + 1)

theorem exists_cut {x : Rat} {scale m : Nat} (hExact : x * tens scale = m)
    (hLarge : 2 ≤ x * tens maxScale) :
    ∃ m₁ m₂ scale₂, dropDigits (scale - maxScale) m = some m₁ ∧
      trimPrecision (min scale maxScale) m₁ = (m₂, scale₂) ∧ Cut x scale₂ m₂ := by
  by_cases hScale : scale ≤ maxScale
  · obtain ⟨m₂, scale₂, hTrimmed, hLe, hNear, hShort, hLast⟩ :=
      trimPrecision_spec scale (near_of_eq hExact)
    refine ⟨m, m₂, scale₂, ?_, ?_, Nat.le_trans hLe hScale, hNear, hShort, ?_⟩
    · rw [Nat.sub_eq_zero_of_le hScale]
      rfl
    · rw [Nat.min_eq_left hScale, hTrimmed]
    · rcases hLast with ⟨rfl, rfl⟩ | hDropped
      · exact .inl hExact
      · exact .inr (.inr hDropped)
  -- Digits beyond the largest scale are dropped whether or not the mantissa fits.
  · have hSplit : maxScale + (scale - maxScale) = scale := by omega
    obtain ⟨m₁, hDropped, hNear⟩ := exists_dropDigits (scale - maxScale) hLarge
      (show Near x (maxScale + (scale - maxScale)) m by rw [hSplit]; exact near_of_eq hExact)
    obtain ⟨m₂, scale₂, hTrimmed, hLe, hNear, hShort, hLast⟩ := trimPrecision_spec maxScale hNear
    refine ⟨m₁, m₂, scale₂, hDropped, ?_, hLe, hNear, hShort, ?_⟩
    · rw [Nat.min_eq_right (by omega), hTrimmed]
    · rcases hLast with ⟨hSame, -⟩ | hDropped
      · exact .inr (.inl hSame)
      · exact .inr (.inr hDropped)

end RecordStore.Decimal
