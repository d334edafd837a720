import RecordStore.Proofs.DoubleToDecimal
import RecordStore.Proofs.ExactNumbers
import RecordStore.Proofs.StoredValues

/-!
# Decimals that survive

A decimal of 49 bits and at most 15 places is converted to the double nearest to it. What is written
for that double is read as the same double, and the decimal made from that has the value of the first
one, unless it lies in one of four ranges in which the last digit that is kept is about as fine as the
unit of the double. So every such decimal can be saved and loaded as often as one likes.

## Main results

- `Decimal.survives_of_steady`: a short decimal outside these ranges is loaded with its value.
-/

namespace RecordStore

namespace Json

theorem value?_doubleText_zero (negative : Bool) :
    (doubleText (.zero negative)).value? negative = some (.double (.zero negative)) := by
  have hShortest : (Binary64.zero negative).shortest = ⟨0, 0⟩ := rfl
  have hRead : (doubleText (.zero negative)).digits = 0 ∧
      -1 ≤ (doubleText (.zero negative)).place ∧ (doubleText (.zero negative)).place ≤ 0 := by
    rcases digits_doubleText (.zero negative) with ⟨hDigits, hPlace⟩ | ⟨-, hDigits, hPlace⟩
    · rw [hDigits, hPlace, hShortest]
      decide
    · rw [hDigits, hPlace, hShortest, Nat.zero_mul]
      decide
  obtain ⟨hDigits, hLower, hUpper⟩ := hRead
  refine value?_of_nearest? (isNone_doubleText _) ?_ (by omega) (by omega) ?_
  · rw [hDigits]
    decide
  · rw [hDigits, Nat.cast_zero, zero_mul]
    rfl

end Json

namespace Decimal

theorem units_eq_of_mul_tens {a b : Decimal} (hSign : a.negative = b.negative)
    (h : a.mantissa * tens b.scale = b.mantissa * tens a.scale) : a.units = b.units := by
  have hSame : a.mantissa * tens (maxScale - a.scale) = b.mantissa * tens (maxScale - b.scale) := by
    refine Nat.eq_of_mul_eq_mul_right (Nat.mul_pos (tens_pos a.scale) (tens_pos b.scale)) ?_
    calc a.mantissa * tens (maxScale - a.scale) * (tens a.scale * tens b.scale)
        = a.mantissa * tens b.scale * (tens (maxScale - a.scale) * tens a.scale) := by ring
      _ = b.mantissa * tens a.scale * (tens (maxScale - b.scale) * tens b.scale) := by
          rw [h, tens_sub_mul a.scale_le, tens_sub_mul b.scale_le]
      _ = b.mantissa * tens (maxScale - b.scale) * (tens a.scale * tens b.scale) := by ring
  unfold units
  rw [hSign]
  simp only [← Int.natCast_mul, hSame]

theorem units_of_mantissa_eq_zero {d : Decimal} (h : d.mantissa = 0) : d.units = 0 := by
  unfold units
  rw [h]
  simp

/-- Short, and outside the ranges in which the last digit is in doubt. -/
def steady (d : Decimal) : Bool := d.mantissa < 2 ^ 49 && d.scale ≤ 15 && !d.delicate

theorem steady_iff {d : Decimal} : d.steady = true ↔ d.Fits ∧ d.delicate = false := by
  rw [steady, Bool.and_eq_true, Bool.and_eq_true, decide_eq_true_eq, decide_eq_true_eq,
    Bool.not_eq_true']
  exact ⟨fun h => ⟨⟨h.1.1, h.1.2⟩, h.2⟩, fun h => ⟨⟨h.1.mantissa_lt, h.1.scale_le⟩, h.2⟩⟩

/-- What is loaded for a short decimal is a decimal with its units. -/
theorem exists_reread_of_steady {d : Decimal} (h : d.steady = true) :
    ∃ d', (Datum.decimal d).reread = .decimal d' ∧ d'.units = d.units := by
  obtain ⟨hFits, hPlain⟩ := steady_iff.1 h
  have hDouble := toBinary64?_of_fits hFits
  by_cases hZero : d.mantissa = 0
  · rw [magnitude, hZero, Nat.cast_zero, zero_div] at hDouble
    refine ⟨{ zero with negative := d.doubleSign },
      Datum.reread_decimal hDouble (Json.value?_doubleText_zero d.doubleSign), ?_⟩
    rw [units_of_mantissa_eq_zero hZero, units_of_mantissa_eq_zero rfl]
  · have hPos : 0 < d.mantissa := Nat.pos_of_ne_zero hZero
    obtain ⟨b, hNearest, hSign, -⟩ := Binary64.exists_close d.doubleSign
      (le_trans (by norm_num) (hFits.le_magnitude hPos))
      (le_trans (le_of_lt hFits.magnitude_lt) (by norm_num))
    rw [hNearest] at hDouble
    obtain ⟨d', hDecimal, hNegative, hValue⟩ := ofBinary64?_nearest? hFits hPos hPlain hNearest
    refine ⟨d', ?_, units_eq_of_mul_tens ?_ hValue⟩
    · have hRead :=
        Json.value?_doubleText_of_nearest? hPos hFits.mantissa_lt hFits.scale_le hNearest
      rw [← hSign] at hRead
      rw [Datum.reread_decimal hDouble hRead, Json.Number.datum, hDecimal]
    · rw [hNegative, doubleSign]
      simp [hZero]

theorem survives_of_steady {d : Decimal} (h : d.steady = true) : d.survives = true := by
  obtain ⟨d', hReread, hUnits⟩ := exists_reread_of_steady h
  rw [survives, hReread]
  simp [Datum.sameValue, Datum.units?, Datum.asDecimal?, hUnits]

-- In one of the ranges, `4194403.98` does not survive although it has no more than two places.
example : (ofParts? false 419440398 2).map (fun d => (d.delicate, d.survives)) =
    some (true, false) := by
  decide +kernel

end Decimal

end RecordStore
