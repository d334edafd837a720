/-!
# Powers of two and ten

Powers with a natural exponent, for the widths of words and the places of digits.

## Main results

- `twos_succ`, `tens_succ`: one more factor.
- `twos_pos`, `tens_pos`: no power is zero.
- `tens_add`: places add up.
-/

namespace RecordStore

/-- The power of two with an exponent. -/
def twos (n : Nat) : Nat := Nat.pow 2 n

/-- The power of ten with an exponent. -/
def tens (n : Nat) : Nat := Nat.pow 10 n

@[simp] theorem twos_zero : twos 0 = 1 := rfl

theorem twos_succ (n : Nat) : twos (n + 1) = twos n * 2 := rfl

theorem twos_pos (n : Nat) : 0 < twos n := by
  induction n with
  | zero => exact Nat.one_pos
  | succ n ih => rw [twos_succ]; omega

@[simp] theorem tens_zero : tens 0 = 1 := rfl

theorem tens_succ (n : Nat) : tens (n + 1) = tens n * 10 := rfl

theorem tens_pos (n : Nat) : 0 < tens n := by
  induction n with
  | zero => exact Nat.one_pos
  | succ n ih => rw [tens_succ]; omega

theorem tens_add (m n : Nat) : tens (m + n) = tens m * tens n := by
  induction n with
  | zero => rw [Nat.add_zero, tens_zero, Nat.mul_one]
  | succ n ih => rw [← Nat.add_assoc, tens_succ, tens_succ, ih, Nat.mul_assoc]

end RecordStore
