import Mathlib.Data.String.Basic
import RecordStore.Proofs.StampFields

/-!
# The order of written moments

Texts are compared character by character. Where the same number of characters stands in front on
both sides, these are compared first (`compare_append`), and digits are compared as the numbers they
make (`compare_ofDigitChars`). Numbers, on their part, are compared by quotient and remainder
(`compare_div_mod`), and days as their dates. So comparing written moments and comparing the
milliseconds since 1970 come down to the same parts, from the year to the millisecond.

## Main results

- `compare_toList`: texts compare as their characters do.
- `compare_millisecond`: comparing milliseconds part by part.
- `compare_stamp`: written moments compare as the moments do to the millisecond.
-/

namespace RecordStore

/-! ## Comparing by parts -/

section

variable {α β : Type} [LT α] [Ord α] [Std.LawfulLTOrd α] [LT β] [Ord β] [Std.LawfulLTOrd β]

/-- What decides both ways round decides how things compare. -/
theorem compare_congr {a b : α} {c d : β} (hLt : a < b ↔ c < d) (hGt : b < a ↔ d < c) :
    compare a b = compare c d := by
  have hLess : compare a b = .lt ↔ compare c d = .lt := by
    rw [Std.LawfulLTCmp.eq_lt_iff_lt, Std.LawfulLTCmp.eq_lt_iff_lt, hLt]
  have hMore : compare a b = .gt ↔ compare c d = .gt := by
    rw [Std.OrientedCmp.gt_iff_lt, Std.OrientedCmp.gt_iff_lt, Std.LawfulLTCmp.eq_lt_iff_lt,
      Std.LawfulLTCmp.eq_lt_iff_lt, hGt]
  cases h : compare a b with
  | lt => exact (hLess.1 h).symm
  | gt => exact (hMore.1 h).symm
  | eq =>
    cases h' : compare c d with
    | lt => exact absurd (h.symm.trans (hLess.2 h')) (by decide)
    | gt => exact absurd (h.symm.trans (hMore.2 h')) (by decide)
    | eq => rfl

end

theorem compare_natCast (m n : Nat) : compare (m : Int) n = compare m n :=
  compare_congr Int.ofNat_lt Int.ofNat_lt

theorem compare_toNat {x y : Int} (hx : 0 ≤ x) (hy : 0 ≤ y) :
    compare x.toNat y.toNat = compare x y :=
  compare_congr (by omega) (by omega)

/-- Numbers compare as their quotients do, and after those as their remainders. -/
theorem compare_div_mod {k : Int} (hk : 0 < k) (x y : Int) :
    compare x y = (compare (x / k) (y / k)).then (compare (x % k) (y % k)) := by
  have hx := Int.mul_ediv_add_emod x k
  have hy := Int.mul_ediv_add_emod y k
  -- The divisor is a variable, so what the quotients decide is taken from their monotonicity.
  rcases Int.lt_trichotomy (x / k) (y / k) with h | h | h
  · have hLt : x < y := Int.lt_of_not_ge fun hLe => Int.not_le.2 h (Int.ediv_le_ediv hk hLe)
    rw [Int.compare_eq_lt.2 h, Int.compare_eq_lt.2 hLt]
    rfl
  · rw [h] at hx
    rw [Int.compare_eq_eq.2 h, Ordering.eq_then]
    exact compare_congr (by omega) (by omega)
  · have hLt : y < x := Int.lt_of_not_ge fun hLe => Int.not_le.2 h (Int.ediv_le_ediv hk hLe)
    rw [Int.compare_eq_gt.2 h, Int.compare_eq_gt.2 hLt]
    rfl

theorem compare_div_mod_nat {k : Nat} (hk : 0 < k) (x y : Nat) :
    compare x y = (compare (x / k) (y / k)).then (compare (x % k) (y % k)) := by
  have hCast := compare_div_mod (Int.natCast_pos.2 hk) x y
  simpa only [← Int.natCast_ediv, ← Int.natCast_emod, compare_natCast] using hCast

/-! ## Comparing characters -/

theorem compare_eq_lt_iff (cs ds : List Char) : compare cs ds = .lt ↔ cs < ds := by
  induction cs generalizing ds with
  | nil =>
    cases ds with
    | nil => decide
    | cons d ds => exact iff_of_true rfl (List.nil_lt_cons d ds)
  | cons c cs ih =>
    cases ds with
    | nil => exact iff_of_false (by nofun) (List.not_lt_nil _)
    | cons d ds =>
      rw [List.compare_cons_cons, Ordering.then_eq_lt, ih, List.cons_lt_cons_iff,
        Std.LawfulLTCmp.eq_lt_iff_lt, Std.compare_eq_iff_eq]

instance instLawfulLTOrdListChar : Std.LawfulLTOrd (List Char) where
  eq_lt_iff_lt := compare_eq_lt_iff _ _

/-- Texts compare as their characters do. -/
theorem compare_toList (s t : String) : compare s.toList t.toList = compare s t :=
  compare_congr String.lt_iff.symm String.lt_iff.symm

/-- Characters in front of others decide, if there are as many on both sides. -/
theorem compare_append {cs ds : List Char} (h : cs.length = ds.length) (xs ys : List Char) :
    compare (cs ++ xs) (ds ++ ys) = (compare cs ds).then (compare xs ys) := by
  induction cs generalizing ds with
  | nil =>
    rw [List.length_eq_zero_iff.1 h.symm]
    rfl
  | cons c cs ih =>
    cases ds with
    | nil => exact absurd h (Nat.succ_ne_zero _)
    | cons d ds =>
      rw [List.cons_append, List.cons_append, List.compare_cons_cons, List.compare_cons_cons,
        ih (Nat.succ.inj h), Ordering.then_assoc]

theorem compare_cons_same (c : Char) (xs ys : List Char) :
    compare (c :: xs) (c :: ys) = compare xs ys := by
  rw [List.compare_cons_cons, Std.compare_self, Ordering.eq_then]

theorem compare_toNat_char (c d : Char) : compare c.toNat d.toNat = compare c d :=
  compare_congr Iff.rfl Iff.rfl

/-- Digits that continue a number are compared after it. -/
theorem compare_ofDigitChars {cs ds : List Char} (h : cs.length = ds.length)
    (hcs : ∀ c ∈ cs, c.isDigit = true) (hds : ∀ d ∈ ds, d.isDigit = true) (x y : Nat) :
    compare (Nat.ofDigitChars 10 cs x) (Nat.ofDigitChars 10 ds y) =
      (compare x y).then (compare cs ds) := by
  induction cs generalizing ds x y with
  | nil =>
    rw [List.length_eq_zero_iff.1 h.symm]
    exact Ordering.then_eq.symm
  | cons c cs ih =>
    cases ds with
    | nil => exact absurd h (Nat.succ_ne_zero _)
    | cons d ds =>
      obtain ⟨hc, hcs⟩ := List.forall_mem_cons.1 hcs
      obtain ⟨hd, hds⟩ := List.forall_mem_cons.1 hds
      rw [Nat.ofDigitChars_cons, Nat.ofDigitChars_cons, ih (Nat.succ.inj h) hcs hds,
        List.compare_cons_cons, ← Ordering.then_assoc]
      -- One more digit is the remainder by ten of the number read so far.
      have hDigit : compare (10 * x + (c.toNat - '0'.toNat)) (10 * y + (d.toNat - '0'.toNat)) =
          (compare x y).then (compare c d) := by
        have hZero : '0'.toNat = 48 := rfl
        have hc := Decimal.digit_bounds hc
        have hd := Decimal.digit_bounds hd
        have hDigits : compare (c.toNat - '0'.toNat) (d.toNat - '0'.toNat) =
            compare c.toNat d.toNat := compare_congr (by omega) (by omega)
        rw [compare_div_mod_nat (k := 10) (by decide), ← compare_toNat_char, ← hDigits]
        congr 2 <;> omega
      rw [hDigit]

namespace Moment

theorem Spells.compare_append {width m n : Nat} {cs ds : List Char} (hm : Spells width m cs)
    (hn : Spells width n ds) (xs ys : List Char) :
    compare (cs ++ xs) (ds ++ ys) = (compare m n).then (compare xs ys) := by
  have hLength := hm.length_eq.trans hn.length_eq.symm
  have hDigits := compare_ofDigitChars hLength hm.digits hn.digits 0 0
  rw [hm.value, hn.value, Std.compare_self, Ordering.eq_then] at hDigits
  rw [RecordStore.compare_append hLength, hDigits]

/-! ## Comparing written moments -/

theorem compare_timeOfDay (s t : Nat) :
    compare s t = (compare (s / 3600) (t / 3600)).then
      ((compare (s / 60 % 60) (t / 60 % 60)).then (compare (s % 60) (t % 60))) := by
  rw [compare_div_mod_nat (k := 60) (by decide) s t,
    compare_div_mod_nat (k := 60) (by decide) (s / 60) (t / 60), Nat.div_div_eq_div_mul,
    Nat.div_div_eq_div_mul, Ordering.then_assoc]

theorem compare_millisecond (a b : Moment) :
    compare a.millisecond b.millisecond = (Date.order a.date b.date).then
      ((compare a.timeOfDay b.timeOfDay).then
        (compare a.millisecondOfSecond b.millisecondOfSecond)) := by
  have hTime : compare a.timeOfDay b.timeOfDay =
      compare (a.second % secondsPerDay) (b.second % secondsPerDay) :=
    compare_toNat (Int.emod_nonneg _ (by decide)) (Int.emod_nonneg _ (by decide))
  have hMillisecond : compare a.millisecondOfSecond b.millisecondOfSecond =
      compare (a.millisecond % 1000) (b.millisecond % 1000) :=
    compare_toNat (Int.emod_nonneg _ (by decide)) (Int.emod_nonneg _ (by decide))
  rw [hTime, hMillisecond, date, date, Date.order_ofDayNumber, ← Ordering.then_assoc,
    ← compare_div_mod (by decide), ← millisecond_div, ← millisecond_div,
    ← compare_div_mod (by decide)]

variable {a b : Moment}

/-- Written moments compare as the moments do to the millisecond. -/
theorem compare_stamp (ha : a.HasFourDigitYear) (hb : b.HasFourDigitYear) :
    compare a.stamp b.stamp = compare a.millisecond b.millisecond := by
  have hA := ha.spelledParts
  have hB := hb.spelledParts
  have hYear : compare a.date.year.toNat b.date.year.toNat = compare a.date.year b.date.year :=
    compare_toNat ha.1 hb.1
  -- Part by part on the left; on the right the same parts come out of quotients and remainders.
  rw [← compare_toList, stamp, stamp, String.toList_ofList, String.toList_ofList, stampChars_eq ha,
    stampChars_eq hb, hA.year.compare_append hB.year, compare_cons_same,
    hA.month.compare_append hB.month, compare_cons_same, hA.day.compare_append hB.day,
    compare_cons_same, hA.hour.compare_append hB.hour, compare_cons_same,
    hA.minute.compare_append hB.minute, compare_cons_same, hA.second.compare_append hB.second,
    compare_cons_same, hA.millisecond.compare_append hB.millisecond, Std.compare_self, hYear,
    compare_millisecond, compare_timeOfDay a.timeOfDay]
  simp only [Date.order, compareLex, compareOn, Ordering.then_assoc, Ordering.then_eq]

theorem millisecond_mono (h : a.nanoseconds ≤ b.nanoseconds) : a.millisecond ≤ b.millisecond :=
  Int.ediv_le_ediv (by decide) h

end Moment

end RecordStore
