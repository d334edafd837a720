import RecordStore.Proofs.ReadingParts
import RecordStore.Proofs.SameValues
import RecordStore.Proofs.WrittenTokens

/-!
# Number literals are read exactly

A literal is a digit and then digits and points. With the sign in front of it a literal without a point
is an integer if that is one of 64 bits, and otherwise a decimal, as long as its digits fit into a
mantissa. One with a single point is a decimal that keeps all digits behind the point if there are no
more than 28 in all. Nothing is rounded and nothing wraps; what fits nowhere is refused.

Digits are taken one by one, and a digit that is left out is what starts rounding. So reading is exact
wherever all digits fit (`keep_of_fits`), however many there are.

## Main results

- `ofDigits?_of_fits`: digits that fit into a mantissa and a scale are all kept.
- `number_eq`, `number_ofDigits`: the number of a decimal, and of one that was read.
- `number_exact`: what a number literal and its sign are read as.
-/

namespace RecordStore

namespace Decimal

/-! ## Digits -/

/-- Digits behind the point that have room are all kept. -/
theorem keep_of_fits {mantissa scale : Nat} {ds : List Char}
    (hScale : scale + ds.length ≤ maxScale)
    (hFits : Nat.ofDigitChars 10 ds mantissa < mantissaLimit) :
    keep mantissa scale ds = ⟨Nat.ofDigitChars 10 ds mantissa, scale + ds.length, []⟩ := by
  induction ds generalizing mantissa scale with
  | nil => rfl
  | cons d ds ih =>
    have hStep : Nat.ofDigitChars 10 (d :: ds) mantissa =
        Nat.ofDigitChars 10 ds (Nat.ofDigitChars 10 [d] mantissa) := by
      rw [← Nat.ofDigitChars_append, List.singleton_append]
    rw [hStep] at hFits ⊢
    rw [List.length_cons] at hScale ⊢
    have hNext : Nat.ofDigitChars 10 [d] mantissa < mantissaLimit :=
      Nat.lt_of_le_of_lt (le_ofDigitChars ds _) hFits
    have hKept := ih (show scale + 1 + ds.length ≤ maxScale by omega) hFits
    rw [keep, if_pos ⟨by omega, hNext⟩, hKept, Nat.add_assoc, Nat.add_comm 1]

variable {whole fraction cs : List Char}

/-- Digits left and right of a point that fit are read without loss. -/
theorem ofDigits?_of_fits (negative : Bool) (hNe : whole ≠ [])
    (hDigits : ∀ d ∈ whole ++ fraction, d.isDigit = true) (hScale : fraction.length ≤ maxScale)
    (hFits : digitsValue (whole ++ fraction) < mantissaLimit) :
    ofDigits? negative whole fraction =
      some ⟨negative && digitsValue (whole ++ fraction) != 0, digitsValue (whole ++ fraction),
        fraction.length, hFits, hScale⟩ := by
  have hKept : keep (digitsValue whole) 0 fraction =
      ⟨digitsValue (whole ++ fraction), fraction.length, []⟩ := by
    rw [digitsValue_append] at hFits ⊢
    rw [keep_of_fits (by omega) hFits, Nat.zero_add]
  have hWhole : ¬ mantissaLimit ≤ digitsValue whole := by
    have hLe := le_ofDigitChars fraction (digitsValue whole)
    rw [← digitsValue_append] at hLe
    omega
  have hAll : (whole ++ fraction).all Char.isDigit = true := List.all_eq_true.2 hDigits
  have hEmpty : whole.isEmpty = false := by simpa using hNe
  simp only [ofDigits?, hEmpty, hAll, hWhole, hKept, rounded, Bool.false_and, decide_false,
    Bool.not_true, Bool.or_self, Bool.false_eq_true, if_false, Option.bind_some, ofParts?]
  rw [dif_pos ⟨hFits, hScale⟩]

theorem ofDigits?_of_too_large (negative : Bool) (h : mantissaLimit ≤ digitsValue whole) :
    ofDigits? negative whole fraction = none := by
  simp [ofDigits?, h]

/-- A decimal is its mantissa with its sign, divided by its places. -/
theorem number_eq (d : Decimal) :
    d.number = ((if d.negative then -(d.mantissa : Int) else d.mantissa : Int) : Rat) /
      10 ^ d.scale := by
  have hTens : ((tens d.scale : Nat) : Rat) = 10 ^ d.scale := by
    show ((10 ^ d.scale : Nat) : Rat) = 10 ^ d.scale
    rw [Nat.cast_pow, Nat.cast_ofNat]
  rw [number, magnitude, hTens]
  cases d.negative with
  | false => simp
  | true => simp [neg_div]

/-- A sign in front of digits makes a number negative; zero is the same with and without it. -/
theorem number_ofDigits {negative : Bool} {mantissa scale : Nat} (hFits : mantissa < mantissaLimit)
    (hScale : scale ≤ maxScale) :
    (⟨negative && mantissa != 0, mantissa, scale, hFits, hScale⟩ : Decimal).number =
      ((if negative then -(mantissa : Int) else mantissa : Int) : Rat) / 10 ^ scale := by
  rw [number_eq]
  by_cases hZero : mantissa = 0 <;> simp [hZero]

/-! ## Points -/

/-- Without a point in it, a run of characters reaches to the next point. -/
theorem span_point (h : '.' ∉ whole) (rest : List Char) (hRest : ∀ c ∈ rest.head?, c = '.') :
    (whole ++ rest).takeWhile (· ≠ '.') = whole ∧ (whole ++ rest).dropWhile (· ≠ '.') = rest := by
  have hAll : ∀ c ∈ whole, decide (c ≠ '.') = true := by
    intro c hMem
    have hNe : c ≠ '.' := fun hPoint => h (hPoint ▸ hMem)
    simpa using hNe
  have hStop : ∀ c ∈ rest.head?, decide (c ≠ '.') = false := by
    intro c hHead
    simpa using hRest c hHead
  exact ⟨Text.takeWhile_append_stop hAll hStop, Text.dropWhile_append_stop hAll hStop⟩

theorem ofUnsigned?_point (negative : Bool) (h : '.' ∉ whole) :
    ofUnsigned? negative (whole ++ '.' :: fraction) = ofDigits? negative whole fraction := by
  obtain ⟨hTake, hDrop⟩ := span_point h ('.' :: fraction) (by simp)
  rw [ofUnsigned?, hTake, hDrop, List.drop_one, List.tail_cons]

theorem ofUnsigned?_no_point (negative : Bool) (h : '.' ∉ whole) :
    ofUnsigned? negative whole = ofDigits? negative whole [] := by
  obtain ⟨hTake, hDrop⟩ := span_point h [] (by simp)
  rw [List.append_nil] at hTake hDrop
  rw [ofUnsigned?, hTake, hDrop, List.drop_nil]

/-- A second point stands where only digits may. -/
theorem ofUnsigned?_points (negative : Bool) (h : 2 ≤ cs.count '.') :
    ofUnsigned? negative cs = none := by
  have hMem : '.' ∈ cs := List.count_pos_iff.1 (by omega)
  obtain ⟨whole, fraction, rfl, hWhole⟩ := List.eq_append_cons_of_mem hMem
  have hSecond : '.' ∈ fraction := by
    rw [List.count_append, List.count_cons_self, List.count_eq_zero.2 hWhole] at h
    exact List.count_pos_iff.1 (by omega)
  rw [ofUnsigned?_point negative hWhole]
  exact ofDigits?_of_not_digit negative (List.mem_append_right _ hSecond) (by decide)

end Decimal

namespace Sql

open Decimal (digitsValue)

/-! ## Literals -/

variable {negative : Bool} {digits : String} {d : Datum} {whole fraction : List Char}

/-- A number with its sign is read as a value, wherever it stands. -/
def ReadsNumber (negative : Bool) (digits : String) (d : Datum) : Prop :=
  ∀ c, (Reader.number negative digits).run c = .ok (.literal d, c)

/-- A number with its sign is refused, and the error shows both. -/
def RefusesNumber (negative : Bool) (digits : String) : Prop :=
  ∀ c, (Reader.number negative digits).run c =
    .error (.invalidNumber (if negative then "-" ++ digits else digits))

theorem readsNumber_iff :
    ReadsNumber negative digits d ↔ numberValue? negative digits.toList = some d := by
  constructor
  · intro h
    obtain ⟨d', hValue, hSame, -⟩ := Reader.number_run_iff.1 (h ⟨[], 0⟩)
    rw [hValue, Operand.literal.inj hSame]
  · intro h c
    exact Reader.number_run_iff.2 ⟨d, h, rfl, rfl⟩

theorem refusesNumber_of_none (h : numberValue? negative digits.toList = none) :
    RefusesNumber negative digits := by
  intro c
  have hText : numberText negative digits = if negative then "-" ++ digits else digits := by
    cases negative <;> rfl
  rw [Reader.number, h, hText]
  rfl

theorem natAbs_signedValue (negative : Bool) (ds : List Char) :
    (signedValue negative ds).natAbs = digitsValue ds := by
  cases negative with
  | false => exact Int.natAbs_natCast _
  | true => exact (Int.natAbs_neg _).trans (Int.natAbs_natCast _)

theorem fitsInt64_iff {i : Int} : fitsInt64 i = true ↔ -2 ^ 63 ≤ i ∧ i < 2 ^ 63 := by
  have hMax : Int64.maxValue.toInt = 2 ^ 63 - 1 := by decide
  rw [fitsInt64, Bool.and_eq_true, decide_eq_true_eq, decide_eq_true_eq, Int64.toInt_minValue, hMax]
  omega

/-- The characters of a number are digits and points, and a digit comes first. -/
theorem isDigit_of_isProper (h : (Token.number digits).isProper = true) :
    (∀ c ∈ digits.toList, c ≠ '.' → c.isDigit = true) ∧
      ∃ c cs, digits.toList = c :: cs ∧ c.isDigit = true := by
  cases hChars : digits.toList with
  | nil => simp [Token.isProper, hChars, isRun] at h
  | cons c cs =>
    rw [Token.isProper, hChars, isRun, Bool.and_eq_true, List.all_eq_true] at h
    refine ⟨fun d hMem hNe => ?_, c, cs, rfl, h.1⟩
    rcases List.mem_cons.1 hMem with rfl | hRest
    · exact h.1
    · have hContinues := h.2 d hRest
      simpa [continuesNumber, hNe] using hContinues

theorem numberValue?_of_decimal {cs : List Char}
    (h : isDigits cs = false ∨ fitsInt64 (signedValue negative cs) = false) :
    numberValue? negative cs = (Decimal.ofUnsigned? negative cs).map .decimal := by
  rw [numberValue?, if_neg]
  rcases h with h | h <;> simp [h]

theorem isDigits_of_forall {cs : List Char} (hNe : cs ≠ []) (hDigits : ∀ c ∈ cs, c.isDigit = true) :
    isDigits cs = true := by
  rw [isDigits, List.all_eq_true.2 hDigits, Bool.and_true, Bool.not_eq_true',
    List.isEmpty_eq_false_iff]
  exact hNe

theorem isDigits_of_point {cs : List Char} (h : '.' ∈ cs) : isDigits cs = false := by
  rw [isDigits, Bool.and_eq_false_iff, ← Bool.not_eq_true (cs.all _), List.all_eq_true]
  exact .inr fun hDigits => absurd (hDigits '.' h) (by decide)

/-- Digits that fit are read as the decimal that they are. -/
theorem exists_decimal (hNe : whole ≠ []) (hDigits : ∀ c ∈ whole ++ fraction, c.isDigit = true)
    (hScale : fraction.length ≤ maxScale) (hFits : digitsValue (whole ++ fraction) < mantissaLimit)
    (hValue : numberValue? negative digits.toList =
      (Decimal.ofDigits? negative whole fraction).map .decimal) :
    ∃ d : Decimal, d.scale = fraction.length ∧
      d.number = signedValue negative (whole ++ fraction) / 10 ^ fraction.length ∧
      ReadsNumber negative digits (.decimal d) := by
  rw [Decimal.ofDigits?_of_fits negative hNe hDigits hScale hFits] at hValue
  exact ⟨_, rfl, Decimal.number_ofDigits hFits hScale, readsNumber_iff.2 hValue⟩

/-- How a literal and its sign are read when nothing of them is lost. Without a point the numbers of
64 bits are integers and larger ones decimals, as long as there is room for them; with one point the
number of digits behind it is kept; two points are too many. -/
structure IsReadExactly (negative : Bool) (digits : String) : Prop where
  integer : '.' ∉ digits.toList →
    (-2 ^ 63 ≤ signedValue negative digits.toList ∧ signedValue negative digits.toList < 2 ^ 63 ↔
      ∃ i : Int64, i.toInt = signedValue negative digits.toList ∧
        ReadsNumber negative digits (.integer i))
  large : '.' ∉ digits.toList →
    ¬ (-2 ^ 63 ≤ signedValue negative digits.toList ∧
        signedValue negative digits.toList < 2 ^ 63) →
      (signedValue negative digits.toList).natAbs < 2 ^ 96 →
        ∃ d : Decimal, d.scale = 0 ∧ d.number = signedValue negative digits.toList ∧
          ReadsNumber negative digits (.decimal d)
  tooLarge : '.' ∉ digits.toList → 2 ^ 96 ≤ (signedValue negative digits.toList).natAbs →
    RefusesNumber negative digits
  point : ∀ whole fraction, digits.toList = whole ++ '.' :: fraction → '.' ∉ whole →
    '.' ∉ fraction → whole.length + fraction.length ≤ 28 →
      ∃ d : Decimal, d.scale = fraction.length ∧
        d.number = signedValue negative (whole ++ fraction) / 10 ^ fraction.length ∧
        ReadsNumber negative digits (.decimal d)
  points : 2 ≤ digits.toList.count '.' → RefusesNumber negative digits

section Proper

variable (hProper : (Token.number digits).isProper = true)

include hProper

theorem ne_nil_of_isProper : digits.toList ≠ [] := by
  obtain ⟨c, cs, hChars, -⟩ := (isDigit_of_isProper hProper).2
  rw [hChars]
  exact List.cons_ne_nil c cs

theorem all_isDigit_of_no_point (h : '.' ∉ digits.toList) :
    ∀ c ∈ digits.toList, c.isDigit = true := by
  intro c hMem
  exact (isDigit_of_isProper hProper).1 c hMem fun hPoint => h (hPoint ▸ hMem)

theorem exists_integer_iff (h : '.' ∉ digits.toList) :
    (-2 ^ 63 ≤ signedValue negative digits.toList ∧ signedValue negative digits.toList < 2 ^ 63) ↔
      ∃ i : Int64, i.toInt = signedValue negative digits.toList ∧
        ReadsNumber negative digits (.integer i) := by
  constructor
  · intro hRange
    have hDigits : isDigits digits.toList = true :=
      isDigits_of_forall (ne_nil_of_isProper hProper) (all_isDigit_of_no_point hProper h)
    have hValue := numberValue?_of_fits hDigits (fitsInt64_iff.2 hRange)
    exact ⟨_, Int64.toInt_ofInt_of_le hRange.1 hRange.2, readsNumber_iff.2 hValue⟩
  · rintro ⟨i, hInt, -⟩
    rw [← hInt]
    exact ⟨i.le_toInt, i.toInt_lt⟩

theorem exists_decimal_of_large (h : '.' ∉ digits.toList)
    (hRange : ¬ (-2 ^ 63 ≤ signedValue negative digits.toList ∧
      signedValue negative digits.toList < 2 ^ 63))
    (hFits : (signedValue negative digits.toList).natAbs < 2 ^ 96) :
    ∃ d : Decimal, d.scale = 0 ∧ d.number = signedValue negative digits.toList ∧
      ReadsNumber negative digits (.decimal d) := by
  rw [natAbs_signedValue] at hFits
  rw [← fitsInt64_iff, Bool.not_eq_true] at hRange
  have hValue := numberValue?_of_decimal (.inr hRange)
  rw [Decimal.ofUnsigned?_no_point negative h] at hValue
  have hExact := exists_decimal (ne_nil_of_isProper hProper)
    (by rw [List.append_nil]; exact all_isDigit_of_no_point hProper h) (Nat.zero_le _)
    (by rw [List.append_nil]; exact hFits) hValue
  simpa using hExact

theorem exists_decimal_of_point (hChars : digits.toList = whole ++ '.' :: fraction)
    (hWhole : '.' ∉ whole) (hFraction : '.' ∉ fraction)
    (hLength : whole.length + fraction.length ≤ 28) :
    ∃ d : Decimal, d.scale = fraction.length ∧
      d.number = signedValue negative (whole ++ fraction) / 10 ^ fraction.length ∧
      ReadsNumber negative digits (.decimal d) := by
  have hNe : whole ≠ [] := by
    rintro rfl
    obtain ⟨c, cs, hFirst, hDigit⟩ := (isDigit_of_isProper hProper).2
    obtain ⟨rfl, -⟩ := List.cons.inj (hChars.symm.trans hFirst)
    cases hDigit
  have hDigits : ∀ c ∈ whole ++ fraction, c.isDigit = true := by
    intro c hMem
    have hNot : c ≠ '.' := by
      rintro rfl
      exact (List.mem_append.1 hMem).elim hWhole hFraction
    have hAmong : c ∈ digits.toList := by
      rw [hChars, List.mem_append, List.mem_cons]
      exact (List.mem_append.1 hMem).imp_right .inr
    exact (isDigit_of_isProper hProper).1 c hAmong hNot
  have hFits : digitsValue (whole ++ fraction) < mantissaLimit := by
    have hLess := Decimal.digitsValue_lt hDigits
    rw [List.length_append] at hLess
    have hTens : tens (whole.length + fraction.length) ≤ tens 28 := tens_le_tens hLength
    have hRoom : tens 28 < mantissaLimit := by decide
    omega
  have hValue : numberValue? negative digits.toList =
      (Decimal.ofDigits? negative whole fraction).map .decimal := by
    have hPoint : isDigits digits.toList = false := isDigits_of_point (by rw [hChars]; simp)
    rw [numberValue?_of_decimal (.inl hPoint), hChars, Decimal.ofUnsigned?_point negative hWhole]
  exact exists_decimal hNe hDigits (show fraction.length ≤ 28 by omega) hFits hValue

end Proper

theorem refusesNumber_of_too_large (h : '.' ∉ digits.toList)
    (hLarge : 2 ^ 96 ≤ (signedValue negative digits.toList).natAbs) :
    RefusesNumber negative digits := by
  have hRange : fitsInt64 (signedValue negative digits.toList) = false := by
    rw [← Bool.not_eq_true, fitsInt64_iff]
    omega
  rw [natAbs_signedValue] at hLarge
  refine refusesNumber_of_none ?_
  rw [numberValue?_of_decimal (.inr hRange), Decimal.ofUnsigned?_no_point negative h,
    Decimal.ofDigits?_of_too_large negative hLarge]
  rfl

theorem refusesNumber_of_points (h : 2 ≤ digits.toList.count '.') :
    RefusesNumber negative digits := by
  have hMem : '.' ∈ digits.toList := List.count_pos_iff.1 (by omega)
  refine refusesNumber_of_none ?_
  rw [numberValue?_of_decimal (.inl (isDigits_of_point hMem)), Decimal.ofUnsigned?_points negative h]
  rfl

/-- **Number literals are exact or rejected.** Every number among the tokens of a text is read with
either sign as the number it is, without rounding and without wrapping, or is refused. -/
theorem number_exact {text : String} {ts : List Placed} (hTokens : tokens text = .ok ts)
    {digits : String} {offset : Nat} (hMem : ⟨.number digits, offset⟩ ∈ ts) (negative : Bool) :
    IsReadExactly negative digits := by
  have hProper : (Token.number digits).isProper = true := isProper_of_scan hTokens _ hMem
  exact {
    integer := exists_integer_iff hProper
    large := exists_decimal_of_large hProper
    tooLarge := refusesNumber_of_too_large
    point := fun _ _ => exists_decimal_of_point hProper
    points := refusesNumber_of_points }

/-- The smallest integer is one, but only with its sign; zeros in front do not count, zeros at the
end of a fraction do. -/
theorem number_exact_smallest_integer :
    tokens "9223372036854775808 007.50 1.2.3" =
        .ok [⟨.number "9223372036854775808", 0⟩, ⟨.number "007.50", 20⟩, ⟨.number "1.2.3", 27⟩] ∧
      (∃ i : Int64, i.toInt = -9223372036854775808 ∧
        ReadsNumber true "9223372036854775808" (.integer i)) ∧
      (∃ d : Decimal, d.scale = 0 ∧ d.number = 9223372036854775808 ∧
        ReadsNumber false "9223372036854775808" (.decimal d)) ∧
      (∃ d : Decimal, d.scale = 2 ∧ d.number = -15 / 2 ∧ ReadsNumber true "007.50" (.decimal d)) ∧
      RefusesNumber true "1.2.3" := by
  have hTokens : tokens "9223372036854775808 007.50 1.2.3" =
      .ok [⟨.number "9223372036854775808", 0⟩, ⟨.number "007.50", 20⟩, ⟨.number "1.2.3", 27⟩] := by
    decide +kernel
  have hNegative : signedValue true "9223372036854775808".toList = -9223372036854775808 := by decide
  have hPositive : signedValue false "9223372036854775808".toList = 9223372036854775808 := by decide
  have hPrice : signedValue true (['0', '0', '7'] ++ ['5', '0']) = -750 := by decide
  have hSmallest := number_exact hTokens (List.mem_cons_self) true
  have hLargest := number_exact hTokens (List.mem_cons_self) false
  have hCents := number_exact hTokens (List.mem_cons_of_mem _ List.mem_cons_self) true
  have hVersion := number_exact hTokens (List.mem_cons_of_mem _ (List.mem_cons_of_mem _
    List.mem_cons_self)) true
  refine ⟨hTokens, ?_, ?_, ?_, hVersion.points (by decide)⟩
  · obtain ⟨i, hInt, hReads⟩ := (hSmallest.integer (by decide)).1 (by rw [hNegative]; decide)
    exact ⟨i, hInt.trans hNegative, hReads⟩
  · obtain ⟨d, hScale, hNumber, hReads⟩ :=
      hLargest.large (by decide) (by rw [hPositive]; decide) (by rw [hPositive]; decide)
    rw [hPositive] at hNumber
    exact ⟨d, hScale, by rw [hNumber]; norm_num, hReads⟩
  · obtain ⟨d, hScale, hNumber, hReads⟩ :=
      hCents.point ['0', '0', '7'] ['5', '0'] (by decide) (by decide) (by decide) (by decide)
    have hFraction : d.number = -15 / 2 := by
      calc d.number = ((-750 : Int) : Rat) / 10 ^ 2 := by rw [hNumber, hPrice]; rfl
        _ = -15 / 2 := by norm_num
    exact ⟨d, hScale, hFraction, hReads⟩

end Sql

end RecordStore
