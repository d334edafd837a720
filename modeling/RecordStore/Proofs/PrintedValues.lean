import RecordStore.Proofs.NumberLiterals
import RecordStore.Proofs.PrintedTokens

/-!
# Printed values are read back

A value is printed as tokens that spell a value of the same kind and the same size. Texts, booleans,
null, the current time and integers come back as they are. A decimal is printed with all its digits
and with its sign, also if it is zero. Its text is read as an integer if it has no point and 64 bits
are enough, and then and for zero the scale or the sign of the decimal are lost, but not its number.

The digits of the mantissa, with zeros in front, are the digits left and right of the point. They fit,
since they come from a decimal, so nothing is rounded when they are read (`ofDigits?_of_fits`).

## Main results

- `digitsValue_digits`, `whole_append_fraction`: the digits of a decimal stand for its mantissa.
- `exists_sameSize`: a printed decimal is read as a number of the same size.
- `exists_spellsOperand`: what a printed operand is read as.
-/

namespace RecordStore

namespace Decimal

variable (d : Decimal)

/-! ## Digits of a decimal -/

/-- The digits left of the point. -/
def whole : List Char := d.digits.take (d.digits.length - d.scale)

/-- The digits right of the point. -/
def fraction : List Char := d.digits.drop (d.digits.length - d.scale)

/-- The written form without the sign. -/
def unsigned : List Char := d.whole ++ if d.scale = 0 then [] else '.' :: d.fraction

theorem toChars_eq : d.toChars = (if d.negative then ['-'] else []) ++ d.unsigned := by
  rw [unsigned, ← List.append_assoc]
  rfl

theorem scale_lt_length_digits : d.scale < d.digits.length := by
  rw [digits, List.length_append, List.length_replicate]
  omega

theorem isDigit_digits : ∀ c ∈ d.digits, c.isDigit = true := by
  intro c hMem
  rcases List.mem_append.1 hMem with hZero | hShown
  · rw [List.eq_of_mem_replicate hZero]
    rfl
  · exact isDigit_toDigits _ c hShown

theorem digitsValue_digits : digitsValue d.digits = d.mantissa := by
  rw [digits, digitsValue_append, digitsValue, Nat.ofDigitChars_replicate_zero, Nat.mul_zero,
    Nat.ofDigitChars_ten_toDigits]

theorem whole_append_fraction : d.whole ++ d.fraction = d.digits := List.take_append_drop _ _

theorem length_fraction : d.fraction.length = d.scale := by
  have hScale := d.scale_lt_length_digits
  rw [fraction, List.length_drop]
  omega

theorem whole_ne_nil : d.whole ≠ [] := by
  have hScale := d.scale_lt_length_digits
  rw [← List.length_pos_iff, whole, List.length_take]
  omega

theorem isDigit_whole : ∀ c ∈ d.whole, c.isDigit = true := fun c hMem =>
  d.isDigit_digits c (List.mem_of_mem_take hMem)

theorem isDigit_fraction : ∀ c ∈ d.fraction, c.isDigit = true := fun c hMem =>
  d.isDigit_digits c (List.mem_of_mem_drop hMem)

theorem point_notMem_whole : '.' ∉ d.whole := fun hMem =>
  absurd (d.isDigit_whole '.' hMem) (by decide)

end Decimal

namespace Sql

open Decimal (digitsValue isDigit_toDigits)
open Grammar

/-! ## Numbers -/

theorem continuesNumber_of_isDigit {c : Char} (h : c.isDigit = true) :
    continuesNumber c = true := by
  rw [continuesNumber, h, Bool.true_or]

/-- Digits, possibly with more of them and points behind, are a number. -/
theorem isProper_number {cs ds : List Char} (hNe : cs ≠ []) (hDigits : ∀ c ∈ cs, c.isDigit = true)
    (hMore : ∀ c ∈ ds, continuesNumber c = true) :
    (Token.number (String.ofList (cs ++ ds))).isProper = true := by
  cases cs with
  | nil => exact absurd rfl hNe
  | cons c cs =>
    obtain ⟨hFirst, hRest⟩ := List.forall_mem_cons.1 hDigits
    have hAll : ∀ d ∈ cs ++ ds, continuesNumber d = true := by
      intro d hMem
      rcases List.mem_append.1 hMem with hLeft | hRight
      · exact continuesNumber_of_isDigit (hRest d hLeft)
      · exact hMore d hRight
    rw [Token.isProper, String.toList_ofList, List.cons_append, isRun, hFirst, Bool.true_and]
    exact List.all_eq_true.2 hAll

theorem isProper_toDigits (n : Nat) :
    (Token.number (String.ofList (Nat.toDigits 10 n))).isProper = true := by
  have hNone : ∀ c ∈ ([] : List Char), continuesNumber c = true := by simp
  have hProper := isProper_number Nat.toDigits_ne_nil (isDigit_toDigits n) hNone
  rwa [List.append_nil] at hProper

theorem isProper_unsigned (d : Decimal) :
    (Token.number (String.ofList d.unsigned)).isProper = true := by
  refine isProper_number d.whole_ne_nil d.isDigit_whole fun c hMem => ?_
  split at hMem
  · cases hMem
  · rcases List.mem_cons.1 hMem with rfl | hFraction
    · rfl
    · exact continuesNumber_of_isDigit (d.isDigit_fraction c hFraction)

theorem number_eq_signedValue (d : Decimal) :
    d.number = (signedValue d.negative (d.whole ++ d.fraction) : Rat) / 10 ^ d.fraction.length := by
  rw [Decimal.number_eq, signedValue, d.whole_append_fraction, d.digitsValue_digits,
    d.length_fraction]

/-- A value is a number of the same size as a decimal. -/
structure SameSize (d : Decimal) (e : Datum) : Prop where
  isNumber : e.asDecimal?.isSome = true
  sameValue : (Datum.decimal d).sameValue e = true

theorem sameSize_of_number? {d : Decimal} {e : Datum} (hNumber : e.asDecimal?.isSome = true)
    (h : e.number? = some d.number) : SameSize d e :=
  ⟨hNumber, Datum.sameValue_iff.2 (.inr ⟨d.number, rfl, h⟩)⟩

/-- What is read as a decimal has all the digits that were printed. -/
theorem exists_sameSize_of_decimal {d : Decimal}
    (h : numberValue? d.negative d.unsigned =
      (Decimal.ofDigits? d.negative d.whole d.fraction).map .decimal) :
    ∃ e, numberValue? d.negative d.unsigned = some e ∧ SameSize d e := by
  have hDigits : ∀ c ∈ d.whole ++ d.fraction, c.isDigit = true := by
    rw [d.whole_append_fraction]
    exact d.isDigit_digits
  have hFits : digitsValue (d.whole ++ d.fraction) < mantissaLimit := by
    rw [d.whole_append_fraction, d.digitsValue_digits]
    exact d.mantissa_lt
  have hScale : d.fraction.length ≤ maxScale := d.length_fraction ▸ d.scale_le
  rw [← String.toList_ofList (l := d.unsigned)] at h ⊢
  obtain ⟨e, -, hNumber, hReads⟩ := exists_decimal d.whole_ne_nil hDigits hScale hFits h
  rw [← number_eq_signedValue] at hNumber
  exact ⟨_, readsNumber_iff.1 hReads, sameSize_of_number? rfl (congrArg some hNumber)⟩

/-- An integer that was printed as a decimal is of the size of the decimal. -/
theorem sameSize_integer {d : Decimal} (hScale : d.fraction = [])
    (hFits : fitsInt64 (signedValue d.negative d.whole) = true) :
    SameSize d (.integer (Int64.ofInt (signedValue d.negative d.whole))) := by
  obtain ⟨hLower, hUpper⟩ := fitsInt64_iff.1 hFits
  have hNumber := number_eq_signedValue d
  rw [hScale, List.append_nil, List.length_nil, pow_zero, div_one] at hNumber
  refine sameSize_of_number? rfl ?_
  rw [Datum.number?, Int64.toInt_ofInt_of_le hLower hUpper, hNumber]

/-- The digits of a decimal are read as a number of its size. Without a point they may be an integer. -/
theorem exists_sameSize (d : Decimal) :
    ∃ e, numberValue? d.negative d.unsigned = some e ∧ SameSize d e := by
  by_cases hScale : d.scale = 0
  · have hUnsigned : d.unsigned = d.whole := by
      rw [Decimal.unsigned, if_pos hScale, List.append_nil]
    have hFraction : d.fraction = [] := List.length_eq_zero_iff.1 (d.length_fraction.trans hScale)
    have hDigits : isDigits d.whole = true := isDigits_of_forall d.whole_ne_nil d.isDigit_whole
    cases hFits : fitsInt64 (signedValue d.negative d.whole) with
    | true =>
      rw [hUnsigned]
      exact ⟨_, numberValue?_of_fits hDigits hFits, sameSize_integer hFraction hFits⟩
    | false =>
      refine exists_sameSize_of_decimal ?_
      rw [hUnsigned, hFraction, numberValue?_of_decimal (.inr hFits),
        Decimal.ofUnsigned?_no_point _ d.point_notMem_whole]
  · have hUnsigned : d.unsigned = d.whole ++ '.' :: d.fraction := by
      rw [Decimal.unsigned, if_neg hScale]
    have hPoint : '.' ∈ d.whole ++ '.' :: d.fraction := by simp
    refine exists_sameSize_of_decimal ?_
    rw [hUnsigned, numberValue?_of_decimal (.inl (isDigits_of_point hPoint)),
      Decimal.ofUnsigned?_point _ d.point_notMem_whole]

/-- The digits of an integer are read as that integer. -/
theorem numberValue?_integer (i : Int64) :
    numberValue? (decide (i.toInt < 0)) (Nat.toDigits 10 i.toInt.natAbs) = some (.integer i) := by
  have hDigits : isDigits (Nat.toDigits 10 i.toInt.natAbs) = true :=
    isDigits_of_forall Nat.toDigits_ne_nil (isDigit_toDigits _)
  have hSigned : signedValue (decide (i.toInt < 0)) (Nat.toDigits 10 i.toInt.natAbs) = i.toInt := by
    rw [signedValue, digitsValue, Nat.ofDigitChars_ten_toDigits]
    by_cases hNegative : i.toInt < 0
    · rw [if_pos (decide_eq_true hNegative)]
      omega
    · rw [if_neg (by simpa using hNegative)]
      omega
  have hFits : fitsInt64 i.toInt = true := fitsInt64_iff.2 ⟨i.le_toInt, i.toInt_lt⟩
  rw [numberValue?_of_fits hDigits (by rw [hSigned]; exact hFits), hSigned, Int64.ofInt_toInt]

/-! ## Operands -/

/-- A number printed behind its sign is read with it. -/
theorem exists_spellsOperand_number {negative : Bool} {cs : List Char} {d : Datum}
    (hProper : (Token.number (String.ofList cs)).isProper = true)
    (hValue : numberValue? negative cs = some d) :
    ∃ ts, Prints ((if negative then ['-'] else []) ++ cs) ts ∧ SpellsOperand ts (.literal d) := by
  obtain ⟨-, c, digits, hChars, hDigit⟩ := isDigit_of_isProper hProper
  have hNumber := prints_number hProper
  have hRead : numberValue? negative (String.ofList cs).toList = some d := by
    rwa [String.toList_ofList]
  rw [String.toList_ofList] at hChars hNumber
  cases negative with
  | false => exact ⟨_, hNumber, .number hRead⟩
  | true =>
    have hNotHyphen : c ≠ '-' := by
      rintro rfl
      cases hDigit
    have hSign : ∀ rest, Gives ['-'] [.minus] (cs ++ rest) := fun rest =>
      gives_minus (by simp [hChars, hNotHyphen])
    exact ⟨_, hNumber.behind hSign, .negative hRead⟩

/-- What an operand is read back as: itself, or for a decimal any number of its size. -/
inductive Operand.ReadsAs : Operand → Operand → Prop
  | same (o : Operand) : ReadsAs o o
  | number {d : Decimal} {e : Datum} : SameSize d e → ReadsAs (.literal (.decimal d)) (.literal e)

theorem Operand.ReadsAs.trans {a b c : Operand} (h : a.ReadsAs b) (hNext : b.ReadsAs c) :
    a.ReadsAs c := by
  cases h with
  | same => exact hNext
  | number hSize =>
    cases hNext with
    | same => exact .number hSize
    | number hSize' =>
      exact .number ⟨hSize'.isNumber,
        Datum.sameValue_equivalence.trans hSize.sameValue hSize'.sameValue⟩

/-- No placeholder is read where none was printed. -/
theorem Operand.ReadsAs.ne_placeholder {a b : Operand} (h : a.ReadsAs b)
    (hValue : ∀ i, a ≠ .placeholder i) : ∀ i, b ≠ .placeholder i := by
  cases h with
  | same => exact hValue
  | number => simp

theorem prints_now :
    Prints (Operand.display .now).toList
      [.name "datetime", .leftParen, .text "now", .rightParen] := by
  have hText : (Operand.display .now).toList =
      "datetime".toList ++ '(' :: (enclosed '\'' "now" ++ [')']) := by decide
  have hProper : (Token.name "datetime").isProper = true := by decide
  have hStops : continuesName '(' = false := by decide
  rw [hText]
  exact (prints_text "now").parentheses.behind fun rest =>
    gives_of_readsBefore (readsBefore_name hProper) (endsRun_cons hStops _)

theorem prints_integer (i : Int64) :
    ∃ ts, Prints (Datum.integer i).toChars ts ∧ SpellsOperand ts (.literal (.integer i)) := by
  have hChars : (Datum.integer i).toChars =
      (if decide (i.toInt < 0) then ['-'] else []) ++ Nat.toDigits 10 i.toInt.natAbs := by
    simp only [decide_eq_true_eq]
    exact Datum.toList_toString i.toInt
  rw [hChars]
  exact exists_spellsOperand_number (isProper_toDigits _) (numberValue?_integer i)

/-- What is printed for a value spells a literal it may be read as. -/
theorem exists_spellsOperand_literal (d : Datum) :
    ∃ ts e, Prints d.toChars ts ∧ SpellsOperand ts (.literal e) ∧
      (Operand.literal d).ReadsAs (.literal e) := by
  cases d with
  | null => exact ⟨_, _, prints_name (by decide), .null (by decide), .same _⟩
  | bool flag =>
    cases flag with
    | true => exact ⟨_, _, prints_name (by decide), .isTrue (by decide), .same _⟩
    | false => exact ⟨_, _, prints_name (by decide), .isFalse (by decide), .same _⟩
  | integer i =>
    obtain ⟨ts, hPrints, hSpells⟩ := prints_integer i
    exact ⟨ts, _, hPrints, hSpells, .same _⟩
  | decimal d =>
    obtain ⟨e, hValue, hSize⟩ := exists_sameSize d
    obtain ⟨ts, hPrints, hSpells⟩ := exists_spellsOperand_number (isProper_unsigned d) hValue
    rw [← d.toChars_eq] at hPrints
    exact ⟨ts, e, hPrints, hSpells, .number hSize⟩
  | text s => exact ⟨_, _, prints_text s, .text s, .same _⟩

/-- What is printed for an operand that is no placeholder spells an operand it may be read as. -/
theorem exists_spellsOperand {o : Operand} (h : ∀ i, o ≠ .placeholder i) :
    ∃ ts o', Prints o.display.toList ts ∧ SpellsOperand ts o' ∧ o.ReadsAs o' := by
  cases o with
  | placeholder i => exact absurd rfl (h i)
  | now => exact ⟨_, _, prints_now, .nowCall (by decide) (by decide), .same _⟩
  | literal d =>
    obtain ⟨ts, e, hPrints, hSpells, hReads⟩ := exists_spellsOperand_literal d
    have hDisplay : (Operand.literal d).display.toList = d.toChars := String.toList_ofList
    exact ⟨ts, _, hDisplay ▸ hPrints, hSpells, hReads⟩

end Sql

end RecordStore
