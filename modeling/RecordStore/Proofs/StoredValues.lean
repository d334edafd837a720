import RecordStore.Json.Document
import RecordStore.Json.Writing
import RecordStore.Proofs.JsonNumbers
import RecordStore.Proofs.JsonTexts

/-!
# Stored field values

A field value is read from what is written for it, whatever stands behind it in the document
(`readDatum_written`). All values but decimals are read as what they were. A decimal is written as a
double, so it is read as whatever the digits of that double are read as: `reread` is that value, and
a decimal `survives` if it is a number of the same size.

Nothing stands in the way of reading a decimal back at all. Its double is far from the largest one,
so the digits written for it have a value.

## Main results

- `readDatum_written`: a written value is read, and what follows it is left.
- `reread_eq_self`: a value that is no decimal is read as itself.
-/

namespace RecordStore

/-- Whether a value is a decimal. -/
def Datum.isDecimal : Datum → Bool
  | decimal _ => true
  | _ => false

namespace Json

/-! ## Fronts of values -/

theorem readHead_text (s : String) (rest : List Char) :
    readHead (writeText s ++ rest) = .ok (.scalar (.text s), rest) := by
  show (readText (s.toList.flatMap writeChar ++ ['"'] ++ rest)).map
    (fun p => (Head.scalar (.text (String.ofList p.1)), p.2)) = _
  rw [List.append_assoc, List.singleton_append, readText_written]
  show Except.ok (Head.scalar (.text (String.ofList s.toList)), rest) = _
  rw [String.ofList_toList]

theorem readHead_digit {c : Char} (hDigit : c.isDigit = true) (cs : List Char) :
    readHead (c :: cs) =
      (readNumber false (c :: cs)).map fun p => (.scalar (.number p.1), p.2) := by
  have hNot {d : Char} (hd : d.isDigit = false) : c ≠ d := by
    rintro rfl
    rw [hDigit] at hd
    cases hd
  have hBlank : isBlank c = false := by
    simp [isBlank, hNot (d := ' ') rfl, hNot (d := '\t') rfl, hNot (d := '\n') rfl,
      hNot (d := '\r') rfl]
  have hSkip : skipBlanks (c :: cs) = c :: cs := by
    rw [skipBlanks, List.dropWhile_cons_of_neg (by simp [hBlank])]
  unfold readHead
  rw [hSkip]
  simp only [hNot (d := '[') rfl, hNot (d := '\x7b') rfl, hNot (d := 'n') rfl,
    hNot (d := 't') rfl, hNot (d := 'f') rfl, hNot (d := '"') rfl, hNot (d := '-') rfl, hDigit,
    if_true, if_false]

/-- A number with or without a sign is read with it. -/
theorem readHead_written {t : NumberText} (ht : t.Proper) {negative : Bool} {n : Number}
    (hValue : t.value? negative = some n) {rest : List Char} (hRest : EndsNumber rest) :
    readHead ((if negative then ['-'] else []) ++ t.written ++ rest) =
      .ok (.scalar (.number n), rest) := by
  have hNumber := readNumber_written ht hValue hRest
  cases negative with
  | true =>
    show (readNumber true (t.written ++ rest)).map _ = _
    rw [hNumber]
    rfl
  | false =>
    obtain ⟨c, cs, hWhole⟩ := List.exists_cons_of_ne_nil ht.whole_ne_nil
    have hDigit : c.isDigit = true := ht.whole_digits c (hWhole ▸ List.mem_cons_self)
    have hText : t.written ++ rest =
        c :: (cs ++ writtenFraction t.fraction ++ writtenExponent t.exponent ++ rest) := by
      simp only [NumberText.written, hWhole, List.cons_append]
    show readHead (t.written ++ rest) = _
    rw [hText, readHead_digit hDigit, ← hText, hNumber]
    rfl

/-! ## Values -/

theorem readDatum_of_readHead {cs rest : List Char} {s : Scalar}
    (h : readHead cs = .ok (.scalar s, rest)) : readDatum cs = .ok (s.datum, rest) := by
  unfold readDatum
  rw [h]

theorem readDatum_integer (i : Int64) {rest : List Char} (hRest : EndsNumber rest) :
    readDatum (writeDatum (.integer i) ++ rest) = .ok (.integer i, rest) := by
  have hLower := i.le_toInt
  have hUpper := i.toInt_lt
  have hProper := proper_naturalText i.toInt.natAbs
  have hWritten : writeDatum (.integer i) =
      (if i.toInt < 0 then ['-'] else []) ++ (naturalText i.toInt.natAbs).written := by
    rw [written_naturalText]
    exact Datum.toList_toString i.toInt
  by_cases hSign : i.toInt < 0
  · have hValue : (naturalText i.toInt.natAbs).value? true = some (.signed i.toInt) := by
      have hBack : -(i.toInt.natAbs : Int) = i.toInt := by omega
      have hMin : Int64.minValue.toInt.natAbs = 9223372036854775808 := by decide
      rw [value?_negative (by omega) (by omega), hBack]
    have hHead := readHead_written hProper hValue hRest
    rw [if_pos rfl] at hHead
    rw [hWritten, if_pos hSign, readDatum_of_readHead hHead]
    show Except.ok (Datum.integer (Int64.ofInt i.toInt), rest) = _
    rw [Int64.ofInt_toInt]
  · have hMax : significandMax = 18446744073709551615 := by decide
    have hValue := value?_natural (show i.toInt.natAbs ≤ significandMax by omega)
    have hHead := readHead_written hProper hValue hRest
    rw [if_neg Bool.false_ne_true] at hHead
    rw [hWritten, if_neg hSign, readDatum_of_readHead hHead]
    show Except.ok (Number.datum (.unsigned i.toInt.natAbs), rest) = _
    have hBound : i.toInt.natAbs ≤ Int64.maxValue.toInt.toNat := by
      have : Int64.maxValue.toInt.toNat = 9223372036854775807 := by decide
      omega
    have hBack : Int64.ofNat i.toInt.natAbs = i := by
      rw [← Int64.ofInt_eq_ofNat, Int.natAbs_of_nonneg (Int.not_lt.1 hSign), Int64.ofInt_toInt]
    simp only [Number.datum, if_pos hBound, hBack]

/-- A decimal is read as the value of what is written for its double. -/
theorem readDatum_decimal {value : Decimal} {b : Binary64} {n : Number}
    (hDouble : value.toBinary64? = some b) (hValue : (doubleText b).value? b.negative = some n)
    {rest : List Char} (hRest : EndsNumber rest) :
    readDatum (writeDatum (.decimal value) ++ rest) = .ok (n.datum, rest) := by
  simp only [writeDatum, hDouble, toChars_doubleStyle]
  exact readDatum_of_readHead (readHead_written (proper_doubleText b) hValue hRest)

/-- A written value is read as one value whatever follows it, and as itself unless it is a decimal. -/
theorem exists_readDatum (d : Datum) :
    ∃ e, (∀ rest, EndsNumber rest → readDatum (writeDatum d ++ rest) = .ok (e, rest)) ∧
      (d.isDecimal = false → e = d) := by
  cases d with
  | null => exact ⟨.null, fun _ _ => rfl, fun _ => rfl⟩
  | bool value => cases value <;> exact ⟨_, fun _ _ => rfl, fun _ => rfl⟩
  | integer i => exact ⟨.integer i, fun _ => readDatum_integer i, fun _ => rfl⟩
  | text s => exact ⟨.text s, fun rest _ => readDatum_of_readHead (readHead_text s rest), fun _ => rfl⟩
  | decimal value =>
    cases hDouble : value.toBinary64? with
    | none =>
      refine ⟨.text value.text, fun rest _ => ?_, nofun⟩
      simp only [writeDatum, hDouble]
      exact readDatum_of_readHead (readHead_text value.text rest)
    | some b =>
      obtain ⟨n, hValue⟩ := exists_value?_doubleText (Decimal.magnitude_toBinary64?_le hDouble)
      exact ⟨n.datum, fun rest hRest => readDatum_decimal hDouble hValue hRest, nofun⟩

end Json

/-! ## Reading a value again -/

/-- The value that is read from what is written for a value. -/
def Datum.reread (d : Datum) : Datum := (Datum.ofJson d.toJson).toOption.getD .null

theorem endsNumber_nil : Json.EndsNumber [] := nofun

theorem Json.readDatum_written (d : Datum) {rest : List Char} (hRest : EndsNumber rest) :
    readDatum (writeDatum d ++ rest) = .ok (d.reread, rest) := by
  obtain ⟨e, hRead, -⟩ := exists_readDatum d
  have hWhole : Datum.ofJson d.toJson = .ok e := by
    have hAlone := hRead [] endsNumber_nil
    rw [List.append_nil] at hAlone
    rw [Datum.ofJson, Datum.toJson, String.toList_ofList, hAlone]
    rfl
  have hReread : d.reread = e := by
    rw [Datum.reread, hWhole]
    rfl
  rw [hRead rest hRest, hReread]

/-- Reading a written value does not fail, so the null is never used. -/
theorem Datum.ofJson_toJson (d : Datum) : Datum.ofJson d.toJson = .ok d.reread := by
  have hAlone := Json.readDatum_written d endsNumber_nil
  rw [List.append_nil] at hAlone
  rw [Datum.ofJson, Datum.toJson, String.toList_ofList, hAlone]
  rfl

theorem Datum.reread_eq_self {d : Datum} (h : d.isDecimal = false) : d.reread = d := by
  obtain ⟨e, hRead, hSelf⟩ := Json.exists_readDatum d
  have hReread := Json.readDatum_written d endsNumber_nil
  rw [hRead [] endsNumber_nil] at hReread
  cases hReread
  exact hSelf h

theorem Datum.reread_decimal {value : Decimal} {b : Binary64} {n : Json.Number}
    (hDouble : value.toBinary64? = some b)
    (hValue : (Json.doubleText b).value? b.negative = some n) : (decimal value).reread = n.datum := by
  have hReread := Json.readDatum_written (decimal value) endsNumber_nil
  rw [Json.readDatum_decimal hDouble hValue endsNumber_nil] at hReread
  exact (Prod.mk.inj (Except.ok.inj hReread)).1.symm

/-- A decimal is read back from its double as a number of the same size. -/
def Decimal.survives (d : Decimal) : Bool := (Datum.decimal d).sameValue (Datum.decimal d).reread

/-- Only decimals can change when they are read again. -/
theorem Datum.sameValue_reread_iff (d : Datum) :
    d.sameValue d.reread = true ↔ ∀ value, d = .decimal value → value.survives = true := by
  cases d with
  | decimal value =>
    constructor
    · intro h other hEq
      rw [← Datum.decimal.inj hEq]
      exact h
    · exact fun h => h value rfl
  | null | bool | integer | text =>
    refine ⟨fun _ => nofun, fun _ => ?_⟩
    rw [reread_eq_self rfl]
    exact sameValue_refl _

end RecordStore
