import Mathlib.Tactic.GCongr
import RecordStore.Json.Head
import RecordStore.Number.Decimal.Reading
import RecordStore.Proofs.ShortestDigits

/-!
# Written numbers are read back

A number is written as a whole part, a fraction and a power of ten, of which the last two may be
missing. Such a text is taken apart into the same parts again, whatever follows it, as long as that
cannot be a part of a number (`readNumber_written`).

Taking the parts apart is not all of reading: digits beyond 64 bits and the last bit of a double may
be lost, and a number beyond the range of doubles is a fault. Integers of 64 bits lose nothing. A
number whose point stands among the first hundred places has a value (`exists_value?`), and so has
what is written for a double that is not enormous (`exists_value?_doubleText`).

## Main results

- `readNumber_written`: a written number is taken apart into the parts it was put together from.
- `value?_natural`, `value?_negative`: integers of 64 bits keep their value.
- `exists_value?_doubleText`: the digits of a double up to `2 ^ 210` are read as a number.
-/

namespace RecordStore.Json

open Text (takeWhile_append_stop dropWhile_append_stop)

/-! ## Putting a number together -/

/-- What is written behind the whole part. -/
def writtenFraction : Option (List Char) → List Char
  | none => []
  | some ds => '.' :: ds

/-- A power of ten, with its sign. -/
def writtenExponent : Option Int → List Char
  | none => []
  | some power => 'e' :: (if power < 0 then '-' else '+') :: Nat.toDigits 10 power.natAbs

namespace NumberText

/-- The parts of a number, one after the other. -/
def written (t : NumberText) : List Char :=
  t.whole ++ writtenFraction t.fraction ++ writtenExponent t.exponent

/-- There are digits where there must be some, and none in front that may not be there. -/
structure Proper (t : NumberText) : Prop where
  whole_ne_nil : t.whole ≠ []
  whole_digits : ∀ c ∈ t.whole, c.isDigit = true
  whole_leading : t.whole.head? = some '0' → t.whole = ['0']
  fraction_ne_nil : ∀ ds ∈ t.fraction, ds ≠ []
  fraction_digits : ∀ ds ∈ t.fraction, ∀ c ∈ ds, c.isDigit = true

end NumberText

/-- What follows cannot be a part of a number. -/
def EndsNumber (rest : List Char) : Prop :=
  ∀ c ∈ rest.head?, c.isDigit = false ∧ c ≠ '.' ∧ c ≠ 'e' ∧ c ≠ 'E'

theorem EndsNumber.not_isDigit {rest : List Char} (h : EndsNumber rest) :
    ∀ c ∈ rest.head?, c.isDigit = false := fun c hc => (h c hc).1

/-! ## Taking it apart -/

theorem readDigits_append {ds rest : List Char} (hNe : ds ≠ [])
    (hDigits : ∀ c ∈ ds, c.isDigit = true) (hRest : ∀ c ∈ rest.head?, c.isDigit = false) :
    readDigits (ds ++ rest) = .ok (ds, rest) := by
  obtain ⟨d, ds, rfl⟩ := List.exists_cons_of_ne_nil hNe
  show (if d.isDigit = true then
    Except.ok (((d :: ds) ++ rest).takeWhile Char.isDigit, ((d :: ds) ++ rest).dropWhile Char.isDigit)
    else Except.error Fault.malformed) = _
  rw [if_pos (hDigits d List.mem_cons_self), takeWhile_append_stop hDigits hRest,
    dropWhile_append_stop hDigits hRest]

theorem readWhole_append {t : NumberText} (ht : t.Proper) {rest : List Char}
    (hRest : ∀ c ∈ rest.head?, c.isDigit = false) :
    readWhole (t.whole ++ rest) = .ok (t.whole, rest) := by
  have hDigits := readDigits_append ht.whole_ne_nil ht.whole_digits hRest
  unfold readWhole
  split
  · next c cs hText =>
    -- The text starts with a zero, which is the whole part, so what follows is no digit.
    have hHead : t.whole.head? = some '0' := by
      rw [← List.head?_append_of_ne_nil t.whole ht.whole_ne_nil, hText]
      rfl
    have hWhole := ht.whole_leading hHead
    rw [hWhole, List.cons_append, List.nil_append, List.cons.injEq] at hText
    obtain ⟨-, rfl⟩ := hText
    have hNot : c.isDigit = false := hRest c rfl
    rw [hNot, hWhole]
    rfl
  · exact hDigits

theorem readFraction_append {fraction : Option (List Char)} {rest : List Char}
    (hNe : ∀ ds ∈ fraction, ds ≠ []) (hDigits : ∀ ds ∈ fraction, ∀ c ∈ ds, c.isDigit = true)
    (hRest : ∀ c ∈ rest.head?, c.isDigit = false ∧ c ≠ '.') :
    readFraction (writtenFraction fraction ++ rest) = .ok (fraction, rest) := by
  cases fraction with
  | none =>
    show readFraction rest = _
    unfold readFraction
    split
    · next cs => exact absurd rfl (hRest '.' rfl).2
    · rfl
  | some ds =>
    show (readDigits (ds ++ rest)).map _ = _
    rw [readDigits_append (hNe ds rfl) (hDigits ds rfl) fun c hc => (hRest c hc).1]
    rfl

theorem readExponent_append (exponent : Option Int) {rest : List Char} (hRest : EndsNumber rest) :
    readExponent (writtenExponent exponent ++ rest) = .ok (exponent, rest) := by
  cases exponent with
  | none =>
    show readExponent rest = _
    unfold readExponent
    split
    · next cs => exact absurd rfl (hRest 'e' rfl).2.2.1
    · next cs => exact absurd rfl (hRest 'E' rfl).2.2.2
    · rfl
  | some power =>
    have hDigits := readDigits_append Nat.toDigits_ne_nil (Decimal.isDigit_toDigits power.natAbs)
      hRest.not_isDigit
    by_cases hSign : power < 0
    · have hPower : -(power.natAbs : Int) = power := by omega
      simp only [writtenExponent, if_pos hSign, List.cons_append, readExponent, readSign, hDigits,
        Except.map, Nat.ofDigitChars_ten_toDigits, if_true, hPower]
    · have hPower : (power.natAbs : Int) = power := by omega
      simp only [writtenExponent, if_neg hSign, List.cons_append, readExponent, readSign, hDigits,
        Except.map, Nat.ofDigitChars_ten_toDigits, Bool.false_eq_true, if_false, hPower]

/-- What follows a whole part is no digit, and a point only in front of a fraction. -/
theorem head?_writtenExponent (exponent : Option Int) {rest : List Char} (hRest : EndsNumber rest) :
    ∀ c ∈ (writtenExponent exponent ++ rest).head?, c.isDigit = false ∧ c ≠ '.' := by
  cases exponent with
  | none => exact fun c hc => ⟨(hRest c hc).1, (hRest c hc).2.1⟩
  | some power =>
    intro c hc
    obtain rfl : 'e' = c := Option.some.inj hc
    decide

theorem head?_writtenFraction (fraction : Option (List Char)) {rest : List Char}
    (hRest : ∀ c ∈ rest.head?, c.isDigit = false) :
    ∀ c ∈ (writtenFraction fraction ++ rest).head?, c.isDigit = false := by
  cases fraction with
  | none => exact hRest
  | some ds =>
    intro c hc
    obtain rfl : '.' = c := Option.some.inj hc
    decide

theorem readNumber_written {t : NumberText} (ht : t.Proper) {negative : Bool} {n : Number}
    (hValue : t.value? negative = some n) {rest : List Char} (hRest : EndsNumber rest) :
    readNumber negative (t.written ++ rest) = .ok (n, rest) := by
  have hExponent := readExponent_append t.exponent hRest
  have hStop := head?_writtenExponent t.exponent hRest
  have hFraction := readFraction_append ht.fraction_ne_nil ht.fraction_digits hStop
  have hWhole := readWhole_append ht (head?_writtenFraction t.fraction fun c hc => (hStop c hc).1)
  have hText : t.written ++ rest =
      t.whole ++ (writtenFraction t.fraction ++ (writtenExponent t.exponent ++ rest)) := by
    simp only [NumberText.written, List.append_assoc]
  rw [hText, readNumber, hWhole]
  show (readFraction _ >>= _) = _
  rw [hFraction]
  show (readExponent _ >>= _) = _
  rw [hExponent]
  simp only [bind, Except.bind, hValue]
  rfl

/-! ## The value of a number -/

theorem gather_le {significand : Nat} (ds : List Char) (h : significand ≤ significandMax) :
    (gather significand ds).1 ≤ significandMax ∧ (gather significand ds).2.length ≤ ds.length := by
  induction ds generalizing significand with
  | nil => exact ⟨h, Nat.le_refl _⟩
  | cons d ds ih =>
    simp only [gather]
    by_cases hRoom : Nat.ofDigitChars 10 [d] significand ≤ significandMax
    · rw [if_pos hRoom]
      exact ⟨(ih hRoom).1, Nat.le_succ_of_le (ih hRoom).2⟩
    · rw [if_neg hRoom]
      exact ⟨h, Nat.le_refl _⟩

/-- Digits of a number that has room are taken in whole. -/
theorem gather_of_fits {significand : Nat} {ds : List Char}
    (h : Nat.ofDigitChars 10 ds significand ≤ significandMax) :
    gather significand ds = (Nat.ofDigitChars 10 ds significand, []) := by
  induction ds generalizing significand with
  | nil => rfl
  | cons d ds ih =>
    have hStep : Nat.ofDigitChars 10 (d :: ds) significand =
        Nat.ofDigitChars 10 ds (Nat.ofDigitChars 10 [d] significand) := by
      rw [Nat.ofDigitChars_cons, Nat.ofDigitChars_cons, Nat.ofDigitChars_nil]
    rw [hStep] at h ⊢
    simp only [gather]
    rw [if_pos (Nat.le_trans (Decimal.le_ofDigitChars ds _) h), ih h]

/-- The parts of an integer without its sign. -/
def naturalText (n : Nat) : NumberText := ⟨Nat.toDigits 10 n, none, none⟩

theorem head?_toDigits_ne {n : Nat} (h : n ≠ 0) : (Nat.toDigits 10 n).head? ≠ some '0' := by
  induction n using Nat.strongRecOn with
  | ind n ih =>
    by_cases hSmall : n < 10
    · rw [Nat.toDigits_of_lt_base hSmall, List.head?_cons]
      intro hEq
      exact h (Nat.digitChar_eq_zero.1 (Option.some.inj hEq))
    · rw [Nat.toDigits_of_base_le (by decide) (Nat.not_lt.1 hSmall),
        List.head?_append_of_ne_nil _ Nat.toDigits_ne_nil]
      exact ih (n / 10) (by omega) (by omega)

theorem toDigits_leading {n : Nat} (h : (Nat.toDigits 10 n).head? = some '0') :
    Nat.toDigits 10 n = ['0'] := by
  by_cases hZero : n = 0
  · rw [hZero]
    rfl
  · exact absurd h (head?_toDigits_ne hZero)

theorem proper_naturalText (n : Nat) : (naturalText n).Proper where
  whole_ne_nil := Nat.toDigits_ne_nil
  whole_digits := Decimal.isDigit_toDigits n
  whole_leading := toDigits_leading
  fraction_ne_nil := nofun
  fraction_digits := nofun

theorem written_naturalText (n : Nat) : (naturalText n).written = Nat.toDigits 10 n := by
  simp [naturalText, NumberText.written, writtenFraction, writtenExponent]

theorem gather_toDigits {n : Nat} (h : n ≤ significandMax) :
    gather 0 (Nat.toDigits 10 n) = (n, []) := by
  rw [gather_of_fits (by rwa [Nat.ofDigitChars_ten_toDigits]), Nat.ofDigitChars_ten_toDigits]

theorem value?_natural {n : Nat} (h : n ≤ significandMax) :
    (naturalText n).value? false = some (.unsigned n) := by
  simp [naturalText, NumberText.value?, gather_toDigits h]

theorem value?_negative {n : Nat} (hPos : 0 < n) (hLe : n ≤ Int64.minValue.toInt.natAbs) :
    (naturalText n).value? true = some (.signed (-n)) := by
  have hFits : n ≤ significandMax := Nat.le_trans hLe (by decide)
  simp only [naturalText, NumberText.value?, gather_toDigits hFits, Option.isNone_none,
    List.isEmpty_nil, Bool.and_self, Bool.not_true, Bool.and_false, Bool.false_eq_true, if_false]
  rw [if_pos (by simp only [hPos, hLe, decide_true, Bool.and_self])]

open Binary64 in
/-- A significand of 64 bits has a double at every power of ten that is not enormous. -/
theorem exists_scaledDouble? (negative : Bool) {significand : Nat} {exponent : Int}
    (hSignificand : significand ≤ significandMax) (hExponent : exponent ≤ 100) :
    ∃ b, scaledDouble? negative significand exponent = some b := by
  have hFits : (significand : Rat) ≤ twoPow 64 := by
    have hMax : significandMax ≤ 2 ^ 64 := by decide
    rw [show (64 : Int) = (64 : Nat) from rfl, twoPow_natCast]
    exact_mod_cast Nat.le_trans hSignificand hMax
  obtain ⟨b, hb⟩ := exists_nearest? negative (Nat.cast_nonneg significand)
    (le_trans hFits (twoPow_le_twoPow (by decide)))
  have hbLe : b.magnitude ≤ twoPow 65 := by
    have hDouble : 2 * twoPow 64 = twoPow 65 := two_mul_twoPow 64
    linarith [magnitude_nearest?_le (Nat.cast_nonneg significand) hb]
  unfold scaledDouble?
  rw [hb]
  by_cases hNegative : exponent < 0
  · exact ⟨_, if_pos hNegative⟩
  · have hPowLe := tens_le_twoPow exponent.natAbs
    have hPowLe : (tens exponent.natAbs : Rat) ≤ twoPow 400 :=
      le_trans hPowLe (twoPow_le_twoPow (by omega))
    obtain ⟨p, hp⟩ := exists_nearest? false (Nat.cast_nonneg (tens exponent.natAbs))
      (le_trans hPowLe (twoPow_le_twoPow (by decide)))
    have hpLe : p.magnitude ≤ twoPow 401 := by
      have hDouble : 2 * twoPow 400 = twoPow 401 := two_mul_twoPow 400
      linarith [(magnitude_tenPow?_bounds hp).2]
    have hProduct : b.magnitude * p.magnitude ≤ twoPow 1000 := by
      calc b.magnitude * p.magnitude ≤ twoPow 65 * twoPow 401 :=
            mul_le_mul hbLe hpLe p.magnitude_nonneg (le_of_lt (twoPow_pos 65))
        _ = twoPow (65 + 401) := (twoPow_add 65 401).symm
        _ ≤ twoPow 1000 := twoPow_le_twoPow (by decide)
    obtain ⟨c, hc⟩ := exists_nearest? (b.negative != p.negative)
      (mul_nonneg b.magnitude_nonneg p.magnitude_nonneg) hProduct
    refine ⟨c, ?_⟩
    show (if exponent < 0 then _ else if exponent ≤ 308 then _ else _) = some c
    rw [if_neg hNegative, if_pos (by omega)]
    show (tenPow? exponent.natAbs).bind b.mul? = some c
    rw [tenPow?, hp]
    exact hc

/-- A number whose point is not far to the right has a value. -/
theorem exists_value? (t : NumberText) (negative : Bool)
    (hPlace : t.whole.length + t.exponent.getD 0 ≤ 100) :
    ∃ n, t.value? negative = some n := by
  obtain ⟨hWhole, hBeyond⟩ := gather_le t.whole (Nat.zero_le significandMax)
  obtain ⟨hAll, hDropped⟩ := gather_le (t.fraction.getD []) hWhole
  unfold NumberText.value?
  simp only
  split
  · exact ⟨_, rfl⟩
  · split
    · exact ⟨_, rfl⟩
    · obtain ⟨b, hb⟩ := exists_scaledDouble? negative hAll
        (show ((gather 0 t.whole).2.length : Int) - ((t.fraction.getD []).length -
          (gather (gather 0 t.whole).1 (t.fraction.getD [])).2.length) + t.exponent.getD 0 ≤ 100 by
            omega)
      exact ⟨.double b, by rw [hb]; rfl⟩

/-! ## The digits of a double -/

/-- The parts of digits with the point after the first `place` of them. -/
def positionalText (shown : List Char) (place : Int) : NumberText :=
  if place ≤ 0 then ⟨['0'], some (List.replicate (-place).toNat '0' ++ shown), none⟩
  else if shown.length ≤ place.toNat then
    ⟨shown ++ List.replicate (place.toNat - shown.length) '0', some ['0'], none⟩
  else ⟨shown.take place.toNat, some (shown.drop place.toNat), none⟩

/-- The parts of digits with a power of ten behind them. -/
def exponentialText (shown : List Char) (place : Int) : NumberText :=
  ⟨shown.take 1, if shown.length ≤ 1 then none else some (shown.drop 1), some (place - 1)⟩

theorem written_positionalText (shown : List Char) (place : Int) :
    (positionalText shown place).written = Binary64.positional doubleStyle shown place := by
  unfold positionalText Binary64.positional
  by_cases hFront : place ≤ 0
  · simp [hFront, NumberText.written, writtenFraction, writtenExponent]
  · by_cases hWhole : shown.length ≤ place.toNat
    · simp [hFront, hWhole, NumberText.written, writtenFraction, writtenExponent, doubleStyle]
    · simp [hFront, hWhole, NumberText.written, writtenFraction, writtenExponent]

theorem written_exponentialText (shown : List Char) (place : Int) :
    (exponentialText shown place).written = Binary64.exponential doubleStyle shown place := by
  have hFraction : writtenFraction (if shown.length ≤ 1 then none else some (shown.drop 1)) =
      if shown.length ≤ 1 then [] else '.' :: shown.drop 1 := by
    split <;> rfl
  have hSign : (if place - 1 < 0 then ['-'] else if doubleStyle.signedExponent then ['+'] else []) =
      [if place - 1 < 0 then '-' else '+'] := by
    split <;> rfl
  simp only [exponentialText, NumberText.written, Binary64.exponential, hFraction, hSign,
    writtenExponent, List.append_assoc, List.cons_append, List.nil_append]

section Shown

variable {shown : List Char} {place : Int}

theorem proper_positionalText (hNe : shown ≠ []) (hDigits : ∀ c ∈ shown, c.isDigit = true)
    (hZero : shown.head? = some '0' → shown = ['0'] ∧ place = 1) :
    (positionalText shown place).Proper := by
  have hZeros (n : Nat) : ∀ c ∈ List.replicate n '0', c.isDigit = true := by
    intro c hc
    rw [List.eq_of_mem_replicate hc]
    rfl
  have hLength : 0 < shown.length := List.length_pos_of_ne_nil hNe
  unfold positionalText
  by_cases hFront : place ≤ 0
  · rw [if_pos hFront]
    refine ⟨by simp, by simp, fun _ => rfl, ?_, ?_⟩
    · intro ds hds
      cases hds
      exact List.append_ne_nil_of_right_ne_nil _ hNe
    · intro ds hds c hc
      cases hds
      exact (List.mem_append.1 hc).elim (hZeros _ c) (hDigits c)
  · rw [if_neg hFront]
    by_cases hWhole : shown.length ≤ place.toNat
    · rw [if_pos hWhole]
      refine ⟨List.append_ne_nil_of_left_ne_nil hNe _, ?_, ?_, by simp, by simp⟩
      · intro c hc
        exact (List.mem_append.1 hc).elim (hDigits c) (hZeros _ c)
      · intro hHead
        rw [List.head?_append_of_ne_nil _ hNe] at hHead
        obtain ⟨hShown, hPlace⟩ := hZero hHead
        rw [hShown, hPlace]
        rfl
    · rw [if_neg hWhole]
      have hTake : shown.take place.toNat ≠ [] := by
        rw [← List.length_pos_iff, List.length_take]
        omega
      have hDrop : shown.drop place.toNat ≠ [] := by
        rw [← List.length_pos_iff, List.length_drop]
        omega
      refine ⟨hTake, fun c hc => hDigits c (List.mem_of_mem_take hc), ?_, ?_, ?_⟩
      · -- Digits that start with a zero are a zero alone, and its point is behind all of them.
        intro hHead
        rw [← List.head?_append_of_ne_nil (shown.take place.toNat) hTake, List.take_append_drop]
          at hHead
        obtain ⟨hShown, hPlace⟩ := hZero hHead
        rw [hShown, hPlace] at hWhole
        exact absurd (Nat.le_refl 1) hWhole
      · intro ds hds
        cases hds
        exact hDrop
      · intro ds hds c hc
        cases hds
        exact hDigits c (List.mem_of_mem_drop hc)

theorem proper_exponentialText (hNe : shown ≠ []) (hDigits : ∀ c ∈ shown, c.isDigit = true) :
    (exponentialText shown place).Proper := by
  obtain ⟨d, ds, rfl⟩ := List.exists_cons_of_ne_nil hNe
  have hFraction : ∀ tail ∈ (exponentialText (d :: ds) place).fraction, ds ≠ [] ∧ ds = tail := by
    intro tail hTail
    simpa [exponentialText] using hTail
  refine ⟨by simp [exponentialText], ?_, ?_, ?_, ?_⟩
  · intro c hc
    exact hDigits c (List.mem_of_mem_take hc)
  · intro hHead
    obtain rfl : d = '0' := Option.some.inj hHead
    rfl
  · intro tail hTail
    obtain ⟨hTailNe, rfl⟩ := hFraction tail hTail
    exact hTailNe
  · intro tail hTail c hc
    obtain ⟨-, rfl⟩ := hFraction tail hTail
    exact hDigits c (List.mem_cons_of_mem d hc)

theorem whole_positionalText_le (hPlace : place ≤ 64) :
    ((positionalText shown place).whole.length : Int) +
      (positionalText shown place).exponent.getD 0 ≤ 100 := by
  unfold positionalText
  by_cases hFront : place ≤ 0
  · rw [if_pos hFront]
    show (1 : Int) + 0 ≤ 100
    decide
  · rw [if_neg hFront]
    by_cases hWhole : shown.length ≤ place.toNat
    · rw [if_pos hWhole]
      simp only [List.length_append, List.length_replicate, Option.getD_none]
      omega
    · rw [if_neg hWhole]
      simp only [List.length_take, Option.getD_none]
      omega

theorem whole_exponentialText_le (hPlace : place ≤ 64) :
    ((exponentialText shown place).whole.length : Int) +
      (exponentialText shown place).exponent.getD 0 ≤ 100 := by
  simp only [exponentialText, List.length_take, Option.getD_some]
  omega

end Shown

/-- The parts of what is written for a double, without its sign. -/
def doubleText (b : Binary64) : NumberText :=
  let shown := Nat.toDigits 10 b.shortest.digits
  let place : Int := shown.length + b.shortest.exponent
  if doubleStyle.firstPlace ≤ place ∧ place ≤ doubleStyle.lastPlace then positionalText shown place
  else exponentialText shown place

theorem toChars_doubleStyle (b : Binary64) :
    b.toChars doubleStyle = (if b.negative then ['-'] else []) ++ (doubleText b).written := by
  simp only [Binary64.toChars, doubleText, apply_ite NumberText.written, written_positionalText,
    written_exponentialText]

theorem proper_doubleText (b : Binary64) : (doubleText b).Proper := by
  have hNe : Nat.toDigits 10 b.shortest.digits ≠ [] := Nat.toDigits_ne_nil
  have hDigits := Decimal.isDigit_toDigits b.shortest.digits
  have hZero : (Nat.toDigits 10 b.shortest.digits).head? = some '0' →
      Nat.toDigits 10 b.shortest.digits = ['0'] ∧
        (Nat.toDigits 10 b.shortest.digits).length + b.shortest.exponent = 1 := by
    intro hHead
    have hDigitsZero : b.shortest.digits = 0 := by
      by_contra hNot
      exact head?_toDigits_ne hNot hHead
    rw [Binary64.exponent_shortest_of_zero hDigitsZero, hDigitsZero]
    exact ⟨rfl, rfl⟩
  simp only [doubleText]
  split
  · exact proper_positionalText hNe hDigits hZero
  · exact proper_exponentialText hNe hDigits

/-- What is written for a double that is not enormous has a value. -/
theorem exists_value?_doubleText {b : Binary64} (h : b.magnitude ≤ 2 ^ 210) :
    ∃ n, (doubleText b).value? b.negative = some n := by
  have hPlace := Binary64.place_shortest_le h
  simp only [doubleText]
  split
  · exact exists_value? _ _ (whole_positionalText_le hPlace)
  · exact exists_value? _ _ (whole_exponentialText_le hPlace)

end RecordStore.Json
