import RecordStore.Json.Fault

/-!
# Numbers in JSON

A number without point and exponent is an integer while it fits into 64 bits: unsigned from zero up,
signed below. Every other number, and `-0`, is a double.

The digits of a double are gathered in an unsigned 64-bit significand. Digits of the whole part that
no longer fit count as zeros, and digits of the fraction from the first that does not fit on are
passed over. The significand is rounded to a double and then multiplied or divided by a rounded
power of ten, so the last bit may differ from that of the nearest double. A number beyond the range
of doubles is a fault, one too close to zero is zero.

## Main results

- `readNumber_length`: what follows a number is shorter than the text that starts with it.
-/

namespace RecordStore.Json

/-- A number as it is read. -/
inductive Number where
  | unsigned (value : Nat)
  | signed (value : Int)
  | double (value : Binary64)

/-- The largest unsigned 64-bit number. -/
def significandMax : Nat := UInt64.size - 1

/-- Digits taken into a significand while it has room, and the digits left over. -/
def gather (significand : Nat) : List Char → Nat × List Char
  | [] => (significand, [])
  | d :: ds =>
    let next := Nat.ofDigitChars 10 [d] significand
    if next ≤ significandMax then gather next ds else (significand, d :: ds)

/-- A double divided by `10 ^ k`, in steps of at most `10 ^ 308`. -/
def divideTens (b : Binary64) (k : Nat) : Binary64 :=
  let divided (n : Nat) : Binary64 := ((Binary64.tenPow? n).bind b.div?).getD (.zero b.negative)
  if k ≤ 308 then divided k
  else if b.significand = 0 then b
  else divideTens (divided 308) (k - 308)
termination_by k

/-- The double `± significand * 10 ^ exponent`; none if it is too large. -/
def scaledDouble? (negative : Bool) (significand : Nat) (exponent : Int) : Option Binary64 := do
  let b ← Binary64.nearest? negative significand
  if exponent < 0 then return divideTens b exponent.natAbs
  else if exponent ≤ 308 then b.mul? (← Binary64.tenPow? exponent.natAbs)
  else if significand = 0 then return b
  else none

/-- The parts of a number: digits before the point, behind it if there is one, and the exponent if
there is one. -/
structure NumberText where
  whole : List Char
  fraction : Option (List Char)
  exponent : Option Int

/-- The value of a number without its sign; none if it is beyond the range of doubles. -/
def NumberText.value? (t : NumberText) (negative : Bool) : Option Number :=
  let (significand, beyond) := gather 0 t.whole
  let isInteger := t.fraction.isNone && t.exponent.isNone && beyond.isEmpty
  if isInteger && !negative then some (.unsigned significand)
  else if isInteger && 0 < significand && significand ≤ Int64.minValue.toInt.natAbs then some (.signed (-significand))
  else
    let fraction := t.fraction.getD []
    let (significand, dropped) := gather significand fraction
    let exponent := (beyond.length : Int) - (fraction.length - dropped.length) + t.exponent.getD 0
    (scaledDouble? negative significand exponent).map .double

/-! ## Reading -/

/-- One digit or more, and what follows them. -/
def readDigits (cs : List Char) : Except Fault (List Char × List Char) :=
  match cs with
  | [] => .error .ended
  | c :: _ =>
    if c.isDigit then .ok (cs.takeWhile Char.isDigit, cs.dropWhile Char.isDigit)
    else .error .malformed

/-- The digits before the point: a zero stands alone. -/
def readWhole : List Char → Except Fault (List Char × List Char)
  | '0' :: c :: cs => if c.isDigit then .error .malformed else .ok (['0'], c :: cs)
  | cs => readDigits cs

/-- The digits behind the point, if there is one. -/
def readFraction : List Char → Except Fault (Option (List Char) × List Char)
  | '.' :: cs => (readDigits cs).map fun (ds, rest) => (some ds, rest)
  | cs => .ok (none, cs)

/-- A sign, if there is one, and what follows it. -/
def readSign : List Char → Bool × List Char
  | '-' :: cs => (true, cs)
  | '+' :: cs => (false, cs)
  | cs => (false, cs)

/-- The power of ten, if there is one. -/
def readExponent : List Char → Except Fault (Option Int × List Char)
  | 'e' :: cs | 'E' :: cs =>
    let (negative, cs) := readSign cs
    (readDigits cs).map fun (ds, rest) =>
      let power : Int := Nat.ofDigitChars 10 ds 0
      (some (if negative then -power else power), rest)
  | cs => .ok (none, cs)

/-- A number after its sign, and what follows it. -/
def readNumber (negative : Bool) (cs : List Char) : Except Fault (Number × List Char) := do
  let (whole, cs) ← readWhole cs
  let (fraction, cs) ← readFraction cs
  let (exponent, cs) ← readExponent cs
  match NumberText.value? ⟨whole, fraction, exponent⟩ negative with
  | some number => return (number, cs)
  | none => throw .malformed

/-! ## Progress -/

theorem readDigits_length {cs ds rest : List Char} (h : readDigits cs = .ok (ds, rest)) :
    rest.length < cs.length := by
  cases cs with
  | nil => simp [readDigits] at h
  | cons c cs =>
    simp only [readDigits] at h
    split at h
    · next hDigit =>
      cases h
      rw [List.dropWhile_cons_of_pos hDigit]
      exact Nat.lt_succ_of_le (List.dropWhile_sublist _).length_le
    · cases h

theorem readWhole_length {cs ds rest : List Char} (h : readWhole cs = .ok (ds, rest)) :
    rest.length < cs.length := by
  unfold readWhole at h
  split at h
  · split at h
    · cases h
    · cases h; simp
  · exact readDigits_length h

theorem readFraction_length {cs rest : List Char} {ds : Option (List Char)}
    (h : readFraction cs = .ok (ds, rest)) : rest.length ≤ cs.length := by
  unfold readFraction at h
  split at h
  · next tail =>
    cases hDigits : readDigits tail with
    | error e => rw [hDigits] at h; cases h
    | ok p =>
      rw [hDigits] at h
      cases h
      exact Nat.le_succ_of_le (Nat.le_of_lt (readDigits_length hDigits))
  · cases h; exact Nat.le_refl _

theorem readSign_length (cs : List Char) : (readSign cs).2.length ≤ cs.length := by
  unfold readSign
  split <;> simp

theorem readExponent_length {cs rest : List Char} {e : Option Int}
    (h : readExponent cs = .ok (e, rest)) : rest.length ≤ cs.length := by
  have hTail {tail : List Char} (h : (readDigits (readSign tail).2).map (fun p =>
      (some (if (readSign tail).1 then -((Nat.ofDigitChars 10 p.1 0 : Nat) : Int)
        else ((Nat.ofDigitChars 10 p.1 0 : Nat) : Int)), p.2)) = .ok (e, rest)) :
      rest.length ≤ tail.length := by
    cases hDigits : readDigits (readSign tail).2 with
    | error e => rw [hDigits] at h; cases h
    | ok p =>
      rw [hDigits] at h
      cases h
      exact Nat.le_trans (Nat.le_of_lt (readDigits_length hDigits)) (readSign_length tail)
  unfold readExponent at h
  split at h
  · exact Nat.le_succ_of_le (hTail h)
  · exact Nat.le_succ_of_le (hTail h)
  · cases h; exact Nat.le_refl _

theorem readNumber_length {negative : Bool} {cs rest : List Char} {n : Number}
    (h : readNumber negative cs = .ok (n, rest)) : rest.length < cs.length := by
  unfold readNumber at h
  cases hWhole : readWhole cs with
  | error e => rw [hWhole] at h; cases h
  | ok p =>
    obtain ⟨ds, cs₁⟩ := p
    rw [hWhole] at h
    replace h : (readFraction cs₁ >>= _) = .ok (n, rest) := h
    cases hFraction : readFraction cs₁ with
    | error e => rw [hFraction] at h; cases h
    | ok p =>
      obtain ⟨f, cs₂⟩ := p
      rw [hFraction] at h
      replace h : (readExponent cs₂ >>= _) = .ok (n, rest) := h
      cases hExponent : readExponent cs₂ with
      | error e => rw [hExponent] at h; cases h
      | ok p =>
        obtain ⟨e, cs₃⟩ := p
        rw [hExponent] at h
        have hRest : rest = cs₃ := by
          simp only [bind, Except.bind] at h
          split at h
          · cases h; rfl
          · cases h
        subst hRest
        have h₁ := readWhole_length hWhole
        have h₂ := readFraction_length hFraction
        have h₃ := readExponent_length hExponent
        omega

end RecordStore.Json
