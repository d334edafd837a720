import RecordStore.Number.Decimal

/-!
# Reading decimals

A decimal is written as digits with at most one point among or around them (`12`, `1.`, `.5`), with
an optional sign in front. All digits left of the point are kept; one that does not fit makes the
text unreadable. Digits right of the point are kept as long as the mantissa and the scale have room
for them, and the first digit left out rounds the kept ones, a five upwards. The other digits left out
change nothing, but they are looked at too: whatever is no digit makes the text unreadable, a second
point for one, however many digits stand in front of it.

## Main results

- `digitsValue_lt`: a number has no more places than digits.
- `ofDigits?_of_not_digit`: what is no digit makes a text unreadable wherever it stands.
-/

namespace RecordStore.Decimal

/-- The number that a run of digits stands for. -/
def digitsValue (ds : List Char) : Nat := Nat.ofDigitChars 10 ds 0

theorem digit_bounds {c : Char} (h : c.isDigit = true) : 48 ≤ c.toNat ∧ c.toNat < 58 := by
  have hNine : '9'.toNat = 57 := rfl
  have hDigit := Char.isDigit_iff_toNat.1 h
  exact ⟨hDigit.1, by omega⟩

theorem isDigit_toDigits (n : Nat) : ∀ c ∈ Nat.toDigits 10 n, c.isDigit = true :=
  fun _ hMem => Nat.isDigit_of_mem_toDigits (by decide) (by decide) hMem

theorem digitsValue_append (whole fraction : List Char) :
    digitsValue (whole ++ fraction) = Nat.ofDigitChars 10 fraction (digitsValue whole) :=
  Nat.ofDigitChars_append 0

/-- Digits that go on with a number move it to the left. -/
theorem ofDigitChars_eq (ds : List Char) (n : Nat) :
    Nat.ofDigitChars 10 ds n = tens ds.length * n + digitsValue ds :=
  Nat.ofDigitChars_eq_ofDigitChars_zero

theorem le_ofDigitChars (ds : List Char) (n : Nat) : n ≤ Nat.ofDigitChars 10 ds n := by
  have hTens : 1 * n ≤ tens ds.length * n := Nat.mul_le_mul_right n (tens_pos ds.length)
  rw [ofDigitChars_eq]
  omega

/-- A number has no more places than digits. -/
theorem digitsValue_lt {ds : List Char} (h : ∀ d ∈ ds, d.isDigit = true) :
    digitsValue ds < tens ds.length := by
  induction ds with
  | nil => decide
  | cons d ds ih =>
    obtain ⟨hDigit, hRest⟩ := List.forall_mem_cons.1 h
    have hBounds := digit_bounds hDigit
    have hZero : '0'.toNat = 48 := rfl
    have hLess := ih hRest
    have hValue : digitsValue (d :: ds) = tens ds.length * (d.toNat - 48) + digitsValue ds := by
      rw [← hZero, ← ofDigitChars_eq, digitsValue, Nat.ofDigitChars_cons, Nat.mul_zero, Nat.zero_add]
    have hPlace : tens ds.length * (d.toNat - 48) ≤ tens ds.length * 9 :=
      Nat.mul_le_mul_left _ (by omega)
    rw [hValue, List.length_cons, tens_succ]
    omega

/-- Digits kept while reading: the mantissa, how many stand after the point, what was left out. -/
structure Kept where
  mantissa : Nat
  scale : Nat
  rest : List Char

/-- Takes the digits after the point in order for as long as there is room for them. -/
def keep (mantissa scale : Nat) : List Char → Kept
  | [] => ⟨mantissa, scale, []⟩
  | d :: ds =>
    let next := Nat.ofDigitChars 10 [d] mantissa
    if scale < maxScale ∧ next < mantissaLimit then keep next (scale + 1) ds
    else ⟨mantissa, scale, d :: ds⟩

/-- Rounds the kept digits by the first one left out. Where that overflows the mantissa, a last
digit of four is written behind the overflowed one and the point moves left over it. -/
def rounded (kept : Kept) : Option (Nat × Nat) :=
  match kept.rest with
  | [] => some (kept.mantissa, kept.scale)
  | d :: _ =>
    if d < '5' then some (kept.mantissa, kept.scale)
    else if kept.mantissa + 1 < mantissaLimit then some (kept.mantissa + 1, kept.scale)
    else if kept.scale = 0 then none
    else some ((kept.mantissa + 1 + 4) / 10, kept.scale - 1)

/-- Reads digits left and right of a point, where nothing else may stand, not even behind the digits
that are kept. Zero has no sign. -/
def ofDigits? (negative : Bool) (whole fraction : List Char) : Option Decimal :=
  let value := digitsValue whole
  if (whole.isEmpty && fraction.isEmpty) || mantissaLimit ≤ value ||
      !(whole ++ fraction).all Char.isDigit then
    none
  else
    (rounded (keep value 0 fraction)).bind fun (mantissa, scale) =>
      ofParts? (negative && mantissa != 0) mantissa scale

theorem ofDigits?_of_not_digit {whole fraction : List Char} {c : Char} (negative : Bool)
    (hMem : c ∈ whole ++ fraction) (hNot : c.isDigit = false) :
    ofDigits? negative whole fraction = none := by
  have hAll : (whole ++ fraction).all Char.isDigit = false := by
    rw [List.all_eq_false]
    exact ⟨c, hMem, by simp [hNot]⟩
  simp [ofDigits?, hAll]

/-- Reads an unsigned decimal: what precedes the first point, and what follows it. -/
def ofUnsigned? (negative : Bool) (cs : List Char) : Option Decimal :=
  ofDigits? negative (cs.takeWhile (· ≠ '.')) ((cs.dropWhile (· ≠ '.')).drop 1)

/-- Reads a decimal with an optional sign. -/
def ofChars? : List Char → Option Decimal
  | '-' :: cs => ofUnsigned? true cs
  | '+' :: cs => ofUnsigned? false cs
  | cs => ofUnsigned? false cs

/-- Reads a decimal from a text. -/
def ofText? (s : String) : Option Decimal := ofChars? s.toList

example : ofText? "1.0000000000000000000000000000." = none := by decide +kernel
example : ofText? "79228162514264337593543950335.1.9" = none := by decide +kernel

end RecordStore.Decimal
