import RecordStore.Number.Binary64

/-!
# The bits of doubles

The 64 bits of a double are its sign, eleven bits that stand for the exponent, and the significand
without its first bit where that is always one. The largest exponent stands for what is no finite
number. Numbers of 32 bits are laid out alike and are doubles too.

## Main results

- `bits_lt`: the bits of a double are 64.
- `ofBits_bits`: the bits of a double stand for it.
-/

namespace RecordStore.Binary64

/-- What bits stand for. -/
inductive Pattern where
  | finite (value : Binary64)
  | infinite (negative : Bool)
  | notANumber
  deriving DecidableEq

/-- The bits of a double. -/
def bits (b : Binary64) : Nat :=
  (if b.negative then 2048 * leadingBit else 0) +
    if b.significand < leadingBit then b.significand
    else (b.exponent + 1075).toNat * leadingBit + (b.significand - leadingBit)

/-- The double of parts, which are those of one where this is used. -/
def patternOf : Option Binary64 → Pattern
  | some b => .finite b
  | none => .notANumber

/-- What 64 bits stand for. -/
def ofBits (bits : Nat) : Pattern :=
  let negative := bits / (2048 * leadingBit) % 2 == 1
  let field : Nat := bits / leadingBit % 2048
  let fraction : Nat := bits % leadingBit
  if field = 2047 then if fraction = 0 then .infinite negative else .notANumber
  else if field = 0 then patternOf (ofParts? negative fraction (-1074))
  else patternOf (ofParts? negative (fraction + leadingBit) (field - 1075))

/-- The first bit of a significand that uses all 24 of a shorter number. -/
def shortLeadingBit : Nat := 0x800000

/-- What the 32 bits of a shorter number stand for. -/
def ofShortBits (bits : Nat) : Pattern :=
  let negative := bits / (256 * shortLeadingBit) % 2 == 1
  let field : Nat := bits / shortLeadingBit % 256
  let fraction : Nat := bits % shortLeadingBit
  if field = 255 then if fraction = 0 then .infinite negative else .notANumber
  else if field = 0 then patternOf (nearest? negative (fraction * twoPow (-149)))
  else patternOf (nearest? negative ((fraction + shortLeadingBit : Nat) * twoPow (field - 150)))

theorem bits_lt (b : Binary64) : b.bits < twos 64 := by
  have hTwos : twos 64 = 4096 * leadingBit := by decide
  have hSignificand := b.significand_lt
  have hExponent := b.exponent_le
  have hPart : (if b.significand < leadingBit then b.significand
      else (b.exponent + 1075).toNat * leadingBit + (b.significand - leadingBit)) <
        2048 * leadingBit := by
    by_cases hSmall : b.significand < leadingBit
    · rw [if_pos hSmall]
      omega
    · rw [if_neg hSmall]
      simp only [leadingBit] at hSignificand ⊢
      omega
  rw [hTwos, bits]
  split <;> omega

theorem ofBits_bits (b : Binary64) : ofBits b.bits = .finite b := by
  obtain ⟨negative, significand, exponent, hLt, hGe, hLe, hNormal⟩ := b
  have hPart : ∀ s : Bool, ∀ low : Nat, low < 2048 * leadingBit →
      (((if s then 2048 * leadingBit else 0) + low) / (2048 * leadingBit) % 2 == 1) = s ∧
      ((if s then 2048 * leadingBit else 0) + low) / leadingBit % 2048 = low / leadingBit ∧
      ((if s then 2048 * leadingBit else 0) + low) % leadingBit = low % leadingBit := by
    intro s low h
    simp only [leadingBit] at h ⊢
    cases s
    · simp only [Bool.false_eq_true, if_false, beq_eq_false_iff_ne]
      omega
    · simp only [if_true, beq_iff_eq]
      omega
  by_cases hSmall : significand < leadingBit
  · have hExponent : exponent = -1074 := hNormal.resolve_left (Nat.not_le.2 hSmall)
    subst hExponent
    obtain ⟨hSign, hField, hFraction⟩ := hPart negative significand (by omega)
    have hParts : ofParts? negative significand (-1074) =
        some ⟨negative, significand, -1074, hLt, hGe, hLe, hNormal⟩ :=
      ofParts?_eq_some_iff.2 ⟨rfl, rfl, rfl⟩
    simp only [bits, hSmall, if_true, ofBits, hSign, hField, hFraction]
    rw [Nat.div_eq_of_lt hSmall, Nat.mod_eq_of_lt hSmall, if_neg (by decide), if_pos rfl, hParts,
      patternOf]
  · have hLow : (exponent + 1075).toNat * leadingBit + (significand - leadingBit) <
        2048 * leadingBit := by
      simp only [leadingBit] at hLt ⊢
      omega
    have hDiv : ((exponent + 1075).toNat * leadingBit + (significand - leadingBit)) / leadingBit =
        (exponent + 1075).toNat := by
      simp only [leadingBit] at hLt ⊢
      omega
    have hMod : ((exponent + 1075).toNat * leadingBit + (significand - leadingBit)) % leadingBit =
        significand - leadingBit := by
      simp only [leadingBit] at hLt ⊢
      omega
    obtain ⟨hSign, hField, hFraction⟩ := hPart negative _ hLow
    simp only [bits, hSmall, if_false, ofBits, hSign, hField, hFraction, hDiv, hMod]
    have hNot : (exponent + 1075).toNat ≠ 2047 := by omega
    have hPos : (exponent + 1075).toNat ≠ 0 := by omega
    have hBack : significand - leadingBit + leadingBit = significand := by omega
    have hExponent : (((exponent + 1075).toNat : Int)) - 1075 = exponent := by omega
    have hParts : ofParts? negative significand exponent =
        some ⟨negative, significand, exponent, hLt, hGe, hLe, hNormal⟩ :=
      ofParts?_eq_some_iff.2 ⟨rfl, rfl, rfl⟩
    rw [if_neg hNot, if_neg hPos, hBack, hExponent, hParts, patternOf]

end RecordStore.Binary64
