import RecordStore.Json.Head

/-!
# Written texts are read back

Inside quotes every character is written as itself or as an escape, and either way it is read back
as one character before the rest is looked at (`readText_writeChar`). So no character of a text can
close its quotes, whatever it is.

## Main results

- `readText_writeChar`: a written character is read back as that character.
- `readText_written`: a written text is read back, and what follows its quotes is left.
-/

namespace RecordStore.Json

theorem readText_quote (cs : List Char) : readText ('"' :: cs) = .ok ([], cs) := by
  rw [readText, if_pos rfl]

theorem readText_plain {c : Char} (cs : List Char) (hQuote : c ≠ '"') (hSlash : c ≠ '\\')
    (hControl : ¬ c.toNat < 0x20) :
    readText (c :: cs) = (readText cs).map fun p => (c :: p.1, p.2) := by
  rw [readText, if_neg hQuote, if_neg hSlash, if_neg hControl]

theorem readText_escape {cs rest : List Char} {c : Char} (h : readEscape cs = .ok (c, rest)) :
    readText ('\\' :: cs) = (readText rest).map fun p => (c :: p.1, p.2) := by
  rw [readText, if_neg (by decide), if_pos rfl]
  split
  · next fault hFault =>
    rw [h] at hFault
    cases hFault
  · next e tail hTail =>
    rw [h] at hTail
    cases hTail
    rfl

/-! ## Codes -/

theorem hexValue?_digitChar {k : Nat} (h : k < 16) : hexValue? (Nat.digitChar k) = some k := by
  revert k
  decide

theorem utf8Size_digitChar {k : Nat} (h : k < 16) : (Nat.digitChar k).utf8Size = 1 := by
  revert k
  decide

/-- A control is read back from its four digits. -/
theorem readEscape_control {c : Char} (h : c.toNat < 0x20) (cs : List Char) :
    readEscape ('u' :: '0' :: '0' :: Nat.digitChar (c.toNat / 16) :: Nat.digitChar (c.toNat % 16) ::
      cs) = .ok (c, cs) := by
  have hHigh : c.toNat / 16 < 16 := by omega
  have hLow : c.toNat % 16 < 16 := Nat.mod_lt _ (by decide)
  have hCode : readCode ('0' :: '0' :: Nat.digitChar (c.toNat / 16) ::
      Nat.digitChar (c.toNat % 16) :: cs) = .ok (c.toNat, cs) := by
    have hLength : Text.byteLength (['0', '0', Nat.digitChar (c.toNat / 16),
        Nat.digitChar (c.toNat % 16)]) = 4 := by
      simp only [Text.byteLength, utf8Size_digitChar hHigh, utf8Size_digitChar hLow]
      rfl
    have hZero : hexValue? '0' = some 0 := rfl
    have hValue : ((0 * 16 + 0) * 16 + c.toNat / 16) * 16 + c.toNat % 16 = c.toNat := by omega
    simp only [readCode, List.take, hLength, Nat.lt_irrefl, if_false, hZero,
      hexValue?_digitChar hHigh, hexValue?_digitChar hLow, hValue]
  show readCodePoint _ = _
  rw [readCodePoint, hCode]
  show (if 0xDC00 ≤ c.toNat ∧ c.toNat ≤ 0xDFFF then _ else
    if 0xD800 ≤ c.toNat ∧ c.toNat ≤ 0xDBFF then _ else _) = _
  rw [if_neg (by omega), if_neg (by omega), Char.ofNat_toNat]
  rfl

/-! ## Whole texts -/

theorem readText_writeChar (c : Char) (cs : List Char) :
    readText (writeChar c ++ cs) = (readText cs).map fun p => (c :: p.1, p.2) := by
  unfold writeChar
  by_cases hMark : c = '"' ∨ c = '\\'
  · rw [if_pos hMark]
    refine readText_escape ?_
    rcases hMark with rfl | rfl <;> rfl
  rw [if_neg hMark]
  by_cases hBackspace : c = '\x08'
  · rw [if_pos hBackspace, hBackspace]
    exact readText_escape rfl
  rw [if_neg hBackspace]
  by_cases hTab : c = '\t'
  · rw [if_pos hTab, hTab]
    exact readText_escape rfl
  rw [if_neg hTab]
  by_cases hLine : c = '\n'
  · rw [if_pos hLine, hLine]
    exact readText_escape rfl
  rw [if_neg hLine]
  by_cases hFeed : c = '\x0c'
  · rw [if_pos hFeed, hFeed]
    exact readText_escape rfl
  rw [if_neg hFeed]
  by_cases hReturn : c = '\r'
  · rw [if_pos hReturn, hReturn]
    exact readText_escape rfl
  rw [if_neg hReturn]
  by_cases hControl : c.toNat < 0x20
  · rw [if_pos hControl]
    exact readText_escape (readEscape_control hControl cs)
  · rw [if_neg hControl]
    exact readText_plain cs (fun h => hMark (.inl h)) (fun h => hMark (.inr h)) hControl

theorem readText_written (cs rest : List Char) :
    readText (cs.flatMap writeChar ++ '"' :: rest) = .ok (cs, rest) := by
  induction cs with
  | nil => exact readText_quote rest
  | cons c cs ih =>
    rw [List.flatMap_cons, List.append_assoc, readText_writeChar, ih]
    rfl

end RecordStore.Json
