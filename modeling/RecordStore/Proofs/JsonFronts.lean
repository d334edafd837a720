import RecordStore.Proofs.Binding
import RecordStore.Proofs.StoredValues

/-!
# What a reader of JSON does not look at

Readers hand on what follows the part that they read, and what they make of the part does not depend
on that. So a part can be cut out of the text that it was found in and put in front of another
(`IsLocal`). Texts and words end by themselves. A number does not: what is put behind it must not go on
with it.

## Main results

- `endsItself_readText`, `isLocal_readNumber`: texts and numbers can be cut out.
- `exists_scalar`: so can whole scalars, with the blanks in front of them.
-/

namespace RecordStore.Json

variable {α β : Type}

/-- A part that was read can be cut out and read again in front of anything that ends it. -/
def IsLocal (ends : List Char → Prop) (read : List Char → Except Fault (α × List Char)) : Prop :=
  ∀ cs a rest, read cs = .ok (a, rest) →
    ∃ front, cs = front ++ rest ∧ ∀ other, ends other → read (front ++ other) = .ok (a, other)

/-- Nothing needs to end a part that ends by itself. -/
abbrev EndsItself (read : List Char → Except Fault (α × List Char)) : Prop :=
  IsLocal (fun _ => True) read

theorem endsItself_ok (a : α) : EndsItself fun cs => .ok (a, cs) := by
  intro cs b rest h
  cases h
  exact ⟨[], rfl, fun _ _ => rfl⟩

theorem endsItself_error (fault : Fault) :
    EndsItself fun _ => (.error fault : Except Fault (α × List Char)) :=
  fun _ _ _ h => nomatch h

theorem EndsItself.bind {read : List Char → Except Fault (α × List Char)}
    {next : α × List Char → Except Fault (β × List Char)} (hRead : EndsItself read)
    (hNext : ∀ a, EndsItself fun cs => next (a, cs)) : EndsItself fun cs => read cs >>= next := by
  intro cs b rest h
  obtain ⟨⟨a, tail⟩, hFirst, hSecond⟩ := bind_eq_ok_iff.1 h
  obtain ⟨front, rfl, hFront⟩ := hRead cs a tail hFirst
  obtain ⟨middle, rfl, hMiddle⟩ := hNext a tail b rest hSecond
  refine ⟨front ++ middle, (List.append_assoc ..).symm, fun other _ => ?_⟩
  rw [List.append_assoc]
  exact bind_eq_ok_iff.2 ⟨_, hFront (middle ++ other) trivial, hMiddle other trivial⟩

/-! ## Texts -/

theorem endsItself_readCode : EndsItself readCode := by
  intro cs n rest h
  unfold readCode at h
  split at h
  · cases h
  · next hLong =>
    split at h
    · next a b c d tail =>
      split at h
      · next ha hb hc hd =>
        cases h
        refine ⟨[a, b, c, d], rfl, fun other _ => ?_⟩
        have hLong' : ¬ Text.byteLength (([a, b, c, d] ++ other).take 4) < 4 := hLong
        unfold readCode
        rw [if_neg hLong']
        simp only [List.cons_append, ha, hb, hc, hd]
        rfl
      · cases h
    · cases h

theorem endsItself_readPartner : EndsItself readPartner := by
  intro cs n rest h
  unfold readPartner at h
  split at h
  · cases h
  · cases h
  · obtain ⟨front, rfl, hFront⟩ := endsItself_readCode _ _ _ h
    exact ⟨'\\' :: 'u' :: front, rfl, hFront⟩
  · cases h

theorem endsItself_readCodePoint : EndsItself readCodePoint := by
  unfold readCodePoint
  refine endsItself_readCode.bind fun first => ?_
  by_cases hLow : 0xDC00 ≤ first ∧ first ≤ 0xDFFF
  · simp only [if_pos hLow]
    exact endsItself_error _
  · by_cases hHigh : 0xD800 ≤ first ∧ first ≤ 0xDBFF
    · simp only [if_neg hLow, if_pos hHigh]
      refine endsItself_readPartner.bind fun second => ?_
      by_cases hPartner : 0xDC00 ≤ second ∧ second ≤ 0xDFFF
      · simp only [if_pos hPartner]
        exact endsItself_ok _
      · simp only [if_neg hPartner]
        exact endsItself_error _
    · simp only [if_neg hLow, if_neg hHigh]
      exact endsItself_ok _

theorem endsItself_readEscape : EndsItself readEscape := by
  intro cs c rest h
  cases cs with
  | nil => cases h
  | cons letter cs =>
    simp only [readEscape] at h
    split at h
    · next hShort =>
      cases h
      refine ⟨[letter], rfl, fun other _ => ?_⟩
      show readEscape (letter :: other) = _
      simp only [readEscape, hShort]
    · next hLong =>
      split at h
      · next hCode =>
        obtain ⟨front, rfl, hFront⟩ := endsItself_readCodePoint _ _ _ h
        refine ⟨letter :: front, rfl, fun other _ => ?_⟩
        show readEscape (letter :: (front ++ other)) = _
        simp only [readEscape, hLong, if_pos hCode, hFront other trivial]
      · cases h

theorem endsItself_readText : EndsItself readText := by
  intro cs
  fun_induction readText cs with
  | case1 => intro text rest h; cases h
  | case2 cs =>
    intro text rest h
    cases h
    exact ⟨['"'], rfl, fun other _ => readText_quote other⟩
  | case3 => intro text rest h; cases h
  | case4 cs c tail hEscape hLt hNot ih =>
    intro text rest h
    obtain ⟨⟨inner, after⟩, hTail, hEq⟩ := map_eq_ok_iff.1 h
    cases hEq
    obtain ⟨escape, rfl, hFront⟩ := endsItself_readEscape _ _ _ hEscape
    obtain ⟨front, rfl, hRest⟩ := ih _ _ hTail
    refine ⟨'\\' :: escape ++ front, by simp, fun other _ => ?_⟩
    have hText : '\\' :: escape ++ front ++ other = '\\' :: (escape ++ (front ++ other)) := by simp
    rw [hText, readText_escape (hFront _ trivial), hRest other trivial]
    rfl
  | case5 => intro text rest h; cases h
  | case6 c cs hQuote hSlash hControl ih =>
    intro text rest h
    obtain ⟨⟨inner, after⟩, hTail, hEq⟩ := map_eq_ok_iff.1 h
    cases hEq
    obtain ⟨front, rfl, hRest⟩ := ih _ _ hTail
    refine ⟨c :: front, rfl, fun other _ => ?_⟩
    rw [List.cons_append, readText_plain _ hQuote hSlash hControl, hRest other trivial]
    rfl

/-! ## Numbers -/

/-- What is read as digits are digits, and they can be cut out. -/
theorem digits_of_readDigits {cs ds rest : List Char} (h : readDigits cs = .ok (ds, rest)) :
    cs = ds ++ rest ∧ ds ≠ [] ∧ ∀ c ∈ ds, c.isDigit = true := by
  cases cs with
  | nil => cases h
  | cons c cs =>
    simp only [readDigits] at h
    split at h
    · next hDigit =>
      cases h
      refine ⟨List.takeWhile_append_dropWhile.symm, ?_, List.all_eq_true.1 List.all_takeWhile⟩
      rw [List.takeWhile_cons_of_pos hDigit]
      exact List.cons_ne_nil _ _
    · cases h

theorem proper_of_readWhole {cs ds rest : List Char} (h : readWhole cs = .ok (ds, rest)) :
    cs = ds ++ rest ∧ NumberText.Proper ⟨ds, none, none⟩ := by
  unfold readWhole at h
  split at h
  · next c tail =>
    split at h
    · cases h
    · cases h
      exact ⟨rfl, List.cons_ne_nil _ _, by simp, fun _ => rfl, nofun, nofun⟩
  · next hNot =>
    obtain ⟨rfl, hNe, hDigits⟩ := digits_of_readDigits h
    refine ⟨rfl, hNe, hDigits, fun hZero => ?_, nofun, nofun⟩
    obtain ⟨ds, rfl⟩ := List.head?_eq_some_iff.1 hZero
    -- A zero with anything behind it is not read as digits.
    cases ds with
    | nil => rfl
    | cons d ds => exact absurd rfl (hNot d (ds ++ rest))

theorem proper_of_readFraction {cs rest : List Char} {fraction : Option (List Char)}
    (h : readFraction cs = .ok (fraction, rest)) :
    cs = writtenFraction fraction ++ rest ∧ (∀ ds ∈ fraction, ds ≠ []) ∧
      ∀ ds ∈ fraction, ∀ c ∈ ds, c.isDigit = true := by
  unfold readFraction at h
  split at h
  · next tail =>
    obtain ⟨⟨digits, after⟩, hTail, hEq⟩ := map_eq_ok_iff.1 h
    cases hEq
    obtain ⟨rfl, hNe, hDigits⟩ := digits_of_readDigits hTail
    refine ⟨rfl, fun ds hds => ?_, fun ds hds => ?_⟩
    · rwa [← Option.mem_some.1 hds]
    · rwa [← Option.mem_some.1 hds]
  · cases h
    refine ⟨rfl, fun ds hds => ?_, fun ds hds => ?_⟩
    · cases hds
    · cases hds

/-- A sign in front of digits can be cut out with its absence. -/
theorem exists_sign (cs : List Char) :
    ∃ sign, cs = sign ++ (readSign cs).2 ∧ ∀ c other, c.isDigit = true →
      readSign (sign ++ c :: other) = ((readSign cs).1, c :: other) := by
  unfold readSign
  split
  · exact ⟨['-'], rfl, fun _ _ _ => rfl⟩
  · exact ⟨['+'], rfl, fun _ _ _ => rfl⟩
  · refine ⟨[], rfl, fun c other hDigit => ?_⟩
    rw [List.nil_append]
    split
    · next hEq =>
      obtain ⟨rfl, -⟩ := List.cons.inj hEq
      cases hDigit
    · next hEq =>
      obtain ⟨rfl, -⟩ := List.cons.inj hEq
      cases hDigit
    · rfl

/-- What is read behind the mark of a power of ten. -/
def readPower (cs : List Char) : Except Fault (Option Int × List Char) :=
  (readDigits (readSign cs).2).map fun p =>
    let power : Int := Nat.ofDigitChars 10 p.1 0
    (some (if (readSign cs).1 then -power else power), p.2)

theorem isLocal_readPower : IsLocal EndsNumber readPower := by
  intro cs power rest h
  obtain ⟨⟨digits, after⟩, hDigits, hEq⟩ := map_eq_ok_iff.1 h
  cases hEq
  obtain ⟨hTail, hNe, hAll⟩ := digits_of_readDigits hDigits
  obtain ⟨sign, hText, hSign⟩ := exists_sign cs
  obtain ⟨d, ds, rfl⟩ := List.exists_cons_of_ne_nil hNe
  refine ⟨sign ++ (d :: ds), by rw [List.append_assoc, ← hTail, ← hText], fun other hOther => ?_⟩
  have hRead := readDigits_append hNe hAll hOther.not_isDigit
  have hFront := hSign d (ds ++ other) (hAll d List.mem_cons_self)
  rw [List.append_assoc, readPower, List.cons_append, hFront]
  rw [List.cons_append] at hRead
  simp only [hRead]
  rfl

/-- An exponent can be cut out, and neither it nor what ends a number goes on with a fraction. -/
theorem exists_exponent {cs rest : List Char} {exponent : Option Int}
    (h : readExponent cs = .ok (exponent, rest)) :
    ∃ front, cs = front ++ rest ∧ ∀ other, EndsNumber other →
      readExponent (front ++ other) = .ok (exponent, other) ∧
        ∀ c ∈ (front ++ other).head?, c.isDigit = false ∧ c ≠ '.' := by
  unfold readExponent at h
  split at h
  · next tail =>
    obtain ⟨front, rfl, hFront⟩ := isLocal_readPower _ _ _ h
    refine ⟨'e' :: front, rfl, fun other hOther => ⟨hFront other hOther, fun c hc => ?_⟩⟩
    obtain rfl : 'e' = c := Option.some.inj hc
    decide
  · next tail =>
    obtain ⟨front, rfl, hFront⟩ := isLocal_readPower _ _ _ h
    refine ⟨'E' :: front, rfl, fun other hOther => ⟨hFront other hOther, fun c hc => ?_⟩⟩
    obtain rfl : 'E' = c := Option.some.inj hc
    decide
  · cases h
    refine ⟨[], rfl, fun other hOther => ⟨readExponent_append none hOther, fun c hc => ?_⟩⟩
    exact ⟨(hOther c hc).1, (hOther c hc).2.1⟩

theorem isLocal_readNumber (negative : Bool) : IsLocal EndsNumber (readNumber negative) := by
  intro cs number rest h
  obtain ⟨⟨whole, cs₁⟩, hWhole, h₁⟩ := bind_eq_ok_iff.1 h
  obtain ⟨⟨fraction, cs₂⟩, hFraction, h₂⟩ := bind_eq_ok_iff.1 h₁
  obtain ⟨⟨exponent, cs₃⟩, hExponent, h₃⟩ := bind_eq_ok_iff.1 h₂
  obtain ⟨hValue, rfl⟩ :
      NumberText.value? ⟨whole, fraction, exponent⟩ negative = some number ∧ cs₃ = rest := by
    cases hValue : NumberText.value? ⟨whole, fraction, exponent⟩ negative with
    | none =>
      simp only [hValue] at h₃
      cases h₃
    | some n =>
      simp only [hValue] at h₃
      cases h₃
      exact ⟨rfl, rfl⟩
  obtain ⟨rfl, hProper⟩ := proper_of_readWhole hWhole
  obtain ⟨rfl, hNe, hDigits⟩ := proper_of_readFraction hFraction
  obtain ⟨front, rfl, hFront⟩ := exists_exponent hExponent
  refine ⟨whole ++ (writtenFraction fraction ++ front), by simp, fun other hOther => ?_⟩
  obtain ⟨hExponent', hStop⟩ := hFront other hOther
  have hFraction' := readFraction_append hNe hDigits hStop
  have hWhole' := readWhole_append hProper
    (head?_writtenFraction fraction fun c hc => (hStop c hc).1)
  rw [List.append_assoc, List.append_assoc]
  refine bind_eq_ok_iff.2 ⟨_, hWhole', bind_eq_ok_iff.2 ⟨_, hFraction', bind_eq_ok_iff.2
    ⟨_, hExponent', ?_⟩⟩⟩
  simp only [hValue]
  rfl

/-! ## Scalars -/

theorem readWord_eq_ok_iff {word cs rest : List Char} :
    readWord word cs = .ok rest ↔ cs = word ++ rest := by
  induction word generalizing cs with
  | nil => simp [readWord]
  | cons w word ih =>
    cases cs with
    | nil => simp [readWord]
    | cons c cs =>
      by_cases hc : c = w
      · simp [readWord, hc, ih]
      · simp [readWord, hc]

theorem skipBlanks_append {blanks : List Char} (h : blanks.all isBlank = true) (cs : List Char) :
    skipBlanks (blanks ++ cs) = skipBlanks cs :=
  List.dropWhile_append_of_pos (List.all_eq_true.1 h)

/-- What is skipped are blanks. -/
theorem exists_blanks (cs : List Char) :
    ∃ blanks, blanks.all isBlank = true ∧ cs = blanks ++ skipBlanks cs :=
  ⟨cs.takeWhile isBlank, List.all_takeWhile, List.takeWhile_append_dropWhile.symm⟩

theorem isBlank_of_skipBlanks {c : Char} {cs rest : List Char} (h : skipBlanks cs = c :: rest) :
    isBlank c = false := by
  have hHead := List.head?_dropWhile_not isBlank cs
  rw [show cs.dropWhile isBlank = c :: rest from h] at hHead
  simpa using hHead

theorem readHead_append {blanks : List Char} (h : blanks.all isBlank = true) (cs : List Char) :
    readHead (blanks ++ cs) = readHead cs := by
  unfold readHead
  rw [skipBlanks_append h]

theorem exists_word {word cs rest : List Char} {s s' : Scalar}
    (h : ((readWord word cs).map fun rest => (Head.scalar s, rest)) = .ok (.scalar s', rest)) :
    s' = s ∧ cs = word ++ rest := by
  obtain ⟨after, hWord, hEq⟩ := map_eq_ok_iff.1 h
  cases hEq
  exact ⟨rfl, readWord_eq_ok_iff.1 hWord⟩

/-- A scalar can be cut out, and the blanks in front of it with it. -/
theorem exists_scalar {cs rest : List Char} {s : Scalar} (h : readHead cs = .ok (.scalar s, rest)) :
    ∃ front, cs = front ++ rest ∧
      ∀ other, EndsNumber other → readHead (front ++ other) = .ok (.scalar s, other) := by
  obtain ⟨blanks, hBlanks, hText⟩ := exists_blanks cs
  suffices hSolid : ∃ front, skipBlanks cs = front ++ rest ∧
      ∀ other, EndsNumber other → readHead (front ++ other) = .ok (.scalar s, other) by
    obtain ⟨front, hSkip, hFront⟩ := hSolid
    refine ⟨blanks ++ front, by rw [List.append_assoc, ← hSkip, ← hText], fun other hOther => ?_⟩
    rw [List.append_assoc, readHead_append hBlanks]
    exact hFront other hOther
  unfold readHead at h
  split at h
  · cases h
  · next c tail hSkip =>
    rw [hSkip]
    split at h
    · cases h
    split at h
    · cases h
    split at h
    · next hc =>
      obtain ⟨rfl, rfl⟩ := exists_word h
      exact ⟨['n', 'u', 'l', 'l'], by rw [hc]; rfl, fun _ _ => rfl⟩
    split at h
    · next hc =>
      obtain ⟨rfl, rfl⟩ := exists_word h
      exact ⟨['t', 'r', 'u', 'e'], by rw [hc]; rfl, fun _ _ => rfl⟩
    split at h
    · next hc =>
      obtain ⟨rfl, rfl⟩ := exists_word h
      exact ⟨['f', 'a', 'l', 's', 'e'], by rw [hc]; rfl, fun _ _ => rfl⟩
    split at h
    · next hc =>
      obtain ⟨⟨text, after⟩, hRead, hEq⟩ := map_eq_ok_iff.1 h
      cases hEq
      obtain ⟨front, rfl, hFront⟩ := endsItself_readText _ _ _ hRead
      refine ⟨'"' :: front, by rw [hc]; rfl, fun other _ => ?_⟩
      show (readText (front ++ other)).map _ = _
      rw [hFront other trivial]
      rfl
    split at h
    · next hc =>
      obtain ⟨⟨number, after⟩, hRead, hEq⟩ := map_eq_ok_iff.1 h
      cases hEq
      obtain ⟨front, rfl, hFront⟩ := isLocal_readNumber _ _ _ _ hRead
      refine ⟨'-' :: front, by rw [hc]; rfl, fun other hOther => ?_⟩
      show (readNumber true (front ++ other)).map _ = _
      rw [hFront other hOther]
      rfl
    split at h
    · next hDigit =>
      obtain ⟨⟨number, after⟩, hRead, hEq⟩ := map_eq_ok_iff.1 h
      cases hEq
      obtain ⟨front, hFrontText, hFront⟩ := isLocal_readNumber _ _ _ _ hRead
      refine ⟨front, hFrontText, fun other hOther => ?_⟩
      have hShorter := readNumber_length hRead
      cases front with
      | nil =>
        rw [hFrontText] at hShorter
        exact absurd hShorter (Nat.lt_irrefl _)
      | cons d front =>
        obtain ⟨rfl, -⟩ := List.cons.inj hFrontText
        rw [List.cons_append, readHead_digit hDigit, ← List.cons_append, hFront other hOther]
        rfl
    · cases h

end RecordStore.Json
