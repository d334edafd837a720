import RecordStore.Sql.Lexeme
import RecordStore.Sql.Script

/-!
# A cut does not look far ahead

What is cut off the front of a text depends on what follows only in so far as the token might have
gone on. A token that was cut off with some rest is cut off with every shorter rest as well: a run
of letters or digits ended where the rest begins, a quote was closed and not doubled, and of two
symbols that start alike the longer did not fit. A character that no token starts with stays one
when the text becomes shorter.

## Main results

- `cut_of_shorter`: a token is cut off a text of which the end is missing.
- `cut_error_of_shorter`: an unexpected character stays one.
- `cut_offset`: whether and how a token is cut off does not depend on its place.
-/

namespace RecordStore.Sql

open Text (doubled undoubled? takeWhile_append_stop dropWhile_append_stop)

/-! ## Runs -/

/-- What ends a run also ends it when less of it is there. -/
theorem head?_of_shorter {α : Type} {p : α → Bool} {kept dropped : List α}
    (h : ∀ d ∈ (kept ++ dropped).head?, p d = false) : ∀ d ∈ kept.head?, p d = false := by
  cases kept with
  | nil => simp
  | cons d kept => exact h

/-- A run that was followed by something is the run of the text that ends earlier. -/
theorem span_of_shorter {α : Type} {p : α → Bool} {xs kept dropped : List α}
    (h : xs.dropWhile p = kept ++ dropped) :
    (xs.takeWhile p ++ kept).takeWhile p = xs.takeWhile p ∧
      (xs.takeWhile p ++ kept).dropWhile p = kept := by
  have hAll : ∀ x ∈ xs.takeWhile p, p x = true := List.all_eq_true.1 List.all_takeWhile
  have hStop : ∀ d ∈ (kept ++ dropped).head?, p d = false := by
    intro d hd
    rw [← h] at hd
    have hNot := List.head?_dropWhile_not p xs
    rw [Option.mem_def.1 hd] at hNot
    simpa using hNot
  exact ⟨takeWhile_append_stop hAll (head?_of_shorter hStop),
    dropWhile_append_stop hAll (head?_of_shorter hStop)⟩

theorem cutRun_of_shorter {continues : Char → Bool} {token : String → Token} {c : Char}
    {cs kept dropped : List Char} (h : (cutRun continues token c cs).rest = kept ++ dropped) :
    cutRun continues token c ((cutRun continues token c cs).taken.tail ++ kept) =
      ⟨(cutRun continues token c cs).token, (cutRun continues token c cs).taken, kept⟩ := by
  have hRest : cs.dropWhile continues = kept ++ dropped := h
  obtain ⟨hTake, hDrop⟩ := span_of_shorter hRest
  simp only [cutRun, List.tail_cons]
  rw [hTake, hDrop]

/-! ## Quotes -/

theorem cutQuoted?_of_shorter {quote : Char} {token : String → Token} {cs kept dropped : List Char}
    {k : Cut} (hCut : cutQuoted? quote token cs = some k) (hRest : k.rest = kept ++ dropped) :
    cutQuoted? quote token (k.taken.tail ++ kept) = some ⟨k.token, k.taken, kept⟩ := by
  obtain ⟨⟨body, rest⟩, hBody, rfl⟩ := Option.map_eq_some_iff.1 hCut
  obtain ⟨-, hStop⟩ := Text.eq_of_undoubled? cs hBody
  obtain rfl : rest = kept ++ dropped := hRest
  have hKept : kept.head? ≠ some quote := by
    cases kept with
    | nil => simp
    | cons d kept => exact hStop
  simp [cutQuoted?, Text.undoubled?_doubled body hKept]

/-! ## Symbols -/

theorem cutSymbol?_of_shorter {cs kept dropped : List Char} {k : Cut}
    (hCut : cutSymbol? cs = some k) (hRest : k.rest = kept ++ dropped) :
    cutSymbol? (k.taken ++ kept) = some ⟨k.token, k.taken, kept⟩ := by
  obtain ⟨⟨spelling, token⟩, hFind, rfl⟩ := Option.map_eq_some_iff.1 hCut
  obtain ⟨hPrefix, before, after, hSymbols, hBefore⟩ := List.find?_eq_some_iff_append.1 hFind
  obtain ⟨tail, rfl⟩ := List.isPrefixOf_iff_prefix.1 hPrefix
  obtain rfl : tail = kept ++ dropped := by simpa using hRest
  have hFound :
      symbols.find? (fun s => s.1.isPrefixOf (spelling ++ kept)) = some (spelling, token) := by
    refine List.find?_eq_some_iff_append.2 ⟨?_, before, after, hSymbols, fun s hMem => ?_⟩
    · exact List.isPrefixOf_iff_prefix.2 (List.prefix_append _ _)
    · -- A symbol in front that fits the shorter text would have fitted the longer one.
      have hNot := hBefore s hMem
      rw [Bool.not_eq_true', ← Bool.not_eq_true, List.isPrefixOf_iff_prefix] at hNot ⊢
      intro hShort
      exact hNot (hShort.trans ⟨dropped, by simp⟩)
  simp [cutSymbol?, hFound]

theorem cutSymbol?_eq_none_of_shorter {kept dropped : List Char}
    (h : cutSymbol? (kept ++ dropped) = none) : cutSymbol? kept = none := by
  rw [cutSymbol?, Option.map_eq_none_iff, List.find?_eq_none] at h ⊢
  intro s hMem hShort
  rw [List.isPrefixOf_iff_prefix] at hShort
  exact h s hMem (List.isPrefixOf_iff_prefix.2 (hShort.trans (List.prefix_append _ _)))

/-! ## Tokens

The first character decides what kind of token is cut off. There are four kinds, and `cut` has one
equation for each.
-/

/-- What a character starts. -/
inductive Starts (c : Char) : Prop
  | quote : isQuoteMark c = true → Starts c
  | number : isQuoteMark c = false → c.isDigit = true → Starts c
  | name : isQuoteMark c = false → c.isDigit = false → startsName c = true → Starts c
  | symbol : isQuoteMark c = false → c.isDigit = false → startsName c = false → Starts c

theorem starts (c : Char) : Starts c := by
  cases hQuote : isQuoteMark c with
  | true => exact .quote hQuote
  | false =>
    cases hDigit : c.isDigit with
    | true => exact .number hQuote hDigit
    | false =>
      cases hName : startsName c with
      | true => exact .name hQuote hDigit hName
      | false => exact .symbol hQuote hDigit hName

/-- The token between two quote marks. -/
def quoteToken (mark : Char) : String → Token := if mark = '\'' then .text else .quotedName

variable {offset other : Nat} {c : Char} {cs kept dropped : List Char} {k : Cut} {e : ParseError}

theorem isQuoteMark_iff : isQuoteMark c = true ↔ c = '\'' ∨ c = '"' ∨ c = '`' := by
  simp [isQuoteMark, or_assoc]

theorem cut_of_quote (h : isQuoteMark c = true) :
    cut offset c cs =
      (cutQuoted? c (quoteToken c) cs).elim (.error (.unterminatedQuote offset)) .ok := by
  rcases isQuoteMark_iff.1 h with rfl | rfl | rfl <;> simp [cut, quoteToken]

private theorem not_marks (h : isQuoteMark c = false) : c ≠ '\'' ∧ ¬ (c = '"' ∨ c = '`') := by
  rw [← Bool.not_eq_true, isQuoteMark_iff, not_or] at h
  exact h

theorem cut_of_number (hQuote : isQuoteMark c = false) (hDigit : c.isDigit = true) :
    cut offset c cs = .ok (cutRun continuesNumber .number c cs) := by
  rw [cut, if_neg (not_marks hQuote).1, if_neg (not_marks hQuote).2, if_pos hDigit]

theorem cut_of_name (hQuote : isQuoteMark c = false) (hDigit : c.isDigit = false)
    (hName : startsName c = true) : cut offset c cs = .ok (cutRun continuesName .name c cs) := by
  rw [cut, if_neg (not_marks hQuote).1, if_neg (not_marks hQuote).2, if_neg (by simp [hDigit]),
    if_pos hName]

theorem cut_of_symbol (hQuote : isQuoteMark c = false) (hDigit : c.isDigit = false)
    (hName : startsName c = false) :
    cut offset c cs =
      (cutSymbol? (c :: cs)).elim (.error (.unexpectedCharacter c offset)) .ok := by
  rw [cut, if_neg (not_marks hQuote).1, if_neg (not_marks hQuote).2, if_neg (by simp [hDigit]),
    if_neg (by simp [hName])]

theorem elim_eq_ok_iff {o : Option Cut} : o.elim (.error e) Except.ok = .ok k ↔ o = some k := by
  cases o <;> simp

theorem elim_eq_error_iff {o : Option Cut} {e' : ParseError} :
    o.elim (.error e) Except.ok = .error e' ↔ o = none ∧ e = e' := by
  cases o <;> simp

/-- The first character of a text is the first that is taken. -/
theorem taken_eq_cons (h : c :: cs = k.taken ++ k.rest) (hNe : k.taken ≠ []) :
    k.taken = c :: k.taken.tail ∧ cs = k.taken.tail ++ k.rest := by
  cases hTaken : k.taken with
  | nil => exact absurd hTaken hNe
  | cons d ds =>
    rw [hTaken, List.cons_append, List.cons.injEq] at h
    exact ⟨by rw [List.tail_cons, h.1], h.2⟩

/-- A token is cut off a text of which the end is missing, wherever the text stands. -/
theorem cut_of_shorter (hCut : cut offset c cs = .ok k) (hRest : k.rest = kept ++ dropped) :
    cut other c (k.taken.tail ++ kept) = .ok ⟨k.token, k.taken, kept⟩ := by
  rcases starts c with hQuote | ⟨hQuote, hDigit⟩ | ⟨hQuote, hDigit, hName⟩ | ⟨hQuote, hDigit, hName⟩
  · rw [cut_of_quote hQuote, elim_eq_ok_iff] at hCut ⊢
    exact cutQuoted?_of_shorter hCut hRest
  · rw [cut_of_number hQuote hDigit, Except.ok.injEq] at hCut ⊢
    subst hCut
    exact cutRun_of_shorter hRest
  · rw [cut_of_name hQuote hDigit hName, Except.ok.injEq] at hCut ⊢
    subst hCut
    exact cutRun_of_shorter hRest
  · rw [cut_of_symbol hQuote hDigit hName, elim_eq_ok_iff] at hCut ⊢
    have hTaken := (taken_eq_cons (cutSymbol?_eq hCut).1 (cutSymbol?_eq hCut).2).1
    rw [← List.cons_append, ← hTaken]
    exact cutSymbol?_of_shorter hCut hRest

/-- How a token is cut off does not depend on its place. -/
theorem cut_offset (h : cut offset c cs = .ok k) : cut other c cs = .ok k := by
  have hTail := (taken_eq_cons (eq_of_cut h).1 (eq_of_cut h).2).2
  have hSame : cut other c (k.taken.tail ++ k.rest) = .ok ⟨k.token, k.taken, k.rest⟩ :=
    cut_of_shorter h (List.append_nil _).symm
  rwa [← hTail] at hSame

/-- What is not the start of a token is not when less of the text is there. -/
theorem cut_error_of_shorter (hQuote : isQuoteMark c = false)
    (hCut : cut offset c (kept ++ dropped) = .error e) :
    cut other c kept = .error (.unexpectedCharacter c other) := by
  rcases starts c with hMark | ⟨-, hDigit⟩ | ⟨-, hDigit, hName⟩ | ⟨-, hDigit, hName⟩
  · rw [hQuote] at hMark
    cases hMark
  · rw [cut_of_number hQuote hDigit] at hCut
    cases hCut
  · rw [cut_of_name hQuote hDigit hName] at hCut
    cases hCut
  · rw [cut_of_symbol hQuote hDigit hName, elim_eq_error_iff] at hCut ⊢
    exact ⟨cutSymbol?_eq_none_of_shorter hCut.1, rfl⟩

end RecordStore.Sql
