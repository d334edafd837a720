import RecordStore.Proofs.ScriptTokens

/-!
# Tokens and their places

A text can be cut in front of any of its tokens: what stands in front of the token has the tokens in
front of it, and what stands from there on has the others, at places counted from there. Where a text
has no tokens the error tells the first place at which it cannot be read on, and what stands in front
of that place has tokens.

Both follow from one notion. A seam is a place where the text can be cut in this way. The start of a
text is one, and a seam of what is left after a blank, a comment or a token is a seam of the whole
(`Seam.blank`, `Seam.comment`, `Seam.cut`). So the scan goes from seam to seam, and every place that
it reports is one.

## Main results

- `exists_seam_of_token`, `exists_seam_of_error`: tokens and errors stand at seams.
- `pairwise_offset_of_scan`: every token stands behind the ones before it.
- `toOption_scan_add`: a text that stands further on has its tokens further on.
- `tokens_local`: a text can be cut at the place of any token, and in front of an error.
-/

namespace RecordStore.Sql

open Text (isBlank undoubled? byteLength)

variable {offset : Nat} {c : Char} {cs front back : List Char} {k : Cut}
  {before after ts : List Placed} {p : Placed} {e : ParseError}

/-! ## Seams -/

/-- A text that starts `offset` bytes into the whole is cut in two. The front has the tokens
`before`, and those of the text are these and then the ones that are read from there on. -/
structure Seam (offset : Nat) (cs front back : List Char) (before : List Placed) : Prop where
  text : cs = front ++ back
  read : scan offset front = .ok before
  whole : scan offset cs = (scan (offset + byteLength front) back).map (before ++ ·)

theorem scan_nil (offset : Nat) : scan offset [] = .ok [] := by rw [scan]

theorem Seam.start (offset : Nat) (cs : List Char) : Seam offset cs [] cs [] := by
  refine ⟨rfl, scan_nil offset, ?_⟩
  show scan offset cs = (scan offset cs).map fun ts => ts
  cases scan offset cs <;> rfl

theorem Seam.blank (hBlank : isBlank c = true)
    (h : Seam (offset + c.utf8Size) cs front back before) :
    Seam offset (c :: cs) (c :: front) back before where
  text := by rw [h.text, List.cons_append]
  read := by rw [scan_blank hBlank, h.read]
  whole := by rw [scan_blank hBlank, h.whole, Text.byteLength_cons, Nat.add_assoc]

theorem Seam.comment (hBlank : isBlank c = false) (hComment : startsComment c cs = true)
    (h : Seam (offset + byteLength (c :: cs.takeWhile inComment)) (cs.dropWhile inComment) front back
      before) :
    Seam offset (c :: cs) ((c :: cs.takeWhile inComment) ++ front) back before where
  text := by
    rw [List.append_assoc, ← h.text, List.cons_append, List.takeWhile_append_dropWhile]
  read := by rw [scan_in_comment hBlank hComment h.text, h.read]
  whole := by rw [scan_comment hBlank hComment, h.whole, Text.byteLength_append, Nat.add_assoc]

theorem Seam.cut (hBlank : isBlank c = false) (hComment : startsComment c cs = false)
    (hCut : cut offset c cs = .ok k)
    (h : Seam (offset + byteLength k.taken) k.rest front back before) :
    Seam offset (c :: cs) (k.taken ++ front) back (⟨k.token, offset⟩ :: before) where
  text := by rw [List.append_assoc, ← h.text, ← (eq_of_cut hCut).1]
  read := by
    rw [scan_of_cut hBlank hComment hCut h.text, h.read]
    rfl
  whole := by
    rw [scan_cut hBlank hComment hCut, h.whole, Text.byteLength_append, Nat.add_assoc]
    cases scan (offset + (byteLength k.taken + byteLength front)) back <;> rfl

/-- What is read from a seam on are the tokens that are left. -/
theorem Seam.scan_back (h : Seam offset cs front back before)
    (hScan : scan offset cs = .ok (before ++ after)) :
    scan (offset + byteLength front) back = .ok after := by
  have hWhole := h.whole
  rw [hScan] at hWhole
  cases hBack : scan (offset + byteLength front) back with
  | error e =>
    rw [hBack] at hWhole
    cases hWhole
  | ok rest =>
    rw [hBack] at hWhole
    have hSame : before ++ after = before ++ rest := Except.ok.inj hWhole
    rw [List.append_cancel_left hSame]

/-! ## Tokens stand at seams -/

/-- Every token stands at a seam, with the tokens before it in front. -/
theorem exists_seam_of_token (h : scan offset cs = .ok (before ++ p :: after)) :
    ∃ front back, Seam offset cs front back before ∧ offset + byteLength front = p.offset := by
  fun_induction scan offset cs generalizing before with
  | case1 offset => simp at h
  | case2 offset c cs hBlank ih =>
    obtain ⟨front, back, hSeam, hOffset⟩ := ih h
    refine ⟨c :: front, back, hSeam.blank hBlank, ?_⟩
    rw [← hOffset, Text.byteLength_cons, Nat.add_assoc]
  | case3 offset c cs hBlank hComment ih =>
    rw [Bool.not_eq_true] at hBlank
    obtain ⟨front, back, hSeam, hOffset⟩ := ih h
    refine ⟨_, back, hSeam.comment hBlank hComment, ?_⟩
    rw [← hOffset, Text.byteLength_append, Nat.add_assoc]
  | case4 => cases h
  | case5 offset c cs hBlank hComment k hCut ih =>
    rw [Bool.not_eq_true] at hBlank hComment
    obtain ⟨tail, hRest, hTokens⟩ := exists_of_map_cons h
    cases before with
    | nil =>
      -- The token is the first one, so it stands where the text starts.
      obtain ⟨rfl, -⟩ := List.cons.inj hTokens
      exact ⟨[], c :: cs, .start offset (c :: cs), rfl⟩
    | cons first before =>
      obtain ⟨rfl, rfl⟩ := List.cons.inj hTokens
      obtain ⟨front, back, hSeam, hOffset⟩ := ih hRest
      refine ⟨_, back, hSeam.cut hBlank hComment hCut, ?_⟩
      rw [← hOffset, Text.byteLength_append, Nat.add_assoc]

/-! ## Errors stand at seams -/

/-- An error points at what is no token: a character that starts none, or a mark that opens a quote
which is never closed. -/
inductive ParseError.PointsAt (offset : Nat) : ParseError → List Char → Prop
  | character {c : Char} {cs : List Char} :
    isBlank c = false → isQuoteMark c = false → c.isDigit = false → startsName c = false →
      cutSymbol? (c :: cs) = none → PointsAt offset (.unexpectedCharacter c offset) (c :: cs)
  | quote {c : Char} {cs : List Char} :
    isQuoteMark c = true → undoubled? c cs = none →
      PointsAt offset (.unterminatedQuote offset) (c :: cs)

theorem pointsAt_of_cut_error (hBlank : isBlank c = false) (hCut : cut offset c cs = .error e) :
    e.PointsAt offset (c :: cs) := by
  rcases starts c with hQuote | ⟨hQuote, hDigit⟩ | ⟨hQuote, hDigit, hName⟩ | ⟨hQuote, hDigit, hName⟩
  · rw [cut_of_quote hQuote, elim_eq_error_iff, cutQuoted?, Option.map_eq_none_iff] at hCut
    obtain ⟨hOpen, rfl⟩ := hCut
    exact .quote hQuote hOpen
  · rw [cut_of_number hQuote hDigit] at hCut
    cases hCut
  · rw [cut_of_name hQuote hDigit hName] at hCut
    cases hCut
  · rw [cut_of_symbol hQuote hDigit hName, elim_eq_error_iff] at hCut
    obtain ⟨hNone, rfl⟩ := hCut
    exact .character hBlank hQuote hDigit hName hNone

/-- An error points at a seam. -/
theorem exists_seam_of_error (h : scan offset cs = .error e) :
    ∃ front back before, Seam offset cs front back before ∧
      e.PointsAt (offset + byteLength front) back := by
  fun_induction scan offset cs with
  | case1 => cases h
  | case2 offset c cs hBlank ih =>
    obtain ⟨front, back, before, hSeam, hPoints⟩ := ih h
    refine ⟨c :: front, back, before, hSeam.blank hBlank, ?_⟩
    rwa [Text.byteLength_cons, ← Nat.add_assoc]
  | case3 offset c cs hBlank hComment ih =>
    rw [Bool.not_eq_true] at hBlank
    obtain ⟨front, back, before, hSeam, hPoints⟩ := ih h
    refine ⟨_, back, before, hSeam.comment hBlank hComment, ?_⟩
    rwa [Text.byteLength_append, ← Nat.add_assoc]
  | case4 offset c cs hBlank hComment e' hCut =>
    rw [Bool.not_eq_true] at hBlank
    obtain rfl : e' = e := Except.error.inj h
    exact ⟨[], c :: cs, [], .start offset (c :: cs), pointsAt_of_cut_error hBlank hCut⟩
  | case5 offset c cs hBlank hComment k hCut ih =>
    rw [Bool.not_eq_true] at hBlank hComment
    cases hRest : scan (offset + byteLength k.taken) k.rest with
    | ok tail =>
      rw [hRest] at h
      cases h
    | error e' =>
      rw [hRest] at h
      obtain rfl : e' = e := Except.error.inj h
      obtain ⟨front, back, before, hSeam, hPoints⟩ := ih hRest
      refine ⟨_, back, _, hSeam.cut hBlank hComment hCut, ?_⟩
      rwa [Text.byteLength_append, ← Nat.add_assoc]

/-! ## Places -/

theorem byteLength_pos (h : cs ≠ []) : 0 < byteLength cs := by
  cases cs with
  | nil => exact absurd rfl h
  | cons c cs =>
    have hSize := c.utf8Size_pos
    rw [Text.byteLength_cons]
    omega

/-- No token stands in front of the text, and every token stands behind the ones before it. -/
theorem pairwise_offset_of_scan (h : scan offset cs = .ok ts) :
    (∀ p ∈ ts, offset ≤ p.offset) ∧ (ts.map Placed.offset).Pairwise (· < ·) := by
  fun_induction scan offset cs generalizing ts with
  | case1 =>
    obtain rfl : [] = ts := Except.ok.inj h
    simp
  | case2 offset c cs hBlank ih =>
    obtain ⟨hBehind, hOrder⟩ := ih h
    exact ⟨fun p hMem => by have := hBehind p hMem; omega, hOrder⟩
  | case3 offset c cs hBlank hComment ih =>
    obtain ⟨hBehind, hOrder⟩ := ih h
    exact ⟨fun p hMem => by have := hBehind p hMem; omega, hOrder⟩
  | case4 => cases h
  | case5 offset c cs hBlank hComment k hCut ih =>
    obtain ⟨tail, hRest, rfl⟩ := exists_of_map_cons h
    obtain ⟨hBehind, hOrder⟩ := ih hRest
    have hTaken : 0 < byteLength k.taken := byteLength_pos (eq_of_cut hCut).2
    have hLater : ∀ p ∈ tail, offset < p.offset := by
      intro p hMem
      have := hBehind p hMem
      omega
    refine ⟨?_, ?_⟩
    · rw [List.forall_mem_cons]
      exact ⟨Nat.le_refl offset, fun p hMem => Nat.le_of_lt (hLater p hMem)⟩
    · rw [List.map_cons, List.pairwise_cons, List.forall_mem_map]
      exact ⟨hLater, hOrder⟩

/-- A token with its place counted from a place further on. -/
def Placed.countedFrom (start : Nat) (p : Placed) : Placed := { p with offset := p.offset - start }

/-- A token so many bytes further on. -/
def Placed.shifted (distance : Nat) (p : Placed) : Placed :=
  { p with offset := distance + p.offset }

theorem Placed.countedFrom_shifted (distance : Nat) (p : Placed) :
    (p.shifted distance).countedFrom distance = p := by
  simp [shifted, countedFrom]

theorem Placed.map_countedFrom_shifted (distance : Nat) (ts : List Placed) :
    (ts.map (shifted distance)).map (countedFrom distance) = ts := by
  rw [List.map_map]
  exact (List.map_congr_left fun p _ => countedFrom_shifted distance p).trans (List.map_id ts)

/-- A text that stands further on has its tokens so much further on. -/
theorem toOption_scan_add (distance offset : Nat) (cs : List Char) :
    (scan (distance + offset) cs).toOption =
      (scan offset cs).toOption.map (·.map (Placed.shifted distance)) := by
  fun_induction scan offset cs with
  | case1 offset =>
    rw [scan_nil]
    rfl
  | case2 offset c cs hBlank ih => rw [scan_blank hBlank, Nat.add_assoc, ih]
  | case3 offset c cs hBlank hComment ih =>
    rw [Bool.not_eq_true] at hBlank
    rw [scan_comment hBlank hComment, Nat.add_assoc, ih]
  | case4 offset c cs hBlank hComment e hCut =>
    rw [Bool.not_eq_true] at hBlank hComment
    cases hOther : cut (distance + offset) c cs with
    | error e' =>
      rw [scan_fault hBlank hComment hOther]
      rfl
    | ok k =>
      rw [cut_offset hOther] at hCut
      cases hCut
  | case5 offset c cs hBlank hComment k hCut ih =>
    rw [Bool.not_eq_true] at hBlank hComment
    rw [scan_cut hBlank hComment (cut_offset hCut), Nat.add_assoc]
    cases hRest : scan (offset + byteLength k.taken) k.rest <;>
      cases hOther : scan (distance + (offset + byteLength k.taken)) k.rest <;>
        rw [hRest, hOther] at ih
    · rfl
    · cases ih
    · cases ih
    · have hTail := Option.some.inj ih
      exact congrArg (fun tail => some (⟨k.token, distance + offset⟩ :: tail)) hTail

/-- The tokens that are read at a place are those of the text by itself, counted from that place. -/
theorem scan_zero_of_scan (h : scan offset cs = .ok ts) :
    scan 0 cs = .ok (ts.map (Placed.countedFrom offset)) := by
  have hShift := toOption_scan_add offset 0 cs
  rw [Nat.add_zero, h] at hShift
  cases hZero : scan 0 cs with
  | error e =>
    rw [hZero] at hShift
    cases hShift
  | ok read =>
    rw [hZero] at hShift
    rw [show ts = read.map (Placed.shifted offset) from Option.some.inj hShift,
      Placed.map_countedFrom_shifted]

/-! ## Texts -/

theorem eq_append_of_toList {text : String} (h : text.toList = front ++ back) :
    text = String.ofList front ++ String.ofList back := by
  rw [← String.ofList_append, ← h, String.ofList_toList]

theorem tokens_ofList (cs : List Char) : tokens (String.ofList cs) = scan 0 cs := by
  rw [tokens, String.toList_ofList]

/-- **Tokens can be read from any of their places.** The tokens of a text stand one behind the
other. At each of them the text is cut between two characters, as many bytes into the text as the
token says: the text in front of it has the tokens in front of it, at the same places, and the text
from there on has that token and those behind it, at places that many bytes less.

A text that has no tokens is cut in front of the character that the error names, or of the mark of
the quote that is not closed, and the text in front of it has tokens. -/
theorem tokens_local (text : String) :
    (∀ ts, tokens text = .ok ts → (ts.map Placed.offset).Pairwise (· < ·) ∧
      ∀ before p after, ts = before ++ p :: after →
        ∃ front back, text = front ++ back ∧ front.utf8ByteSize = p.offset ∧
          tokens front = .ok before ∧
          tokens back = .ok ((p :: after).map (Placed.countedFrom p.offset))) ∧
    ∀ e, tokens text = .error e →
      ∃ front back, text = front ++ back ∧ e.PointsAt front.utf8ByteSize back.toList ∧
        ∃ ts, tokens front = .ok ts := by
  refine ⟨fun ts hTokens => ⟨(pairwise_offset_of_scan hTokens).2, ?_⟩, fun e hError => ?_⟩
  · rintro before p after rfl
    obtain ⟨front, back, hSeam, hOffset⟩ := exists_seam_of_token hTokens
    have hBack := hSeam.scan_back hTokens
    rw [hOffset] at hBack
    refine ⟨String.ofList front, String.ofList back, eq_append_of_toList hSeam.text, ?_, ?_, ?_⟩
    · rw [← Text.byteLength_eq_utf8ByteSize, ← hOffset, Nat.zero_add]
    · rw [tokens_ofList, hSeam.read]
    · rw [tokens_ofList, scan_zero_of_scan hBack]
  · obtain ⟨front, back, before, hSeam, hPoints⟩ := exists_seam_of_error hError
    refine ⟨String.ofList front, String.ofList back, eq_append_of_toList hSeam.text, ?_, before, ?_⟩
    · rwa [← Text.byteLength_eq_utf8ByteSize, String.toList_ofList, ← Nat.zero_add (byteLength front)]
    · rw [tokens_ofList, hSeam.read]

end RecordStore.Sql
