import RecordStore.Proofs.Binding
import RecordStore.Proofs.Cutting

/-!
# Scripts and their tokens

A script is cut into pieces by a reader that knows quotes and comments only, and into tokens by one
that knows every token. Both see the same semicolons: cutting the tokens of a script at its
semicolons gives the tokens of its pieces.

The proof follows the tokens of the whole script. Each step of `scan` takes some characters off the
front of a text, and these belong to the first piece of it (`pieces_plain`, `pieces_comment`,
`pieces_of_cut`), unless they are a semicolon. What remains of that piece is the beginning of what
remains of the text, and since a cut does not look far ahead, the same step is the first one of the
piece as well (`lexemes_of_cut`).

## Main results

- `mapM_lexemes_pieces`: the tokens of the pieces are the groups of the tokens.
- `isSlicing_splitChars`: the pieces stand in the text in order, with semicolons and blanks between.
- `tokens_split`: a script has tokens if its pieces have, and they are the same ones.
-/

namespace RecordStore.Sql

open Text (isBlank doubled undoubled?)

variable {offset : Nat} {c : Char} {cs rest : List Char} {k : Cut} {e : ParseError}

/-! ## The steps of a scan -/

theorem scan_blank (h : isBlank c = true) :
    scan offset (c :: cs) = scan (offset + c.utf8Size) cs := by
  rw [scan, if_pos h]

theorem scan_comment (hBlank : isBlank c = false) (hComment : startsComment c cs = true) :
    scan offset (c :: cs) =
      scan (offset + Text.byteLength (c :: cs.takeWhile inComment)) (cs.dropWhile inComment) := by
  rw [scan, if_neg (by simp [hBlank]), if_pos hComment]

theorem scan_cut (hBlank : isBlank c = false) (hComment : startsComment c cs = false)
    (hCut : cut offset c cs = .ok k) :
    scan offset (c :: cs) =
      (scan (offset + Text.byteLength k.taken) k.rest).map (⟨k.token, offset⟩ :: ·) := by
  rw [scan, if_neg (by simp [hBlank]), if_neg (by simp [hComment])]
  split
  · next e hError => rw [hCut] at hError; cases hError
  · next k' hOk => rw [hCut] at hOk; cases hOk; rfl

theorem scan_fault (hBlank : isBlank c = false) (hComment : startsComment c cs = false)
    (hCut : cut offset c cs = .error e) : scan offset (c :: cs) = .error e := by
  rw [scan, if_neg (by simp [hBlank]), if_neg (by simp [hComment])]
  split
  · next e' hError => rw [hCut] at hError; cases hError; rfl
  · next k' hOk => rw [hCut] at hOk; cases hOk

/-- What is read behind a token are the tokens behind it. -/
theorem exists_of_map_cons {first : Placed} {read : Except ParseError (List Placed)}
    {ts : List Placed} (h : read.map (first :: ·) = .ok ts) :
    ∃ tail, read = .ok tail ∧ ts = first :: tail := by
  cases read with
  | error e => cases h
  | ok tail => exact ⟨tail, rfl, (Except.ok.inj h).symm⟩

/-! ## Tokens without their places -/

/-- The tokens of a text at any place, if it has tokens. -/
def lexemesAt (offset : Nat) (cs : List Char) : Option (List Token) :=
  (scan offset cs).toOption.map (·.map Placed.token)

/-- The tokens of a text, if it has tokens. -/
def lexemes (cs : List Char) : Option (List Token) := lexemesAt 0 cs

theorem lexemesAt_cut (hBlank : isBlank c = false) (hComment : startsComment c cs = false)
    (hCut : cut offset c cs = .ok k) :
    lexemesAt offset (c :: cs) =
      (lexemesAt (offset + Text.byteLength k.taken) k.rest).map (k.token :: ·) := by
  rw [lexemesAt, scan_cut hBlank hComment hCut, lexemesAt]
  cases scan (offset + Text.byteLength k.taken) k.rest <;> rfl

theorem lexemesAt_fault (hBlank : isBlank c = false) (hComment : startsComment c cs = false)
    (hCut : cut offset c cs = .error e) : lexemesAt offset (c :: cs) = none := by
  rw [lexemesAt, scan_fault hBlank hComment hCut]
  rfl

/-- Where a text stands makes no difference to its tokens. -/
theorem lexemesAt_eq (offset other : Nat) (cs : List Char) :
    lexemesAt offset cs = lexemesAt other cs := by
  fun_induction scan offset cs generalizing other with
  | case1 offset => simp [lexemesAt, scan]
  | case2 offset c cs hBlank ih =>
    rw [lexemesAt, lexemesAt, scan_blank hBlank, scan_blank hBlank]
    exact ih _
  | case3 offset c cs hBlank hComment ih =>
    rw [Bool.not_eq_true] at hBlank
    rw [lexemesAt, lexemesAt, scan_comment hBlank hComment, scan_comment hBlank hComment]
    exact ih _
  | case4 offset c cs hBlank hComment e hCut =>
    rw [Bool.not_eq_true] at hBlank hComment
    rw [lexemesAt_fault hBlank hComment hCut]
    cases hOther : cut other c cs with
    | error e' => rw [lexemesAt_fault hBlank hComment hOther]
    | ok k =>
      rw [cut_offset hOther] at hCut
      cases hCut
  | case5 offset c cs hBlank hComment k hCut ih =>
    rw [Bool.not_eq_true] at hBlank hComment
    rw [lexemesAt_cut hBlank hComment hCut, lexemesAt_cut hBlank hComment (cut_offset hCut), ih]

theorem lexemes_nil : lexemes [] = some [] := by simp [lexemes, lexemesAt, scan, Except.toOption]

theorem lexemes_blank (h : isBlank c = true) : lexemes (c :: cs) = lexemes cs := by
  rw [lexemes, lexemesAt, scan_blank h]
  exact lexemesAt_eq _ _ cs

theorem lexemes_comment (hBlank : isBlank c = false) (hComment : startsComment c cs = true) :
    lexemes (c :: cs) = lexemes (cs.dropWhile inComment) := by
  rw [lexemes, lexemesAt, scan_comment hBlank hComment]
  exact lexemesAt_eq _ _ _

theorem lexemes_cut (hBlank : isBlank c = false) (hComment : startsComment c cs = false)
    (hCut : cut offset c cs = .ok k) :
    lexemes (c :: cs) = (lexemes k.rest).map (k.token :: ·) := by
  rw [lexemes, lexemesAt_cut hBlank hComment (cut_offset hCut), lexemes, lexemesAt_eq _ 0]

theorem lexemes_fault (hBlank : isBlank c = false) (hComment : startsComment c cs = false)
    (hCut : cut offset c cs = .error e) : lexemes (c :: cs) = none := by
  rw [lexemes, lexemesAt_eq 0 offset, lexemesAt_fault hBlank hComment hCut]

/-! ## The characters of the first piece -/

/-- The pieces with characters put in front of the first. -/
def prepend (taken : List Char) (ps : List (List Char)) : List (List Char) :=
  ps.modifyHead (taken ++ ·)

theorem prepend_cons (taken p : List Char) (ps : List (List Char)) :
    prepend taken (p :: ps) = (taken ++ p) :: ps := rfl

theorem prepend_prepend (as bs : List Char) (ps : List (List Char)) :
    prepend as (prepend bs ps) = prepend (as ++ bs) ps := by
  cases ps <;> simp [prepend]

theorem prepend_nil (ps : List (List Char)) : prepend [] ps = ps := by
  cases ps <;> simp [prepend]

/-- The characters that separate statements or may open something. -/
def specials : List Char := [';', '-', '\'', '"', '`']

/-- A character that leaves the statement as it is. -/
def isPlain (c : Char) : Bool := !specials.contains c

theorem pieces_step {mode : Mode} (h : ¬ (mode = .statement ∧ c = ';')) :
    pieces mode (c :: rest) = prepend [c] (pieces (mode.step c rest) rest) := by
  rw [pieces, if_neg h]
  rfl

theorem pieces_semicolon : pieces .statement (';' :: rest) = [] :: pieces .statement rest := by
  simp [pieces]

theorem pieces_plain (h : isPlain c = true) :
    pieces .statement (c :: rest) = prepend [c] (pieces .statement rest) := by
  simp only [isPlain, specials, Bool.not_eq_true', ← Bool.not_eq_true, List.contains_iff_mem,
    List.mem_cons, List.not_mem_nil, or_false, not_or] at h
  obtain ⟨hSemicolon, hHyphen, hMarks⟩ := h
  rw [pieces_step (by simp [hSemicolon])]
  simp [Mode.step, hHyphen, isQuoteMark, hMarks]

theorem pieces_plain_append {taken : List Char} (h : ∀ c ∈ taken, isPlain c = true) :
    pieces .statement (taken ++ rest) = prepend taken (pieces .statement rest) := by
  induction taken with
  | nil => rw [List.nil_append, prepend_nil]
  | cons c taken ih =>
    rw [List.forall_mem_cons] at h
    rw [List.cons_append, pieces_plain h.1, ih h.2, prepend_prepend, List.singleton_append]

/-- A comment belongs to the piece in which it begins. -/
theorem pieces_in_comment (cs : List Char) :
    pieces .comment cs =
      prepend (cs.takeWhile inComment) (pieces .statement (cs.dropWhile inComment)) := by
  induction cs with
  | nil => rfl
  | cons c cs ih =>
    by_cases hLine : c = '\n'
    · have hPlain : isPlain '\n' = true := by decide
      have hStop : inComment '\n' = false := by decide
      rw [hLine, List.takeWhile_cons_of_neg (by simp [hStop]),
        List.dropWhile_cons_of_neg (by simp [hStop]), prepend_nil, pieces_plain hPlain,
        pieces_step (by simp)]
      rfl
    · have hGoesOn : inComment c = true := by simp [inComment, hLine]
      rw [List.takeWhile_cons_of_pos hGoesOn, List.dropWhile_cons_of_pos hGoesOn,
        pieces_step (by simp), Mode.step, if_neg hLine, ih, prepend_prepend, List.singleton_append]

theorem pieces_comment (h : startsComment c cs = true) :
    pieces .statement (c :: cs) =
      prepend (c :: cs.takeWhile inComment) (pieces .statement (cs.dropWhile inComment)) := by
  simp only [startsComment, Bool.and_eq_true, beq_iff_eq] at h
  obtain ⟨rfl, hNext⟩ := h
  rw [pieces_step (by simp), Mode.step, if_pos ⟨rfl, hNext⟩, pieces_in_comment, prepend_prepend,
    List.singleton_append]

private theorem ne_of_isQuoteMark (h : isQuoteMark c = true) : c ≠ ';' ∧ c ≠ '-' := by
  rcases isQuoteMark_iff.1 h with rfl | rfl | rfl <;> decide

/-- A quote mark in a statement opens a quote. -/
theorem pieces_quote (h : isQuoteMark c = true) :
    pieces .statement (c :: rest) = prepend [c] (pieces (.quote c) rest) := by
  obtain ⟨hSemicolon, hHyphen⟩ := ne_of_isQuoteMark h
  rw [pieces_step (by simp [hSemicolon])]
  simp [Mode.step, hHyphen, h]

/-- A quote belongs to the piece in which it is opened, up to the mark that closes it. -/
theorem pieces_in_quote (h : isQuoteMark c = true) (body rest : List Char) :
    pieces (.quote c) (doubled c body ++ c :: rest) =
      prepend (doubled c body ++ [c]) (pieces .statement rest) := by
  induction body with
  | nil =>
    rw [doubled, List.nil_append, pieces_step (by simp)]
    simp [Mode.step]
  | cons d body ih =>
    by_cases hMark : d = c
    · -- A doubled mark closes the quote and opens it again.
      rw [doubled, if_pos hMark, hMark, List.cons_append, List.cons_append, pieces_step (by simp),
        Mode.step, if_pos rfl, pieces_quote h, ih, prepend_prepend, prepend_prepend]
      rfl
    · rw [doubled, if_neg hMark, List.cons_append, pieces_step (by simp), Mode.step, if_neg hMark,
        ih, prepend_prepend]
      rfl

/-- A quote that is not closed reaches to the end of the text. -/
theorem pieces_in_open_quote (h : isQuoteMark c = true) (hOpen : undoubled? c cs = none) :
    pieces (.quote c) cs = [cs] := by
  fun_induction undoubled? c cs with
  | case1 => rfl
  | case2 => cases hOpen
  | case3 d hNe => simp [pieces]
  | case4 cs ih =>
    rw [Option.map_eq_none_iff] at hOpen
    rw [pieces_step (by simp), Mode.step, if_pos rfl, pieces_quote h, ih hOpen]
    rfl
  | case5 => cases hOpen
  | case6 d d' cs hNe ih =>
    rw [Option.map_eq_none_iff] at hOpen
    rw [pieces_step (by simp), Mode.step, if_neg hNe, ih hOpen]
    rfl

/-- The characters of a class are plain if no special one is among them. -/
theorem isPlain_of_class {p : Char → Bool} (h : p c = true) (hOutside : specials.any p = false) :
    isPlain c = true := by
  rw [isPlain, Bool.not_eq_true', ← Bool.not_eq_true, List.contains_iff_mem]
  intro hMem
  have hInside : specials.any p = true := List.any_eq_true.2 ⟨c, hMem, h⟩
  rw [hOutside] at hInside
  cases hInside

/-- A run of plain characters belongs to the piece in which it begins. -/
theorem pieces_of_cutRun {continues : Char → Bool} {token : String → Token}
    (hFirst : isPlain c = true) (hOutside : specials.any continues = false) :
    pieces .statement (c :: cs) = prepend (cutRun continues token c cs).taken
      (pieces .statement (cutRun continues token c cs).rest) := by
  have hEq : c :: cs =
      (cutRun continues token c cs).taken ++ (cutRun continues token c cs).rest :=
    (cutRun_eq continues token c cs).1
  rw [hEq, pieces_plain_append]
  intro d hMem
  rcases List.mem_cons.1 hMem with rfl | hRun
  · exact hFirst
  · exact isPlain_of_class (List.all_eq_true.1 List.all_takeWhile d hRun) hOutside

/-- A quoted token belongs to the piece in which it is opened. -/
theorem pieces_of_cutQuoted? {token : String → Token} (hQuote : isQuoteMark c = true)
    (hCut : cutQuoted? c token cs = some k) :
    pieces .statement (c :: cs) = prepend k.taken (pieces .statement k.rest) := by
  obtain ⟨⟨body, rest⟩, hBody, rfl⟩ := Option.map_eq_some_iff.1 hCut
  rw [(Text.eq_of_undoubled? cs hBody).1, pieces_quote hQuote, pieces_in_quote hQuote,
    prepend_prepend]
  rfl

/-- A symbol is a semicolon, a hyphen or made of plain characters. -/
theorem symbols_cases : ∀ s ∈ symbols,
    s.1 = [';'] ∧ s.2 = .semicolon ∨ s.1 = ['-'] ∧ s.2 = .minus ∨
      s.1.all isPlain = true ∧ s.2 ≠ .semicolon := by
  decide

/-- A symbol other than a semicolon belongs to the piece in which it begins. -/
theorem pieces_of_cutSymbol? (hComment : startsComment c cs = false)
    (hCut : cutSymbol? (c :: cs) = some k) (hToken : k.token ≠ .semicolon) :
    pieces .statement (c :: cs) = prepend k.taken (pieces .statement k.rest) := by
  have hEq : c :: cs = k.taken ++ k.rest := (cutSymbol?_eq hCut).1
  have hSymbol : (k.taken, k.token) ∈ symbols := by
    obtain ⟨symbol, hFind, rfl⟩ := Option.map_eq_some_iff.1 hCut
    exact List.mem_of_find?_eq_some hFind
  rcases symbols_cases _ hSymbol with ⟨-, hSemicolon⟩ | ⟨hHyphen, -⟩ | ⟨hPlain, -⟩
  · exact absurd hSemicolon hToken
  · -- A single hyphen leaves nothing open, since no second one follows it.
    simp only at hHyphen
    rw [hHyphen, List.singleton_append, List.cons.injEq] at hEq
    obtain ⟨rfl, rfl⟩ := hEq
    have hNext : k.rest.head? ≠ some '-' := by simpa [startsComment] using hComment
    rw [hHyphen, pieces_step (by simp), Mode.step, if_neg (by simp [hNext]), if_neg (by decide)]
  · rw [hEq, pieces_plain_append (List.all_eq_true.1 hPlain)]

/-- A token other than a semicolon belongs to the piece in which it begins. -/
theorem pieces_of_cut (hComment : startsComment c cs = false) (hCut : cut offset c cs = .ok k)
    (hToken : k.token ≠ .semicolon) :
    pieces .statement (c :: cs) = prepend k.taken (pieces .statement k.rest) := by
  rcases starts c with hQuote | ⟨hQuote, hDigit⟩ | ⟨hQuote, hDigit, hName⟩ | ⟨hQuote, hDigit, hName⟩
  · rw [cut_of_quote hQuote, elim_eq_ok_iff] at hCut
    exact pieces_of_cutQuoted? hQuote hCut
  · rw [cut_of_number hQuote hDigit, Except.ok.injEq] at hCut
    subst hCut
    exact pieces_of_cutRun (isPlain_of_class hDigit (by decide)) (by decide)
  · rw [cut_of_name hQuote hDigit hName, Except.ok.injEq] at hCut
    subst hCut
    exact pieces_of_cutRun (isPlain_of_class hName (by decide)) (by decide)
  · rw [cut_of_symbol hQuote hDigit hName, elim_eq_ok_iff] at hCut
    exact pieces_of_cutSymbol? hComment hCut hToken

/-! ## The tokens of the pieces -/

/-- The first piece is an initial part of the text. -/
theorem pieces_eq_cons (mode : Mode) (cs : List Char) :
    ∃ first others after, pieces mode cs = first :: others ∧ cs = first ++ after := by
  have hWhole := intercalate_pieces mode cs
  cases hPieces : pieces mode cs with
  | nil => exact absurd hPieces (pieces_ne_nil mode cs)
  | cons first others =>
    rw [hPieces] at hWhole
    cases others with
    | nil => exact ⟨first, [], [], rfl, by simpa using hWhole.symm⟩
    | cons second others =>
      rw [List.intercalate_cons_cons, List.append_assoc] at hWhole
      exact ⟨first, second :: others, _, rfl, hWhole.symm⟩

/-- What stands in front of a text changes the tokens of its first piece only. -/
theorem mapM_lexemes_prepend {taken : List Char} {f : List Token → List Token}
    (hFirst : ∀ first after, rest = first ++ after →
      lexemes (taken ++ first) = (lexemes first).map f) :
    (prepend taken (pieces .statement rest)).mapM lexemes =
      ((pieces .statement rest).mapM lexemes).map (·.modifyHead f) := by
  obtain ⟨first, others, after, hPieces, hRest⟩ := pieces_eq_cons .statement rest
  rw [hPieces, prepend_cons, List.mapM_cons, List.mapM_cons, hFirst first after hRest]
  cases lexemes first with
  | none => rfl
  | some ts => cases others.mapM lexemes <;> rfl

theorem mapM_lexemes_prepend_separator {taken : List Char}
    (hFirst : ∀ first after, rest = first ++ after → lexemes (taken ++ first) = lexemes first) :
    (prepend taken (pieces .statement rest)).mapM lexemes =
      (pieces .statement rest).mapM lexemes := by
  rw [mapM_lexemes_prepend (f := id), List.modifyHead_id]
  · exact Option.map_id_apply
  · intro first after hRest
    rw [hFirst first after hRest, Option.map_id_apply]

theorem startsComment_of_shorter {kept dropped : List Char}
    (h : startsComment c (kept ++ dropped) = false) : startsComment c kept = false := by
  cases kept with
  | nil => simp [startsComment]
  | cons d kept => exact h

/-- A comment is passed by also where the text behind it ends earlier. -/
theorem scan_in_comment (hBlank : isBlank c = false) (hComment : startsComment c cs = true)
    {first after : List Char} (hRest : cs.dropWhile inComment = first ++ after) :
    scan offset ((c :: cs.takeWhile inComment) ++ first) =
      scan (offset + Text.byteLength (c :: cs.takeWhile inComment)) first := by
  have hStarts : startsComment c (cs.takeWhile inComment ++ first) = true := by
    cases cs with
    | nil => simp [startsComment] at hComment
    | cons d cs =>
      simp only [startsComment, List.head?_cons, Bool.and_eq_true, beq_iff_eq,
        Option.some.injEq] at hComment
      obtain ⟨rfl, rfl⟩ := hComment
      rfl
  have hSpan := span_of_shorter hRest
  rw [List.cons_append, scan_comment hBlank hStarts, hSpan.1, hSpan.2]

/-- A token is cut off also where the text behind it ends earlier. -/
theorem scan_of_cut (hBlank : isBlank c = false) (hComment : startsComment c cs = false)
    (hCut : cut offset c cs = .ok k) {first after : List Char} (hRest : k.rest = first ++ after) :
    scan offset (k.taken ++ first) =
      (scan (offset + Text.byteLength k.taken) first).map (⟨k.token, offset⟩ :: ·) := by
  obtain ⟨hTaken, hTail⟩ := taken_eq_cons (eq_of_cut hCut).1 (eq_of_cut hCut).2
  have hShorter : cut offset c (k.taken.tail ++ first) = .ok ⟨k.token, k.taken, first⟩ :=
    cut_of_shorter hCut hRest
  have hNoComment : startsComment c (k.taken.tail ++ first) = false := by
    rw [hTail, hRest, ← List.append_assoc] at hComment
    exact startsComment_of_shorter hComment
  have hScan := scan_cut hBlank hNoComment hShorter
  rwa [← List.cons_append, ← hTaken] at hScan

theorem lexemes_in_comment (hBlank : isBlank c = false) (hComment : startsComment c cs = true)
    {first after : List Char} (hRest : cs.dropWhile inComment = first ++ after) :
    lexemes ((c :: cs.takeWhile inComment) ++ first) = lexemes first := by
  rw [lexemes, lexemesAt, scan_in_comment hBlank hComment hRest]
  exact lexemesAt_eq _ _ first

theorem lexemes_of_cut (hBlank : isBlank c = false) (hComment : startsComment c cs = false)
    (hCut : cut offset c cs = .ok k) {first after : List Char} (hRest : k.rest = first ++ after) :
    lexemes (k.taken ++ first) = (lexemes first).map (k.token :: ·) := by
  rw [lexemes, lexemesAt, scan_of_cut hBlank hComment (cut_offset hCut) hRest, lexemes,
    lexemesAt_eq 0 (0 + Text.byteLength k.taken), lexemesAt]
  cases scan (0 + Text.byteLength k.taken) first <;> rfl

/-- Only a semicolon is cut to a semicolon. -/
theorem cut_semicolon (hCut : cut offset c cs = .ok k) (hToken : k.token = .semicolon) :
    c = ';' ∧ k.rest = cs := by
  obtain ⟨hEq, -⟩ := eq_of_cut hCut
  suffices hTaken : k.taken = [';'] by
    rw [hTaken, List.singleton_append, List.cons.injEq] at hEq
    exact ⟨hEq.1, hEq.2.symm⟩
  rcases starts c with hQuote | ⟨hQuote, hDigit⟩ | ⟨hQuote, hDigit, hName⟩ | ⟨hQuote, hDigit, hName⟩
  · rw [cut_of_quote hQuote, elim_eq_ok_iff] at hCut
    obtain ⟨body, -, rfl⟩ := Option.map_eq_some_iff.1 hCut
    simp only [quoteToken] at hToken
    split at hToken <;> cases hToken
  · rw [cut_of_number hQuote hDigit, Except.ok.injEq] at hCut
    subst hCut
    cases hToken
  · rw [cut_of_name hQuote hDigit hName, Except.ok.injEq] at hCut
    subst hCut
    cases hToken
  · rw [cut_of_symbol hQuote hDigit hName, elim_eq_ok_iff] at hCut
    obtain ⟨symbol, hFind, rfl⟩ := Option.map_eq_some_iff.1 hCut
    have hSpelling : ∀ s ∈ symbols, s.2 = .semicolon → s.1 = [';'] := by decide
    exact hSpelling symbol (List.mem_of_find?_eq_some hFind) hToken

/-- What is no token opens a quote for good, or is plain. -/
theorem isPlain_of_cut_error (hQuote : isQuoteMark c = false)
    (hCut : cut offset c cs = .error e) : isPlain c = true := by
  cases hPlain : isPlain c with
  | true => rfl
  | false =>
    simp only [isPlain, specials, Bool.not_eq_false', List.contains_iff_mem, List.mem_cons,
      List.not_mem_nil, or_false] at hPlain
    rcases hPlain with rfl | rfl | rfl | rfl | rfl
    · cases hCut
    · cases hCut
    all_goals cases hQuote

/-- Where the text has no token, its first piece has none either. -/
theorem mapM_lexemes_of_cut_error (hBlank : isBlank c = false)
    (hComment : startsComment c cs = false) (hCut : cut offset c cs = .error e) :
    (pieces .statement (c :: cs)).mapM lexemes = none := by
  have hFirst : ∃ first others, pieces .statement (c :: cs) = first :: others ∧
      lexemes first = none := by
    cases hQuote : isQuoteMark c with
    | true =>
      refine ⟨c :: cs, [], ?_, lexemes_fault hBlank hComment hCut⟩
      rw [cut_of_quote hQuote, elim_eq_error_iff, cutQuoted?, Option.map_eq_none_iff] at hCut
      rw [pieces_quote hQuote, pieces_in_open_quote hQuote hCut.1]
      rfl
    | false =>
      obtain ⟨first, others, after, hPieces, rfl⟩ := pieces_eq_cons .statement cs
      refine ⟨c :: first, others, ?_, ?_⟩
      · rw [pieces_plain (isPlain_of_cut_error hQuote hCut), hPieces, prepend_cons]
        rfl
      · have hFirst : cut 0 c first = .error (.unexpectedCharacter c 0) :=
          cut_error_of_shorter hQuote hCut
        exact lexemes_fault hBlank (startsComment_of_shorter hComment) hFirst
  obtain ⟨first, others, hPieces, hNone⟩ := hFirst
  rw [hPieces, List.mapM_cons, hNone]
  rfl

/-- The tokens of the pieces are the tokens of the text between its semicolons. -/
theorem mapM_lexemes_pieces (cs : List Char) :
    (pieces .statement cs).mapM lexemes = (lexemes cs).map (·.splitOnP (· == .semicolon)) := by
  obtain ⟨offset⟩ : Nonempty Nat := ⟨0⟩
  fun_induction scan offset cs with
  | case1 offset => simp [pieces, lexemes_nil]
  | case2 offset c cs hBlank ih =>
    have hPlain : isPlain c = true := isPlain_of_class hBlank (by decide)
    rw [lexemes_blank hBlank, pieces_plain hPlain,
      mapM_lexemes_prepend_separator (fun _ _ _ => lexemes_blank hBlank), ih]
  | case3 offset c cs hBlank hComment ih =>
    rw [Bool.not_eq_true] at hBlank
    rw [lexemes_comment hBlank hComment, pieces_comment hComment,
      mapM_lexemes_prepend_separator (fun _ _ => lexemes_in_comment hBlank hComment), ih]
  | case4 offset c cs hBlank hComment e hCut =>
    rw [Bool.not_eq_true] at hBlank hComment
    rw [mapM_lexemes_of_cut_error hBlank hComment hCut, lexemes_fault hBlank hComment hCut]
    rfl
  | case5 offset c cs hBlank hComment k hCut ih =>
    rw [Bool.not_eq_true] at hBlank hComment
    rw [lexemes_cut hBlank hComment hCut]
    by_cases hToken : k.token = .semicolon
    · obtain ⟨rfl, hRest⟩ := cut_semicolon hCut hToken
      rw [pieces_semicolon, List.mapM_cons, lexemes_nil, ← hRest, ih, hToken]
      cases lexemes k.rest <;> simp [List.splitOnP_cons_eq_if_modifyHead]
    · rw [pieces_of_cut hComment hCut hToken,
        mapM_lexemes_prepend (fun first after => lexemes_of_cut hBlank hComment hCut), ih,
        Option.map_map, Option.map_map]
      congr 1
      funext ts
      simp [List.splitOnP_cons_eq_if_modifyHead, hToken]

/-! ## Pieces as slices -/

/-- Semicolons and blanks, which stand between the pieces of a script. -/
def isGap (c : Char) : Bool := c == ';' || isBlank c

/-- Pieces that stand in a text in their order, one after the other, with nothing but semicolons and
blanks around them. -/
inductive IsSlicing : List (List Char) → List Char → Prop
  | nil {gap : List Char} : gap.all isGap = true → IsSlicing [] gap
  | cons {gap piece : List Char} {others : List (List Char)} {rest : List Char} :
      gap.all isGap = true → IsSlicing others rest →
        IsSlicing (piece :: others) (gap ++ piece ++ rest)

theorem IsSlicing.append_left {ps : List (List Char)} {gap cs : List Char}
    (hGap : gap.all isGap = true) (h : IsSlicing ps cs) : IsSlicing ps (gap ++ cs) := by
  cases h with
  | nil hEnd => exact .nil (by rw [List.all_append, hGap, hEnd]; rfl)
  | cons hFront hOthers =>
    rw [List.append_assoc, ← List.append_assoc, ← List.append_assoc]
    exact .cons (by rw [List.all_append, hGap, hFront]; rfl) hOthers

theorem all_isGap_of_isBlank {cs : List Char} (h : cs.all isBlank = true) :
    cs.all isGap = true := by
  rw [List.all_eq_true] at h ⊢
  intro c hMem
  simp [isGap, h c hMem]

/-- Of pieces that make up a text with semicolons between them, those with more than blanks are
slices of it. -/
theorem isSlicing_intercalate (ps : List (List Char)) :
    IsSlicing (ps.filter fun piece => !piece.all isBlank) ([';'].intercalate ps) := by
  have hEnd : [].all isGap = true := rfl
  induction ps with
  | nil => exact .nil rfl
  | cons piece others ih =>
    have hRest : ∃ rest, [';'].intercalate (piece :: others) = piece ++ rest ∧
        IsSlicing (others.filter fun piece => !piece.all isBlank) rest := by
      cases others with
      | nil => exact ⟨[], by simp, .nil rfl⟩
      | cons second others =>
        refine ⟨[';'] ++ [';'].intercalate (second :: others), ?_, ih.append_left (by decide)⟩
        rw [List.intercalate_cons_cons, List.append_assoc]
    obtain ⟨rest, hText, hSlices⟩ := hRest
    rw [hText]
    by_cases hBlank : piece.all isBlank = true
    · rw [List.filter_cons_of_neg (by simp [hBlank])]
      exact hSlices.append_left (all_isGap_of_isBlank hBlank)
    · rw [List.filter_cons_of_pos (by simpa using hBlank)]
      have hNoGap : ([] : List Char).all isGap = true := rfl
      exact .cons hNoGap hSlices

/-- The pieces of a script are slices of it. -/
theorem isSlicing_splitChars (cs : List Char) : IsSlicing (splitChars cs) cs := by
  have h := isSlicing_intercalate (pieces .statement cs)
  rwa [intercalate_pieces] at h

/-! ## Scripts -/

theorem lexemes_of_all_isBlank {cs : List Char} (h : cs.all isBlank = true) :
    lexemes cs = some [] := by
  induction cs with
  | nil => exact lexemes_nil
  | cons c cs ih =>
    rw [List.all_cons, Bool.and_eq_true] at h
    rw [lexemes_blank h.1, ih h.2]

/-- Leaving out blank pieces leaves out groups without tokens. -/
theorem mapM_lexemes_filter (ps : List (List Char)) :
    ((ps.filter fun piece => !piece.all isBlank).mapM lexemes).map
        (·.filter fun group => !group.isEmpty) =
      (ps.mapM lexemes).map (·.filter fun group => !group.isEmpty) := by
  induction ps with
  | nil => rfl
  | cons piece others ih =>
    rw [List.mapM_cons]
    by_cases hBlank : piece.all isBlank = true
    · rw [List.filter_cons_of_neg (by simp [hBlank]), ih, lexemes_of_all_isBlank hBlank]
      cases others.mapM lexemes <;> rfl
    · rw [List.filter_cons_of_pos (by simpa using hBlank), List.mapM_cons]
      cases lexemes piece with
      | none => rfl
      | some ts =>
        cases hKept : (others.filter fun piece => !piece.all isBlank).mapM lexemes <;>
          cases hAll : others.mapM lexemes <;> rw [hKept, hAll] at ih
        · cases ih
        · cases ih
        · have hSame := congrArg ([ts].filter (fun group => !group.isEmpty) ++ ·)
            (Option.some.inj ih)
          simp only [← List.filter_append] at hSame
          exact congrArg some hSame

/-- The tokens of the pieces with more than blanks are the groups of the tokens. -/
theorem mapM_lexemes_splitChars (cs : List Char) :
    ((splitChars cs).mapM lexemes).map (·.filter fun group => !group.isEmpty) =
      (lexemes cs).map groups := by
  rw [splitChars, mapM_lexemes_filter, mapM_lexemes_pieces, Option.map_map]
  rfl

theorem lexemes_toList (text : String) :
    lexemes text.toList = (tokens text).toOption.map (·.map Placed.token) := rfl

theorem mapM_tokens (texts : List String) :
    (texts.mapM tokens).toOption.map (·.map (·.map Placed.token)) =
      (texts.map String.toList).mapM lexemes := by
  induction texts with
  | nil => rfl
  | cons text texts ih =>
    rw [List.map_cons, List.mapM_cons, List.mapM_cons, ← ih, lexemes_toList]
    cases tokens text with
    | error e => rfl
    | ok ts => cases texts.mapM tokens <;> rfl

theorem map_toList_split (script : String) :
    (split script).map String.toList = splitChars script.toList := by
  rw [split, List.map_map]
  exact (List.map_congr_left fun cs _ => String.toList_ofList).trans (List.map_id _)

/-- **A script and its pieces have the same tokens.** A text has tokens if each of its pieces has;
cut at the semicolons, and without empty groups, they are the tokens of the pieces, without the
pieces that hold none. The pieces stand in the text in their order and do not overlap, and there are
only semicolons and blanks around them. -/
theorem tokens_split (script : String) :
    ((∃ ts, tokens script = .ok ts) ↔ ∀ piece ∈ split script, ∃ ts, tokens piece = .ok ts) ∧
      (∀ ts, tokens script = .ok ts → ∃ each, (split script).mapM tokens = .ok each ∧
        groups (ts.map Placed.token) =
          (each.map (·.map Placed.token)).filter fun group => !group.isEmpty) ∧
      IsSlicing ((split script).map String.toList) script.toList := by
  have hTokens :
      ((split script).mapM tokens).toOption.map
          (fun each => (each.map (·.map Placed.token)).filter fun group => !group.isEmpty) =
        (tokens script).toOption.map (fun ts => groups (ts.map Placed.token)) := by
    have h := mapM_lexemes_splitChars script.toList
    rw [lexemes_toList, ← map_toList_split, ← mapM_tokens, Option.map_map, Option.map_map] at h
    exact h
  have hEach : ∀ ts, tokens script = .ok ts → ∃ each, (split script).mapM tokens = .ok each ∧
      groups (ts.map Placed.token) =
        (each.map (·.map Placed.token)).filter fun group => !group.isEmpty := by
    intro ts hScript
    cases hPieces : (split script).mapM tokens with
    | error e =>
      rw [hScript, hPieces] at hTokens
      cases hTokens
    | ok each =>
      rw [hScript, hPieces] at hTokens
      exact ⟨each, rfl, (Option.some.inj hTokens).symm⟩
  refine ⟨?_, hEach, ?_⟩
  · rw [← exists_mapM_iff]
    constructor
    · rintro ⟨ts, hScript⟩
      obtain ⟨each, hPieces, -⟩ := hEach ts hScript
      exact ⟨each, hPieces⟩
    · rintro ⟨each, hPieces⟩
      cases hScript : tokens script with
      | ok ts => exact ⟨ts, rfl⟩
      | error e =>
        rw [hScript, hPieces] at hTokens
        cases hTokens
  · rw [map_toList_split]
    exact isSlicing_splitChars script.toList

end RecordStore.Sql
