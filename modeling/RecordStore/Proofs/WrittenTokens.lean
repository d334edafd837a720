import RecordStore.Proofs.ScriptTokens
import RecordStore.Sql.Writing

/-!
# Written tokens are read back

Proper tokens that are written with single blanks between them are read back one by one, each at the
byte where its spelling starts. What a quoted text or name holds makes no difference to the tokens
around it: its marks are doubled inside, and nothing else in it is looked at.

One token at a time is enough (`readsBack_spelling`). Whatever follows a spelling is nothing or a blank,
and a blank ends every run, leaves a closing quote undoubled, extends no symbol and makes no comment
out of a hyphen. For names, numbers and quotes `ReadsBefore` says what else may follow.

## Main results

- `readsBefore_name`, `readsBefore_number`, `readsBefore_quote`: what may follow a spelling.
- `readsBack_spelling`: the spelling of a proper token is cut off as that token.
- `isProper_of_scan`: only proper tokens are cut off a text.
- `scan_write`: written tokens are read back at any place.
- `tokens_write`: the tokens of a written text are the ones that were written, in their places.
-/

namespace RecordStore.Sql

open Text (isBlank isAlphabetic doubled undoubled? byteLength takeWhile_append_stop dropWhile_append_stop)

variable {c : Char} {cs rest : List Char}

/-! ## First characters -/

/-- A character with a property that another one lacks is not that one. -/
private theorem ne_of_class {p : Char → Bool} {d : Char} (h : p c = true) (hNot : p d = false) :
    c ≠ d := by
  rintro rfl
  rw [h] at hNot
  cases hNot

private theorem not_isQuoteMark_of_class {p : Char → Bool} (h : p c = true)
    (hOutside : ['\'', '"', '`'].any p = false) : isQuoteMark c = false := by
  simp only [List.any_cons, List.any_nil, Bool.or_false, Bool.or_eq_false_iff] at hOutside
  rw [← Bool.not_eq_true, isQuoteMark_iff]
  simp [ne_of_class h hOutside.1, ne_of_class h hOutside.2.1, ne_of_class h hOutside.2.2]

private theorem not_isBlank_of_class {p : Char → Bool} (h : p c = true)
    (hOutside : Text.blanks.any p = false) : isBlank c = false := by
  rw [← Bool.not_eq_true, isBlank, List.contains_iff_mem]
  intro hMem
  rw [List.any_eq_true.2 ⟨c, hMem, h⟩] at hOutside
  cases hOutside

/-- A digit starts no name. -/
theorem not_isDigit_of_startsName (h : startsName c = true) : c.isDigit = false := by
  rw [← Bool.not_eq_true]
  intro hDigit
  have hRange : 48 ≤ c.toNat ∧ c.toNat ≤ 57 := by
    simpa [Char.isDigit, UInt32.le_iff_toNat_le] using hDigit
  have hLetter : isAlphabetic c = false := by
    have hRanges : c.isAlpha = (decide (65 ≤ c.toNat ∧ c.toNat ≤ 90) ||
        (decide (97 ≤ c.toNat) && decide (c.toNat ≤ 122))) := rfl
    rw [isAlphabetic, if_pos (by omega), hRanges]
    simp only [Bool.or_eq_false_iff, Bool.and_eq_false_iff, decide_eq_false_iff_not]
    omega
  simp only [startsName, hLetter, Bool.false_or, beq_iff_eq] at h
  subst h
  cases hDigit

theorem not_isBlank_of_startsName (h : startsName c = true) : isBlank c = false := by
  rw [← Bool.not_eq_true]
  intro hBlank
  have hNotLetter := Text.not_isAlphabetic_of_isBlank hBlank
  simp only [startsName, hNotLetter, Bool.false_or, beq_iff_eq] at h
  subst h
  cases hBlank

/-! ## What follows a token -/

/-- What follows a written token: nothing, or a blank. -/
def IsSeparated (rest : List Char) : Prop := ∀ c ∈ rest.head?, c = ' '

/-- What does not go on with a run. -/
def EndsRun (continues : Char → Bool) (rest : List Char) : Prop :=
  ∀ c ∈ rest.head?, continues c = false

theorem endsRun_cons {continues : Char → Bool} (h : continues c = false) (rest : List Char) :
    EndsRun continues (c :: rest) := by
  intro d hd
  rwa [← Option.some.inj hd]

theorem IsSeparated.endsRun {continues : Char → Bool} (h : IsSeparated rest)
    (hBlank : continues ' ' = false) : EndsRun continues rest := by
  intro c hc
  rw [h c hc, hBlank]

/-- A symbol has no blank in it, so none reaches beyond the blank that follows another. -/
theorem isPrefixOf_append_of_isSeparated {spelling symbol : List Char} (hRest : IsSeparated rest)
    (hSymbol : symbol.all (· != ' ') = true) :
    symbol.isPrefixOf (spelling ++ rest) = symbol.isPrefixOf spelling := by
  induction symbol generalizing spelling with
  | nil => simp
  | cons d symbol ih =>
    obtain ⟨hNotBlank, hSymbol⟩ := Bool.and_eq_true_iff.1 (List.all_cons ▸ hSymbol)
    cases spelling with
    | nil =>
      cases rest with
      | nil => rfl
      | cons e rest =>
        obtain rfl : e = ' ' := hRest e rfl
        have hNe : (d == ' ') = false := by simpa using hNotBlank
        simp [List.isPrefixOf, hNe]
    | cons e spelling => simp [List.isPrefixOf, ih hSymbol]

/-- Of two symbols that start alike the one is cut off that was written. -/
theorem cutSymbol?_append {spelling : List Char} {token : Token} (hRest : IsSeparated rest)
    (h : symbols.find? (fun symbol => symbol.1.isPrefixOf spelling) = some (spelling, token)) :
    cutSymbol? (spelling ++ rest) = some ⟨token, spelling, rest⟩ := by
  have hSymbols : ∀ symbol ∈ symbols, symbol.1.all (· != ' ') = true := by decide
  have hFind : symbols.find? (fun symbol => symbol.1.isPrefixOf (spelling ++ rest)) =
      symbols.find? (fun symbol => symbol.1.isPrefixOf spelling) := by
    rw [← List.head?_filter, ← List.head?_filter, List.filter_congr]
    intro symbol hMem
    exact isPrefixOf_append_of_isSeparated hRest (hSymbols symbol hMem)
  simp [cutSymbol?, hFind, h]

theorem cutRun_append {continues : Char → Bool} {token : String → Token}
    (hRest : EndsRun continues rest) (hAll : cs.all continues = true) :
    cutRun continues token c (cs ++ rest) = ⟨token (String.ofList (c :: cs)), c :: cs, rest⟩ := by
  have hRun : ∀ d ∈ cs, continues d = true := List.all_eq_true.1 hAll
  rw [cutRun, takeWhile_append_stop hRun hRest, dropWhile_append_stop hRun hRest]

theorem cutQuoted?_append {mark : Char} {token : String → Token} (hRest : rest.head? ≠ some mark)
    (content : String) :
    cutQuoted? mark token (doubled mark content.toList ++ mark :: rest) =
      some ⟨token content, enclosed mark content, rest⟩ := by
  simp [cutQuoted?, Text.undoubled?_doubled content.toList hRest, enclosed]

/-! ## One token -/

/-- A spelling is read as the token in front of everything that ends it, and this leaves what
follows. -/
def ReadsBefore (ends : List Char → Prop) (token : Token) (spelling : List Char) : Prop :=
  ∃ c cs, spelling = c :: cs ∧ isBlank c = false ∧
    ∀ offset rest, ends rest → startsComment c (cs ++ rest) = false ∧
      cut offset c (cs ++ rest) = .ok ⟨token, spelling, rest⟩

/-- A spelling followed by something is read as the token, and this leaves what follows. -/
def ReadsBack (token : Token) (spelling : List Char) : Prop :=
  ReadsBefore IsSeparated token spelling

theorem ReadsBefore.mono {ends other : List Char → Prop} {token : Token} {spelling : List Char}
    (h : ReadsBefore ends token spelling) (hEnds : ∀ rest, other rest → ends rest) :
    ReadsBefore other token spelling := by
  obtain ⟨c, cs, hSpelling, hBlank, hReads⟩ := h
  exact ⟨c, cs, hSpelling, hBlank, fun offset rest hRest => hReads offset rest (hEnds rest hRest)⟩

theorem readsBefore_of_run {starts continues : Char → Bool} {token : String → Token} {s : String}
    (h : isRun starts continues s.toList = true) (hHyphen : starts '-' = false)
    (hNotBlank : ∀ c, starts c = true → isBlank c = false)
    (hCut : ∀ offset c cs, starts c = true → cut offset c cs = .ok (cutRun continues token c cs)) :
    ReadsBefore (EndsRun continues) (token s) s.toList := by
  cases hs : s.toList with
  | nil => simp [hs, isRun] at h
  | cons c cs =>
    rw [hs, isRun, Bool.and_eq_true] at h
    obtain ⟨hStarts, hAll⟩ := h
    refine ⟨c, cs, rfl, hNotBlank c hStarts, fun offset rest hRest => ⟨?_, ?_⟩⟩
    · simp [startsComment, ne_of_class hStarts hHyphen]
    · rw [hCut offset c _ hStarts, cutRun_append hRest hAll, ← hs, String.ofList_toList]

/-- A bare name is read back in front of everything that does not go on with it. -/
theorem readsBefore_name {s : String} (h : (Token.name s).isProper = true) :
    ReadsBefore (EndsRun continuesName) (.name s) s.toList :=
  readsBefore_of_run h (by decide) (fun _ => not_isBlank_of_startsName) fun _ _ _ hStarts =>
    cut_of_name (not_isQuoteMark_of_class hStarts (by decide)) (not_isDigit_of_startsName hStarts)
      hStarts

/-- A number is read back in front of everything that does not go on with it. -/
theorem readsBefore_number {s : String} (h : (Token.number s).isProper = true) :
    ReadsBefore (EndsRun continuesNumber) (.number s) s.toList :=
  readsBefore_of_run h (by decide) (fun _ hDigit => not_isBlank_of_class hDigit (by decide))
    fun _ _ _ hDigit => cut_of_number (not_isQuoteMark_of_class hDigit (by decide)) hDigit

theorem readsBefore_quote {mark : Char} (h : isQuoteMark mark = true) (content : String) :
    ReadsBefore (·.head? ≠ some mark) (quoteToken mark content) (enclosed mark content) := by
  have hMark : isBlank mark = false ∧ mark ≠ '-' := by
    rcases isQuoteMark_iff.1 h with rfl | rfl | rfl <;> decide
  refine ⟨mark, _, rfl, hMark.1, fun offset rest hRest => ⟨?_, ?_⟩⟩
  · simp [startsComment, hMark.2]
  · rw [cut_of_quote h, List.append_assoc, List.singleton_append, cutQuoted?_append hRest]
    rfl

theorem readsBack_of_run {continues : Char → Bool} {token : Token} {spelling : List Char}
    (h : ReadsBefore (EndsRun continues) token spelling) (hBlank : continues ' ' = false) :
    ReadsBack token spelling :=
  h.mono fun _ hRest => hRest.endsRun hBlank

theorem readsBack_of_quote {mark : Char} (h : isQuoteMark mark = true) (content : String) :
    ReadsBack (quoteToken mark content) (enclosed mark content) := by
  have hMark : mark ≠ ' ' := by
    rcases isQuoteMark_iff.1 h with rfl | rfl | rfl <;> decide
  exact (readsBefore_quote h content).mono fun rest hRest hHead => hMark (hRest mark hHead)

/-- Whether a symbol is told by its first characters from a blank, a comment and other tokens. -/
def opensSymbol (c : Char) (cs : List Char) : Bool :=
  !isBlank c && !startsComment c cs && !isQuoteMark c && !c.isDigit && !startsName c

theorem opensSymbol_of_mem {s : List Char × Token} (h : s ∈ symbols) :
    ∃ c cs, s.1 = c :: cs ∧ opensSymbol c cs = true := by
  have hAll : symbols.all (fun s => s.1.head?.any fun c => opensSymbol c s.1.tail) = true := by
    decide
  have hOpens := List.all_eq_true.1 hAll s h
  cases hs : s.1 with
  | nil => simp [hs] at hOpens
  | cons c cs => exact ⟨c, cs, rfl, by simpa [hs] using hOpens⟩

/-- What is written behind a symbol makes no comment of it. -/
theorem startsComment_append (hRest : IsSeparated rest) (h : startsComment c cs = false) :
    startsComment c (cs ++ rest) = false := by
  cases cs with
  | cons d cs => exact h
  | nil =>
    rw [startsComment, Bool.and_eq_false_imp]
    intro _
    rw [beq_eq_false_iff_ne]
    intro hHead
    cases hRest '-' hHead

theorem readsBack_of_symbol {token : Token} {spelling : List Char}
    (h : symbols.find? (fun symbol => symbol.1.isPrefixOf spelling) = some (spelling, token)) :
    ReadsBack token spelling := by
  obtain ⟨c, cs, hSpelling, hOpens⟩ := opensSymbol_of_mem (List.mem_of_find?_eq_some h)
  obtain rfl : spelling = c :: cs := hSpelling
  simp only [opensSymbol, Bool.and_eq_true, Bool.not_eq_true'] at hOpens
  obtain ⟨⟨⟨⟨hBlank, hComment⟩, hQuote⟩, hDigit⟩, hName⟩ := hOpens
  refine ⟨c, cs, rfl, hBlank, fun offset rest hRest => ⟨startsComment_append hRest hComment, ?_⟩⟩
  rw [cut_of_symbol hQuote hDigit hName, ← List.cons_append, cutSymbol?_append hRest h]
  rfl

theorem readsBack_spelling {l : Lexeme} (h : l.token.isProper = true) :
    ReadsBack l.token l.spelling := by
  obtain ⟨token, mark⟩ := l
  cases token with
  | name s => exact readsBack_of_run (readsBefore_name h) (by decide)
  | number s => exact readsBack_of_run (readsBefore_number h) (by decide)
  | text s => exact readsBack_of_quote (by decide) s
  | quotedName s =>
    cases mark with
    | double => exact @readsBack_of_quote '"' (by decide) s
    | back => exact @readsBack_of_quote '`' (by decide) s
  | comparator op =>
    refine readsBack_of_symbol ?_
    cases op <;>
      simp [symbols, Lexeme.spelling, Token.spelling, Token.display, Comparator.symbol]
  | placeholder | comma | dot | semicolon | leftParen | rightParen | star | minus =>
    refine readsBack_of_symbol ?_
    simp [symbols, Lexeme.spelling, Token.spelling, Token.display]

/-! ## Tokens that are cut off -/

theorem isRun_cons_takeWhile {starts continues : Char → Bool} (h : starts c = true)
    (cs : List Char) : isRun starts continues (c :: cs.takeWhile continues) = true := by
  rw [isRun, h, Bool.true_and]
  exact List.all_takeWhile

/-- What is cut off a text is a proper token. -/
theorem isProper_of_cut {offset : Nat} {k : Cut} (h : cut offset c cs = .ok k) :
    k.token.isProper = true := by
  rcases starts c with hQuote | ⟨hQuote, hDigit⟩ | ⟨hQuote, hDigit, hName⟩ | ⟨hQuote, hDigit, hName⟩
  · rw [cut_of_quote hQuote, elim_eq_ok_iff] at h
    obtain ⟨body, -, rfl⟩ := Option.map_eq_some_iff.1 h
    simp only [quoteToken]
    split <;> rfl
  · rw [cut_of_number hQuote hDigit, Except.ok.injEq] at h
    subst h
    simpa [Token.isProper, cutRun] using isRun_cons_takeWhile hDigit cs
  · rw [cut_of_name hQuote hDigit hName, Except.ok.injEq] at h
    subst h
    simpa [Token.isProper, cutRun] using isRun_cons_takeWhile hName cs
  · rw [cut_of_symbol hQuote hDigit hName, elim_eq_ok_iff] at h
    obtain ⟨symbol, hFind, rfl⟩ := Option.map_eq_some_iff.1 h
    have hSymbols : ∀ s ∈ symbols, s.2.isProper = true := by decide
    exact hSymbols symbol (List.mem_of_find?_eq_some hFind)

/-- Every token of a text is a proper one. -/
theorem isProper_of_scan {offset : Nat} {ts : List Placed} (h : scan offset cs = .ok ts) :
    ∀ p ∈ ts, p.token.isProper = true := by
  fun_induction scan offset cs generalizing ts with
  | case1 =>
    obtain rfl : [] = ts := Except.ok.inj h
    simp
  | case2 offset c cs hBlank ih => exact ih h
  | case3 offset c cs hBlank hComment ih => exact ih h
  | case4 => cases h
  | case5 offset c cs hBlank hComment k hCut ih =>
    obtain ⟨tail, hRest, rfl⟩ := exists_of_map_cons h
    rw [List.forall_mem_cons]
    exact ⟨isProper_of_cut hCut, ih hRest⟩

/-! ## Whole texts -/

theorem scan_append_of_readsBack {token : Token} {spelling : List Char}
    (h : ReadsBack token spelling) (hRest : IsSeparated rest) (offset : Nat) :
    scan offset (spelling ++ rest) =
      (scan (offset + byteLength spelling) rest).map (⟨token, offset⟩ :: ·) := by
  obtain ⟨c, cs, rfl, hBlank, hReads⟩ := h
  obtain ⟨hComment, hCut⟩ := hReads offset rest hRest
  exact scan_cut hBlank hComment hCut

/-- Written tokens are read back wherever they are written. -/
theorem scan_write {ls : List Lexeme} (h : ∀ l ∈ ls, l.token.isProper = true) (offset : Nat) :
    scan offset (Lexeme.write ls) = .ok (Lexeme.placed offset ls) := by
  induction ls generalizing offset with
  | nil => rw [Lexeme.write, List.map_nil, List.intercalate_nil, scan, Lexeme.placed]
  | cons l ls ih =>
    rw [List.forall_mem_cons] at h
    have hReads : ReadsBack l.token l.spelling := readsBack_spelling h.1
    cases ls with
    | nil =>
      have hNone : IsSeparated [] := by simp [IsSeparated]
      have hWrite : Lexeme.write [l] = l.spelling ++ [] := by simp [Lexeme.write]
      rw [hWrite, scan_append_of_readsBack hReads hNone, scan]
      rfl
    | cons next ls =>
      have hBlank : IsSeparated (' ' :: Lexeme.write (next :: ls)) := by simp [IsSeparated]
      rw [Lexeme.write_cons_cons, scan_append_of_readsBack hReads hBlank,
        scan_blank (by decide), ih h.2]
      rfl

namespace Lexeme

/-- What stands in front of a token that is written after others. -/
def ahead (before : List Lexeme) : List Char := before.flatMap fun l => l.spelling ++ [' ']

theorem write_append (before : List Lexeme) (l : Lexeme) (after : List Lexeme) :
    write (before ++ l :: after) = ahead before ++ write (l :: after) := by
  induction before with
  | nil => rfl
  | cons b before ih =>
    have hCons : ∃ next others, before ++ l :: after = next :: others := by
      cases before with
      | nil => exact ⟨l, after, rfl⟩
      | cons next before => exact ⟨next, before ++ l :: after, rfl⟩
    obtain ⟨next, others, hEq⟩ := hCons
    rw [List.cons_append, hEq, write_cons_cons, ← hEq, ih]
    simp [ahead]

/-- A token that is written first is written from the start. -/
theorem spelling_prefix_write (l : Lexeme) (after : List Lexeme) :
    l.spelling <+: write (l :: after) := by
  cases after with
  | nil => simp [write]
  | cons next after =>
    rw [write_cons_cons]
    exact List.prefix_append _ _

theorem map_token_placed (offset : Nat) (ls : List Lexeme) :
    (placed offset ls).map Placed.token = ls.map token := by
  induction ls generalizing offset with
  | nil => rfl
  | cons l ls ih => rw [placed, List.map_cons, List.map_cons, ih]

theorem getElem?_placed (offset : Nat) (before : List Lexeme) (l : Lexeme)
    (after : List Lexeme) :
    (placed offset (before ++ l :: after))[before.length]? =
      some ⟨l.token, offset + byteLength (ahead before)⟩ := by
  induction before generalizing offset with
  | nil => rfl
  | cons b before ih =>
    rw [List.cons_append, placed, List.length_cons, List.getElem?_cons_succ, ih]
    simp [ahead, Char.utf8Size, Nat.add_assoc]

end Lexeme

/-- The tokens of a written text are those that were written, whatever texts and quoted names among
them hold. Each has its place: the text goes on with the spelling of the token after as many bytes
as the token says. -/
theorem tokens_write {ls : List Lexeme} (h : ∀ l ∈ ls, l.token.isProper = true) :
    tokens (String.ofList (Lexeme.write ls)) = .ok (Lexeme.placed 0 ls) ∧
      (Lexeme.placed 0 ls).map Placed.token = ls.map Lexeme.token ∧
      ∀ before l after, ls = before ++ l :: after →
        ∃ front back, Lexeme.write ls = front ++ l.spelling ++ back ∧
          (Lexeme.placed 0 ls)[before.length]? =
            some ⟨l.token, (String.ofList front).utf8ByteSize⟩ := by
  refine ⟨?_, ?_, ?_⟩
  · rw [tokens, String.toList_ofList]
    exact scan_write h 0
  · exact Lexeme.map_token_placed 0 ls
  · rintro before l after rfl
    obtain ⟨back, hBack⟩ := Lexeme.spelling_prefix_write l after
    refine ⟨Lexeme.ahead before, back, ?_, ?_⟩
    · rw [Lexeme.write_append, ← hBack, List.append_assoc]
    · rw [Lexeme.getElem?_placed, Nat.zero_add, Text.byteLength_eq_utf8ByteSize]

/-- A text that looks like the end of a statement with a comment behind it stays one token. -/
theorem tokens_write_hostile_text :
    (∀ l ∈ [Lexeme.mk (.name "x") .double, ⟨.text "a'; -- b", .double⟩, ⟨.minus, .double⟩,
        ⟨.minus, .double⟩, ⟨.quotedName "ü`d", .back⟩, ⟨.number "1.2.", .double⟩],
      l.token.isProper = true) ∧
    tokens "x 'a''; -- b' - - `ü``d` 1.2." =
      .ok [⟨.name "x", 0⟩, ⟨.text "a'; -- b", 2⟩, ⟨.minus, 14⟩, ⟨.minus, 16⟩,
        ⟨.quotedName "ü`d", 18⟩, ⟨.number "1.2.", 26⟩] := by
  have hProper : ∀ l ∈ [Lexeme.mk (.name "x") .double, ⟨.text "a'; -- b", .double⟩,
      ⟨.minus, .double⟩, ⟨.minus, .double⟩, ⟨.quotedName "ü`d", .back⟩, ⟨.number "1.2.", .double⟩],
      l.token.isProper = true := by
    decide
  have hText : String.ofList (Lexeme.write [Lexeme.mk (.name "x") .double,
      ⟨.text "a'; -- b", .double⟩, ⟨.minus, .double⟩, ⟨.minus, .double⟩,
      ⟨.quotedName "ü`d", .back⟩, ⟨.number "1.2.", .double⟩]) = "x 'a''; -- b' - - `ü``d` 1.2." := by
    decide
  refine ⟨hProper, ?_⟩
  rw [← hText]
  exact (tokens_write hProper).1

end RecordStore.Sql
