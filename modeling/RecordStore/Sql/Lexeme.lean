import RecordStore.Sql.ParseError
import RecordStore.Text.CharClass

/-!
# Cutting a text into tokens

Blanks and comments separate tokens; a comment goes from two hyphens to the end of its line. At
every other character a token is cut off, the longest that fits: a name goes on as long as letters,
digits and underscores follow, a number as long as digits and points do, and a quoted text up to its
closing quote. `tokens` keeps with each token the number of bytes in front of it.

## Main results

- `eq_of_cut`: what is cut off and what follows make up the text.
- `cut_length`: a cut takes at least one character.
-/

namespace RecordStore.Sql

open Text (isBlank isAlphabetic isAlphanumeric doubled undoubled? byteLength)

/-- A token cut off the front of a text, the characters it was cut from, and what follows. -/
structure Cut where
  token : Token
  taken : List Char
  rest : List Char

/-- A character that a bare name may start with. -/
def startsName (c : Char) : Bool := isAlphabetic c || c == '_'

/-- A character that a bare name may go on with. -/
def continuesName (c : Char) : Bool := isAlphanumeric c || c == '_'

/-- A character that a number may go on with. -/
def continuesNumber (c : Char) : Bool := c.isDigit || c == '.'

/-- Marks and comparators by their spelling. Of two that start alike the longer comes first. -/
def symbols : List (List Char × Token) :=
  [(['?'], .placeholder), ([','], .comma), (['.'], .dot), ([';'], .semicolon), (['('], .leftParen),
    ([')'], .rightParen), (['*'], .star), (['-'], .minus), (['=', '='], .comparator .equal),
    (['='], .comparator .equal), (['!', '='], .comparator .unequal),
    (['<', '='], .comparator .atMost), (['<', '>'], .comparator .unequal),
    (['<'], .comparator .less), (['>', '='], .comparator .atLeast), (['>'], .comparator .greater)]

/-- Cuts off a mark or comparator. -/
def cutSymbol? (cs : List Char) : Option Cut :=
  (symbols.find? fun symbol => symbol.1.isPrefixOf cs).map fun (spelling, token) =>
    ⟨token, spelling, cs.drop spelling.length⟩

/-- Cuts off a quoted text or name, after its opening quote. -/
def cutQuoted? (quote : Char) (token : String → Token) (cs : List Char) : Option Cut :=
  (undoubled? quote cs).map fun (body, rest) =>
    ⟨token (String.ofList body), quote :: (doubled quote body ++ [quote]), rest⟩

/-- Cuts off a run of characters. -/
def cutRun (continues : Char → Bool) (token : String → Token) (c : Char) (cs : List Char) : Cut :=
  let run := c :: cs.takeWhile continues
  ⟨token (String.ofList run), run, cs.dropWhile continues⟩

/-- Cuts a token off a text that starts with `c`, `offset` bytes into the whole. -/
def cut (offset : Nat) (c : Char) (cs : List Char) : Except ParseError Cut :=
  if c = '\'' then (cutQuoted? c .text cs).elim (.error (.unterminatedQuote offset)) .ok
  else if c = '"' ∨ c = '`' then
    (cutQuoted? c .quotedName cs).elim (.error (.unterminatedQuote offset)) .ok
  else if c.isDigit then .ok (cutRun continuesNumber .number c cs)
  else if startsName c then .ok (cutRun continuesName .name c cs)
  else (cutSymbol? (c :: cs)).elim (.error (.unexpectedCharacter c offset)) .ok

/-! ## What a cut takes -/

theorem cutSymbol?_eq {cs : List Char} {k : Cut} (h : cutSymbol? cs = some k) :
    cs = k.taken ++ k.rest ∧ k.taken ≠ [] := by
  obtain ⟨⟨spelling, token⟩, hFind, rfl⟩ := Option.map_eq_some_iff.1 h
  have hPrefix := List.find?_some hFind
  obtain ⟨tail, rfl⟩ := List.isPrefixOf_iff_prefix.1 hPrefix
  have hAll : ∀ s ∈ symbols, s.1 ≠ [] := by decide
  exact ⟨by simp, hAll _ (List.mem_of_find?_eq_some hFind)⟩

theorem cutQuoted?_eq {quote : Char} {token : String → Token} {cs : List Char} {k : Cut}
    (h : cutQuoted? quote token cs = some k) : quote :: cs = k.taken ++ k.rest ∧ k.taken ≠ [] := by
  obtain ⟨⟨body, rest⟩, hBody, rfl⟩ := Option.map_eq_some_iff.1 h
  exact ⟨by simp [← (Text.eq_of_undoubled? cs hBody).1], by simp⟩

theorem cutRun_eq (continues : Char → Bool) (token : String → Token) (c : Char) (cs : List Char) :
    c :: cs = (cutRun continues token c cs).taken ++ (cutRun continues token c cs).rest ∧
      (cutRun continues token c cs).taken ≠ [] := by
  simp [cutRun, List.takeWhile_append_dropWhile]

private theorem elim_ok {o : Option Cut} {e : ParseError} {k : Cut}
    (h : o.elim (.error e) Except.ok = .ok k) : o = some k := by
  cases o with
  | none => cases h
  | some a => cases h; rfl

/-- What is cut off and what follows make up the text. -/
theorem eq_of_cut {offset : Nat} {c : Char} {cs : List Char} {k : Cut}
    (h : cut offset c cs = .ok k) : c :: cs = k.taken ++ k.rest ∧ k.taken ≠ [] := by
  unfold cut at h
  repeat' split at h
  · exact cutQuoted?_eq (elim_ok h)
  · exact cutQuoted?_eq (elim_ok h)
  · cases h; exact cutRun_eq _ _ _ _
  · cases h; exact cutRun_eq _ _ _ _
  · exact cutSymbol?_eq (elim_ok h)

theorem cut_length {offset : Nat} {c : Char} {cs : List Char} {k : Cut}
    (h : cut offset c cs = .ok k) : k.rest.length < (c :: cs).length := by
  obtain ⟨hEq, hNe⟩ := eq_of_cut h
  have hPos := List.length_pos_iff.2 hNe
  rw [hEq, List.length_append]
  omega

/-! ## Whole texts -/

/-- Whether a comment starts here. -/
def startsComment (c : Char) (cs : List Char) : Bool := c == '-' && cs.head? == some '-'

/-- A character of a comment. -/
def inComment (c : Char) : Bool := c != '\n'

/-- The tokens of a text that starts `offset` bytes into the whole. -/
def scan (offset : Nat) (cs : List Char) : Except ParseError (List Placed) :=
  match cs with
  | [] => .ok []
  | c :: cs =>
    if isBlank c then scan (offset + c.utf8Size) cs
    else if startsComment c cs then
      scan (offset + byteLength (c :: cs.takeWhile inComment)) (cs.dropWhile inComment)
    else
      match _hCut : cut offset c cs with
      | .error fault => .error fault
      | .ok k => (scan (offset + byteLength k.taken) k.rest).map (⟨k.token, offset⟩ :: ·)
termination_by cs.length
decreasing_by
  · exact Nat.lt_succ_self _
  · exact Nat.lt_succ_of_le (List.dropWhile_sublist _).length_le
  · exact cut_length (by assumption)

/-- The tokens of a text. -/
def tokens (s : String) : Except ParseError (List Placed) := scan 0 s.toList

end RecordStore.Sql
