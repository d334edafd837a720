import RecordStore.Sql.Lexeme

/-!
# Writing tokens

Every token has a spelling. In a text the mark around it is written twice; the name of a quoted name
may stand in either of two marks, so a list of tokens is written with a choice of marks. Between
tokens stands one blank.

## Main results

- `spelling_ne_nil`: a proper token takes at least one character.
- `length_placed`: every token that is written has its place.
-/

namespace RecordStore.Sql

open Text (doubled byteLength)

/-- The mark around a quoted name. -/
inductive NameMark where
  | double
  | back
  deriving DecidableEq, Repr

def NameMark.char : NameMark → Char
  | double => '"'
  | back => '`'

/-- A content between marks, the marks inside of it written twice. -/
def enclosed (mark : Char) (content : String) : List Char :=
  mark :: (doubled mark content.toList ++ [mark])

/-- How a token is written. -/
def Token.spelling (mark : NameMark) : Token → List Char
  | quotedName s => enclosed mark.char s
  | text s => enclosed '\'' s
  | other => other.display.toList

/-- Whether characters make up a word: one that may start it, and then such as may go on. -/
def isRun (starts continues : Char → Bool) : List Char → Bool
  | [] => false
  | c :: cs => starts c && cs.all continues

/-- Whether a token can be read back from its spelling. A bare name has to be made of letters, digits
and underscores, and a number of digits and points; all other tokens can. -/
def Token.isProper : Token → Bool
  | name s => isRun startsName continuesName s.toList
  | number s => isRun Char.isDigit continuesNumber s.toList
  | _ => true

/-- A token with the mark that is put around it if it is a quoted name. -/
structure Lexeme where
  token : Token
  mark : NameMark
  deriving DecidableEq, Repr

namespace Lexeme

def spelling (l : Lexeme) : List Char := l.token.spelling l.mark

/-- Tokens with single blanks between them. -/
def write (ls : List Lexeme) : List Char := [' '].intercalate (ls.map spelling)

/-- Tokens at the places where they are written, the first of them `offset` bytes into a text. -/
def placed (offset : Nat) : List Lexeme → List Placed
  | [] => []
  | l :: ls => ⟨l.token, offset⟩ :: placed (offset + byteLength l.spelling + 1) ls

theorem write_cons_cons (l next : Lexeme) (ls : List Lexeme) :
    write (l :: next :: ls) = l.spelling ++ ' ' :: write (next :: ls) := by simp [write]

theorem length_placed (offset : Nat) (ls : List Lexeme) : (placed offset ls).length = ls.length := by
  induction ls generalizing offset with
  | nil => rfl
  | cons l ls ih => simp [placed, ih]

theorem spelling_ne_nil {l : Lexeme} (h : l.token.isProper = true) : l.spelling ≠ [] := by
  obtain ⟨token, mark⟩ := l
  cases token with
  | name s | number s =>
    intro hNil
    simp only [spelling, Token.spelling, Token.display] at hNil
    simp [Token.isProper, hNil, isRun] at h
  | comparator op => cases op <;> simp [spelling, Token.spelling, Token.display, Comparator.symbol]
  | quotedName s | text s => simp [spelling, Token.spelling, enclosed]
  | placeholder | comma | dot | semicolon | leftParen | rightParen | star | minus =>
    simp [spelling, Token.spelling, Token.display]

end Lexeme

end RecordStore.Sql
