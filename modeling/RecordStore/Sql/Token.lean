import RecordStore.Text.CharClass
import RecordStore.Text.Doubled

/-!
# Tokens

A statement is read as a list of tokens. A bare name is a keyword or a name, depending on where it
stands; a quoted name is never a keyword. The token of a number keeps its digits, since their value
depends on a sign in front.

## Main results

- `Comparator.symbol_injective`: comparators differ in their symbols.
-/

namespace RecordStore.Sql

/-- How two values are compared. -/
inductive Comparator where
  | equal
  | unequal
  | less
  | atMost
  | greater
  | atLeast
  deriving DecidableEq, Repr

/-- The symbol a comparator is shown as. -/
def Comparator.symbol : Comparator → String
  | equal => "="
  | unequal => "!="
  | less => "<"
  | atMost => "<="
  | greater => ">"
  | atLeast => ">="

theorem Comparator.symbol_injective {a b : Comparator} (h : a.symbol = b.symbol) : a = b := by
  revert h
  cases a <;> cases b <;> decide

/-- The smallest part of a statement. -/
inductive Token where
  | name (name : String)
  | quotedName (name : String)
  | text (value : String)
  | number (digits : String)
  | placeholder
  | comma
  | dot
  | semicolon
  | leftParen
  | rightParen
  | star
  | minus
  | comparator (op : Comparator)
  deriving DecidableEq, Repr

namespace Token

/-- A token as messages show it: quotes around a text or name are not doubled inside. -/
def display : Token → String
  | name s => s
  | quotedName s => s!"\"{s}\""
  | text s => s!"'{s}'"
  | number s => s
  | placeholder => "?"
  | comma => ","
  | dot => "."
  | semicolon => ";"
  | leftParen => "("
  | rightParen => ")"
  | star => "*"
  | minus => "-"
  | comparator op => op.symbol

/-- The name of a token that is one, quoted or not. -/
def name? : Token → Option String
  | name s | quotedName s => some s
  | _ => none

/-- Whether a token is a keyword. Letters of keywords may have any case. -/
def isKeyword (word : String) : Token → Bool
  | name s => Text.sameFolded word s
  | _ => false

end Token

/-- The words that end a table reference and so cannot rename the table on their own. -/
def reservedWords : List String :=
  ["WHERE", "JOIN", "INNER", "ON", "ORDER", "LIMIT", "SET", "VALUES", "AND", "OR", "NOT", "AS"]

/-- A token and the byte of the text at which it starts. -/
structure Placed where
  token : Token
  offset : Nat
  deriving DecidableEq, Repr

end RecordStore.Sql
