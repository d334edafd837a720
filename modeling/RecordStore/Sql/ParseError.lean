import RecordStore.Sql.Token

/-!
# Why a text is no statement

A text that cannot be read is answered by the first thing found wrong with it. Where a token does not
fit, the message names what was expected there and what stands there, or says that the text ends.
-/

namespace RecordStore.Sql

/-- What a statement needs at some place. -/
inductive Expectation where
  | keyword (word : String)
  | symbol (token : Token)
  | name
  | comparator
  | value
  | number
  | nowArgument
  | rowCount
  | nothing
  deriving DecidableEq

/-- How a message speaks of what is needed. -/
def Expectation.describe : Expectation → String
  | keyword word => word
  | symbol token => s!"'{token.display}'"
  | name => "an identifier"
  | comparator => "a comparison operator"
  | value => "a value"
  | number => "a number"
  | nowArgument => "'now'"
  | rowCount => "a row count"
  | nothing => "end of statement"

/-- Why a text is no statement. -/
inductive ParseError where
  | empty
  | unexpectedCharacter (c : Char) (offset : Nat)
  | unterminatedQuote (offset : Nat)
  | unexpectedToken (expected : Expectation) (found : Placed)
  | unexpectedEnd (expected : Expectation)
  | unknownStatement (verb : String)
  | unknownTable (name : String)
  | invalidNumber (text : String)
  | valueCount (columns values : Nat)
  deriving DecidableEq

namespace ParseError

def message : ParseError → String
  | empty => "empty statement"
  | unexpectedCharacter c offset => s!"unexpected character '{c}' at offset {offset}"
  | unterminatedQuote offset => s!"unterminated quoted string starting at offset {offset}"
  | unexpectedToken expected found =>
    s!"expected {expected.describe}, found '{found.token.display}' at offset {found.offset}"
  | unexpectedEnd expected => s!"expected {expected.describe}, found end of input"
  | unknownStatement verb => s!"unknown statement kind: {verb}"
  | unknownTable name => s!"unknown table: {name}"
  | invalidNumber text => s!"invalid number: {text}"
  | valueCount columns values => s!"{columns} columns but {values} values"

/-- The error for tokens that do not start as they should. -/
def unexpected (expected : Expectation) : List Placed → ParseError
  | [] => unexpectedEnd expected
  | found :: _ => unexpectedToken expected found

end ParseError

end RecordStore.Sql
