import RecordStore.Sql.Lexeme
import RecordStore.Sql.Number
import RecordStore.Sql.Statement

/-!
# Reading statements

A reader takes what it needs from the front of the tokens and numbers the placeholders it passes.
It looks at one token at a time and never goes back, so the first token that does not fit is the one
reported.

`OR` binds weaker than `AND`, both group to the left, and `NOT` applies to the comparison, negation
or parenthesis after it. A parenthesis or negation takes at least one token, so as many levels of
them are enough as there are tokens.

## Main results

- `take_nil`, `take_cons`: a token that has to be there is passed, or reported.
- `eat_nil`, `eat_cons`: a token that may be there is passed, or stays.
-/

namespace RecordStore.Sql

/-- The tokens still to be read, and the number of placeholders passed so far. -/
structure Cursor where
  tokens : List Placed
  placeholders : Nat

/-- Reads an `α` off the front of the tokens. -/
abbrev Reader := StateT Cursor (Except ParseError)

namespace Reader

/-- The next token, which stays where it is. -/
def peek : Reader (Option Token) := do return (← get).tokens.head?.map Placed.token

/-- Passes the next token. -/
def skip : Reader Unit := modify fun c => { c with tokens := c.tokens.drop 1 }

/-- Takes the next token if `accept` does, and fails otherwise. -/
def take {α : Type} (expected : Expectation) (accept : Token → Option α) : Reader α := do
  let cursor ← get
  match cursor.tokens.head?.bind fun t => accept t.token with
  | some a => skip; return a
  | none => throw (ParseError.unexpected expected cursor.tokens)

/-- Takes the next token if it satisfies `p`, and tells whether it does. -/
def eat (p : Token → Bool) : Reader Bool := do
  if (← peek).any p then
    skip
    return true
  else
    return false

theorem take_nil {α : Type} (expected : Expectation) (accept : Token → Option α) (n : Nat) :
    (take expected accept).run ⟨[], n⟩ = .error (.unexpectedEnd expected) := rfl

theorem take_cons {α : Type} (expected : Expectation) (accept : Token → Option α) (t : Placed)
    (ts : List Placed) (n : Nat) :
    (take expected accept).run ⟨t :: ts, n⟩ =
      match accept t.token with
      | some a => .ok (a, ⟨ts, n⟩)
      | none => .error (.unexpectedToken expected t) := by
  cases h : accept t.token with
  | some a => simp [take, skip, h]; rfl
  | none => simp [take, h]; rfl

theorem eat_nil (p : Token → Bool) (n : Nat) :
    (eat p).run ⟨[], n⟩ = .ok (false, ⟨[], n⟩) := rfl

theorem eat_cons (p : Token → Bool) (t : Placed) (ts : List Placed) (n : Nat) :
    (eat p).run ⟨t :: ts, n⟩ =
      if p t.token then .ok (true, ⟨ts, n⟩) else .ok (false, ⟨t :: ts, n⟩) := by
  cases h : p t.token <;> simp [eat, peek, skip, h] <;> rfl

/-- Takes a keyword if it is next. -/
def eatKeyword (word : String) : Reader Bool := eat (Token.isKeyword word)

/-- Takes a token if it is next. -/
def eatToken (token : Token) : Reader Bool := eat (· == token)

/-- Takes a keyword that has to be there. -/
def keyword (word : String) : Reader Unit :=
  take (.keyword word) fun t => if t.isKeyword word then some () else none

/-- Takes a token that has to be there. -/
def symbol (token : Token) : Reader Unit :=
  take (.symbol token) fun t => if t = token then some () else none

/-- An item and as many more as `separator` announces, at most `fuel`. -/
def chain {α β : Type} (separator : Reader Bool) (item : Reader β) (join : α → β → α) :
    Nat → α → Reader α
  | 0, a => return a
  | fuel + 1, a => do
    if ← separator then chain separator item join fuel (join a (← item)) else return a

/-- Reads on with `chain` for as long as there are tokens. -/
def chained {α β : Type} (separator : Reader Bool) (item : Reader β) (join : α → β → α) (a : α) :
    Reader α := do
  chain separator item join (← get).tokens.length a

/-- Items with commas between them, one at least. -/
def list {α : Type} (item : Reader α) : Reader (List α) := do
  let first ← item
  let more ← chained (eatToken .comma) item (fun items next => items ++ [next]) []
  return first :: more

/-! ## Names -/

/-- A name, quoted or not. -/
def name : Reader String := take .name Token.name?

/-- The name of a table. -/
def table : Reader Table := do
  let name ← name
  match Table.ofName? name with
  | some t => return t
  | none => throw (.unknownTable name)

/-- The name a token gives to the table in front of it. -/
def aliasOf? : Token → Option String
  | .quotedName s => some s
  | .name s => if reservedWords.any (Text.sameFolded · s) then none else some s
  | _ => none

/-- A table with the name it goes by. -/
def source : Reader Source := do
  let table ← table
  if ← eatKeyword "AS" then
    return ⟨table, some (← name)⟩
  else
    match (← peek).bind aliasOf? with
    | some name => skip; return ⟨table, some name⟩
    | none => return ⟨table, none⟩

/-- A column. -/
def column : Reader Column := do
  let first ← name
  if ← eatToken .dot then
    return ⟨some first, ← name⟩
  else
    return ⟨none, first⟩

/-! ## Values -/

/-- What a token says at the place of a value. -/
inductive ValueStart where
  | placeholder
  | literal (value : Datum)
  | number (digits : String)
  | minus
  | now
  | nowCall

/-- The value that a word stands for. -/
def wordValue? (word : String) : Option ValueStart :=
  if Text.sameFolded "NULL" word then some (.literal .null)
  else if Text.sameFolded "TRUE" word then some (.literal (.bool true))
  else if Text.sameFolded "FALSE" word then some (.literal (.bool false))
  else if Text.sameFolded "CURRENT_TIMESTAMP" word then some .now
  else if Text.sameFolded "DATETIME" word then some .nowCall
  else none

/-- What a token says at the place of a value, if it can stand there. -/
def valueStart? : Token → Option ValueStart
  | .placeholder => some .placeholder
  | .text s => some (.literal (.text s))
  | .number digits => some (.number digits)
  | .minus => some .minus
  | .name word => wordValue? word
  | _ => none

/-- The digits of a number. -/
def digits? : Token → Option String
  | .number digits => some digits
  | _ => none

/-- Whether a text is the argument of `datetime`. -/
def nowArgument? : Token → Option Unit
  | .text s => if Text.sameFolded "now" s then some () else none
  | _ => none

/-- A number with the sign in front of it. -/
def number (negative : Bool) (digits : String) : Reader Operand :=
  match numberValue? negative digits.toList with
  | some value => return .literal value
  | none => throw (.invalidNumber (numberText negative digits))

/-- A value: a placeholder, a literal or the current time. -/
def operand : Reader Operand := do
  match ← take .value valueStart? with
  | .placeholder =>
    let index := (← get).placeholders
    modify fun c => { c with placeholders := index + 1 }
    return .placeholder index
  | .literal value => return .literal value
  | .number digits => number false digits
  | .minus => number true (← take .number digits?)
  | .now => return .now
  | .nowCall =>
    symbol .leftParen
    take .nowArgument nowArgument?
    symbol .rightParen
    return .now

/-! ## Conditions -/

/-- The comparator that a token is. -/
def comparator? : Token → Option Comparator
  | .comparator op => some op
  | _ => none

/-- A column compared with a value. -/
def comparison : Reader Condition := do
  let column ← column
  let op ← take .comparator comparator?
  return .compare ⟨column, op, ← operand⟩

/-- What `AND` joins. -/
def conjunction (factor : Reader Condition) : Reader Condition := do
  chained (eatKeyword "AND") factor .and (← factor)

/-- What `OR` joins. -/
def disjunction (factor : Reader Condition) : Reader Condition := do
  chained (eatKeyword "OR") (conjunction factor) .or (← conjunction factor)

/-- A comparison, a negation or a parenthesis, with at most `levels` negations and parentheses
around each other. -/
def factor : Nat → Reader Condition
  | 0 => comparison
  | levels + 1 => do
    if ← eatKeyword "NOT" then
      return .not (← factor levels)
    else if ← eatToken .leftParen then
      let inner ← disjunction (factor levels)
      symbol .rightParen
      return inner
    else
      comparison

/-- A condition. -/
def condition : Reader Condition := do
  disjunction (factor (← get).tokens.length)

/-- A condition, if `WHERE` announces one. -/
def whereClause : Reader (Option Condition) := do
  if ← eatKeyword "WHERE" then return some (← condition) else return none

/-! ## Statements -/

/-- What follows the verb `INSERT`. -/
def insertion : Reader Statement := do
  keyword "INSERT"
  keyword "INTO"
  let table ← table
  symbol .leftParen
  let columns ← list name
  symbol .rightParen
  keyword "VALUES"
  symbol .leftParen
  let values ← list operand
  symbol .rightParen
  if columns.length = values.length then
    return .insert table columns values
  else
    throw (.valueCount columns.length values.length)

/-- A column set to a value. -/
def assignment : Reader Assignment := do
  let column ← name
  symbol (.comparator .equal)
  return ⟨column, ← operand⟩

/-- An `UPDATE` statement. -/
def updating : Reader Statement := do
  keyword "UPDATE"
  let table ← table
  keyword "SET"
  let assignments ← list assignment
  return .update table assignments (← whereClause)

/-- A `DELETE` statement. -/
def deletion : Reader Statement := do
  keyword "DELETE"
  keyword "FROM"
  let table ← table
  return .delete table (← whereClause)

/-- Something that a query returns. -/
def item : Reader Item := do
  if ← eatToken .star then
    return .everything
  else
    let first ← name
    if ← eatToken .dot then
      if ← eatToken .star then
        return .allOf first
      else
        return .column ⟨some first, ← name⟩
    else
      return .column ⟨none, first⟩

/-- A second table, after `JOIN`. -/
def joinTail : Reader Join := do
  let source ← source
  keyword "ON"
  let left ← column
  symbol (.comparator .equal)
  return ⟨source, left, ← column⟩

/-- A second table, if `JOIN` or `INNER JOIN` announces one. -/
def join : Reader (Option Join) := do
  if ← eatKeyword "INNER" then
    keyword "JOIN"
    return some (← joinTail)
  else if ← eatKeyword "JOIN" then
    return some (← joinTail)
  else
    return none

/-- The direction of sorting; upwards if none is given. -/
def direction : Reader Bool := do
  if ← eatKeyword "DESC" then
    return false
  else
    let _ ← eatKeyword "ASC"
    return true

/-- The column to sort by, if `ORDER BY` announces one. -/
def sortClause : Reader (Option SortClause) := do
  if ← eatKeyword "ORDER" then
    keyword "BY"
    let column ← column
    return some ⟨column, ← direction⟩
  else
    return none

/-- The largest number of rows, if `LIMIT` announces one. -/
def limit : Reader (Option Nat) := do
  if ← eatKeyword "LIMIT" then
    let digits ← take .rowCount digits?
    match rowCount? digits.toList with
    | some n => return some n
    | none => throw (.invalidNumber digits)
  else
    return none

/-- A `SELECT` statement. -/
def selection : Reader Statement := do
  keyword "SELECT"
  let items ← list item
  keyword "FROM"
  let source ← source
  let join ← join
  let condition ← whereClause
  let sort ← sortClause
  return .select ⟨items, source, join, condition, sort, ← limit⟩

/-- The statement of a verb, which is next. -/
def body : Reader Statement := do
  match ← peek with
  | none => throw .empty
  | some (.name verb) =>
    if Text.sameFolded "INSERT" verb then insertion
    else if Text.sameFolded "UPDATE" verb then updating
    else if Text.sameFolded "DELETE" verb then deletion
    else if Text.sameFolded "SELECT" verb then selection
    else throw (.unknownStatement (verb.map Char.toUpper))
  | some other => throw (.unknownStatement other.display)

/-- Semicolons, and then the end. -/
def finish : Reader Unit := do
  let rest := (← get).tokens.dropWhile fun t => t.token == .semicolon
  if rest.isEmpty then return () else throw (ParseError.unexpected .nothing rest)

/-- A whole statement. -/
def statement : Reader Statement := do
  let s ← body
  finish
  return s

end Reader

/-- The statement that the tokens make up. -/
def Statement.ofTokens (ts : List Placed) : Except ParseError Statement :=
  Prod.fst <$> Reader.statement.run ⟨ts, 0⟩

/-- The statement that a text says. -/
def Statement.ofText (s : String) : Except ParseError Statement :=
  (tokens s).bind Statement.ofTokens

end RecordStore.Sql
