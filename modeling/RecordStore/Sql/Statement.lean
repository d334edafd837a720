import RecordStore.Datum
import RecordStore.Sql.Token
import RecordStore.Table

/-!
# Statements

What a text says when it is a statement, before anything is asked about whether it can be carried
out. A condition keeps the shape in which it was written.

Operands that are question marks are numbered from zero in the order of the text. `placeholderCount`
is the number of values that a statement needs for them.

## Main results

- `Condition.operands_and`, `Condition.operands_not`: the operands of a condition in written order.
-/

namespace RecordStore.Sql

/-- A column, possibly said to be of a certain table. -/
structure Column where
  qualifier : Option String
  name : String
  deriving DecidableEq

/-- The value that a column is compared with or set to. -/
inductive Operand where
  | placeholder (index : Nat)
  | literal (value : Datum)
  | now
  deriving DecidableEq

/-- A column compared with a value. -/
structure Comparison where
  column : Column
  op : Comparator
  operand : Operand
  deriving DecidableEq

/-- What follows `WHERE`. -/
inductive Condition where
  | compare (comparison : Comparison)
  | and (left right : Condition)
  | or (left right : Condition)
  | not (condition : Condition)
  deriving DecidableEq

/-- A table with the name it goes by in the statement. -/
structure Source where
  table : Table
  knownAs : Option String
  deriving DecidableEq

/-- A second table and the two columns that have to agree. -/
structure Join where
  source : Source
  left : Column
  right : Column
  deriving DecidableEq

/-- What a query returns of each row. -/
inductive Item where
  | everything
  | allOf (qualifier : String)
  | column (column : Column)
  deriving DecidableEq

/-- The column by which a query is sorted. -/
structure SortClause where
  column : Column
  ascending : Bool
  deriving DecidableEq

/-- A column and the value it is set to. -/
structure Assignment where
  column : String
  value : Operand
  deriving DecidableEq

/-- What follows `SELECT`. -/
structure Query where
  items : List Item
  source : Source
  join : Option Join
  condition : Option Condition
  sort : Option SortClause
  limit : Option Nat
  deriving DecidableEq

/-- A statement. -/
inductive Statement where
  | insert (table : Table) (columns : List String) (values : List Operand)
  | update (table : Table) (assignments : List Assignment) (condition : Option Condition)
  | delete (table : Table) (condition : Option Condition)
  | select (query : Query)
  deriving DecidableEq

/-! ## Written forms -/

/-- A column as messages show it. -/
def Column.display (c : Column) : String :=
  match c.qualifier with
  | some q => s!"{q}.{c.name}"
  | none => c.name

/-- An operand as messages show it; placeholders count from one. -/
def Operand.display : Operand → String
  | placeholder i => s!"?{i + 1}"
  | literal d => d.display
  | now => "datetime('now')"

/-- A comparison as messages show it. -/
def Comparison.display (c : Comparison) : String :=
  s!"{c.column.display} {c.op.symbol} {c.operand.display}"

/-- A condition as messages show it: parentheses stand around alternatives and what is negated. -/
def Condition.display : Condition → String
  | compare c => c.display
  | and l r => s!"{l.display} AND {r.display}"
  | or l r => s!"({l.display} OR {r.display})"
  | not c => s!"NOT ({c.display})"

/-! ## Placeholders -/

/-- The number of values that have to be there for an operand: one more than its index. -/
def Operand.needed : Operand → Nat
  | placeholder i => i + 1
  | _ => 0

/-- The operands of a condition in written order. -/
def Condition.operands : Condition → List Operand
  | compare c => [c.operand]
  | and l r | or l r => l.operands ++ r.operands
  | not c => c.operands

theorem Condition.operands_and (l r : Condition) :
    (Condition.and l r).operands = l.operands ++ r.operands := rfl

theorem Condition.operands_not (c : Condition) : (Condition.not c).operands = c.operands := rfl

namespace Statement

/-- The table a statement is about; of a query with two tables the first. -/
def table : Statement → Table
  | insert t _ _ => t
  | update t _ _ => t
  | delete t _ => t
  | select q => q.source.table

/-- Whether a statement returns rows. -/
def isQuery : Statement → Bool
  | select _ => true
  | _ => false

/-- The operands of a statement in written order. -/
def operands : Statement → List Operand
  | insert _ _ values => values
  | update _ assignments condition =>
    assignments.map Assignment.value ++ condition.elim [] Condition.operands
  | delete _ condition => condition.elim [] Condition.operands
  | select q => q.condition.elim [] Condition.operands

/-- The number of values that the placeholders of a statement need. -/
def placeholderCount (s : Statement) : Nat := (s.operands.map Operand.needed).foldl max 0

end Statement

end RecordStore.Sql
