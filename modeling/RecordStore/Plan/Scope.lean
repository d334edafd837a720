import RecordStore.Plan

/-!
# The tables that the columns of a statement belong to

A table goes by its alias, if it has one, and by its own name. A column without a qualifier belongs
to the first table, and so does one whose qualifier names both tables.

## Main results

- `side_of_base`, `side_of_joined`: which table a qualifier names.
- `resolve_unqualified`: a column without a qualifier belongs to the first table.
-/

namespace RecordStore

/-- Why a statement cannot be carried out. -/
inductive PlanError where
  | unsupportedPredicate (condition : Sql.Condition)
  | joinWithinTable
  | joinWithoutId (baseKey joinedKey : String)
  | unknownQualifier (name : String)
  deriving DecidableEq

def PlanError.message : PlanError → String
  | unsupportedPredicate condition => s!"Unsupported WHERE clause: {condition.display}"
  | joinWithinTable =>
    "Unsupported join: join condition must compare one column from each table"
  | joinWithoutId baseKey joinedKey =>
    s!"Unsupported join: join keys {baseKey} and {joinedKey} do not involve an id column"
  | unknownQualifier name => s!"Unknown table or alias: {name}"

/-- Whether a table goes by a name. -/
def Sql.Source.isNamed (s : Sql.Source) (name : String) : Bool :=
  s.knownAs.any (Text.sameFolded · name) || Text.sameFolded s.table.name name

namespace Plan

/-- The tables of a statement. -/
structure Scope where
  base : Sql.Source
  joined : Option Sql.Source

namespace Scope

/-- The tables of a statement on one table. -/
def single (table : Table) : Scope := ⟨⟨table, none⟩, none⟩

/-- The table that a qualifier names. -/
def side (s : Scope) (qualifier : String) : Except PlanError Side :=
  if s.base.isNamed qualifier then .ok .base
  else if s.joined.any (·.isNamed qualifier) then .ok .joined
  else .error (.unknownQualifier qualifier)

theorem side_of_base {s : Scope} {qualifier : String} (h : s.base.isNamed qualifier = true) :
    s.side qualifier = .ok .base := by simp [side, h]

theorem side_of_joined {s : Scope} {qualifier : String} {joined : Sql.Source}
    (hBase : s.base.isNamed qualifier = false) (hJoined : s.joined = some joined)
    (h : joined.isNamed qualifier = true) : s.side qualifier = .ok .joined := by
  simp [side, hBase, hJoined, h]

/-- The field that a column reads. -/
def resolve (s : Scope) (column : Sql.Column) : Except PlanError Field :=
  match column.qualifier with
  | none => .ok ⟨.base, column.name⟩
  | some qualifier => do return ⟨← s.side qualifier, column.name⟩

theorem resolve_unqualified (s : Scope) (name : String) :
    s.resolve ⟨none, name⟩ = .ok ⟨.base, name⟩ := rfl

end Scope

end Plan

end RecordStore
