import RecordStore.Sql.ParseError
import RecordStore.Sql.Statement

/-!
# Plans

A plan says how a statement is carried out. Its columns are resolved: each belongs to the record of
the first table or to the record that was joined with it. Values that are not known before the plan
is carried out are slots.

A plan has a closed set of conditions: none at all, or a conjunction of clauses that compare a field
with a value for equality or with the current time. A condition outside of this set stays in the
plan as what it is, and a text that is no statement stays in it as the reason why; such plans come
from the lenient dialect only.

## Main results

- `Slot.ofOperand_injective`: an operand can be told from its slot.
- `Predicate.slots_conjunction_append`: the slots of a conjunction are those of its clauses in order.
-/

namespace RecordStore

namespace Plan

/-- The record of a row that a field belongs to. -/
inductive Side where
  | base
  | joined
  deriving DecidableEq, Repr

/-- A field of one of the records of a row. -/
structure Field where
  side : Side
  name : String
  deriving DecidableEq, Repr

/-- Where a value comes from when a plan is carried out. Parameters count from zero. -/
inductive Slot where
  | parameter (index : Nat)
  | literal (value : Datum)
  | now
  deriving DecidableEq

/-- The slot that an operand becomes. -/
def Slot.ofOperand : Sql.Operand → Slot
  | .placeholder i => parameter i
  | .literal d => literal d
  | .now => now

theorem Slot.ofOperand_injective {a b : Sql.Operand} (h : ofOperand a = ofOperand b) : a = b := by
  cases a <;> cases b <;> simp_all [ofOperand]

/-- How a point in time may lie to the current time. -/
inductive TimeRelation where
  | before
  | atOrBefore
  | after
  | atOrAfter
  deriving DecidableEq, Repr

namespace TimeRelation

/-- The relation of a comparator; points in time are not compared for equality. -/
def ofComparator? : Sql.Comparator → Option TimeRelation
  | .less => some before
  | .atMost => some atOrBefore
  | .greater => some after
  | .atLeast => some atOrAfter
  | .equal | .unequal => none

/-- The comparator of a relation. -/
def comparator : TimeRelation → Sql.Comparator
  | before => .less
  | atOrBefore => .atMost
  | after => .greater
  | atOrAfter => .atLeast

theorem ofComparator?_eq_some_iff {c : Sql.Comparator} {r : TimeRelation} :
    ofComparator? c = some r ↔ c = r.comparator := by
  cases c <;> cases r <;> decide

end TimeRelation

/-- One term of a conjunction. -/
inductive Clause where
  | equals (field : Field) (value : Slot)
  | time (field : Field) (relation : TimeRelation)
  deriving DecidableEq

/-- The slots of a clause; a comparison with the current time has none. -/
def Clause.slots : Clause → List Slot
  | equals _ value => [value]
  | time _ _ => []

/-- Which rows a plan is about. -/
inductive Predicate where
  | always
  | conjunction (clauses : List Clause)
  | unsupported (condition : Sql.Condition)
  deriving DecidableEq

/-- The slots of a predicate in written order. -/
def Predicate.slots : Predicate → List Slot
  | conjunction clauses => clauses.flatMap Clause.slots
  | _ => []

theorem Predicate.slots_conjunction_append (xs ys : List Clause) :
    (conjunction (xs ++ ys)).slots = (conjunction xs).slots ++ (conjunction ys).slots := by
  simp [slots]

/-- Something that a query returns of each row. -/
inductive Item where
  | everything
  | allOf (side : Side)
  | field (field : Field)
  deriving DecidableEq

/-- The field by which a query is sorted. -/
structure SortKey where
  field : Field
  ascending : Bool
  deriving DecidableEq

/-- A second table and the field on each side that has to agree. -/
structure Join where
  table : Table
  baseKey : String
  joinedKey : String
  deriving DecidableEq

/-- What a query does. -/
structure Selection where
  table : Table
  join : Option Join
  predicate : Predicate
  items : List Item
  sort : Option SortKey
  limit : Option Nat
  deriving DecidableEq

/-- What a plan does. -/
inductive Action where
  | insert (table : Table) (fields : List (String × Slot))
  | update (table : Table) (assignments : List (String × Slot)) (predicate : Predicate)
  | delete (table : Table) (predicate : Predicate)
  | select (selection : Selection)
  | unrecognized (reason : Sql.ParseError)
  deriving DecidableEq

end Plan

/-- A statement made ready to be carried out any number of times. -/
structure Plan where
  action : Plan.Action
  parameterCount : Nat
  deriving DecidableEq

namespace Plan

/-- The plan for a text that is no statement, which does nothing. -/
def unrecognized (reason : Sql.ParseError) : Plan := ⟨.unrecognized reason, 0⟩

/-- Whether a plan returns rows. -/
def isQuery (p : Plan) : Bool :=
  match p.action with
  | .select _ => true
  | _ => false

/-- Whether a plan may change records. -/
def isMutation (p : Plan) : Bool :=
  match p.action with
  | .insert .. | .update .. | .delete .. => true
  | _ => false

/-- Whether a plan stands for a text that is no statement. -/
def isUnrecognized (p : Plan) : Bool :=
  match p.action with
  | .unrecognized _ => true
  | _ => false

/-- The predicate of an action; one without a condition is about all rows. -/
def Action.predicate : Action → Predicate
  | update _ _ predicate | delete _ predicate => predicate
  | select s => s.predicate
  | insert .. | unrecognized _ => .always

/-- The slots of an action in written order. -/
def Action.slots : Action → List Slot
  | insert _ fields => fields.map Prod.snd
  | update _ assignments predicate => assignments.map Prod.snd ++ predicate.slots
  | delete _ predicate => predicate.slots
  | select s => s.predicate.slots
  | unrecognized _ => []

end Plan

end RecordStore
