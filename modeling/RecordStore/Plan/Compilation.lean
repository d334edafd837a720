import RecordStore.Plan.Scope
import RecordStore.Sql.Reading

/-!
# From statements to plans

The strict dialect refuses a statement whose condition is outside the closed set of conditions, and
a text that is no statement. The lenient dialect makes plans of both: the condition stays in the
plan as unsupported, and the text becomes a plan that does nothing. What a join or a qualifier does
wrong is an error in both dialects.

A join is one on equality of a field on each side, and one of the two fields is `id`.

## Main results

- `clauses?_and`: the clauses of a conjunction are those of its parts.
- `Plan.ofStatement_strict_eq_lenient`: a statement with a strict plan has the same lenient plan.
-/

namespace RecordStore

/-- What becomes of statements that cannot be carried out. -/
inductive Dialect where
  | strict
  | lenient
  deriving DecidableEq, Repr

namespace Plan

/-! ## Conditions -/

/-- The clause of a comparison: equality with a value, or a relation to the current time. -/
def Clause.ofComparison (scope : Scope) (c : Sql.Comparison) : Except PlanError Clause := do
  let field ← scope.resolve c.column
  match c.op, c.operand with
  | .equal, .placeholder i => return .equals field (.parameter i)
  | .equal, .literal d => return .equals field (.literal d)
  | op, .now =>
    match TimeRelation.ofComparator? op with
    | some relation => return .time field relation
    | none => throw (.unsupportedPredicate (.compare c))
  | _, _ => throw (.unsupportedPredicate (.compare c))

/-- The clauses that a condition is the conjunction of. -/
def clauses? (scope : Scope) : Sql.Condition → Except PlanError (List Clause)
  | .compare c => do return [← Clause.ofComparison scope c]
  | .and l r => do return (← clauses? scope l) ++ (← clauses? scope r)
  | .or l r => .error (.unsupportedPredicate (.or l r))
  | .not c => .error (.unsupportedPredicate (.not c))

theorem clauses?_and (scope : Scope) (l r : Sql.Condition) :
    clauses? scope (.and l r) =
      (do return (← clauses? scope l) ++ (← clauses? scope r)) := rfl

/-- The predicate of a condition that may be absent. -/
def Predicate.ofCondition (dialect : Dialect) (scope : Scope) :
    Option Sql.Condition → Except PlanError Predicate
  | none => .ok .always
  | some condition =>
    match clauses? scope condition, dialect with
    | .ok clauses, _ => .ok (.conjunction clauses)
    | .error (.unsupportedPredicate part), .lenient => .ok (.unsupported part)
    | .error e, _ => .error e

/-! ## Queries -/

/-- The join of a statement. -/
def Join.ofStatement (scope : Scope) (join : Sql.Join) : Except PlanError Join := do
  let left ← scope.resolve join.left
  let right ← scope.resolve join.right
  let (baseKey, joinedKey) ←
    match left.side, right.side with
    | .base, .joined => .ok (left.name, right.name)
    | .joined, .base => .ok (right.name, left.name)
    | _, _ => .error PlanError.joinWithinTable
  if baseKey = "id" ∨ joinedKey = "id" then
    return ⟨join.source.table, baseKey, joinedKey⟩
  else
    throw (.joinWithoutId baseKey joinedKey)

/-- What an item of a query returns. -/
def Item.ofStatement (scope : Scope) : Sql.Item → Except PlanError Item
  | .everything => .ok .everything
  | .allOf qualifier => do return .allOf (← scope.side qualifier)
  | .column c => do return .field (← scope.resolve c)

/-- The field that a query is sorted by. -/
def SortKey.ofStatement (scope : Scope) (sort : Sql.SortClause) : Except PlanError SortKey := do
  return ⟨← scope.resolve sort.column, sort.ascending⟩

/-- The scope of a query. -/
def Scope.ofQuery (q : Sql.Query) : Scope := ⟨q.source, q.join.map Sql.Join.source⟩

/-- What a query does. -/
def Selection.ofQuery (dialect : Dialect) (q : Sql.Query) : Except PlanError Selection := do
  let scope := Scope.ofQuery q
  let join ← q.join.mapM (Join.ofStatement scope)
  let items ← q.items.mapM (Item.ofStatement scope)
  let sort ← q.sort.mapM (SortKey.ofStatement scope)
  let predicate ← Predicate.ofCondition dialect scope q.condition
  return ⟨q.source.table, join, predicate, items, sort, q.limit⟩

/-! ## Statements -/

/-- An assignment with its value as a slot. -/
def assigned (a : Sql.Assignment) : String × Slot := (a.column, .ofOperand a.value)

/-- What a statement does. -/
def Action.ofStatement (dialect : Dialect) : Sql.Statement → Except PlanError Action
  | .insert table columns values => .ok (.insert table (columns.zip (values.map Slot.ofOperand)))
  | .update table assignments condition => do
    let predicate ← Predicate.ofCondition dialect (.single table) condition
    return .update table (assignments.map assigned) predicate
  | .delete table condition => do
    return .delete table (← Predicate.ofCondition dialect (.single table) condition)
  | .select q => do return .select (← Selection.ofQuery dialect q)

end Plan

/-- The plan of a statement. -/
def Plan.ofStatement (dialect : Dialect) (s : Sql.Statement) : Except PlanError Plan := do
  return ⟨← Plan.Action.ofStatement dialect s, s.placeholderCount⟩

/-- Why a text has no plan. -/
inductive CompileError where
  | parse (error : Sql.ParseError)
  | plan (error : PlanError)
  deriving DecidableEq

/-- The plan of a text. -/
def Plan.ofText (dialect : Dialect) (text : String) : Except CompileError Plan :=
  match Sql.Statement.ofText text, dialect with
  | .ok s, _ => (Plan.ofStatement dialect s).mapError .plan
  | .error e, .lenient => .ok (Plan.unrecognized e)
  | .error e, .strict => .error (.parse e)

/-! ## The lenient dialect extends the strict one -/

namespace Plan

theorem Predicate.ofCondition_lenient {scope : Scope} {condition : Option Sql.Condition}
    {predicate : Predicate} (h : ofCondition .strict scope condition = .ok predicate) :
    ofCondition .lenient scope condition = .ok predicate := by
  cases condition with
  | none => exact h
  | some condition =>
    simp only [ofCondition] at h ⊢
    cases hClauses : clauses? scope condition with
    | ok clauses => simpa [hClauses] using h
    | error e => simp [hClauses] at h

theorem Selection.ofQuery_lenient {q : Sql.Query} {selection : Selection}
    (h : ofQuery .strict q = .ok selection) : ofQuery .lenient q = .ok selection := by
  simp only [ofQuery, bind, Except.bind] at h ⊢
  split at h
  · cases h
  · split at h
    · cases h
    · split at h
      · cases h
      · cases hPredicate : Predicate.ofCondition .strict (Scope.ofQuery q) q.condition with
        | error e => simp [hPredicate] at h
        | ok predicate =>
          rw [Predicate.ofCondition_lenient hPredicate]
          simpa [hPredicate] using h

theorem ofStatement_strict_eq_lenient {s : Sql.Statement} {p : Plan}
    (h : ofStatement .strict s = .ok p) : ofStatement .lenient s = .ok p := by
  cases s with
  | insert table columns values => exact h
  | update table assignments condition =>
    simp only [ofStatement, Action.ofStatement, bind, Except.bind] at h ⊢
    cases hPredicate : Predicate.ofCondition .strict (.single table) condition with
    | error e => simp [hPredicate] at h
    | ok predicate =>
      rw [Predicate.ofCondition_lenient hPredicate]
      simpa [hPredicate] using h
  | delete table condition =>
    simp only [ofStatement, Action.ofStatement, bind, Except.bind] at h ⊢
    cases hPredicate : Predicate.ofCondition .strict (.single table) condition with
    | error e => simp [hPredicate] at h
    | ok predicate =>
      rw [Predicate.ofCondition_lenient hPredicate]
      simpa [hPredicate] using h
  | select q =>
    simp only [ofStatement, Action.ofStatement, bind, Except.bind] at h ⊢
    cases hSelection : Selection.ofQuery .strict q with
    | error e => simp [hSelection] at h
    | ok selection =>
      rw [Selection.ofQuery_lenient hSelection]
      simpa [hSelection] using h

end Plan

end RecordStore
