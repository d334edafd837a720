import RecordStore.Plan.Scope

/-!
# Which conditions a plan can express

A condition is the conjunction of its conjuncts. A plan can express it if every conjunct is a
comparison of one of two kinds, equality with a value or a relation to the current time, on a column
that belongs to a table of the statement. `Scope.fault?` says what is wrong with a single conjunct;
an unknown table counts more than the kind of the comparison.

## Main results

- `conjuncts_ne_nil`: a condition has at least one conjunct.
- `fault?_compare_eq_none_iff`: a comparison is in order if its column and its kind are.
-/

namespace RecordStore

/-- The parts that `AND` joins, in written order. -/
def Sql.Condition.conjuncts : Sql.Condition → List Sql.Condition
  | .and l r => l.conjuncts ++ r.conjuncts
  | .compare c => [.compare c]
  | .or l r => [.or l r]
  | .not c => [.not c]

theorem Sql.Condition.conjuncts_ne_nil (c : Sql.Condition) : c.conjuncts ≠ [] := by
  induction c with
  | and l r ihl ihr => simp [conjuncts, ihl]
  | compare c | or l r | not c => simp [conjuncts]

/-- Whether a plan has a clause for this kind of comparison. -/
def Sql.Comparison.isSupported (c : Sql.Comparison) : Bool :=
  match c.op, c.operand with
  | .equal, .placeholder _ | .equal, .literal _ => true
  | .less, .now | .atMost, .now | .greater, .now | .atLeast, .now => true
  | _, _ => false

namespace Plan.Scope

/-- Whether a qualifier is the name of a table of the statement. -/
def knows (s : Scope) (qualifier : String) : Bool :=
  s.base.isNamed qualifier || s.joined.any (·.isNamed qualifier)

/-- What is wrong with a conjunct, if anything. -/
def fault? (s : Scope) : Sql.Condition → Option PlanError
  | .compare c =>
    match c.column.qualifier.filter fun q => !s.knows q with
    | some q => some (.unknownQualifier q)
    | none => if c.isSupported then none else some (.unsupportedPredicate (.compare c))
  | other => some (.unsupportedPredicate other)

theorem fault?_compare_eq_none_iff {s : Scope} {c : Sql.Comparison} :
    s.fault? (.compare c) = none ↔
      (∀ q, c.column.qualifier = some q → s.knows q = true) ∧ c.isSupported = true := by
  obtain ⟨⟨qualifier, name⟩, op, operand⟩ := c
  cases qualifier with
  | none => simp [fault?]
  | some q => cases h : s.knows q <;> simp [fault?, Option.filter, h]

end Plan.Scope

end RecordStore
