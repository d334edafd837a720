import RecordStore.Proofs.PlannedQueries

/-!
# Plans and their conditions

The plan of a statement consists of two parts that know nothing of each other. One is the plan of
the statement without its condition, on which the dialect has no influence; the other is the
predicate of the condition (`ofStatement_eq`). What is wrong with the first part counts more, and it
is never a condition.

So the two dialects differ in the second part alone, and there in a single case: a condition that
the strict dialect refuses as unsupported is kept by the lenient one.

## Main results

- `Action.ofStatement_eq`: an action is put together of its parts.
- `ofStatement_eq_ok_iff`, `ofStatement_eq_error_iff`: the parts of a plan, and what may be wrong.
- `regular_ofStatement_unconditional`: a statement without a condition is not refused for one.
- `ofCondition_lenient_of_unsupported`, `ofCondition_lenient_of_error`: what the lenient dialect
  makes of the conditions that the strict one refuses.
-/

namespace RecordStore

namespace Sql.Statement

/-- The condition of a statement; an insertion has none. -/
def condition? : Statement → Option Condition
  | insert _ _ _ => none
  | update _ _ condition => condition
  | delete _ condition => condition
  | select q => q.condition

/-- The statement without its condition. -/
def unconditional : Statement → Statement
  | insert table columns values => insert table columns values
  | update table assignments _ => update table assignments none
  | delete table _ => delete table none
  | select q => select { q with condition := none }

end Sql.Statement

namespace Plan

/-- The tables that the condition of a statement may speak of. -/
def Scope.ofStatement : Sql.Statement → Scope
  | .select q => .ofQuery q
  | other => .single other.table

/-- The action with another predicate. -/
def Action.withPredicate (predicate : Predicate) : Action → Action
  | update table assignments _ => update table assignments predicate
  | delete table _ => delete table predicate
  | select q => select { q with predicate }
  | insert table fields => insert table fields
  | unrecognized reason => unrecognized reason

/-- The dialect has no influence on a statement without a condition. -/
theorem Action.ofStatement_unconditional (d : Dialect) (s : Sql.Statement) :
    Action.ofStatement d s.unconditional = Action.ofStatement .strict s.unconditional := by
  cases s <;> rfl

/-- The action of a statement is that of the statement without its condition, with the predicate of
the condition. -/
theorem Action.ofStatement_eq (d : Dialect) (s : Sql.Statement) :
    Action.ofStatement d s = (do
      let action ← Action.ofStatement .strict s.unconditional
      let predicate ← Predicate.ofCondition d (.ofStatement s) s.condition?
      return action.withPredicate predicate) := by
  cases s with
  | insert table columns values => rfl
  | update table assignments condition => rfl
  | delete table condition => rfl
  | select q =>
    simp only [Action.ofStatement, Selection.ofQuery, Sql.Statement.unconditional]
    have hScope : Scope.ofQuery { q with condition := none } = Scope.ofQuery q := rfl
    rw [hScope]
    cases q.join.mapM (Join.ofStatement (.ofQuery q)) with
    | error e => rfl
    | ok join =>
      cases q.items.mapM (Item.ofStatement (.ofQuery q)) with
      | error e => rfl
      | ok items =>
        cases q.sort.mapM (SortKey.ofStatement (.ofQuery q)) with
        | error e => rfl
        | ok sort =>
          have hCondition : Predicate.ofCondition d (.ofStatement (.select q))
              (Sql.Statement.select q).condition? =
                Predicate.ofCondition d (.ofQuery q) q.condition := rfl
          rw [hCondition]
          cases Predicate.ofCondition d (.ofQuery q) q.condition <;> rfl

/-- The predicate of an action is that of the condition of the statement. -/
theorem Action.predicate_of_ofStatement {d : Dialect} {s : Sql.Statement} {action : Action}
    (h : Action.ofStatement d s = .ok action) :
    Predicate.ofCondition d (.ofStatement s) s.condition? = .ok action.predicate := by
  cases s with
  | insert table columns values =>
    cases h
    rfl
  | update table assignments condition | delete table condition =>
    obtain ⟨predicate, hPredicate, hAction⟩ := bind_eq_ok_iff.1 h
    cases hAction
    exact hPredicate
  | select q =>
    obtain ⟨selection, hSelection, hAction⟩ := bind_eq_ok_iff.1 h
    obtain ⟨join, -, hSelection⟩ := bind_eq_ok_iff.1 hSelection
    obtain ⟨items, -, hSelection⟩ := bind_eq_ok_iff.1 hSelection
    obtain ⟨sort, -, hSelection⟩ := bind_eq_ok_iff.1 hSelection
    obtain ⟨predicate, hPredicate, hSelection⟩ := bind_eq_ok_iff.1 hSelection
    cases hSelection
    cases hAction
    exact hPredicate

/-- A query without its condition is about all rows. -/
theorem Action.exists_selection_of_unconditional {q : Sql.Query} {action : Action}
    (h : Action.ofStatement .strict (Sql.Statement.select q).unconditional = .ok action) :
    ∃ selection, action = .select selection ∧ selection.predicate = .always := by
  have hPredicate := Action.predicate_of_ofStatement h
  obtain ⟨selection, -, hSelect⟩ := bind_eq_ok_iff.1 h
  cases hSelect
  exact ⟨selection, rfl, (Except.ok.inj hPredicate).symm⟩

/-- A statement that returns rows is a query of its plan. -/
theorem isQuery_of_ofStatement {d : Dialect} {s : Sql.Statement} {p : Plan}
    (h : Plan.ofStatement d s = .ok p) : p.isQuery = s.isQuery := by
  obtain ⟨action, hAction, hPlan⟩ := bind_eq_ok_iff.1 h
  cases hPlan
  cases s with
  | insert table columns values =>
    cases hAction
    rfl
  | update table assignments condition | delete table condition | select q =>
    obtain ⟨part, -, hParts⟩ := bind_eq_ok_iff.1 hAction
    cases hParts
    rfl

/-- The parts of the plan of a statement. -/
theorem ofStatement_eq_ok_iff {d : Dialect} {s : Sql.Statement} {p : Plan} :
    Plan.ofStatement d s = .ok p ↔
      ∃ action predicate, Action.ofStatement .strict s.unconditional = .ok action ∧
        Predicate.ofCondition d (.ofStatement s) s.condition? = .ok predicate ∧
        p = ⟨action.withPredicate predicate, s.placeholderCount⟩ := by
  rw [Plan.ofStatement, Action.ofStatement_eq]
  constructor
  · intro h
    obtain ⟨whole, hWhole, hPlan⟩ := bind_eq_ok_iff.1 h
    obtain ⟨action, hAction, hRest⟩ := bind_eq_ok_iff.1 hWhole
    obtain ⟨predicate, hPredicate, hParts⟩ := bind_eq_ok_iff.1 hRest
    cases hParts
    cases hPlan
    exact ⟨action, predicate, hAction, hPredicate, rfl⟩
  · rintro ⟨action, predicate, hAction, hPredicate, rfl⟩
    rw [hAction, hPredicate]
    rfl

/-- A statement is refused for what it says besides its condition, or else for its condition. -/
theorem ofStatement_eq_error_iff {d : Dialect} {s : Sql.Statement} {e : PlanError} :
    Plan.ofStatement d s = .error e ↔
      Action.ofStatement .strict s.unconditional = .error e ∨
        ∃ action, Action.ofStatement .strict s.unconditional = .ok action ∧
          Predicate.ofCondition d (.ofStatement s) s.condition? = .error e := by
  rw [Plan.ofStatement, Action.ofStatement_eq]
  cases Action.ofStatement .strict s.unconditional with
  | error e' => simp [bind, Except.bind]
  | ok action =>
    cases Predicate.ofCondition d (.ofStatement s) s.condition? <;>
      simp [bind, Except.bind, pure, Except.pure]

/-! ## Faults outside of the condition -/

/-- A result that is not a refusal of a condition. -/
def Regular {α : Type} (x : Except PlanError α) : Prop :=
  ∀ c, x ≠ .error (.unsupportedPredicate c)

theorem regular_resolve {s : Scope} (column : Sql.Column) : Regular (s.resolve column) := by
  intro c hFault
  obtain ⟨qualifier, hSide⟩ := Scope.exists_side_of_resolve_error hFault
  cases Scope.eq_of_side_error hSide

/-- A statement without a condition is not refused for one. -/
theorem regular_ofStatement_unconditional (s : Sql.Statement) :
    Regular (Action.ofStatement .strict s.unconditional) := by
  intro c hFault
  cases s with
  | insert table columns values | update table assignments condition | delete table condition =>
    cases hFault
  | select q =>
    -- What a query is refused for is due to it, whatever its qualifiers should name.
    cases (Scope.honors_nothing _).yields_action.of_error hFault with
    | unsupportedPredicate _ hCondition => cases hCondition

/-! ## Faults of the condition -/

/-- What the lenient dialect makes of a condition that the strict one refuses as unsupported. -/
theorem Predicate.ofCondition_lenient_of_unsupported {s : Scope} {condition : Option Sql.Condition}
    {part : Sql.Condition}
    (h : ofCondition .strict s condition = .error (.unsupportedPredicate part)) :
    ofCondition .lenient s condition = .ok (.unsupported part) := by
  cases condition with
  | none => cases h
  | some c =>
    rw [ofCondition_strict] at h
    cases hClauses : clauses? s c with
    | ok clauses =>
      rw [hClauses] at h
      cases h
    | error e =>
      rw [hClauses] at h
      cases h
      simp only [ofCondition, hClauses]

/-- Other faults of a condition are faults in both dialects. -/
theorem Predicate.ofCondition_lenient_of_error {s : Scope} {condition : Option Sql.Condition}
    {e : PlanError} (h : ofCondition .strict s condition = .error e)
    (hRegular : ∀ c, e ≠ .unsupportedPredicate c) :
    ofCondition .lenient s condition = .error e := by
  cases condition with
  | none => cases h
  | some c =>
    rw [ofCondition_strict] at h
    cases hClauses : clauses? s c with
    | ok clauses =>
      rw [hClauses] at h
      cases h
    | error e =>
      rw [hClauses] at h
      cases h
      cases e with
      | unsupportedPredicate part => exact absurd rfl (hRegular part)
      | joinWithinTable | joinWithoutId _ _ | unknownQualifier _ =>
        simp only [ofCondition, hClauses]

/-! ## Plans of texts -/

/-- The plan of a text is that of its statement, or in the lenient dialect the plan of a text that
is no statement. -/
theorem ofText_eq_ok_iff {d : Dialect} {text : String} {p : Plan} :
    Plan.ofText d text = .ok p ↔
      (∃ s, Sql.Statement.ofText text = .ok s ∧ Plan.ofStatement d s = .ok p) ∨
        ∃ e, Sql.Statement.ofText text = .error e ∧ d = .lenient ∧ p = Plan.unrecognized e := by
  cases hText : Sql.Statement.ofText text with
  | ok s => simp [Plan.ofText, hText, mapError_eq_ok_iff]
  | error e => cases d <;> simp [Plan.ofText, hText, eq_comm]

/-- A text is refused as no statement in the strict dialect only. -/
theorem ofText_eq_parse_error_iff {d : Dialect} {text : String} {e : Sql.ParseError} :
    Plan.ofText d text = .error (.parse e) ↔
      Sql.Statement.ofText text = .error e ∧ d = .strict := by
  cases hText : Sql.Statement.ofText text with
  | ok s => simp [Plan.ofText, hText, mapError_eq_error_iff]
  | error e => cases d <;> simp [Plan.ofText, hText]

/-- Or it is refused for what its statement says. -/
theorem ofText_eq_plan_error_iff {d : Dialect} {text : String} {e : PlanError} :
    Plan.ofText d text = .error (.plan e) ↔
      ∃ s, Sql.Statement.ofText text = .ok s ∧ Plan.ofStatement d s = .error e := by
  cases hText : Sql.Statement.ofText text with
  | ok s => simp [Plan.ofText, hText, mapError_eq_error_iff]
  | error e => cases d <;> simp [Plan.ofText, hText]

end Plan

end RecordStore
