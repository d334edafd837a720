import RecordStore.Proofs.Parameters
import RecordStore.Session.History

/-!
# What the lenient dialect adds

Whatever has a plan in the strict dialect has the same one in the lenient dialect. Of the texts that
the strict dialect refuses, the lenient one takes two kinds, and neither may do harm.

A text that is no statement gets a plan that does nothing (`Idle`): nothing is asked of the backend,
and the session stays as it is. A statement whose condition is not supported gets a plan that keeps
the condition. If it would change records, none of them meets the condition (`run_constant_false`);
if it is a query, every row does, as if the condition were not there
(`command_select_withPredicate`). Everything else is refused in both dialects.

## Main results

- `idle_of_unrecognized`: what is asked with a text that is no statement does nothing.
- `evaluate_unsupported_mutation`, `evaluate_unsupported_query`: plans with an unsupported
  condition.
- `lenient_of_text`: the lenient plan of a text from the strict one.
-/

namespace RecordStore

open Plan (Predicate Action Scope Selection)
open Session (Request Answer Call)
open Storage (Backend)
open Sql (Statement Condition)

/-! ## Texts that are no statements -/

namespace Session

section Compile

variable {m : Type → Type} [Monad m] [LawfulMonad m] {α : Type}

theorem run_compile {text : String} {p : Plan} {s : Session}
    (h : Plan.ofText s.dialect text = .ok p) :
    (compile text : Call m Plan).run.run s = pure (.ok p, s) := by
  rw [compile, run_bind, run_get, pure_bind]
  simp only [h]
  rfl

/-- A lenient session goes on with the plan that does nothing. -/
theorem run_of_unrecognized {text : String} {e : Sql.ParseError} {call : Plan → Call m α} {a : α}
    {s : Session} (hText : Statement.ofText text = .error e) (hDialect : s.dialect = .lenient)
    (hPlan : call (Plan.unrecognized e) = pure a) :
    (do call (← compile text)).run.run s = pure (.ok a, s) := by
  have hCompiled : Plan.ofText s.dialect text = .ok (Plan.unrecognized e) := by
    rw [hDialect]
    exact Plan.ofText_eq_ok_iff.2 (.inr ⟨e, hText, rfl, rfl⟩)
  rw [run_bind, run_compile hCompiled, pure_bind]
  simp only [hPlan]
  rfl

end Compile

/-- A request that a lenient session answers without asking anything of its backend, and which
leaves the session as it is. -/
def Idle (request : Request) (answer : Answer) : Prop :=
  ∀ (m : Type → Type) [Monad m] [LawfulMonad m] (b : Backend m) (s : Session),
    s.dialect = .lenient → (request.perform b).run.run s = pure (.ok answer, s)

section Idle

variable {text : String} {e : Sql.ParseError} (parameters : List Datum) (clock : Moment)

/-- What is asked with a text that is no statement does nothing, for any parameters. -/
theorem idle_of_unrecognized (hText : Statement.ofText text = .error e) :
    Idle (.run text parameters clock) (.ran {}) ∧ Idle (.get text parameters clock) (.row none) ∧
      Idle (.all text parameters clock) (.rows []) := by
  refine ⟨fun m _ _ b s hDialect => ?_, fun m _ _ b s hDialect => ?_,
    fun m _ _ b s hDialect => ?_⟩ <;>
    exact run_of_unrecognized hText hDialect (pure_bind _ _)

/-- So does a plan of such a text that was prepared. -/
theorem idle_of_prepared :
    Idle (.runPrepared (.unrecognized e) parameters clock) (.ran {}) ∧
      Idle (.getPrepared (.unrecognized e) parameters clock) (.row none) ∧
      Idle (.allPrepared (.unrecognized e) parameters clock) (.rows []) := by
  refine ⟨fun m _ _ b s _ => ?_, fun m _ _ b s _ => ?_, fun m _ _ b s _ => ?_⟩ <;>
    exact congrArg (fun call : Call m Answer => call.run.run s) (pure_bind _ _)

end Idle

end Session

/-! ## Conditions that are not supported -/

/-- Where no record passes, changing those that pass changes nothing. -/
theorem Command.run_constant_false (table : Table) (fields : List (String × Datum)) (clock : Moment)
    (db : Database) :
    let scanned : Outcome := { stats := { scanned := (db.records table).length } }
    (Command.update table (.constant false) fields clock).run db = (scanned, db) ∧
      (Command.delete table (.constant false)).run db = (scanned, db) := by
  have hNone : ∀ r, (Matcher.constant false).acceptsRecord r = false := fun _ => rfl
  have hCount : (db.records table).countP (Matcher.constant false).acceptsRecord = 0 :=
    List.countP_eq_zero.2 fun r _ => Bool.eq_false_iff.1 (hNone r)
  have hSame : ∀ c : Command, c.target? = some table →
      (c.run db).2.records table = db.records table → (c.run db).2 = db := by
    intro c hTarget hRecords
    refine Database.ext fun other => ?_
    by_cases hOther : other = table
    · rw [hOther, hRecords]
    · refine Command.records_run_of_ne (fun hEq => hOther ?_) db
      exact (Option.some.inj (hTarget.symm.trans hEq)).symm
  constructor
  · refine Prod.ext ?_ (hSame _ rfl ?_)
    · simp only [Command.run, hCount]
    · rw [Command.records_run_update]
      exact List.map_id _
  · refine Prod.ext ?_ (hSame _ rfl ?_)
    · simp only [Command.run, hCount]
    · rw [Command.records_run_delete]
      exact List.filter_eq_self.2 fun r _ => rfl

namespace Plan

variable {p : Plan} {c : Condition} {parameters : List Datum} {clock : Moment}

/-- A plan that would change records does nothing if its condition is not supported. -/
theorem evaluate_unsupported_mutation (hPredicate : p.action.predicate = .unsupported c)
    (hQuery : p.isQuery = false) {db : Database}
    (hRuns : ∃ outcome, (p.evaluate parameters clock db).1 = .ok outcome) :
    ∃ outcome, p.evaluate parameters clock db = (.ok outcome, db) ∧ outcome.stats.affected = 0 := by
  obtain ⟨outcome, hOutcome⟩ := hRuns
  cases hCommand : p.command parameters clock with
  | error e =>
    rw [evaluate_of_error hCommand] at hOutcome
    cases hOutcome
  | ok filled =>
    rw [evaluate_of_command hCommand]
    obtain ⟨action, count⟩ := p
    rw [command] at hCommand
    split at hCommand
    · cases action with
      | update table assignments predicate =>
        obtain rfl : predicate = .unsupported c := hPredicate
        obtain ⟨fields, -, hUpdate⟩ := bind_eq_ok_iff.1 hCommand
        cases hUpdate
        have hRun := (Command.run_constant_false table fields clock db).1
        exact ⟨_, congrArg (fun x => (Except.ok x.1, x.2)) hRun, rfl⟩
      | delete table predicate =>
        obtain rfl : predicate = .unsupported c := hPredicate
        cases hCommand
        have hRun := (Command.run_constant_false table [] clock db).2
        exact ⟨_, congrArg (fun x => (Except.ok x.1, x.2)) hRun, rfl⟩
      | insert table fields => cases hPredicate
      | select s => cases hQuery
      | unrecognized reason => cases hPredicate
    · cases hCommand

/-- A query returns all rows if its condition is not supported. -/
theorem evaluate_unsupported_query {s : Selection} (hAlways : s.predicate = .always)
    (hCount : parameters.length = p.parameterCount)
    (hAction : p.action = .select { s with predicate := .unsupported c }) (db : Database) :
    ∃ outcome, p.evaluate parameters clock db = (.ok outcome, db) ∧
      (Plan.mk (.select s) 0).evaluate [] clock db = (.ok outcome, db) := by
  have hGiven : p.command parameters clock =
      .ok (.select { s with predicate := .unsupported c } (.constant true)) := by
    rw [command, if_pos hCount, hAction]
    rfl
  have hWhole : (Plan.mk (.select s) 0).command [] clock = .ok (.select s (.constant true)) := by
    have hMatcher : Matcher.ofPredicate [] clock .everything s.predicate =
        .ok (.constant true) := by
      rw [hAlways]
      rfl
    show (do return Command.select s (← Matcher.ofPredicate [] clock .everything s.predicate)) = _
    rw [hMatcher]
    rfl
  exact ⟨_, evaluate_of_command hGiven db, evaluate_of_command hWhole db⟩

end Plan

/-! ## Plans of both dialects -/

/-- A statement that the strict dialect refuses for its condition has a lenient plan, which changes
no record and returns the rows of the statement without its condition. -/
theorem Plan.exists_lenient_of_unsupported {s : Statement} {c : Condition}
    (h : Plan.ofStatement .strict s = .error (.unsupportedPredicate c)) :
    ∃ p, Plan.ofStatement .lenient s = .ok p ∧ p.action.predicate = .unsupported c ∧
      ∀ parameters clock db, parameters.length = p.parameterCount →
        ∃ outcome, p.evaluate parameters clock db = (.ok outcome, db) ∧
          (s.isQuery = false → outcome.stats.affected = 0) ∧
          (s.isQuery = true → ∃ whole, (∀ d, Plan.ofStatement d s.unconditional = .ok whole) ∧
            whole.evaluate [] clock db = (.ok outcome, db)) := by
  rcases ofStatement_eq_error_iff.1 h with hRest | ⟨action, hAction, hCondition⟩
  · exact absurd hRest (regular_ofStatement_unconditional s c)
  · have hPredicate := Predicate.ofCondition_lenient_of_unsupported hCondition
    have hPlan := ofStatement_eq_ok_iff.2 ⟨_, _, hAction, hPredicate, rfl⟩
    have hKept : (action.withPredicate (.unsupported c)).predicate = .unsupported c := by
      obtain ⟨whole, hWhole, hParts⟩ := bind_eq_ok_iff.1 hPlan
      cases hParts
      exact Except.ok.inj ((Action.predicate_of_ofStatement hWhole).symm.trans hPredicate)
    refine ⟨_, hPlan, hKept, fun parameters clock db hCount => ?_⟩
    cases hKind : s.isQuery with
    | false =>
      have hQuery := (isQuery_of_ofStatement hPlan).trans hKind
      have hFit := slots_fit hPlan
      rw [← hCount] at hFit
      obtain ⟨outcome, hSame, hNone⟩ := evaluate_unsupported_mutation hKept hQuery
        (exists_evaluate_iff.2 ⟨hCount, hFit⟩)
      exact ⟨outcome, hSame, fun _ => hNone, nofun⟩
    | true =>
      obtain ⟨q, rfl⟩ : ∃ q, s = .select q := by
        cases s with
        | select q => exact ⟨q, rfl⟩
        | insert | update | delete => cases hKind
      obtain ⟨selection, rfl, hAlways⟩ := Action.exists_selection_of_unconditional hAction
      obtain ⟨outcome, hSame, hWhole⟩ := evaluate_unsupported_query hAlways hCount rfl db
      refine ⟨outcome, hSame, nofun, fun _ => ⟨_, fun d => ?_, hWhole⟩⟩
      rw [Plan.ofStatement, Action.ofStatement_unconditional, hAction]
      rfl

/-- Other refusals are the same in both dialects. -/
theorem Plan.ofStatement_lenient_of_error {s : Statement} {e : PlanError}
    (h : Plan.ofStatement .strict s = .error e) (hRegular : ∀ c, e ≠ .unsupportedPredicate c) :
    Plan.ofStatement .lenient s = .error e := by
  rw [ofStatement_eq_error_iff] at h ⊢
  refine h.imp_right fun ⟨action, hAction, hCondition⟩ => ⟨action, hAction, ?_⟩
  exact Predicate.ofCondition_lenient_of_error hCondition hRegular

/-- The lenient plan of a text. A plan of the strict dialect is one of the lenient dialect. A text
that is no statement does nothing, and a condition that is not supported holds for no record that
would be changed and for every row of a query. All else is refused as in the strict dialect. -/
theorem lenient_of_text (text : String) :
    (∀ p, Plan.ofText .strict text = .ok p → Plan.ofText .lenient text = .ok p) ∧
    (∀ e, Plan.ofText .strict text = .error (.parse e) →
      Plan.ofText .lenient text = .ok (.unrecognized e) ∧
      (Plan.unrecognized e).explain.steps = [⟨"NoOp", [("reason", e.message)]⟩] ∧
      ∀ parameters clock,
        (Session.Idle (.run text parameters clock) (.ran {}) ∧
          Session.Idle (.get text parameters clock) (.row none) ∧
          Session.Idle (.all text parameters clock) (.rows [])) ∧
        Session.Idle (.runPrepared (.unrecognized e) parameters clock) (.ran {}) ∧
        Session.Idle (.getPrepared (.unrecognized e) parameters clock) (.row none) ∧
        Session.Idle (.allPrepared (.unrecognized e) parameters clock) (.rows [])) ∧
    (∀ e, (∀ c, e ≠ .unsupportedPredicate c) → Plan.ofText .strict text = .error (.plan e) →
      Plan.ofText .lenient text = .error (.plan e)) ∧
    ∀ c, Plan.ofText .strict text = .error (.plan (.unsupportedPredicate c)) →
      ∃ s p, Statement.ofText text = .ok s ∧ Plan.ofText .lenient text = .ok p ∧
        p.action.predicate = .unsupported c ∧
        ∀ parameters clock db, parameters.length = p.parameterCount →
          ∃ outcome, p.evaluate parameters clock db = (.ok outcome, db) ∧
            (s.isQuery = false → outcome.stats.affected = 0) ∧
            (s.isQuery = true → ∃ whole, (∀ d, Plan.ofStatement d s.unconditional = .ok whole) ∧
              whole.evaluate [] clock db = (.ok outcome, db)) := by
  refine ⟨fun p hStrict => ?_, fun e hStrict => ?_, fun e hRegular hStrict => ?_,
    fun c hStrict => ?_⟩
  · rcases Plan.ofText_eq_ok_iff.1 hStrict with ⟨s, hText, hPlan⟩ | ⟨e, -, hLenient, -⟩
    · have hSame := Plan.ofStatement_strict_eq_lenient hPlan
      exact Plan.ofText_eq_ok_iff.2 (.inl ⟨s, hText, hSame⟩)
    · cases hLenient
  · obtain ⟨hText, -⟩ := Plan.ofText_eq_parse_error_iff.1 hStrict
    exact ⟨Plan.ofText_eq_ok_iff.2 (.inr ⟨e, hText, rfl, rfl⟩), rfl, fun parameters clock =>
      ⟨Session.idle_of_unrecognized parameters clock hText,
        Session.idle_of_prepared parameters clock⟩⟩
  · obtain ⟨s, hText, hPlan⟩ := Plan.ofText_eq_plan_error_iff.1 hStrict
    have hSame := Plan.ofStatement_lenient_of_error hPlan hRegular
    exact Plan.ofText_eq_plan_error_iff.2 ⟨s, hText, hSame⟩
  · obtain ⟨s, hText, hPlan⟩ := Plan.ofText_eq_plan_error_iff.1 hStrict
    obtain ⟨p, hLenient, hPredicate, hEvaluate⟩ := Plan.exists_lenient_of_unsupported hPlan
    exact ⟨s, p, hText, Plan.ofText_eq_ok_iff.2 (.inl ⟨s, hText, hLenient⟩), hPredicate, hEvaluate⟩

/-- A deletion with an alternative in its condition deletes nothing. -/
theorem lenient_of_text_delete :
    let text := "DELETE FROM users WHERE name = ? OR id = ?"
    let either : Condition := .or (.compare ⟨⟨none, "name"⟩, .equal, .placeholder 0⟩)
      (.compare ⟨⟨none, "id"⟩, .equal, .placeholder 1⟩)
    Plan.ofText .strict text = .error (.plan (.unsupportedPredicate either)) ∧
      Plan.ofText .lenient text = .ok ⟨.delete .users (.unsupported either), 2⟩ ∧
      ∀ name id clock db, ∃ outcome,
        (Plan.mk (.delete .users (.unsupported either)) 2).evaluate [name, id] clock db =
          (.ok outcome, db) ∧ outcome.stats.affected = 0 := by
  intro text either
  have hText : Statement.ofText text = .ok (.delete .users (some either)) :=
    ok_of_toOption (by decide +kernel)
  have hStrict : Plan.ofText .strict text = .error (.plan (.unsupportedPredicate either)) :=
    Plan.ofText_eq_plan_error_iff.2 ⟨_, hText, rfl⟩
  have hPlan : Plan.ofText .lenient text = .ok ⟨.delete .users (.unsupported either), 2⟩ :=
    Plan.ofText_eq_ok_iff.2 (.inl ⟨_, hText, rfl⟩)
  obtain ⟨s, p, hSame, hLenient, -, hEvaluate⟩ := (lenient_of_text text).2.2.2 either hStrict
  obtain rfl := Except.ok.inj (hText.symm.trans hSame)
  obtain rfl := Except.ok.inj (hPlan.symm.trans hLenient)
  refine ⟨hStrict, hPlan, fun name id clock db => ?_⟩
  obtain ⟨outcome, hKept, hNone, -⟩ := hEvaluate [name, id] clock db rfl
  exact ⟨outcome, hKept, hNone rfl⟩

end RecordStore
