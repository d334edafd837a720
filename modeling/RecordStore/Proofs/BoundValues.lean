import RecordStore.Proofs.Parameters

/-!
# Parameters and literals

A statement with question marks is carried out with a list of values. It does the same when the
values stand in the statement itself and there are no parameters.

Two things go into this. Planning goes through a statement without looking at its values, so the plan
of a statement with its values filled in is the plan of the statement with its parameters filled in,
and a refusal shows the same condition with its values (`ofStatement_substitute`). Carrying out a plan
fills its slots first, and a slot yields the same value either way (`evaluate_substitute`).

## Main results

- `ofStatement_substitute`: the plan of a statement with values in place of its placeholders.
- `evaluate_substitute`: what a plan does with values in place of its parameters.
- `evaluate_bound`: binding values to a statement that was read, or writing them into it.
-/

namespace RecordStore

open Plan (Slot Clause Predicate Action Scope)
open Sql (Operand Statement Condition)
open Sql.Grammar (placeholders)

/-- The fault with values in place of the placeholders of its condition. -/
def PlanError.substitute (values : List Datum) : PlanError → PlanError
  | unsupportedPredicate condition => unsupportedPredicate (condition.substitute values)
  | joinWithinTable => joinWithinTable
  | joinWithoutId baseKey joinedKey => joinWithoutId baseKey joinedKey
  | unknownQualifier name => unknownQualifier name

/-- Values do not take the place of the current time, nor become it. -/
theorem Sql.Operand.eq_now_of_substitute {values : List Datum} {o : Operand}
    (h : o.substitute values = .now) : o = .now := by
  cases o with
  | placeholder i =>
    rw [substitute] at h
    cases hValue : values[i]? <;> rw [hValue] at h <;> cases h
  | literal d => cases h
  | now => rfl

namespace Plan

/-- The slot with the value of a parameter in its place. -/
def Slot.substitute (values : List Datum) : Slot → Slot
  | parameter i => (values[i]?).elim (parameter i) literal
  | literal d => literal d
  | now => now

def Clause.substitute (values : List Datum) : Clause → Clause
  | equals field value => equals field (value.substitute values)
  | time field relation => time field relation

/-- The predicate with values in place of its parameters. -/
def Predicate.substitute (values : List Datum) : Predicate → Predicate
  | always => always
  | conjunction clauses => conjunction (clauses.map (Clause.substitute values))
  | unsupported condition => unsupported (condition.substitute values)

/-- Fields with values in place of their parameters. -/
def substituteFields (values : List Datum) (fields : List (String × Slot)) : List (String × Slot) :=
  fields.map (Prod.map id (Slot.substitute values))

/-- The action with values in place of its parameters. -/
def Action.substitute (values : List Datum) : Action → Action
  | insert table fields => insert table (substituteFields values fields)
  | update table assignments predicate =>
    update table (substituteFields values assignments) (predicate.substitute values)
  | delete table predicate => delete table (predicate.substitute values)
  | select s => select { s with predicate := s.predicate.substitute values }
  | unrecognized reason => unrecognized reason

/-- The plan with values in place of its parameters, which asks for none. -/
def substitute (values : List Datum) (p : Plan) : Plan := ⟨p.action.substitute values, 0⟩

variable {values : List Datum}

/-! ## Planning -/

section Planning

variable {α β : Type} {f : α → α} {g : β → β} {s : Scope}

/-- A result of planning with values filled in, be it a part of a plan or a refusal. -/
def filled (values : List Datum) (f : α → α) (x : Except PlanError α) : Except PlanError α :=
  (x.map f).mapError (PlanError.substitute values)

theorem filled_ok (a : α) : filled values f (.ok a) = .ok (f a) := rfl

theorem filled_error (e : PlanError) :
    filled values f (.error e) = .error (e.substitute values) := rfl

/-- What does not refuse a condition says nothing in which values could be filled. -/
theorem filled_of_regular {x : Except PlanError α} (h : Regular x) :
    filled values f x = x.map f := by
  cases x with
  | ok a => rfl
  | error e =>
    cases e with
    | unsupportedPredicate c => exact absurd rfl (h c)
    | joinWithinTable | joinWithoutId _ _ | unknownQualifier _ => rfl

/-- Steps with values filled in are the steps of what is filled in. -/
theorem filled_bind {x y : Except PlanError α} {k l : α → Except PlanError β}
    (hFirst : y = filled values f x) (hThen : ∀ a, l (f a) = filled values g (k a)) :
    y >>= l = filled values g (x >>= k) := by
  rw [hFirst]
  cases x with
  | ok a => exact hThen a
  | error e => rfl

theorem Slot.ofOperand_substitute (o : Operand) :
    Slot.ofOperand (o.substitute values) = (Slot.ofOperand o).substitute values := by
  cases o with
  | placeholder i =>
    simp only [Operand.substitute, ofOperand, substitute]
    cases values[i]? <;> rfl
  | literal d => rfl
  | now => rfl

/-- Planning only tells the current time from other operands. -/
theorem ofComparison_of_value {c : Sql.Comparison} (h : c.operand ≠ .now) :
    Clause.ofComparison s c = (do
      let field ← s.resolve c.column
      if c.op = .equal then return .equals field (.ofOperand c.operand)
      else throw (.unsupportedPredicate (.compare c))) := by
  obtain ⟨column, op, operand⟩ := c
  cases operand with
  | placeholder i | literal d => cases op <;> rfl
  | now => exact absurd rfl h

theorem ofComparison_substitute (c : Sql.Comparison) :
    Clause.ofComparison s (c.substitute values) =
      filled values (Clause.substitute values) (Clause.ofComparison s c) := by
  have hColumn : s.resolve c.column = filled values id (s.resolve c.column) := by
    rw [filled_of_regular (regular_resolve c.column)]
    exact (id_map _).symm
  by_cases hNow : c.operand = .now
  · obtain ⟨column, op, operand⟩ := c
    cases hNow
    refine filled_bind hColumn fun field => ?_
    cases op <;> rfl
  · have hValue : (c.substitute values).operand ≠ .now :=
      fun h => hNow (Operand.eq_now_of_substitute h)
    rw [ofComparison_of_value hValue, ofComparison_of_value hNow]
    refine filled_bind hColumn fun field => ?_
    have hOp : (c.substitute values).op = c.op := rfl
    rw [hOp]
    split
    · exact congrArg (fun slot => Except.ok (Clause.equals field slot))
        (Slot.ofOperand_substitute c.operand)
    · rfl

/-- The clauses of a condition with values in place of its placeholders. -/
theorem clauses?_substitute (c : Condition) :
    clauses? s (c.substitute values) =
      filled values (List.map (Clause.substitute values)) (clauses? s c) := by
  induction c with
  | compare c => exact filled_bind (ofComparison_substitute c) fun clause => rfl
  | and l r ihl ihr =>
    refine filled_bind ihl fun left => filled_bind ihr fun right => ?_
    rw [← List.map_append]
    rfl
  | or l r => rfl
  | not c => rfl

theorem ofCondition_substitute (d : Dialect) (condition : Option Condition) :
    Predicate.ofCondition d s (condition.map (Condition.substitute values)) =
      filled values (Predicate.substitute values) (Predicate.ofCondition d s condition) := by
  cases condition with
  | none => rfl
  | some c =>
    simp only [Option.map, Predicate.ofCondition, clauses?_substitute]
    cases clauses? s c with
    | ok clauses => rfl
    | error e => cases e <;> cases d <;> rfl

/-- A statement without its condition holds values only where it sets fields. -/
theorem ofStatement_unconditional_substitute (s : Statement) :
    Action.ofStatement .strict (s.substitute values).unconditional =
      filled values (Action.substitute values) (Action.ofStatement .strict s.unconditional) := by
  rw [filled_of_regular (regular_ofStatement_unconditional s)]
  cases s with
  | insert table columns operands =>
    have hSlots : (operands.map (Operand.substitute values)).map Slot.ofOperand =
        (operands.map Slot.ofOperand).map (Slot.substitute values) := by
      rw [List.map_map, List.map_map]
      exact List.map_congr_left fun o _ => Slot.ofOperand_substitute o
    simp only [Statement.substitute, Statement.unconditional, Action.ofStatement, hSlots,
      List.zip_map_right]
    rfl
  | update table assignments condition =>
    have hFields : (assignments.map (Sql.Assignment.substitute values)).map assigned =
        substituteFields values (assignments.map assigned) := by
      rw [substituteFields, List.map_map, List.map_map]
      exact List.map_congr_left fun a _ =>
        congrArg (Prod.mk a.column) (Slot.ofOperand_substitute a.value)
    simp only [Statement.substitute, Statement.unconditional, Action.ofStatement, hFields]
    rfl
  | delete table condition => rfl
  | select q =>
    have hSame : ((Statement.select q).substitute values).unconditional =
        (Statement.select q).unconditional := rfl
    rw [hSame]
    cases hAction : Action.ofStatement .strict (Statement.select q).unconditional with
    | error e => rfl
    | ok action =>
      obtain ⟨selection, rfl, hAlways⟩ := Action.exists_selection_of_unconditional hAction
      simp only [Except.map, Action.substitute, hAlways, Predicate.substitute]
      rw [← hAlways]

theorem Action.substitute_withPredicate (action : Action) (predicate : Predicate) :
    (action.withPredicate predicate).substitute values =
      (action.substitute values).withPredicate (predicate.substitute values) := by
  cases action <;> rfl

/-- The action of a statement with values in place of its placeholders. -/
theorem Action.ofStatement_substitute (d : Dialect) (s : Statement) :
    Action.ofStatement d (s.substitute values) =
      filled values (Action.substitute values) (Action.ofStatement d s) := by
  have hScope : Scope.ofStatement (s.substitute values) = Scope.ofStatement s := by
    cases s <;> rfl
  have hCondition : (s.substitute values).condition? =
      s.condition?.map (Condition.substitute values) := by
    cases s <;> rfl
  rw [Action.ofStatement_eq, Action.ofStatement_eq d s, hScope, hCondition]
  refine filled_bind (ofStatement_unconditional_substitute s) fun action => ?_
  refine filled_bind (ofCondition_substitute d s.condition?) fun predicate => ?_
  exact congrArg Except.ok (Action.substitute_withPredicate action predicate).symm

/-- With values enough, the plan of a statement with values in place of its placeholders is its plan
with values in place of the parameters. -/
theorem ofStatement_substitute (d : Dialect) {s : Statement}
    (h : s.placeholderCount ≤ values.length) :
    Plan.ofStatement d (s.substitute values) =
      filled values (Plan.substitute values) (Plan.ofStatement d s) := by
  rw [Plan.ofStatement, Statement.placeholderCount_substitute h]
  exact filled_bind (Action.ofStatement_substitute d s) fun action => rfl

theorem exists_ofStatement_substitute_iff (d : Dialect) {s : Statement}
    (h : s.placeholderCount ≤ values.length) :
    (∃ p, Plan.ofStatement d s = .ok p) ↔
      ∃ p, Plan.ofStatement d (s.substitute values) = .ok p := by
  rw [ofStatement_substitute d h]
  cases Plan.ofStatement d s with
  | ok p => rw [filled_ok]; simp
  | error e => rw [filled_error]; simp

end Planning

/-! ## Carrying out -/

section CarryingOut

variable {clock : Moment}

theorem Slot.resolve_substitute {slot : Slot} (h : slot.Fits values.length) :
    (slot.substitute values).resolve [] clock = slot.resolve values clock := by
  cases slot with
  | parameter i =>
    have hValue : values[i]? = some values[i] := List.getElem?_eq_getElem h
    simp only [substitute, resolve, hValue, Option.elim_some]
  | literal d => rfl
  | now => rfl

theorem mapM_map_congr {α β ε : Type} {f g : α → Except ε β} {change : α → α} {as : List α}
    (h : ∀ a ∈ as, g (change a) = f a) : (as.map change).mapM g = as.mapM f := by
  induction as with
  | nil => rfl
  | cons a as ih =>
    obtain ⟨hHead, hTail⟩ := List.forall_mem_cons.1 h
    rw [List.map_cons, List.mapM_cons, List.mapM_cons, hHead, ih hTail]

theorem resolveFields_substitute {fields : List (String × Slot)}
    (h : ∀ slot ∈ fields.map Prod.snd, slot.Fits values.length) :
    resolveFields [] clock (substituteFields values fields) =
      resolveFields values clock fields := by
  refine mapM_map_congr fun field hField => ?_
  have hSlot : (field.2.substitute values).resolve [] clock = field.2.resolve values clock :=
    Slot.resolve_substitute (h _ (List.mem_map_of_mem hField))
  simp only [Prod.map, id, hSlot]

theorem ofClause_substitute {clause : Clause}
    (h : ∀ slot ∈ clause.slots, slot.Fits values.length) :
    Test.ofClause [] clock (clause.substitute values) = Test.ofClause values clock clause := by
  cases clause with
  | equals field value =>
    have hSlot : (value.substitute values).resolve [] clock = value.resolve values clock :=
      Slot.resolve_substitute (h value (List.mem_singleton_self value))
    simp only [Clause.substitute, Test.ofClause, hSlot]
  | time field relation => rfl

theorem ofPredicate_substitute {fallback : Fallback} {predicate : Predicate}
    (h : ∀ slot ∈ predicate.slots, slot.Fits values.length) :
    Matcher.ofPredicate [] clock fallback (predicate.substitute values) =
      Matcher.ofPredicate values clock fallback predicate := by
  cases predicate with
  | always => rfl
  | unsupported condition => rfl
  | conjunction clauses =>
    have hTests : (clauses.map (Clause.substitute values)).mapM (Test.ofClause [] clock) =
        clauses.mapM (Test.ofClause values clock) :=
      mapM_map_congr fun clause hClause => ofClause_substitute fun slot hSlot =>
        h slot (List.mem_flatMap.2 ⟨clause, hClause, hSlot⟩)
    simp only [Predicate.substitute, Matcher.ofPredicate, hTests]

/-- The command of an action does the same with values in place of the parameters. Of a query the
command itself still shows which it was. -/
theorem command_substitute {action : Action} (h : ∀ slot ∈ action.slots, slot.Fits values.length) :
    ((action.substitute values).command [] clock).map Command.run =
      (action.command values clock).map Command.run := by
  cases action with
  | insert table fields =>
    simp only [Action.substitute, Action.command, resolveFields_substitute h]
  | update table assignments predicate =>
    obtain ⟨hFields, hPredicate⟩ := List.forall_mem_append.1 h
    simp only [Action.substitute, Action.command, resolveFields_substitute hFields,
      ofPredicate_substitute hPredicate]
  | delete table predicate =>
    simp only [Action.substitute, Action.command, ofPredicate_substitute h]
  | select s =>
    simp only [Action.substitute, Action.command, ofPredicate_substitute h]
    cases Matcher.ofPredicate values clock .everything s.predicate <;> rfl
  | unrecognized reason => rfl

/-- What a plan does is what its command does. -/
theorem evaluate_eq_run (p : Plan) (parameters : List Datum) (db : Database) :
    p.evaluate parameters clock db =
      match (p.command parameters clock).map Command.run with
      | .ok run => (.ok (run db).1, (run db).2)
      | .error e => (.error e, db) := by
  rw [evaluate]
  cases p.command parameters clock <;> rfl

/-- A plan does the same with values in place of its parameters. -/
theorem evaluate_substitute {p : Plan} (hCount : values.length = p.parameterCount)
    (hFit : ∀ slot ∈ p.action.slots, slot.Fits values.length) (db : Database) :
    (p.substitute values).evaluate [] clock db = p.evaluate values clock db := by
  have hFilled : (p.substitute values).command [] clock =
      (p.action.substitute values).command [] clock := if_pos rfl
  have hGiven : p.command values clock = p.action.command values clock := if_pos hCount
  rw [evaluate_eq_run, evaluate_eq_run, hFilled, hGiven, command_substitute hFit]

end CarryingOut

end Plan

/-! ## Statements that were read -/

/-- Binding values to the placeholders of a statement that was read is writing them into the
statement: both have a plan or neither has, and the plans do the same. -/
theorem evaluate_bound (ts : List Sql.Placed) (s : Statement)
    (hRead : Statement.ofTokens ts = .ok s) (values : List Datum)
    (hCount : values.length = (placeholders s).length) (d : Dialect) :
    ((∃ p, Plan.ofStatement d s = .ok p) ↔
      ∃ p, Plan.ofStatement d (s.substitute values) = .ok p) ∧
    ∀ p q, Plan.ofStatement d s = .ok p → Plan.ofStatement d (s.substitute values) = .ok q →
      ∀ clock db, ∃ outcome after,
        p.evaluate values clock db = (.ok outcome, after) ∧
        q.evaluate [] clock db = (.ok outcome, after) := by
  have hEnough : s.placeholderCount = values.length := by
    obtain ⟨hNumbers, -⟩ := Sql.placeholders_of_ofTokens hRead
    rw [Sql.placeholderCount_of_placeholders hNumbers, hCount, hNumbers, List.length_range]
  refine ⟨Plan.exists_ofStatement_substitute_iff d (Nat.le_of_eq hEnough), ?_⟩
  intro p q hPlan hFilled clock db
  obtain rfl : q = p.substitute values := by
    rw [Plan.ofStatement_substitute d (Nat.le_of_eq hEnough), hPlan] at hFilled
    exact (Except.ok.inj hFilled).symm
  have hParameters : values.length = p.parameterCount := by
    obtain ⟨action, -, hParts⟩ := bind_eq_ok_iff.1 hPlan
    cases hParts
    exact hEnough.symm
  have hFit : ∀ slot ∈ p.action.slots, slot.Fits values.length := by
    rw [hParameters]
    exact Plan.slots_fit hPlan
  obtain ⟨outcome, hOutcome⟩ := exists_evaluate_iff.2 ⟨hParameters, hFit⟩
  refine ⟨outcome, (p.evaluate values clock db).2, Prod.ext hOutcome rfl, ?_⟩
  rw [Plan.evaluate_substitute hParameters hFit]
  exact Prod.ext hOutcome rfl

/-- An update of one record, with question marks and with the values in their places. -/
theorem evaluate_bound_update :
    ∃ p q, Plan.ofText .strict "UPDATE users SET name = ?, city = ? WHERE id = ?" = .ok p ∧
      Plan.ofText .strict "UPDATE users SET name = 'Ann', city = NULL WHERE id = 'u1'" = .ok q ∧
      ∀ clock db, ∃ outcome after,
        p.evaluate [.text "Ann", .null, .text "u1"] clock db = (.ok outcome, after) ∧
        q.evaluate [] clock db = (.ok outcome, after) := by
  let s : Statement := .update .users [⟨"name", .placeholder 0⟩, ⟨"city", .placeholder 1⟩]
    (some (.compare ⟨⟨none, "id"⟩, .equal, .placeholder 2⟩))
  let values : List Datum := [.text "Ann", .null, .text "u1"]
  have hMarks : Statement.ofText "UPDATE users SET name = ?, city = ? WHERE id = ?" = .ok s :=
    ok_of_toOption (by decide +kernel)
  have hLiterals : Statement.ofText "UPDATE users SET name = 'Ann', city = NULL WHERE id = 'u1'" =
      .ok (s.substitute values) := ok_of_toOption (by decide +kernel)
  obtain ⟨ts, -, hRead⟩ := bind_eq_ok_iff.1 hMarks
  obtain ⟨hPlans, hSame⟩ := evaluate_bound ts s hRead values rfl .strict
  obtain ⟨q, hFilled⟩ := hPlans.1 ⟨_, rfl⟩
  have hTexts : ∀ text t r, Statement.ofText text = .ok t → Plan.ofStatement .strict t = .ok r →
      Plan.ofText .strict text = .ok r := fun text t r hText hPlan =>
    Plan.ofText_eq_ok_iff.2 (.inl ⟨t, hText, hPlan⟩)
  exact ⟨_, q, hTexts _ _ _ hMarks rfl, hTexts _ _ _ hLiterals hFilled, hSame _ q rfl hFilled⟩

end RecordStore
