import RecordStore.Proofs.PlanParts
import RecordStore.Proofs.QuestionMarks

/-!
# Parameters of a plan

Every question mark of a text becomes one placeholder of the statement, and every placeholder one
slot of its plan. The plan asks for as many parameters as there are question marks, and its slots
take them in the order in which they are written, each one once.

A condition that is not supported drops out of the slots, but not out of the count. So a plan of
either dialect is carried out just when it is given the parameters that it asks for, since none of
its slots asks for more.

## Main results

- `slots_of_clauses?`: the slots of a conjunction are its operands other than the current time.
- `slots_fit`: the slots of a plan are filled by the parameters that it asks for.
- `parameters_of_text`: the parameters of the plan of a text.
-/

namespace RecordStore

open Plan (Slot Clause Predicate Action Scope)
open Sql (Operand Statement Condition)
open Sql.Grammar (placeholder? placeholders)

namespace Sql.Statement

/-- The operands of a statement besides those of its condition. -/
def values : Statement → List Operand
  | insert _ _ values => values
  | update _ assignments _ => assignments.map Assignment.value
  | delete _ _ => []
  | select _ => []

theorem operands_eq (s : Statement) :
    s.operands = s.values ++ s.condition?.elim [] Condition.operands := by
  cases s with
  | insert table columns values => exact (List.append_nil values).symm
  | update table assignments condition => rfl
  | delete table condition => rfl
  | select q => rfl

/-- A statement with a value for each column, if it is an insertion. -/
def IsBalanced : Statement → Prop
  | insert _ columns values => columns.length = values.length
  | _ => True

end Sql.Statement

namespace Plan

/-- The number of a slot that is a parameter. -/
def Slot.parameter? : Slot → Option Nat
  | parameter i => some i
  | _ => none

theorem Slot.parameter?_ofOperand (o : Operand) :
    (Slot.ofOperand o).parameter? = placeholder? o := by
  cases o <;> rfl

theorem filterMap_parameter?_ofOperand (os : List Operand) :
    (os.map Slot.ofOperand).filterMap Slot.parameter? = os.filterMap placeholder? := by
  have hSame : Slot.parameter? ∘ Slot.ofOperand = placeholder? :=
    funext Slot.parameter?_ofOperand
  rw [List.filterMap_map, hSame]

/-- A slot is filled by parameters that are enough for its operand. -/
theorem Slot.fits_ofOperand_iff {o : Operand} {n : Nat} :
    (Slot.ofOperand o).Fits n ↔ o.needed ≤ n := by
  cases o with
  | placeholder i => exact Iff.rfl
  | literal d => exact ⟨fun _ => Nat.zero_le n, fun _ => trivial⟩
  | now => exact ⟨fun _ => Nat.zero_le n, fun _ => trivial⟩

/-! ## Slots of conditions -/

/-- Whether an operand is a value, which has a slot in a clause. The current time has none. -/
def isValue (o : Operand) : Bool := o ≠ .now

theorem slots_of_ofComparison {s : Scope} {c : Sql.Comparison} {clause : Clause}
    (h : Clause.ofComparison s c = .ok clause) :
    clause.slots = ([c.operand].filter isValue).map Slot.ofOperand := by
  rcases ofComparison_cases h with ⟨field, -, -, hOperand, rfl⟩ | ⟨field, relation, -, -, hNow, rfl⟩
  · have hValue : isValue c.operand = true := decide_eq_true hOperand
    rw [List.filter_cons_of_pos hValue]
    rfl
  · rw [hNow]
    rfl

/-- The clauses of a condition have its values as slots, in the order in which they are written. -/
theorem slots_of_clauses? {s : Scope} {c : Condition} {clauses : List Clause}
    (h : clauses? s c = .ok clauses) :
    (Predicate.conjunction clauses).slots = (c.operands.filter isValue).map Slot.ofOperand := by
  induction c generalizing clauses with
  | compare d =>
    obtain ⟨clause, hClause, hSingle⟩ := bind_eq_ok_iff.1 h
    cases hSingle
    rw [Predicate.slots, List.flatMap_singleton]
    exact slots_of_ofComparison hClause
  | and l r ihl ihr =>
    rw [clauses?_and] at h
    obtain ⟨left, hLeft, hRest⟩ := bind_eq_ok_iff.1 h
    obtain ⟨right, hRight, hBoth⟩ := bind_eq_ok_iff.1 hRest
    cases hBoth
    rw [Predicate.slots_conjunction_append, ihl hLeft, ihr hRight, Condition.operands_and,
      List.filter_append, List.map_append]
  | or l r => cases h
  | not c => cases h

/-- A predicate has the values of its condition as slots, or none if it is not supported. -/
theorem slots_of_ofCondition {d : Dialect} {s : Scope} {condition : Option Condition}
    {predicate : Predicate} (h : Predicate.ofCondition d s condition = .ok predicate) :
    predicate.slots = ((condition.elim [] Condition.operands).filter isValue).map Slot.ofOperand ∨
      d = .lenient ∧ predicate.slots = [] := by
  cases condition with
  | none =>
    cases h
    exact .inl rfl
  | some c =>
    simp only [Predicate.ofCondition] at h
    split at h
    · next clauses hClauses =>
      cases h
      exact .inl (slots_of_clauses? hClauses)
    · cases h
      exact .inr ⟨rfl, rfl⟩
    · cases h

/-- The values among operands are the placeholders and literals. -/
theorem filterMap_placeholder?_values (os : List Operand) :
    (os.filter isValue).filterMap placeholder? = os.filterMap placeholder? := by
  have hSame : (fun o => if isValue o then placeholder? o else none) = placeholder? :=
    funext fun o => by cases o <;> rfl
  rw [List.filterMap_filter, hSame]

/-! ## Slots of plans -/

/-- The slots in which a statement sets fields, and behind them those of its predicate. -/
theorem exists_slots_eq {d : Dialect} {s : Statement} {action : Action}
    (h : Action.ofStatement d s = .ok action) :
    ∃ set, action.slots = set ++ action.predicate.slots ∧
      set ⊆ s.values.map Slot.ofOperand ∧
      (s.IsBalanced → set = s.values.map Slot.ofOperand) := by
  cases s with
  | insert table columns values =>
    cases h
    refine ⟨_, (List.append_nil _).symm, fun slot hSlot => ?_, fun hBalanced => ?_⟩
    · obtain ⟨field, hField, rfl⟩ := List.mem_map.1 hSlot
      exact (List.of_mem_zip hField).2
    · exact List.map_snd_zip (by rw [List.length_map]; exact Nat.le_of_eq hBalanced.symm)
  | update table assignments condition =>
    obtain ⟨predicate, -, hAction⟩ := bind_eq_ok_iff.1 h
    cases hAction
    have hSet : (assignments.map assigned).map Prod.snd =
        (assignments.map Sql.Assignment.value).map Slot.ofOperand := by
      rw [List.map_map, List.map_map]
      rfl
    exact ⟨_, rfl, fun slot hSlot => hSet ▸ hSlot, fun _ => hSet⟩
  | delete table condition =>
    obtain ⟨predicate, -, hAction⟩ := bind_eq_ok_iff.1 h
    cases hAction
    exact ⟨[], rfl, List.nil_subset _, fun _ => rfl⟩
  | select q =>
    obtain ⟨selection, -, hAction⟩ := bind_eq_ok_iff.1 h
    cases hAction
    exact ⟨[], rfl, List.nil_subset _, fun _ => rfl⟩

/-- Every slot of a plan is that of an operand of the statement. -/
theorem exists_operand_of_slot {d : Dialect} {s : Statement} {action : Action}
    (h : Action.ofStatement d s = .ok action) {slot : Slot} (hSlot : slot ∈ action.slots) :
    ∃ o ∈ s.operands, slot = .ofOperand o := by
  obtain ⟨set, hSlots, hSet, -⟩ := exists_slots_eq h
  rw [s.operands_eq]
  rw [hSlots, List.mem_append] at hSlot
  rcases hSlot with hSlot | hSlot
  · obtain ⟨o, hMem, rfl⟩ := List.mem_map.1 (hSet hSlot)
    exact ⟨o, List.mem_append_left _ hMem, rfl⟩
  · rcases slots_of_ofCondition (Action.predicate_of_ofStatement h) with hAll | ⟨-, hNone⟩
    · rw [hAll] at hSlot
      obtain ⟨o, hMem, rfl⟩ := List.mem_map.1 hSlot
      exact ⟨o, List.mem_append_right _ (List.mem_filter.1 hMem).1, rfl⟩
    · rw [hNone] at hSlot
      cases hSlot

/-- The parameters that a plan asks for fill all of its slots. -/
theorem slots_fit {d : Dialect} {s : Statement} {p : Plan} (h : Plan.ofStatement d s = .ok p) :
    ∀ slot ∈ p.action.slots, slot.Fits p.parameterCount := by
  obtain ⟨action, hAction, hPlan⟩ := bind_eq_ok_iff.1 h
  cases hPlan
  intro slot hSlot
  obtain ⟨o, hMem, rfl⟩ := exists_operand_of_slot hAction hSlot
  rw [Slot.fits_ofOperand_iff]
  exact Statement.placeholderCount_le_iff.1 (Nat.le_refl _) o hMem

/-- The slots of a strict plan have the placeholders of the statement as parameters, in the order in
which they are written. -/
theorem parameters_of_strict {s : Statement} {action : Action} (hBalanced : s.IsBalanced)
    (h : Action.ofStatement .strict s = .ok action) :
    action.slots.filterMap Slot.parameter? = placeholders s := by
  obtain ⟨set, hSlots, -, hSet⟩ := exists_slots_eq h
  rcases slots_of_ofCondition (Action.predicate_of_ofStatement h) with hAll | ⟨hLenient, -⟩
  · rw [hSlots, hSet hBalanced, hAll, List.filterMap_append, filterMap_parameter?_ofOperand,
      filterMap_parameter?_ofOperand, filterMap_placeholder?_values, ← List.filterMap_append,
      ← s.operands_eq]
    rfl
  · cases hLenient

end Plan

/-! ## Plans of texts -/

/-- A statement that was read has a value for each column. -/
theorem Sql.Grammar.isBalanced_of_spells {ts : List Sql.Token} {s : Statement}
    (h : SpellsStatement ts s) : s.IsBalanced := by
  cases s with
  | insert table columns values => exact length_columns_of_spells h
  | update | delete | select => trivial

/-- Text by text: a plan asks for as many parameters as there are question marks, a strict plan takes
them in order, each once, and either plan is carried out just when it is given so many. -/
theorem parameters_of_text (d : Dialect) (text : String) (p : Plan)
    (h : Plan.ofText d text = .ok p) :
    (∀ ts s, Sql.tokens text = .ok ts → Statement.ofTokens ts = .ok s →
      p.parameterCount = (ts.map Sql.Placed.token).count .placeholder ∧
      (d = .strict →
        p.action.slots.filterMap Slot.parameter? = List.range p.parameterCount)) ∧
    ∀ parameters clock db,
      ((∃ outcome, (p.evaluate parameters clock db).1 = .ok outcome) ↔
        parameters.length = p.parameterCount) ∧
      (parameters.length ≠ p.parameterCount →
        p.evaluate parameters clock db =
          (.error (.parameterCount p.parameterCount parameters.length), db)) ∧
      (parameters.length = p.parameterCount →
        ∀ slot ∈ p.action.slots, ∃ value, slot.resolve parameters clock = .ok value) := by
  have hFit : ∀ slot ∈ p.action.slots, slot.Fits p.parameterCount := by
    rcases Plan.ofText_eq_ok_iff.1 h with ⟨s, -, hPlan⟩ | ⟨e, -, -, rfl⟩
    · exact Plan.slots_fit hPlan
    · exact fun slot hSlot => absurd hSlot List.not_mem_nil
  refine ⟨fun ts s hTokens hRead => ?_, fun parameters clock db => ⟨?_, fun hCount => ?_, ?_⟩⟩
  · obtain ⟨hNumbers, us, hSpells⟩ := Sql.placeholders_of_ofTokens hRead
    have hText : Statement.ofText text = .ok s := by
      rw [Statement.ofText, hTokens]
      exact hRead
    rcases Plan.ofText_eq_ok_iff.1 h with ⟨s', hSame, hPlan⟩ | ⟨e, hError, -, -⟩
    · obtain rfl : s = s' := Except.ok.inj (hText.symm.trans hSame)
      obtain ⟨action, hAction, hParts⟩ := bind_eq_ok_iff.1 hPlan
      cases hParts
      have hCount : s.placeholderCount = (ts.map Sql.Placed.token).count .placeholder :=
        Sql.placeholderCount_of_placeholders hNumbers
      refine ⟨hCount, fun hStrict => ?_⟩
      rw [hStrict] at hAction
      rw [Plan.parameters_of_strict (Sql.Grammar.isBalanced_of_spells hSpells) hAction, hNumbers,
        ← hCount]
    · rw [hText] at hError
      cases hError
  · rw [exists_evaluate_iff]
    exact ⟨fun hBoth => hBoth.1, fun hCount => ⟨hCount, by rw [hCount]; exact hFit⟩⟩
  · refine Plan.evaluate_of_error ?_ db
    rw [Plan.command, if_neg hCount]
  · intro hCount slot hSlot
    rw [Slot.resolve_eq_ok_iff, hCount]
    exact hFit slot hSlot

/-- An update takes its parameters from the assignments first and then from the condition. -/
theorem parameters_of_text_update :
    let text := "UPDATE users SET name = ?, age = 7, city = ? WHERE id = ? AND born < datetime('now')"
    let p : Plan :=
      ⟨.update .users
        [("name", .parameter 0), ("age", .literal (.integer 7)), ("city", .parameter 1)]
        (.conjunction [.equals ⟨.base, "id"⟩ (.parameter 2), .time ⟨.base, "born"⟩ .before]), 3⟩
    Plan.ofText .strict text = .ok p ∧
      p.action.slots.filterMap Slot.parameter? = List.range 3 ∧
      ∀ parameters clock db, (∃ outcome, (p.evaluate parameters clock db).1 = .ok outcome) ↔
        parameters.length = 3 := by
  intro text p
  have hText : Plan.ofText .strict text = .ok p := ok_of_toOption (by decide +kernel)
  obtain ⟨hRead, hEvaluate⟩ := parameters_of_text .strict text p hText
  refine ⟨hText, ?_, fun parameters clock db => (hEvaluate parameters clock db).1⟩
  rcases Plan.ofText_eq_ok_iff.1 hText with ⟨s, hStatement, -⟩ | ⟨e, -, hLenient, -⟩
  · obtain ⟨ts, hTokens, hTree⟩ := bind_eq_ok_iff.1 hStatement
    exact (hRead ts s hTokens hTree).2 rfl
  · cases hLenient

end RecordStore
