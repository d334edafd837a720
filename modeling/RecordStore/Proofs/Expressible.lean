import RecordStore.Evaluation.Meaning
import RecordStore.Plan.Compilation

/-!
# The conditions that plans express

The strict dialect has plans for a closed set of conditions. A condition is in the set if nothing in
it is an alternative or a negation, every comparison in it is of a supported kind, and every
qualifier names a table of the statement. Such a condition becomes a conjunction of clauses, and the
matcher of these clauses passes exactly the rows of which the condition is true.

The proofs go by the shape of the condition, and each has one case of substance, the comparison:
`ofComparison_of_fault` and `ofComparison_of_closed` say everything that can become of one. A
conjunction puts the clauses of its right part behind those of its left part, so the first fault on
the left is the one that is reported.

## Main results

- `strict_condition`: which conditions have a strict plan, which error the others have, and that the
  matcher of a plan passes the rows of which the condition is true.
-/

namespace RecordStore

open Plan (Scope Field Slot Clause Predicate TimeRelation)

namespace Sql

/-! ## The closed set -/

/-- The conditions that a condition is built from, itself included. -/
def Condition.nodes : Condition → List Condition
  | compare c => [.compare c]
  | and l r => .and l r :: (l.nodes ++ r.nodes)
  | or l r => .or l r :: (l.nodes ++ r.nodes)
  | not c => .not c :: c.nodes

/-- A condition of the closed set. -/
structure Condition.IsClosed (s : Scope) (c : Condition) : Prop where
  no_or : ∀ l r, or l r ∉ c.nodes
  no_not : ∀ d, not d ∉ c.nodes
  supported : ∀ d, compare d ∈ c.nodes → d.isSupported = true
  known : ∀ d, compare d ∈ c.nodes → ∀ q, d.column.qualifier = some q → s.knows q = true

namespace Condition

variable {s : Scope} {l r c : Condition}

theorem isClosed_compare_iff {d : Comparison} :
    (compare d).IsClosed s ↔
      (∀ q, d.column.qualifier = some q → s.knows q = true) ∧ d.isSupported = true := by
  constructor
  · intro h
    exact ⟨h.known d (by simp [nodes]), h.supported d (by simp [nodes])⟩
  · rintro ⟨hKnown, hSupported⟩
    refine ⟨by simp [nodes], by simp [nodes], ?_, ?_⟩
    · intro e he
      rw [nodes, List.mem_singleton, compare.injEq] at he
      exact he ▸ hSupported
    · intro e he
      rw [nodes, List.mem_singleton, compare.injEq] at he
      exact he ▸ hKnown

theorem IsClosed.of_subset (h : c.IsClosed s) (hSub : l.nodes ⊆ c.nodes) : l.IsClosed s :=
  ⟨fun a b hMem => h.no_or a b (hSub hMem), fun d hMem => h.no_not d (hSub hMem),
    fun d hMem => h.supported d (hSub hMem), fun d hMem => h.known d (hSub hMem)⟩

theorem isClosed_and_iff : (and l r).IsClosed s ↔ l.IsClosed s ∧ r.IsClosed s := by
  constructor
  · intro h
    have hLeft : l.nodes ⊆ (and l r).nodes := fun d hMem => by simp [nodes, hMem]
    have hRight : r.nodes ⊆ (and l r).nodes := fun d hMem => by simp [nodes, hMem]
    exact ⟨h.of_subset hLeft, h.of_subset hRight⟩
  · rintro ⟨hl, hr⟩
    refine ⟨fun a b hMem => ?_, fun d hMem => ?_, fun d hMem => ?_, fun d hMem => ?_⟩ <;>
      simp only [nodes, List.mem_cons, List.mem_append, reduceCtorEq, false_or] at hMem <;>
      rcases hMem with hMem | hMem
    · exact hl.no_or a b hMem
    · exact hr.no_or a b hMem
    · exact hl.no_not d hMem
    · exact hr.no_not d hMem
    · exact hl.supported d hMem
    · exact hr.supported d hMem
    · exact hl.known d hMem
    · exact hr.known d hMem

theorem not_isClosed_or : ¬ (or l r).IsClosed s := fun h => h.no_or l r (by simp [nodes])

theorem not_isClosed_not : ¬ (not c).IsClosed s := fun h => h.no_not c (by simp [nodes])

/-- The closed set holds the conditions with nothing wrong in any of their conjuncts. -/
theorem isClosed_iff_findSome? : c.IsClosed s ↔ c.conjuncts.findSome? s.fault? = none := by
  induction c with
  | compare d =>
    rw [isClosed_compare_iff, ← Scope.fault?_compare_eq_none_iff]
    simp [conjuncts]
  | and l r ihl ihr =>
    rw [isClosed_and_iff, ihl, ihr, conjuncts, List.findSome?_append, Option.or_eq_none_iff]
  | or l r => simp [not_isClosed_or, conjuncts, Scope.fault?]
  | not c => simp [not_isClosed_not, conjuncts, Scope.fault?]

end Condition

end Sql

/-! ## Clauses -/

namespace Plan

variable {s : Scope}

theorem Scope.resolve_of_side {q name : String} {side : Side} (h : s.side q = .ok side) :
    s.resolve ⟨some q, name⟩ = .ok ⟨side, name⟩ := by
  simp only [resolve, h]
  rfl

theorem Scope.resolve_of_known {column : Sql.Column}
    (h : ∀ q, column.qualifier = some q → s.knows q = true) :
    ∃ field, s.resolve column = .ok field := by
  obtain ⟨qualifier, name⟩ := column
  cases qualifier with
  | none => exact ⟨_, s.resolve_unqualified name⟩
  | some q =>
    have hKnown : (s.base.isNamed q || s.joined.any (·.isNamed q)) = true := h q rfl
    by_cases hBase : s.base.isNamed q = true
    · exact ⟨_, resolve_of_side (side_of_base hBase)⟩
    · have hJoined : s.joined.any (·.isNamed q) = true := by simpa [hBase] using hKnown
      have hSide : s.side q = .ok .joined := by rw [side, if_neg hBase, if_pos hJoined]
      exact ⟨_, resolve_of_side hSide⟩

theorem Scope.resolve_of_unknown {q name : String} (h : s.knows q = false) :
    s.resolve ⟨some q, name⟩ = .error (.unknownQualifier q) := by
  rw [knows, Bool.or_eq_false_iff] at h
  have hSide : s.side q = .error (.unknownQualifier q) := by
    rw [side, if_neg (by simp [h.1]), if_neg (by simp [h.2])]
  simp only [resolve, hSide]
  rfl

/-- A supported comparison is an equality with a value or a relation to the current time. -/
theorem isSupported_cases {c : Sql.Comparison} (h : c.isSupported = true) :
    (c.op = .equal ∧ c.operand ≠ .now) ∨
      ∃ relation : TimeRelation, c.op = relation.comparator ∧ c.operand = .now := by
  obtain ⟨column, op, operand⟩ := c
  cases operand with
  | now =>
    refine .inr ?_
    cases op with
    | equal | unequal => simp [Sql.Comparison.isSupported] at h
    | less => exact ⟨.before, rfl, rfl⟩
    | atMost => exact ⟨.atOrBefore, rfl, rfl⟩
    | greater => exact ⟨.after, rfl, rfl⟩
    | atLeast => exact ⟨.atOrAfter, rfl, rfl⟩
  | placeholder i | literal d =>
    refine .inl ?_
    cases op with
    | equal => simp
    | unequal | less | atMost | greater | atLeast => simp [Sql.Comparison.isSupported] at h

/-- A comparison with a fault is refused with it. -/
theorem ofComparison_of_fault {c : Sql.Comparison} {e : PlanError}
    (h : s.fault? (.compare c) = some e) : Clause.ofComparison s c = .error e := by
  obtain ⟨⟨qualifier, name⟩, op, operand⟩ := c
  cases hFilter : qualifier.filter fun q => !s.knows q with
  | some q =>
    obtain ⟨rfl, hUnknown⟩ := Option.filter_eq_some_iff.1 hFilter
    simp only [Scope.fault?, hFilter, Option.some.injEq] at h
    rw [Bool.not_eq_true'] at hUnknown
    simp only [Clause.ofComparison, Scope.resolve_of_unknown hUnknown, ← h]
    rfl
  | none =>
    have hKnown : ∀ q, qualifier = some q → s.knows q = true := fun q hq => by
      simpa using Option.filter_eq_none_iff.1 hFilter q hq
    obtain ⟨field, hField⟩ : ∃ field, s.resolve ⟨qualifier, name⟩ = .ok field :=
      Scope.resolve_of_known hKnown
    simp only [Scope.fault?, hFilter, Option.ite_none_left_eq_some, Option.some.injEq] at h
    obtain ⟨hKind, rfl⟩ := h
    -- The column is in order, so it is the kind of the comparison that is not.
    cases op <;> cases operand <;>
      simp_all [Clause.ofComparison, Sql.Comparison.isSupported, TimeRelation.ofComparator?] <;> rfl

/-- An equality on a known column becomes a clause with the operand in a slot. -/
theorem ofComparison_equal {column : Sql.Column} {operand : Sql.Operand} {field : Field}
    (hField : s.resolve column = .ok field) (hOperand : operand ≠ .now) :
    Clause.ofComparison s ⟨column, .equal, operand⟩ = .ok (.equals field (.ofOperand operand)) := by
  cases operand with
  | placeholder i | literal d => simp only [Clause.ofComparison, hField]; rfl
  | now => exact absurd rfl hOperand

/-- A relation to the current time on a known column becomes a clause without a slot. -/
theorem ofComparison_time {column : Sql.Column} {relation : TimeRelation} {field : Field}
    (hField : s.resolve column = .ok field) :
    Clause.ofComparison s ⟨column, relation.comparator, .now⟩ = .ok (.time field relation) := by
  cases relation <;> simp only [Clause.ofComparison, hField] <;> rfl

/-- A comparison is refused with its fault, and has a clause if there is none. -/
theorem ofComparison_eq_error_iff {c : Sql.Comparison} {e : PlanError} :
    Clause.ofComparison s c = .error e ↔ s.fault? (.compare c) = some e := by
  refine ⟨fun h => ?_, ofComparison_of_fault⟩
  cases hFault : s.fault? (.compare c) with
  | some e' =>
    rw [ofComparison_of_fault hFault, Except.error.injEq] at h
    rw [h]
  | none =>
    obtain ⟨hKnown, hSupported⟩ := Scope.fault?_compare_eq_none_iff.1 hFault
    obtain ⟨field, hField⟩ := Scope.resolve_of_known hKnown
    obtain ⟨column, op, operand⟩ := c
    rcases isSupported_cases hSupported with ⟨rfl, hOperand⟩ | ⟨relation, rfl, rfl⟩
    · rw [ofComparison_equal hField hOperand] at h
      cases h
    · rw [ofComparison_time hField] at h
      cases h

/-- A comparison with a clause is an equality with a value or a relation to the current time. -/
theorem ofComparison_cases {c : Sql.Comparison} {clause : Clause}
    (h : Clause.ofComparison s c = .ok clause) :
    (∃ field, s.resolve c.column = .ok field ∧ c.op = .equal ∧ c.operand ≠ .now ∧
      clause = .equals field (.ofOperand c.operand)) ∨
    ∃ field relation, s.resolve c.column = .ok field ∧ c.op = relation.comparator ∧
      c.operand = .now ∧ clause = .time field relation := by
  have hNoFault : s.fault? (.compare c) = none :=
    Option.eq_none_iff_forall_ne_some.2 fun e he => by
      rw [ofComparison_of_fault he] at h
      cases h
  obtain ⟨hKnown, hSupported⟩ := Scope.fault?_compare_eq_none_iff.1 hNoFault
  obtain ⟨field, hField⟩ := Scope.resolve_of_known hKnown
  obtain ⟨column, op, operand⟩ := c
  rcases isSupported_cases hSupported with ⟨rfl, hOperand⟩ | ⟨relation, rfl, rfl⟩
  · rw [ofComparison_equal hField hOperand, Except.ok.injEq] at h
    exact .inl ⟨field, hField, rfl, hOperand, h.symm⟩
  · rw [ofComparison_time hField, Except.ok.injEq] at h
    exact .inr ⟨field, relation, hField, rfl, rfl, h.symm⟩

private theorem exists_ok_iff {ε α : Type} {x : Except ε α} :
    (∃ a, x = .ok a) ↔ ∀ e, x ≠ .error e := by
  cases x <;> simp

/-- The first fault from the left is the one that a condition is refused with. -/
theorem clauses?_eq_error_iff {c : Sql.Condition} {e : PlanError} :
    clauses? s c = .error e ↔ c.conjuncts.findSome? s.fault? = some e := by
  induction c generalizing e with
  | compare d =>
    have hSingle :
        (Sql.Condition.compare d).conjuncts.findSome? s.fault? = s.fault? (.compare d) := by
      simp [Sql.Condition.conjuncts]
    rw [hSingle, ← ofComparison_eq_error_iff, clauses?]
    cases Clause.ofComparison s d <;> simp [bind, Except.bind, pure, Except.pure]
  | and l r ihl ihr =>
    rw [Sql.Condition.conjuncts, List.findSome?_append, clauses?_and]
    cases hFault : l.conjuncts.findSome? s.fault? with
    | some e' =>
      rw [ihl.2 hFault]
      simp [bind, Except.bind]
    | none =>
      obtain ⟨left, hLeft⟩ : ∃ left, clauses? s l = .ok left :=
        exists_ok_iff.2 fun e' h => by simp [hFault] at ihl; exact ihl h
      rw [hLeft, Option.none_or, ← ihr]
      cases clauses? s r <;> simp [bind, Except.bind, pure, Except.pure]
  | or l r => simp [clauses?, Sql.Condition.conjuncts, Scope.fault?]
  | not c => simp [clauses?, Sql.Condition.conjuncts, Scope.fault?]

/-- The conditions with clauses are those of the closed set. -/
theorem exists_clauses?_iff {c : Sql.Condition} :
    (∃ clauses, clauses? s c = .ok clauses) ↔ c.IsClosed s := by
  rw [exists_ok_iff, Sql.Condition.isClosed_iff_findSome?, Option.eq_none_iff_forall_ne_some]
  exact forall_congr' fun e => not_congr clauses?_eq_error_iff

end Plan

/-! ## What the matcher of a condition passes -/

namespace Sql

variable {s : Surroundings} {row : Row} {column : Column} {field : Field}

theorem Comparison.holds_equal_iff {operand : Operand} {d : Datum}
    (hField : s.scope.resolve column = .ok field) (hValue : operand.value? s.parameters = some d) :
    Comparison.Holds s row ⟨column, .equal, operand⟩ ↔
      ((row.field field).getD .null).sameValue d = true := by
  constructor
  · rintro ⟨hField', hValue', hSame⟩
    rw [hField, Except.ok.injEq] at hField'
    rw [hValue, Option.some.injEq] at hValue'
    rwa [hField', hValue']
  · exact .equal hField hValue

theorem Comparison.Holds.exists_moment {relation : TimeRelation}
    (h : Comparison.Holds s row ⟨column, relation.comparator, .now⟩) :
    ∃ field m, s.scope.resolve column = .ok field ∧ row.moment? field = some m ∧
      relation.holds m s.clock = true := by
  cases relation with
  | before =>
    cases h with
    | less hField hMoment hLt => exact ⟨_, _, hField, hMoment, decide_eq_true hLt⟩
  | atOrBefore =>
    cases h with
    | atMost hField hMoment hLe => exact ⟨_, _, hField, hMoment, decide_eq_true hLe⟩
  | after =>
    cases h with
    | greater hField hMoment hLt => exact ⟨_, _, hField, hMoment, decide_eq_true hLt⟩
  | atOrAfter =>
    cases h with
    | atLeast hField hMoment hLe => exact ⟨_, _, hField, hMoment, decide_eq_true hLe⟩

theorem Comparison.holds_time_iff {relation : TimeRelation}
    (hField : s.scope.resolve column = .ok field) :
    Comparison.Holds s row ⟨column, relation.comparator, .now⟩ ↔
      (row.moment? field).any (relation.holds · s.clock) = true := by
  rw [Option.any_eq_true]
  constructor
  · intro h
    obtain ⟨field', m, hField', hMoment, hRelation⟩ := h.exists_moment
    rw [hField, Except.ok.injEq] at hField'
    exact ⟨m, hField' ▸ hMoment, hRelation⟩
  · rintro ⟨m, hMoment, hRelation⟩
    cases relation with
    | before => exact .less hField hMoment (of_decide_eq_true hRelation)
    | atOrBefore => exact .atMost hField hMoment (of_decide_eq_true hRelation)
    | after => exact .greater hField hMoment (of_decide_eq_true hRelation)
    | atOrAfter => exact .atLeast hField hMoment (of_decide_eq_true hRelation)

end Sql

variable {s : Surroundings}

/-- A slot is filled with the value of its operand, if there are parameters enough. -/
theorem exists_value {parameters : List Datum} (clock : Moment) {operand : Sql.Operand}
    (hOperand : operand ≠ .now) (hNeeded : operand.needed ≤ parameters.length) :
    ∃ d, (Slot.ofOperand operand).resolve parameters clock = .ok d ∧
      operand.value? parameters = some d := by
  cases operand with
  | placeholder i =>
    have hIndex : i < parameters.length := hNeeded
    exact ⟨parameters[i], by simp [Slot.ofOperand, Slot.resolve, hIndex],
      by simp [Sql.Operand.value?, hIndex]⟩
  | literal d => exact ⟨d, rfl, rfl⟩
  | now => exact absurd rfl hOperand

/-- The test of a comparison passes the rows of which the comparison holds. -/
theorem exists_test {c : Sql.Comparison} {clause : Clause}
    (hClause : Clause.ofComparison s.scope c = .ok clause)
    (hNeeded : c.operand.needed ≤ s.parameters.length) :
    ∃ test, Test.ofClause s.parameters s.clock clause = .ok test ∧
      ∀ row, test.passes row = true ↔ c.Holds s row := by
  obtain ⟨column, op, operand⟩ := c
  rcases Plan.ofComparison_cases hClause with
    ⟨field, hField, hOp, hOperand, rfl⟩ | ⟨field, relation, hField, hOp, hNow, rfl⟩
  · obtain rfl : op = .equal := hOp
    obtain ⟨d, hSlot, hValue⟩ := exists_value s.clock hOperand hNeeded
    refine ⟨.equals field d, ?_, fun row => (Sql.Comparison.holds_equal_iff hField hValue).symm⟩
    rw [Test.ofClause, hSlot]
    rfl
  · obtain rfl : op = relation.comparator := hOp
    obtain rfl : operand = .now := hNow
    exact ⟨.time field relation s.clock, rfl,
      fun row => (Sql.Comparison.holds_time_iff hField).symm⟩

/-- The tests of a condition pass together the rows of which the condition is true. -/
theorem exists_tests {c : Sql.Condition} {clauses : List Clause}
    (hClauses : Plan.clauses? s.scope c = .ok clauses)
    (hNeeded : ∀ o ∈ c.operands, o.needed ≤ s.parameters.length) :
    ∃ tests, clauses.mapM (Test.ofClause s.parameters s.clock) = .ok tests ∧
      ∀ row, tests.all (Test.passes row) = true ↔ c.Holds s row := by
  induction c generalizing clauses with
  | compare d =>
    rw [Plan.clauses?] at hClauses
    cases hClause : Clause.ofComparison s.scope d with
    | error e => simp [hClause, bind, Except.bind] at hClauses
    | ok clause =>
      simp only [hClause, bind, Except.bind, pure, Except.pure, Except.ok.injEq] at hClauses
      have hOperand : d.operand.needed ≤ s.parameters.length :=
        hNeeded d.operand (by simp [Sql.Condition.operands])
      obtain ⟨test, hTest, hPasses⟩ := exists_test hClause hOperand
      refine ⟨[test], ?_, fun row => by simpa [Sql.Condition.Holds] using hPasses row⟩
      rw [← hClauses, List.mapM_cons, hTest]
      rfl
  | and l r ihl ihr =>
    rw [Plan.clauses?_and] at hClauses
    cases hLeft : Plan.clauses? s.scope l with
    | error e => simp [hLeft, bind, Except.bind] at hClauses
    | ok left =>
      cases hRight : Plan.clauses? s.scope r with
      | error e => simp [hLeft, hRight, bind, Except.bind] at hClauses
      | ok right =>
        simp only [hLeft, hRight, bind, Except.bind, pure, Except.pure, Except.ok.injEq] at hClauses
        rw [Sql.Condition.operands_and, List.forall_mem_append] at hNeeded
        obtain ⟨leftTests, hLeftTests, hLeftHolds⟩ := ihl hLeft hNeeded.1
        obtain ⟨rightTests, hRightTests, hRightHolds⟩ := ihr hRight hNeeded.2
        refine ⟨leftTests ++ rightTests, ?_, fun row => ?_⟩
        · rw [← hClauses, List.mapM_append, hLeftTests, hRightTests]
          rfl
        · rw [List.all_append, Bool.and_eq_true, hLeftHolds, hRightHolds,
            Sql.Condition.holds_and_iff]
  | or l r => simp [Plan.clauses?] at hClauses
  | not c => simp [Plan.clauses?] at hClauses

/-! ## The strict dialect -/

theorem ofCondition_strict (s : Scope) (c : Sql.Condition) :
    Predicate.ofCondition .strict s (some c) = (Plan.clauses? s c).map Predicate.conjunction := by
  simp only [Predicate.ofCondition]
  cases Plan.clauses? s c with
  | ok clauses => rfl
  | error e => cases e <;> rfl

/-- The strict dialect has predicates for the closed set and refuses other conditions with the first
fault from the left. The matcher of a predicate passes the rows of which the condition is true. -/
theorem strict_condition (s : Scope) (c : Sql.Condition) :
    ((∃ p, Predicate.ofCondition .strict s (some c) = .ok p) ↔ c.IsClosed s) ∧
    (∀ e, Predicate.ofCondition .strict s (some c) = .error e ↔
      c.conjuncts.findSome? s.fault? = some e) ∧
    (∀ p, Predicate.ofCondition .strict s (some c) = .ok p →
      ∀ parameters clock fallback, (∀ o ∈ c.operands, o.needed ≤ parameters.length) →
        ∃ m, Matcher.ofPredicate parameters clock fallback p = .ok m ∧
          ∀ row, m.accepts row = true ↔ c.Holds ⟨s, parameters, clock⟩ row) := by
  rw [ofCondition_strict]
  refine ⟨?_, fun e => ?_, fun p hp parameters clock fallback hNeeded => ?_⟩
  · rw [← Plan.exists_clauses?_iff]
    cases Plan.clauses? s c <;> simp [Except.map]
  · rw [← Plan.clauses?_eq_error_iff]
    cases Plan.clauses? s c <;> simp [Except.map]
  · cases hClauses : Plan.clauses? s c with
    | error e =>
      rw [hClauses] at hp
      cases hp
    | ok clauses =>
      rw [hClauses] at hp
      cases hp
      obtain ⟨tests, hTests, hHolds⟩ :=
        exists_tests (s := ⟨s, parameters, clock⟩) hClauses hNeeded
      refine ⟨.all tests, ?_, hHolds⟩
      rw [Matcher.ofPredicate, hTests]
      rfl

end RecordStore
