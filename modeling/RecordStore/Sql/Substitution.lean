import RecordStore.Sql.Statement

/-!
# Values in place of placeholders

A statement may be given the values of its placeholders before it is carried out or together with
its parameters. Here every placeholder is replaced by the value with its number, as a literal; one
whose number is beyond the values stays what it is.

## Main results

- `Condition.operands_substitute`, `Statement.operands_substitute`: the operands are replaced where
  they stand.
- `Statement.placeholderCount_substitute`: with values enough no placeholder is left.
-/

namespace RecordStore.Sql

/-- The operand with the value of a placeholder in its place. -/
def Operand.substitute (values : List Datum) : Operand → Operand
  | placeholder i => (values[i]?).elim (placeholder i) literal
  | literal d => literal d
  | now => now

theorem Operand.needed_substitute {values : List Datum} {o : Operand}
    (h : o.needed ≤ values.length) : (o.substitute values).needed = 0 := by
  cases o with
  | placeholder i =>
    have hValue : values[i]? = some values[i] := List.getElem?_eq_getElem h
    simp [substitute, hValue, needed]
  | literal d => rfl
  | now => rfl

def Comparison.substitute (values : List Datum) (c : Comparison) : Comparison :=
  { c with operand := c.operand.substitute values }

def Assignment.substitute (values : List Datum) (a : Assignment) : Assignment :=
  { a with value := a.value.substitute values }

/-- The condition with values in place of its placeholders. -/
def Condition.substitute (values : List Datum) : Condition → Condition
  | compare c => compare (c.substitute values)
  | and l r => and (l.substitute values) (r.substitute values)
  | or l r => or (l.substitute values) (r.substitute values)
  | not c => not (c.substitute values)

theorem Condition.operands_substitute (values : List Datum) (c : Condition) :
    (c.substitute values).operands = c.operands.map (Operand.substitute values) := by
  induction c with
  | compare c => rfl
  | and l r ihl ihr | or l r ihl ihr => simp [substitute, operands, ihl, ihr]
  | not c ih => simpa [substitute, operands] using ih

namespace Statement

/-- The statement with values in place of its placeholders. -/
def substitute (values : List Datum) : Statement → Statement
  | insert table columns operands => insert table columns (operands.map (Operand.substitute values))
  | update table assignments condition =>
    update table (assignments.map (Assignment.substitute values))
      (condition.map (Condition.substitute values))
  | delete table condition => delete table (condition.map (Condition.substitute values))
  | select q => select { q with condition := q.condition.map (Condition.substitute values) }

private theorem operands_substitute_elim (values : List Datum) (condition : Option Condition) :
    (condition.map (Condition.substitute values)).elim [] Condition.operands =
      (condition.elim [] Condition.operands).map (Operand.substitute values) := by
  cases condition with
  | none => rfl
  | some c => exact c.operands_substitute values

theorem operands_substitute (values : List Datum) (s : Statement) :
    (s.substitute values).operands = s.operands.map (Operand.substitute values) := by
  cases s with
  | insert table columns operands => rfl
  | update table assignments condition =>
    simp only [substitute, operands, operands_substitute_elim, List.map_append, List.map_map]
    rfl
  | delete table condition => exact operands_substitute_elim values condition
  | select q => exact operands_substitute_elim values q.condition

private theorem le_foldl_max {ns : List Nat} {n start : Nat} :
    (∀ m ∈ ns, m ≤ n) ∧ start ≤ n ↔ ns.foldl max start ≤ n := by
  induction ns generalizing start with
  | nil => simp
  | cons m ns ih =>
    rw [List.foldl_cons, ← ih, List.forall_mem_cons, Nat.max_le]
    exact ⟨fun ⟨⟨hm, hns⟩, hs⟩ => ⟨hns, hs, hm⟩, fun ⟨hns, hs, hm⟩ => ⟨⟨hm, hns⟩, hs⟩⟩

/-- Values are enough if they are for every operand. -/
theorem placeholderCount_le_iff {s : Statement} {n : Nat} :
    s.placeholderCount ≤ n ↔ ∀ o ∈ s.operands, o.needed ≤ n := by
  rw [placeholderCount, ← le_foldl_max]
  simp

theorem placeholderCount_substitute {s : Statement} {values : List Datum}
    (h : s.placeholderCount ≤ values.length) : (s.substitute values).placeholderCount = 0 := by
  rw [← Nat.le_zero, placeholderCount_le_iff, operands_substitute]
  intro filled hFilled
  obtain ⟨o, hMem, rfl⟩ := List.mem_map.1 hFilled
  exact Nat.le_of_eq (Operand.needed_substitute (placeholderCount_le_iff.1 h o hMem))

end Statement

end RecordStore.Sql
