import RecordStore.Evaluation.Matcher
import RecordStore.Plan.Support

/-!
# What conditions mean

A condition is true of a row or not, whether or not a plan can express it. Equality with a value
compares the field, null if the row has none, with the value. A relation to the current time holds
of a field that is a text with a moment in it which stands in that relation. Other comparisons hold
of no row.

## Main results

- `holds_and_iff`, `holds_or_iff`, `holds_not_iff`: connectives mean what they say.
- `holds_iff_conjuncts`: a condition holds if its conjuncts do.
-/

namespace RecordStore

open Plan (Scope)

/-- What the parts of a condition refer to. -/
structure Surroundings where
  scope : Scope
  parameters : List Datum
  clock : Moment

namespace Sql

/-- The value of an operand that has one in itself or among the parameters. -/
def Operand.value? (parameters : List Datum) : Operand → Option Datum
  | placeholder i => parameters[i]?
  | literal d => some d
  | now => none

/-- When a comparison holds of a row. -/
inductive Comparison.Holds (s : Surroundings) (row : Row) : Comparison → Prop
  | equal {column : Column} {operand : Operand} {field : Plan.Field} {d : Datum} :
    s.scope.resolve column = .ok field → operand.value? s.parameters = some d →
      ((row.field field).getD .null).sameValue d = true → Holds s row ⟨column, .equal, operand⟩
  | less {column : Column} {field : Plan.Field} {m : Moment} :
    s.scope.resolve column = .ok field → row.moment? field = some m →
      m.nanoseconds < s.clock.nanoseconds → Holds s row ⟨column, .less, .now⟩
  | atMost {column : Column} {field : Plan.Field} {m : Moment} :
    s.scope.resolve column = .ok field → row.moment? field = some m →
      m.nanoseconds ≤ s.clock.nanoseconds → Holds s row ⟨column, .atMost, .now⟩
  | greater {column : Column} {field : Plan.Field} {m : Moment} :
    s.scope.resolve column = .ok field → row.moment? field = some m →
      s.clock.nanoseconds < m.nanoseconds → Holds s row ⟨column, .greater, .now⟩
  | atLeast {column : Column} {field : Plan.Field} {m : Moment} :
    s.scope.resolve column = .ok field → row.moment? field = some m →
      s.clock.nanoseconds ≤ m.nanoseconds → Holds s row ⟨column, .atLeast, .now⟩

namespace Condition

/-- When a condition holds of a row. -/
def Holds (s : Surroundings) (row : Row) : Condition → Prop
  | compare c => c.Holds s row
  | and l r => l.Holds s row ∧ r.Holds s row
  | or l r => l.Holds s row ∨ r.Holds s row
  | not c => ¬ c.Holds s row

variable {s : Surroundings} {row : Row} {l r c : Condition}

theorem holds_and_iff : (and l r).Holds s row ↔ l.Holds s row ∧ r.Holds s row := Iff.rfl

theorem holds_or_iff : (or l r).Holds s row ↔ l.Holds s row ∨ r.Holds s row := Iff.rfl

theorem holds_not_iff : (not c).Holds s row ↔ ¬ c.Holds s row := Iff.rfl

theorem holds_iff_conjuncts : c.Holds s row ↔ ∀ part ∈ c.conjuncts, part.Holds s row := by
  induction c with
  | and l r ihl ihr =>
    rw [holds_and_iff, ihl, ihr, conjuncts]
    exact List.forall_mem_append.symm
  | compare c | or l r | not c => simp [conjuncts]

end Condition

end Sql

end RecordStore
