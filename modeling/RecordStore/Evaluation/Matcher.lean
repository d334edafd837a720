import RecordStore.Row
import RecordStore.Time.Moment

/-!
# Which rows a plan is about

Before a plan is carried out its slots are filled from the parameters and the current time. A
predicate becomes a matcher, which tells for each row whether it passes and cannot fail.

A missing field counts as null where it is compared with a value. It has no relation to the current
time, and neither has a field that is not a text with a moment in it.

## Main results

- `resolve_eq_ok_iff`: a slot is filled unless it is a parameter beyond those given.
- `accepts_all_nil`, `accepts_all_cons`: a row passes when it passes all tests.
-/

namespace RecordStore

/-- Why a plan is not carried out. -/
inductive EvalError where
  | parameterCount (expected got : Nat)
  | notAQuery
  deriving DecidableEq, Repr

def EvalError.message : EvalError → String
  | parameterCount expected got => s!"Statement expects {expected} parameters, got {got}"
  | notAQuery => "Statement does not return rows; use run instead"

namespace Plan

/-- The value that a slot is filled with. -/
def Slot.resolve (parameters : List Datum) (clock : Moment) : Slot → Except EvalError Datum
  | parameter i =>
    match parameters[i]? with
    | some d => .ok d
    | none => .error (.parameterCount (i + 1) parameters.length)
  | literal d => .ok d
  | now => .ok (.text clock.stamp)

/-- Whether a slot can be filled from a number of parameters. -/
def Slot.Fits (count : Nat) : Slot → Prop
  | parameter i => i < count
  | _ => True

theorem Slot.resolve_eq_ok_iff {parameters : List Datum} {clock : Moment} {slot : Slot} :
    (∃ d, slot.resolve parameters clock = .ok d) ↔ slot.Fits parameters.length := by
  cases slot with
  | parameter i =>
    by_cases h : i < parameters.length
    · simp [resolve, Fits, h]
    · simp [resolve, Fits, h]
  | literal d => simp [resolve, Fits]
  | now => simp [resolve, Fits]

/-- Whether a moment stands in a relation to the current time. -/
def TimeRelation.holds (m clock : Moment) : TimeRelation → Bool
  | before => m.nanoseconds < clock.nanoseconds
  | atOrBefore => m.nanoseconds ≤ clock.nanoseconds
  | after => clock.nanoseconds < m.nanoseconds
  | atOrAfter => clock.nanoseconds ≤ m.nanoseconds

end Plan

open Plan (Field TimeRelation Clause Predicate)

/-- A clause with its slot filled. -/
inductive Test where
  | equals (field : Field) (value : Datum)
  | time (field : Field) (relation : TimeRelation) (clock : Moment)

/-- The moment that a field holds. -/
def Row.moment? (row : Row) (field : Field) : Option Moment :=
  ((row.field field).bind Datum.asText?).bind Moment.read?

/-- Whether a row passes a test. -/
def Test.passes (row : Row) : Test → Bool
  | equals field value => ((row.field field).getD .null).sameValue value
  | time field relation clock => (row.moment? field).any (relation.holds · clock)

/-- The test of a clause. -/
def Test.ofClause (parameters : List Datum) (clock : Moment) : Clause → Except EvalError Test
  | .equals field value => do return equals field (← value.resolve parameters clock)
  | .time field relation => .ok (time field relation clock)

/-- What an unsupported condition counts as. -/
inductive Fallback where
  | nothing
  | everything
  deriving DecidableEq, Repr

/-- A predicate with its slots filled. -/
inductive Matcher where
  | constant (answer : Bool)
  | all (tests : List Test)

namespace Matcher

/-- Whether a row passes. -/
def accepts : Matcher → Row → Bool
  | constant answer, _ => answer
  | all tests, row => tests.all (Test.passes row)

/-- Whether a record on its own passes. -/
def acceptsRecord (m : Matcher) (r : Record) : Bool := m.accepts (.single r)

/-- The matcher of a predicate. -/
def ofPredicate (parameters : List Datum) (clock : Moment) (fallback : Fallback) :
    Predicate → Except EvalError Matcher
  | .always => .ok (constant true)
  | .unsupported _ => .ok (constant (fallback = .everything))
  | .conjunction clauses => do
    return all (← clauses.mapM (Test.ofClause parameters clock))

theorem accepts_all_nil (row : Row) : (all []).accepts row = true := rfl

theorem accepts_all_cons (test : Test) (tests : List Test) (row : Row) :
    (all (test :: tests)).accepts row = (test.passes row && (all tests).accepts row) := rfl

end Matcher

end RecordStore
