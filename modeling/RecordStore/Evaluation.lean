import RecordStore.Evaluation.Command

/-!
# Carrying out plans

A plan is carried out with a list of parameters at a certain time: its slots are filled, which gives
a command, and the command is run. Only the first of these steps can fail, so a failed evaluation
leaves the database as it was.

A condition that is not supported holds for no record that would be changed, and for every row of a
query.

## Main results

- `evaluate_of_command`: evaluation is running the command.
- `evaluate_of_error`: without a command the database stays as it is.
-/

namespace RecordStore

namespace Plan

/-- Fields with their slots filled. -/
def resolveFields (parameters : List Datum) (clock : Moment) (fields : List (String × Slot)) :
    Except EvalError (List (String × Datum)) :=
  fields.mapM fun field => do return (field.1, ← field.2.resolve parameters clock)

/-- The command of an action. -/
def Action.command (parameters : List Datum) (clock : Moment) :
    Action → Except EvalError Command
  | insert table fields => do
    return .insert table (Record.created (← resolveFields parameters clock fields) clock)
  | update table assignments predicate => do
    let fields ← resolveFields parameters clock assignments
    return .update table (← Matcher.ofPredicate parameters clock .nothing predicate) fields clock
  | delete table predicate => do
    return .delete table (← Matcher.ofPredicate parameters clock .nothing predicate)
  | select s => do
    return .select s (← Matcher.ofPredicate parameters clock .everything s.predicate)
  | unrecognized _ => .ok .nothing

/-- The command of a plan, for as many parameters as it asks for. -/
def command (p : Plan) (parameters : List Datum) (clock : Moment) : Except EvalError Command :=
  if parameters.length = p.parameterCount then p.action.command parameters clock
  else .error (.parameterCount p.parameterCount parameters.length)

/-- What carrying out a plan yields, and the database after it. -/
def evaluate (p : Plan) (parameters : List Datum) (clock : Moment) (db : Database) :
    Except EvalError Outcome × Database :=
  match p.command parameters clock with
  | .ok c => (.ok (c.run db).1, (c.run db).2)
  | .error e => (.error e, db)

theorem evaluate_of_command {p : Plan} {parameters : List Datum} {clock : Moment} {c : Command}
    (h : p.command parameters clock = .ok c) (db : Database) :
    p.evaluate parameters clock db = (.ok (c.run db).1, (c.run db).2) := by simp [evaluate, h]

theorem evaluate_of_error {p : Plan} {parameters : List Datum} {clock : Moment} {e : EvalError}
    (h : p.command parameters clock = .error e) (db : Database) :
    p.evaluate parameters clock db = (.error e, db) := by simp [evaluate, h]

end Plan

end RecordStore
