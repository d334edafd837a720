import RecordStore.Plan

/-!
# Explaining plans

An explanation lists what a plan does, the last step first: each step works on what the one below it
yields. It is shown with each step indented further than the one above it.
-/

namespace RecordStore

namespace Plan

def Side.display : Side → String
  | base => "base"
  | joined => "joined"

def Field.display (f : Field) : String := s!"{f.side.display}.{f.name}"

/-- A slot as explanations show it; parameters count from one. -/
def Slot.display : Slot → String
  | parameter i => s!"${i + 1}"
  | literal d => d.display
  | now => "now"

def Clause.display : Clause → String
  | equals field value => s!"{field.display} = {value.display}"
  | time field relation => s!"{field.display} {relation.comparator.symbol} now"

def Item.display : Item → String
  | everything => "*"
  | allOf side => s!"{side.display}.*"
  | field f => f.display

/-- Fields with the slots they are set from. -/
def displayFields (fields : List (String × Slot)) : String :=
  ", ".intercalate (fields.map fun (name, slot) => s!"{name} <- {slot.display}")

/-- One step of an explanation. -/
structure Step where
  operation : String
  properties : List (String × String)
  deriving DecidableEq, Repr

/-- What a plan does, the last step first. -/
structure Explanation where
  steps : List Step
  parameterCount : Nat
  deriving DecidableEq, Repr

/-- The step that reads a table. -/
def scanStep (table : Table) : Step := ⟨"TableScan", [("table", table.name)]⟩

/-- The step that a predicate is, unless all rows pass. -/
def Predicate.steps : Predicate → List Step
  | always => []
  | conjunction clauses =>
    [⟨"Filter", [("predicate", " AND ".intercalate (clauses.map Clause.display))]⟩]
  | unsupported condition => [⟨"Filter", [("unsupported", condition.display)]⟩]

/-- The step that returns the items of each row. -/
def projectStep (items : List Item) : Step :=
  ⟨"Project", [("columns", ", ".intercalate (items.map Item.display))]⟩

def limitStep (limit : Nat) : Step := ⟨"Limit", [("count", toString limit)]⟩

def SortKey.step (key : SortKey) : Step :=
  ⟨"Sort", [("field", key.field.display), ("direction", if key.ascending then "ASC" else "DESC")]⟩

def Join.step (join : Join) : Step :=
  ⟨"Join",
    [("table", join.table.name), ("on", s!"base.{join.baseKey} = joined.{join.joinedKey}")]⟩

/-- The steps of a query. -/
def Selection.steps (s : Selection) : List Step :=
  projectStep s.items :: (s.limit.map limitStep).toList ++ (s.sort.map SortKey.step).toList ++
    s.predicate.steps ++ (s.join.map Join.step).toList ++ [scanStep s.table]

/-- The steps of an action. -/
def Action.steps : Action → List Step
  | insert table fields =>
    [⟨"Insert", [("table", table.name), ("fields", displayFields fields)]⟩]
  | update table assignments predicate =>
    ⟨"Update", [("set", displayFields assignments)]⟩ :: predicate.steps ++ [scanStep table]
  | delete table predicate => ⟨"Delete", []⟩ :: predicate.steps ++ [scanStep table]
  | select s => s.steps
  | unrecognized reason => [⟨"NoOp", [("reason", reason.message)]⟩]

/-- The explanation of a plan. -/
def explain (p : Plan) : Explanation := ⟨p.action.steps, p.parameterCount⟩

/-- Two blanks for each level. -/
def indent (depth : Nat) : String := String.ofList (List.replicate (2 * depth) ' ')

/-- The lines that show a step. -/
def Step.lines (step : Step) (depth : Nat) : List String :=
  (indent depth ++ step.operation) ::
    step.properties.map fun (key, value) => s!"{indent (depth + 1)}{key}: {value}"

/-- The lines that show an explanation. -/
def Explanation.lines (e : Explanation) : List String :=
  "Query Plan:" :: s!"Parameters: {e.parameterCount}" :: String.ofList (List.replicate 80 '-') ::
    e.steps.zipIdx.flatMap fun (step, depth) => step.lines depth

/-- An explanation as a text, each line ended. -/
def Explanation.text (e : Explanation) : String := String.join (e.lines.map (· ++ "\n"))

end Plan

end RecordStore
