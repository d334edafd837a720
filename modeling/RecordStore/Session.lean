import RecordStore.Evaluation
import RecordStore.Plan.Explanation
import RecordStore.Plan.Compilation
import RecordStore.Sql.Script
import RecordStore.Storage.Backend

/-!
# Sessions

A session works on the database of a backend. The database is loaded when it is first needed and
kept from then on. What changes it marks it as pending, and in the write-through mode saves it at
once; in the deferred mode that is left to `flush`. A save that fails leaves the changed database in
the session, still pending.

The time at which a statement is carried out is an argument, so a session has no clock of its own.

## Main results

- `Mode.ofName?_name`: a mode is found by its name.
- `run_get`, `run_modify`, `run_bind`: how the parts of a call act on the session.
- `run_of_query`: running a query does nothing.
- `query_of_mutation`: a mutation asked for rows is refused before anything happens.
- `flush_of_not_pending`: nothing is saved unless something is pending.
-/

namespace RecordStore

open Storage (Backend StorageError)

/-- When changes reach the backend. -/
inductive WriteMode where
  | through
  | deferred
  deriving DecidableEq, Repr

/-- Why a call on a session failed. -/
inductive SessionError where
  | compile (error : CompileError)
  | eval (error : EvalError)
  | storage (error : StorageError)

def CompileError.message : CompileError → String
  | parse e => s!"Parse error: {e.message}"
  | plan e => s!"Plan error: {e.message}"

def SessionError.message : SessionError → String
  | compile e => e.message
  | eval e => s!"Evaluation error: {e.message}"
  | storage e => s!"Storage error: {e.message}"

/-- How the outcome of a statement is reported. -/
inductive Mode where
  | all
  | get
  | run
  | exec
  deriving DecidableEq, Repr

namespace Mode

/-- Every mode, in the order in which they are listed and numbered. -/
def every : List Mode := [all, get, run, exec]

def name : Mode → String
  | all => "all"
  | get => "get"
  | run => "run"
  | exec => "exec"

/-- The mode of a name. -/
def ofName? (name : String) : Option Mode := every.find? fun mode => mode.name == name

theorem ofName?_name (mode : Mode) : ofName? mode.name = some mode := by cases mode <;> decide

end Mode

/-- The outcome of a statement as a mode reports it. -/
inductive Output where
  | rows (records : List Record)
  | row (record : Option Record)
  | affected (count : Nat)
  deriving DecidableEq

/-- What a session knows between calls. -/
structure Session where
  cache : Option Database
  pending : Bool
  writeMode : WriteMode
  dialect : Dialect

namespace Session

/-- Something that is done in a session. The session keeps what it has learnt when it fails. -/
abbrev Call (m : Type → Type) := ExceptT SessionError (StateT Session m)

variable {m : Type → Type} [Monad m]

/-- A session on a backend, in which a database is put if there is none. -/
def start (b : Backend m) (writeMode : WriteMode) (dialect : Dialect) :
    ExceptT StorageError m Session := do
  ExceptT.mk b.ensureExists
  return ⟨none, false, writeMode, dialect⟩

/-- Something done with the backend. -/
def withBackend {α : Type} (action : m (Except StorageError α)) : Call m α := do
  match ← (liftM action : Call m (Except StorageError α)) with
  | .ok a => return a
  | .error e => throw (.storage e)

theorem run_get [LawfulMonad m] (s : Session) :
    (get : Call m Session).run.run s = pure (.ok s, s) := by
  show (Except.ok <$> (get : StateT Session m Session)).run s = _
  simp

theorem run_modify [LawfulMonad m] (f : Session → Session) (s : Session) :
    (modify f : Call m PUnit).run.run s = pure (.ok ⟨⟩, f s) := by
  show (Except.ok <$> (modify f : StateT Session m PUnit)).run s = _
  simp

theorem run_bind [LawfulMonad m] {α β : Type} (x : Call m α) (f : α → Call m β) (s : Session) :
    (x >>= f).run.run s = x.run.run s >>= fun p =>
      match p with
      | (.ok a, s) => (f a).run.run s
      | (.error e, s) => pure (.error e, s) := by
  rw [ExceptT.run_bind, StateT.run_bind]
  refine bind_congr fun p => ?_
  obtain ⟨_ | _, _⟩ := p <;> rfl

/-- The plan of a text in the dialect of the session. -/
def compile (text : String) : Call m Plan := do
  match Plan.ofText (← get).dialect text with
  | .ok p => return p
  | .error e => throw (.compile e)

/-! ## The database -/

/-- The database, loaded if that has not been done. -/
def database (b : Backend m) : Call m Database := do
  match (← get).cache with
  | some db => return db
  | none =>
    let db ← withBackend b.load
    modify fun s => { s with cache := some db }
    return db

/-- Saves what is pending. -/
def flush (b : Backend m) : Call m Unit := do
  let s ← get
  if s.pending then
    match s.cache with
    | some db => withBackend (b.save db)
    | none => pure ()
    modify fun s => { s with pending := false }

/-- Takes over a changed database, and saves it if changes are written through. -/
def commit (b : Backend m) (db : Database) : Call m Unit := do
  modify fun s => { s with cache := some db, pending := true }
  match (← get).writeMode with
  | .through => flush b
  | .deferred => return ()

/-! ## Statements -/

/-- Carries out a plan. -/
def evaluate (b : Backend m) (p : Plan) (parameters : List Datum) (clock : Moment) :
    Call m Outcome := do
  let db ← database b
  match p.evaluate parameters clock db with
  | (.error e, _) => throw (.eval e)
  | (.ok outcome, db) =>
    if p.isMutation then commit b db
    return outcome

/-- Carries out a mutation. Other plans are passed over. -/
def run (b : Backend m) (p : Plan) (parameters : List Datum) (clock : Moment) : Call m Stats :=
  if p.isMutation then do return (← evaluate b p parameters clock).stats else return {}

/-- Carries out a query. A plan that does nothing has no rows, and a mutation is refused. -/
def query (b : Backend m) (p : Plan) (parameters : List Datum) (clock : Moment) :
    Call m Outcome :=
  if p.isUnrecognized then return {}
  else if p.isQuery then evaluate b p parameters clock
  else throw (.eval .notAQuery)

theorem run_of_query (b : Backend m) {p : Plan} (h : p.isMutation = false)
    (parameters : List Datum) (clock : Moment) :
    run b p parameters clock = pure {} := by simp [run, h]

theorem query_of_mutation (b : Backend m) {p : Plan} (h : p.isMutation = true)
    (parameters : List Datum) (clock : Moment) :
    query b p parameters clock = throw (.eval .notAQuery) := by
  obtain ⟨action, count⟩ := p
  cases action <;> simp_all [query, Plan.isMutation, Plan.isUnrecognized, Plan.isQuery]

theorem flush_of_not_pending [LawfulMonad m] (b : Backend m) {s : Session}
    (h : s.pending = false) : (flush b).run.run s = pure (.ok (), s) := by
  rw [flush, run_bind, run_get, pure_bind]
  simp only [h, Bool.false_eq_true, if_false]
  rfl

/-! ## Scripts -/

/-- The table that a piece of a script clears, if it is a deletion. -/
def clearedTable? (piece : String) : Option Table :=
  match Sql.Statement.ofText piece with
  | .ok (.delete table _) => some table
  | _ => none

/-- The tables that a script clears. -/
def clearedTables (script : String) : List Table := (Sql.split script).filterMap clearedTable?

/-- Clears every table that a script deletes from, whatever its conditions say, and passes over all
other statements. Returns the number of records that are gone. -/
def exec (b : Backend m) (script : String) : Call m Nat := do
  let db ← database b
  let tables := clearedTables script
  commit b (tables.foldl Database.clear db)
  return db.clearedCount tables

/-! ## Modes -/

/-- Carries out a text in a mode. -/
def dispatch (b : Backend m) (mode : Mode) (text : String) (parameters : List Datum)
    (clock : Moment) : Call m (Output × Stats) := do
  match mode with
  | .exec =>
    let removed ← exec b text
    return (.affected removed, { deleted := removed })
  | .run =>
    let stats ← run b (← compile text) parameters clock
    return (.affected stats.affected, stats)
  | .get =>
    let outcome ← query b (← compile text) parameters clock
    return (.row outcome.rows.head?, outcome.stats)
  | .all =>
    let outcome ← query b (← compile text) parameters clock
    return (.rows outcome.rows, outcome.stats)

end Session

/-- The JSON text of an output. -/
def Output.toJson (layout : Json.Layout) : Output → String
  | rows rs => String.ofList (Json.writeRecords layout 0 rs)
  | row none => "null"
  | row (some r) => String.ofList (Json.writeRecord layout 0 r)
  | affected n => toString n

end RecordStore
