import RecordStore.CommandLine.Arguments

/-!
# Carrying out a command line

A command opens the store file, does its work and saves what is pending before its output is shown.
Success ends with code 0, a failure with code 1 and its message, and a command line that cannot be
read with code 2.
-/

namespace RecordStore.CommandLine

open Storage (Backend Disk)

/-- How the program ends. -/
structure Exit where
  code : Nat
  output : String
  error : String
  deriving DecidableEq, Repr

/-- The line that `--version` shows. -/
def versionLine : String := "crowdstore 0.0.1\n"

/-- The text that `--help` shows. -/
def helpText : String :=
  "An embedded SQL-shaped record store persisted to a single JSON file.\n\n" ++
  "Usage: crowdstore <COMMAND>\n\n" ++
  "Commands:\n" ++
  "  init     Create an empty store file if none exists\n" ++
  "  query    Execute one statement and print its result as JSON\n" ++
  "  exec     Execute a script; only DELETE FROM statements take effect\n" ++
  "  explain  Print the plan of a statement without executing it\n" ++
  "  start    Start the server\n" ++
  "  help     Print this message or the help of the given subcommand(s)\n"

/-- How the program ends when the command line is not carried out. -/
def UsageError.exit : UsageError → Exit
  | help => ⟨0, helpText, ""⟩
  | version => ⟨0, versionLine, ""⟩
  | nothingGiven => ⟨2, "", helpText⟩
  | unknownVerb => ⟨2, "", "error: unrecognized subcommand\n"⟩
  | unknownArgument => ⟨2, "", "error: unexpected argument\n"⟩
  | missingArgument => ⟨2, "", "error: a required argument was not provided\n"⟩
  | invalidValue => ⟨2, "", "error: invalid value for an argument\n"⟩
  | tooManyValues => ⟨2, "", "error: unexpected value for an argument\n"⟩
  | argumentConflict => ⟨2, "", "error: an argument cannot be used multiple times\n"⟩

namespace Settings

def layout (s : Settings) : Json.Layout := if s.compact then .compact else .indented

def dialect (s : Settings) : Dialect := if s.lenient then .lenient else .strict

def writeMode (s : Settings) : WriteMode := if s.deferred then .deferred else .through

variable {m : Type → Type} [Monad m]

/-- The store file. -/
def backend (disk : Disk m) (s : Settings) : Backend m := .file disk ⟨s.database⟩ s.layout

/-- Opens the store file. -/
def openStore (disk : Disk m) (s : Settings) : ExceptT SessionError m Session :=
  ExceptT.mk do
    return (← (Session.start (s.backend disk) s.writeMode s.dialect).run).mapError .storage

/-- Does some work in a new session and saves what is pending. -/
def inSession {α : Type} (disk : Disk m) (s : Settings) (work : Backend m → Session.Call m α) :
    ExceptT SessionError m α := do
  let session ← s.openStore disk
  let b := s.backend disk
  let call : Session.Call m α := do
    let a ← work b
    Session.flush b
    return a
  ExceptT.mk (Prod.fst <$> call.run.run session)

end Settings

variable {m : Type → Type} [Monad m]

/-- Carries out what the command line asks for and returns what is to be shown. Listening for
connections is left to the outer layer, so `start` only opens the store here. -/
def Invocation.perform (disk : Disk m) (clock : m Moment) :
    Invocation → ExceptT SessionError m String
  | init s => s.inSession disk fun b => return b.location ++ "\n"
  | query s mode statement parameters => do
    let now ← ExceptT.lift clock
    s.inSession disk fun b => do
      let (output, _) ← Session.dispatch b mode statement parameters now
      return output.toJson .indented ++ "\n"
  | exec s script => s.inSession disk fun b => do
    return s!"{← Session.exec b script}\n"
  | explain s statement => s.inSession disk fun _ => do
    return (← Session.compile statement).explain.text
  | start s _ => s.inSession disk fun _ => return ""

/-- How the program ends after its work. -/
def exitOf : Except SessionError String → Exit
  | .ok output => ⟨0, output, ""⟩
  | .error e => ⟨1, "", s!"Error: {e.message}\n"⟩

/-- Carries out a command line. -/
def execute (disk : Disk m) (clock : m Moment) (environment : String → Option String)
    (args : List String) : m Exit :=
  match read environment args with
  | .error e => return e.exit
  | .ok invocation => exitOf <$> (invocation.perform disk clock).run

end RecordStore.CommandLine
