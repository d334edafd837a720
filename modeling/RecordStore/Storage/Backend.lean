import RecordStore.Json.Document
import RecordStore.Json.Writing
import RecordStore.Storage.FileSystem

/-!
# Where databases are kept

A backend keeps one database, and each save replaces it as a whole. Memory is one backend, a file
that holds a JSON document is another.

Saving to a file goes in steps: missing directories are made, the new document is written to a
temporary file beside the store and brought to the disk, and the temporary file takes the place of
the store. The store has its old content until the last step and its new content after it.

A backend is an interface to be carried out in some monad: the state of a pure file system, or the
real one.

## Main results

- `performAll_cons`: the first step that fails ends a save.
-/

namespace RecordStore

namespace Storage

/-- Why a database could not be loaded or saved. -/
inductive StorageError where
  | io (path : Path) (error : OsError)
  | invalidDocument (path : Path) (fault : Json.Fault)

/-- What a fault of a document is called. -/
def describeFault : Json.Fault → String
  | .ended => "unexpected end of document"
  | .malformed => "malformed document"
  | .mismatch cause => cause.message

def StorageError.message : StorageError → String
  | io path error => s!"Storage I/O error on {path.text}: {error.message}"
  | invalidDocument path fault => s!"Invalid store file {path.text}: {describeFault fault}"

/-- A place where a database is kept. -/
structure Backend (m : Type → Type) where
  ensureExists : m (Except StorageError Unit)
  load : m (Except StorageError Database)
  save : Database → m (Except StorageError Unit)
  location : String

/-- The backend carried out in another monad. -/
def Backend.map {m n : Type → Type} (f : {α : Type} → m α → n α) (b : Backend m) : Backend n :=
  ⟨f b.ensureExists, f b.load, fun db => f (b.save db), b.location⟩

/-! ## Memory -/

/-- The backend that keeps the database as a value, if one has been saved. -/
def Backend.memory : Backend (StateM (Option Database)) where
  ensureExists := do
    modify fun saved => some (saved.getD .empty)
    return .ok ()
  load := return .ok ((← get).getD .empty)
  save db := do
    set (some db)
    return .ok ()
  location := "memory"

/-! ## Files -/

/-- A step of saving to a file. -/
inductive SaveStep where
  | makeDirectories (path : Path)
  | create (path : Path)
  | write (path : Path) (content : String)
  | sync (path : Path)
  | move (source target : Path)
  deriving DecidableEq

/-- The path that the error of a step is about. -/
def SaveStep.subject : SaveStep → Path
  | makeDirectories path | create path | write path _ | sync path => path
  | move _ target => target

/-- What a backend needs of a file system. -/
structure Disk (m : Type → Type) where
  isPresent : Path → m Bool
  read : Path → m (Except OsError String)
  perform : SaveStep → m (Except OsError Unit)

/-- Carries out steps up to the first that fails. -/
def performAll {m : Type → Type} [Monad m] (disk : Disk m) :
    List SaveStep → m (Except StorageError Unit)
  | [] => return .ok ()
  | step :: steps => do
    match ← disk.perform step with
    | .ok () => performAll disk steps
    | .error e => return .error (.io step.subject e)

theorem performAll_cons {m : Type → Type} [Monad m] (disk : Disk m) (step : SaveStep)
    (steps : List SaveStep) :
    performAll disk (step :: steps) = (do
      match ← disk.perform step with
      | .ok () => performAll disk steps
      | .error e => return .error (.io step.subject e)) := rfl

/-- The content of a store file. -/
def document (layout : Json.Layout) (db : Database) : String := db.toJson layout ++ "\n"

/-- The steps that put a new content at a path. -/
def saveSteps (path : Path) (content : String) : List SaveStep :=
  (path.directory?.map SaveStep.makeDirectories).toList ++
    [.create path.temporary, .write path.temporary content, .sync path.temporary,
      .move path.temporary path]

/-- The backend that keeps the database in a file. -/
def Backend.file {m : Type → Type} [Monad m] (disk : Disk m) (path : Path)
    (layout : Json.Layout) : Backend m where
  ensureExists := do
    if ← disk.isPresent path then return .ok ()
    else performAll disk (saveSteps path (document layout .empty))
  load := do
    match ← disk.read path with
    | .error e => return .error (.io path e)
    | .ok content =>
      return (Database.ofJson content).mapError (.invalidDocument path)
  save db := performAll disk (saveSteps path (document layout db))
  location := path.text

/-! ## The pure file system -/

/-- Carries out a change that leaves the file system alone when it fails. -/
def FileSystem.attempt (change : FileSystem → Except OsError FileSystem) :
    StateM FileSystem (Except OsError Unit) := fun fs =>
  match change fs with
  | .ok fs' => (.ok (), fs')
  | .error e => (.error e, fs)

/-- Carries out a step of saving. -/
def FileSystem.perform : SaveStep → StateM FileSystem (Except OsError Unit)
  | .makeDirectories path => fun fs => fs.makeDirectories path.text.length path
  | .create path => attempt fun fs => fs.writeFile path ""
  | .write path content => attempt fun fs => fs.writeFile path content
  | .sync _ => return .ok ()
  | .move source target => attempt fun fs => fs.moveFile source target

/-- The pure file system as a disk. -/
def FileSystem.disk : Disk (StateM FileSystem) where
  isPresent path := return (← get).isPresent path
  read path := return (← get).read path
  perform := FileSystem.perform

end Storage

end RecordStore
