import RecordStore.Storage.OsError
import RecordStore.Storage.Path

/-!
# File systems

A file system maps locations to files and directories. There are no links, neither hard nor symbolic:
a location has content of its own, and what is written or removed there is written or removed nowhere
else. A path is followed name by name, and each name but the last has to be that of a directory; a dot
stays where it is and two dots lead to the directory above. Operations fail with the errors of the
operating system, and a failed one changes nothing, except that making several directories keeps those
made before the one that failed.

## Main results

- `node?_put`, `node?_remove`: setting or removing a node changes that location only.
- `node?_root`: the root is a directory.
-/

namespace RecordStore.Storage

/-- Where something is: the names from the root down. -/
abbrev Location := List String

/-- What is at a location. -/
inductive Node where
  | directory
  | file (content : String)
  deriving DecidableEq

/-- Files and directories without links, and the directory where relative paths start. -/
structure FileSystem where
  nodes : List (Location × Node)
  current : Location

namespace FileSystem

/-- The file system that holds nothing but the root. -/
def empty : FileSystem := ⟨[], []⟩

/-- What is at a location; the root is always there. -/
def node? (fs : FileSystem) (location : Location) : Option Node :=
  if location = [] then some .directory else fs.nodes.lookup location

/-- The file system without what is at a location. -/
def remove (fs : FileSystem) (location : Location) : FileSystem :=
  { fs with nodes := fs.nodes.filter fun entry => entry.1 != location }

/-- The file system with a node at a location. -/
def put (fs : FileSystem) (location : Location) (node : Node) : FileSystem :=
  { fs with nodes := (location, node) :: (fs.remove location).nodes }

@[simp] theorem node?_root (fs : FileSystem) : fs.node? [] = some .directory := by simp [node?]

private theorem lookup_filter_ne (nodes : List (Location × Node)) (location other : Location) :
    (nodes.filter fun entry => entry.1 != location).lookup other =
      if other = location then none else nodes.lookup other := by
  induction nodes with
  | nil => simp
  | cons entry rest ih =>
    obtain ⟨key, node⟩ := entry
    by_cases hKey : key = location
    · subst hKey
      rw [List.filter_cons_of_neg (by simp), ih]
      by_cases hOther : other = key
      · simp [hOther]
      · simp [hOther, List.lookup_cons, beq_eq_false_iff_ne.2 hOther]
    · rw [List.filter_cons_of_pos (by simpa using hKey), List.lookup_cons, List.lookup_cons, ih]
      by_cases hOther : other = key
      · subst hOther; simp [hKey]
      · simp [beq_eq_false_iff_ne.2 hOther]

theorem node?_remove (fs : FileSystem) {location : Location} (h : location ≠ [])
    (other : Location) :
    (fs.remove location).node? other = if other = location then none else fs.node? other := by
  by_cases hRoot : other = []
  · subst hRoot; simp [Ne.symm h]
  · simp [node?, hRoot, remove, lookup_filter_ne]

theorem node?_put (fs : FileSystem) {location : Location} (h : location ≠ []) (node : Node)
    (other : Location) :
    (fs.put location node).node? other = if other = location then some node else fs.node? other := by
  by_cases hRoot : other = []
  · subst hRoot; simp [Ne.symm h]
  · simp only [node?, hRoot, if_false, put, remove, List.lookup_cons, lookup_filter_ne]
    by_cases hOther : other = location
    · simp [hOther]
    · simp [hOther, beq_eq_false_iff_ne.2 hOther]

/-! ## Following paths -/

/-- The longest name, in bytes. -/
def maxName : Nat := 255

/-- The longest path, in bytes. -/
def maxPath : Nat := 4095

/-- Where names lead from a location. The last name need not be there. -/
def walk (fs : FileSystem) : Location → List String → Except OsError Location
  | here, [] => .ok here
  | here, name :: names =>
    match fs.node? here with
    | none => .error .notFound
    | some (.file _) => .error .notDirectory
    | some .directory =>
      if maxName < name.utf8ByteSize then .error .nameTooLong
      else if name = "." then walk fs here names
      else if name = ".." then walk fs here.dropLast names
      else walk fs (here ++ [name]) names

/-- Where a path leads. A path that cannot be right whatever the files are is refused unfollowed. -/
def locate (fs : FileSystem) (p : Path) : Except OsError Location :=
  if p.text.toList.contains '\x00' then .error .invalidName
  else if p.text.isEmpty then .error .notFound
  else if maxPath < p.text.utf8ByteSize then .error .nameTooLong
  else fs.walk (if p.isAbsolute then [] else fs.current) p.names

/-- What is at the end of a path. -/
def status (fs : FileSystem) (p : Path) : Except OsError Node := do
  match fs.node? (← fs.locate p) with
  | none => throw .notFound
  | some .directory => return .directory
  | some (.file content) => if p.saysDirectory then throw .notDirectory else return .file content

/-- Whether there is something at the end of a path. -/
def isPresent (fs : FileSystem) (p : Path) : Bool := (fs.status p).isOk

/-- Whether there is a directory at the end of a path. -/
def isDirectory (fs : FileSystem) (p : Path) : Bool :=
  match fs.status p with
  | .ok .directory => true
  | _ => false

/-- The content of a file. -/
def read (fs : FileSystem) (p : Path) : Except OsError String := do
  match ← fs.status p with
  | .directory => throw .isDirectory
  | .file content => return content

/-! ## Changes -/

/-- Makes a directory. -/
def makeDirectory (fs : FileSystem) (p : Path) : Except OsError FileSystem := do
  let location ← fs.locate p
  if (fs.node? location).isSome then throw .alreadyExists
  else return fs.put location .directory

/-- Makes a directory and those above it that are missing, at most `levels` of them, and keeps the
ones it made when it fails. -/
def makeDirectories : Nat → FileSystem → Path → Except OsError Unit × FileSystem
  | levels, fs, p =>
    match fs.makeDirectory p, levels, p.directory? with
    | .ok fs, _, _ => (.ok (), fs)
    | .error .notFound, levels + 1, some parent =>
      match makeDirectories levels fs parent with
      | (.error e, fs) => (.error e, fs)
      | (.ok (), fs) =>
        match fs.makeDirectory p with
        | .ok fs => (.ok (), fs)
        | .error e => (if fs.isDirectory p then .ok () else .error e, fs)
    | .error e, _, _ => (if fs.isDirectory p then .ok () else .error e, fs)

/-- Puts a file with some content at a path, in place of a file that is there. -/
def writeFile (fs : FileSystem) (p : Path) (content : String) : Except OsError FileSystem := do
  let location ← fs.locate p
  if p.saysDirectory || fs.node? location == some .directory then throw .isDirectory
  else return fs.put location (.file content)

/-- Moves a file to a path, in place of a file that is there. -/
def moveFile (fs : FileSystem) (source target : Path) : Except OsError FileSystem := do
  let fromLocation ← fs.locate source
  let toLocation ← fs.locate target
  if !source.endsInName || !target.endsInName then throw .busy
  else
    match fs.node? fromLocation with
    | none => throw .notFound
    | some .directory => throw .isDirectory
    | some (.file content) =>
      if source.saysDirectory || target.saysDirectory then throw .notDirectory
      else if fs.node? toLocation == some .directory then throw .isDirectory
      else return (fs.remove fromLocation).put toLocation (.file content)

/-- Removes a file, or a directory with nothing in it that is called by its name. -/
def removeNode (fs : FileSystem) (p : Path) : Except OsError FileSystem := do
  let location ← fs.locate p
  match ← fs.status p with
  | .file _ => return fs.remove location
  | .directory =>
    if !p.endsInName then throw .busy
    else if fs.nodes.any fun entry => location.isPrefixOf entry.1 && entry.1 != location then
      throw .notEmpty
    else return fs.remove location

end FileSystem

end RecordStore.Storage
