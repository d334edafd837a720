/-!
# Paths

The way to a file is a text of names with slashes between them. It starts at the root if it begins
with a slash and at the working directory otherwise. Repeated slashes, slashes at the end and single
dots name nothing, except that a single dot may be the first name of a path. Following a path is
stricter about dots: what a dot stands behind has to be a directory.

The temporary file of a path is the one beside it whose name has `.tmp` added.

## Main results

- `intercalate_pieces`: the pieces of a path with slashes between them are its text.
-/

namespace RecordStore.Storage

/-- The way to a file. -/
structure Path where
  text : String
  deriving DecidableEq

namespace Path

/-- What stands between the slashes of a path. -/
def pieces (p : Path) : List (List Char) := p.text.toList.splitOn '/'

theorem pieces_ne_nil (p : Path) : p.pieces ≠ [] := List.splitOn_ne_nil _ _

theorem intercalate_pieces (p : Path) : ['/'].intercalate p.pieces = p.text.toList :=
  List.intercalate_splitOn '/'

/-- Whether a piece names nothing. -/
def isIdle (piece : List Char) : Bool := piece.isEmpty || piece == ['.']

/-- Pieces without those at the end that name nothing; the first stays. -/
def trimmed : List (List Char) → List (List Char)
  | [] => []
  | first :: rest => first :: (rest.reverse.dropWhile isIdle).reverse

/-- The path of pieces; a single empty piece is the root. -/
def ofPieces (pieces : List (List Char)) : Path :=
  if pieces = [[]] then ⟨"/"⟩ else ⟨String.ofList (['/'].intercalate pieces)⟩

/-- The path without its last name; the root and the empty path have none. -/
def parent? (p : Path) : Option Path :=
  let pieces := trimmed p.pieces
  if pieces = [[]] then none else some (ofPieces (trimmed pieces.dropLast))

/-- The last name of a path. -/
def fileName? (p : Path) : Option String :=
  match (trimmed p.pieces).getLast? with
  | none => none
  | some name =>
    if isIdle name || name == ['.', '.'] then none else some (String.ofList name)

/-- The path of a name in a directory. -/
def child (p : Path) (name : String) : Path :=
  if p.text.isEmpty || p.text.toList.getLast? == some '/' then ⟨p.text ++ name⟩
  else ⟨s!"{p.text}/{name}"⟩

/-- The path with its last name replaced; one that has none gets one. -/
def withFileName (p : Path) (name : String) : Path :=
  match p.fileName?, p.parent? with
  | some _, some parent => parent.child name
  | _, _ => p.child name

/-- The file that a new version is written to before it takes the place of the old one. -/
def temporary (p : Path) : Path :=
  p.withFileName (p.fileName?.getD "database.json" ++ ".tmp")

/-- The directory that has to be there before a file can be written. -/
def directory? (p : Path) : Option Path := p.parent?.filter fun parent => !parent.text.isEmpty

/-- Whether a path starts at the root. -/
def isAbsolute (p : Path) : Bool := p.text.toList.head? == some '/'

/-- The names of a path, among them `.` for the directory itself and `..` for the one above. -/
def names (p : Path) : List String :=
  (p.pieces.filter fun piece => !piece.isEmpty).map String.ofList

/-- Whether a path can only be that of a directory. -/
def saysDirectory (p : Path) : Bool := p.pieces.getLast?.any isIdle

/-- Whether the last part of a path is a name and not a dot or two. -/
def endsInName (p : Path) : Bool := p.names.getLast?.any fun name => name != "." && name != ".."

example : (Path.mk "a//b/./c.json/").parent? = some ⟨"a//b"⟩ := by decide +kernel
example : (Path.mk "/a").parent? = some ⟨"/"⟩ := by decide +kernel
example : (Path.mk "./database.json").temporary = ⟨"./database.json.tmp"⟩ := by decide +kernel
example : (Path.mk "..").temporary = ⟨"../database.json.tmp"⟩ := by decide +kernel

end Path

end RecordStore.Storage
