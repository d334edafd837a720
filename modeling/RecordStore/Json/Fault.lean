import RecordStore.Number.Binary64.Shortest
import RecordStore.Text.Quoted

/-!
# What can be wrong with a JSON text

A text is read from front to back and the first fault met is reported. It ends too early, or it is
not JSON, or it is JSON so far and holds something that does not belong there. Only the last kind
has a message of its own, since it alone says something about the document.
-/

namespace RecordStore.Json

/-- How a double is written in JSON: positionally from `0.00001` up to sixteen digits before the
point, a whole number with `.0`, and otherwise as a signed power of ten. -/
def doubleStyle : Binary64.Style := ⟨-4, 16, true, true⟩

/-- What stands where something else was expected. -/
inductive Found where
  | null
  | bool (value : Bool)
  | integer (value : Int)
  | double (value : Binary64)
  | text (value : String)
  | sequence
  | map

/-- What was expected. -/
inductive Expected where
  | database
  | sequence
  | map
  | scalar

/-- Why a well-formed part of a document does not belong there. -/
inductive Mismatch where
  | wrongType (found : Found) (expected : Expected)
  | unknownField (name : String) (known : List String)
  | duplicateField (name : String)

/-- The first fault of a JSON text. -/
inductive Fault where
  | ended
  | malformed
  | mismatch (cause : Mismatch)

namespace Found

def describe : Found → String
  | null => "null"
  | bool b => s!"boolean `{b}`"
  | integer i => s!"integer `{i}`"
  | double b => s!"floating point `{String.ofList (b.toChars doubleStyle)}`"
  | text s => s!"string {String.ofList (Text.quoted s.toList)}"
  | sequence => "sequence"
  | map => "map"

end Found

namespace Expected

def describe : Expected → String
  | database => "struct Database"
  | sequence => "a sequence"
  | map => "a map"
  | scalar => "a scalar value (null, boolean, number or string)"

end Expected

namespace Mismatch

/-- Names in backquotes with commas between them. -/
def listed (names : List String) : String :=
  ", ".intercalate (names.map fun name => s!"`{name}`")

def message : Mismatch → String
  | wrongType found expected => s!"invalid type: {found.describe}, expected {expected.describe}"
  | unknownField name known => s!"unknown field `{name}`, expected one of {listed known}"
  | duplicateField name => s!"duplicate field `{name}`"

end Mismatch

end RecordStore.Json
