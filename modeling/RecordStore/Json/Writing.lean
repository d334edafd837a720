import RecordStore.Database
import RecordStore.Json.Text
import RecordStore.Number.Decimal.Conversion

/-!
# Writing JSON

Documents are written compactly, or with every item on a line of its own, indented by two blanks for
each bracket around it. Empty brackets stay together in both layouts. Decimals are written as
doubles.
-/

namespace RecordStore.Json

/-- How the items between brackets are set. -/
inductive Layout where
  | compact
  | indented
  deriving DecidableEq

/-- What precedes an item inside `depth` brackets. -/
def Layout.lineBreak (layout : Layout) (depth : Nat) : List Char :=
  match layout with
  | compact => []
  | indented => '\n' :: List.replicate (2 * depth) ' '

/-- What stands between a key and its value. -/
def Layout.colon : Layout → List Char
  | compact => [':']
  | indented => [':', ' ']

/-- Items in brackets that stand inside `depth` others. -/
def bracketed (layout : Layout) (depth : Nat) (opening closing : Char) (items : List (List Char)) :
    List Char :=
  if items.isEmpty then [opening, closing]
  else
    opening :: [','].intercalate (items.map (layout.lineBreak (depth + 1) ++ ·)) ++
      layout.lineBreak depth ++ [closing]

/-- A map of written values. -/
def writeMap (layout : Layout) (depth : Nat) (entries : List (String × List Char)) : List Char :=
  bracketed layout depth '\x7b' '\x7d'
    (entries.map fun (key, value) => writeText key ++ layout.colon ++ value)

/-- A sequence of written values. -/
def writeSequence (layout : Layout) (depth : Nat) (items : List (List Char)) : List Char :=
  bracketed layout depth '[' ']' items

/-- A field value. -/
def writeDatum : Datum → List Char
  | .null => ['n', 'u', 'l', 'l']
  | .bool true => ['t', 'r', 'u', 'e']
  | .bool false => ['f', 'a', 'l', 's', 'e']
  | .integer i => (toString i.toInt).toList
  | .decimal d =>
    match d.toBinary64? with
    | some b => b.toChars doubleStyle
    | none => writeText d.text
  | .text s => writeText s

/-- A record. -/
def writeRecord (layout : Layout) (depth : Nat) (r : Record) : List Char :=
  writeMap layout depth (r.entries.map fun (name, value) => (name, writeDatum value))

/-- Records in a sequence. -/
def writeRecords (layout : Layout) (depth : Nat) (rs : List Record) : List Char :=
  writeSequence layout depth (rs.map (writeRecord layout (depth + 1)))

/-- A database: every table in order, empty ones too. -/
def writeDatabase (layout : Layout) (db : Database) : List Char :=
  writeMap layout 0 (Table.all.map fun t => (t.name, writeRecords layout 1 (db.records t)))

end RecordStore.Json

namespace RecordStore

/-- The JSON text of a field value. -/
def Datum.toJson (d : Datum) : String := String.ofList (Json.writeDatum d)

/-- The JSON text of a database. -/
def Database.toJson (db : Database) (layout : Json.Layout) : String :=
  String.ofList (Json.writeDatabase layout db)

end RecordStore
