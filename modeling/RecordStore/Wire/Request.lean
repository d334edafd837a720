import RecordStore.Json.Document
import RecordStore.Session
import RecordStore.Wire.Head

/-!
# Requests

A request is a map with the fields `statement`, `mode` and `params`, of which only the first has to
be there. Other fields are passed over. In place of the map a sequence of the fields in their order
may stand. What follows a request is not looked at.

A field may be named by its position and a mode by its position among the modes, and a binary value
that is text serves as one where a text is asked for.
-/

namespace RecordStore.Wire

/-- A statement to be carried out for a client. -/
structure Request where
  statement : String
  mode : Mode := .all
  parameters : List Datum := []
  deriving DecidableEq

/-- The fields of a request. -/
inductive Field where
  | statement
  | mode
  | parameters
  deriving DecidableEq

namespace Field

def all : List Field := [statement, mode, parameters]

def name : Field → String
  | statement => "statement"
  | mode => "mode"
  | parameters => "params"

end Field

/-- How deep values may be nested inside a request. -/
def maxLevels : Nat := 1022

/-! ## Values -/

/-- The value of a double; what is no decimal is kept as text. -/
def datumOfDouble : Binary64.Pattern → Datum
  | .finite b => (Json.Number.double b).datum
  | .infinite negative => .text (if negative then "-inf" else "inf")
  | .notANumber => .text "NaN"

/-- What has been found, or else a fault. -/
def orFault {α : Type} (fault : Fault) : Option α → Except Fault α
  | some a => .ok a
  | none => .error fault

/-- Reads a value that is known by its head. -/
def readSingle {α : Type} (ofHead : Head → Except Fault α) (bs : List UInt8) :
    Except Fault (α × List UInt8) := do
  let (head, rest) ← readHead bs
  return (← ofHead head, rest)

/-- The parameter that a value is. -/
def datumOf : Head → Except Fault Datum
  | .nil => .ok .null
  | .bool b => .ok (.bool b)
  | .integer i =>
    .ok (if 0 ≤ i then Json.Number.unsigned i.toNat else Json.Number.signed i).datum
  | .double p => .ok (datumOfDouble p)
  | .text bytes => (orFault .malformed (textOf? bytes)).map .text
  | head => .error (.wrongType head .scalar)

/-- Reads a parameter. -/
def readDatum (bs : List UInt8) : Except Fault (Datum × List UInt8) := readSingle datumOf bs

/-- Reads `count` parameters. -/
def readData : Nat → List UInt8 → Except Fault (List Datum × List UInt8)
  | 0, bs => .ok ([], bs)
  | count + 1, bs => do
    let (d, rest) ← readDatum bs
    let (ds, rest) ← readData count rest
    return (d :: ds, rest)

/-- Reads the parameters. -/
def readParameters (bs : List UInt8) : Except Fault (List Datum × List UInt8) := do
  let (head, rest) ← readHead bs
  match head with
  | .sequence size => readData size rest
  | head => throw (.wrongType head .sequence)

/-- The statement that a value is. -/
def statementOf (head : Head) : Except Fault String :=
  match head with
  | .text bytes => orFault .malformed (textOf? bytes)
  | .binary bytes => orFault (.wrongValue head .string) (textOf? bytes)
  | head => .error (.wrongType head .string)

/-- Reads the statement. -/
def readStatement (bs : List UInt8) : Except Fault (String × List UInt8) :=
  readSingle statementOf bs

/-- The mode that a value names. -/
def modeOf (head : Head) : Except Fault Mode :=
  match head with
  | .integer i =>
    if i < 0 then .error (.wrongType head .modeName)
    else orFault (.wrongValue head .modeIndex) Mode.every[i.toNat]?
  | .text bytes => do
    let name ← orFault .malformed (textOf? bytes)
    orFault (.unknownMode name) (Mode.ofName? name)
  | .binary bytes =>
    let name := (textOf? bytes).getD "\ufffd"
    orFault (.unknownMode name) (Mode.ofName? name)
  | head => .error (.wrongType head .modeName)

/-- What stands for nothing. -/
def nothingOf : Head → Except Fault Unit
  | .nil => .ok ()
  | _ => .error .malformed

/-- Reads a mode that is wrapped together with nothing. -/
def readWrappedMode (bs : List UInt8) : Except Fault (Mode × List UInt8) := do
  let (mode, rest) ← readSingle modeOf bs
  let ((), rest) ← readSingle nothingOf rest
  return (mode, rest)

/-- Reads a mode; it may be wrapped as the only key of a map to nothing. -/
def readMode (bs : List UInt8) : Except Fault (Mode × List UInt8) := do
  let (head, rest) ← readHead bs
  match head with
  | .sequence size | .map size => if size = 1 then readWrappedMode rest else throw .malformed
  | _ => readSingle modeOf bs

/-! ## Fields -/

/-- The fields read so far. -/
structure Fields where
  statement : Option String := none
  mode : Option Mode := none
  parameters : Option (List Datum) := none

/-- Whether a field has been read. -/
def Fields.has (fs : Fields) : Field → Bool
  | .statement => fs.statement.isSome
  | .mode => fs.mode.isSome
  | .parameters => fs.parameters.isSome

/-- Reads the value of a field. -/
def Fields.readValue (fs : Fields) (field : Field) (bs : List UInt8) :
    Except Fault (Fields × List UInt8) := do
  if fs.has field then throw (.duplicateField field.name)
  match field with
  | .statement =>
    let (s, rest) ← readStatement bs
    return ({ fs with statement := some s }, rest)
  | .mode =>
    let (mode, rest) ← readMode bs
    return ({ fs with mode := some mode }, rest)
  | .parameters =>
    let (ds, rest) ← readParameters bs
    return ({ fs with parameters := some ds }, rest)

/-- The field that a key names, if it is one of a request's. -/
def fieldOf (head : Head) : Except Fault (Option Field) :=
  match head with
  | .text bytes | .binary bytes => .ok (Field.all.find? fun field => bytesOf field.name == bytes)
  | .integer i =>
    if i < 0 then .error (.wrongType head .fieldName) else .ok Field.all[i.toNat]?
  | head => .error (.wrongType head .fieldName)

/-- Reads `count` keys with their values. -/
def Fields.readEntries : Nat → Fields → List UInt8 → Except Fault (Fields × List UInt8)
  | 0, fs, bs => .ok (fs, bs)
  | count + 1, fs, bs => do
    let (named, rest) ← readSingle fieldOf bs
    match named with
    | some field =>
      let (fs, rest) ← fs.readValue field rest
      readEntries count fs rest
    | none => readEntries count fs (← skip maxLevels 1 rest)

/-- The request of its fields. -/
def Request.ofFields (fs : Fields) : Except Fault Request :=
  match fs.statement with
  | none => .error (.missingField "statement")
  | some statement => .ok ⟨statement, fs.mode.getD .all, fs.parameters.getD []⟩

/-- Reads fields that stand in a sequence. -/
def Fields.readSequence (fs : Fields) (size : Nat) (bs : List UInt8) : Except Fault Fields := do
  let (fs, _) ← (Field.all.take size).foldlM (fun (fs, bs) field => fs.readValue field bs) (fs, bs)
  return fs

/-- Reads a request. -/
def Request.ofBytes (bs : List UInt8) : Except Fault Request := do
  let (head, rest) ← readHead bs
  match head with
  | .map size =>
    let (fs, _) ← Fields.readEntries size {} rest
    Request.ofFields fs
  | .sequence size =>
    if size = 0 then throw .empty
    let fs ← Fields.readSequence {} size rest
    if 3 < size then throw .malformed
    Request.ofFields fs
  | .text bytes => throw (if (textOf? bytes).isSome then .wrongType head .request else .malformed)
  | head => throw (.wrongType head .request)

end RecordStore.Wire
