import RecordStore.Database
import RecordStore.Json.Head
import RecordStore.Number.Decimal.Conversion

/-!
# Reading the store document

A store document is a map from table names to sequences of records, and a record is a map from field
names to scalars. Tables that are not named are empty; a table named twice or a name that is no
table's is a fault as soon as the name has been read. Of a field named twice the last value counts.
In place of the map a sequence of tables in their order may stand, of which the last may be missing.

A number that is no 64-bit integer is kept as a decimal, and one too large for that as the text of
its digits.

## Main results

- `readDatum_length`, `readRecord_length`, `readRecords_length`: what follows a part of the document
  is shorter than the text that starts with it.
-/

namespace RecordStore.Json

/-! ## Scalars -/

/-- How a number is written out whose double no decimal can hold: all digits, without a point. -/
def plainStyle : Binary64.Style := ⟨-400, 400, false, false⟩

/-- The value of a number. -/
def Number.datum : Number → Datum
  | unsigned n =>
    if n ≤ Int64.maxValue.toInt.toNat then .integer (Int64.ofNat n)
    else match Decimal.ofNat? n with
      | some d => .decimal d
      | none => .null
  | signed i => .integer (Int64.ofInt i)
  | double b =>
    match Decimal.ofBinary64? b with
    | some d => .decimal d
    | none => .text (String.ofList (b.toChars plainStyle))

/-- The value of a scalar. -/
def Scalar.datum : Scalar → Datum
  | null => .null
  | bool b => .bool b
  | number n => n.datum
  | text s => .text s

/-- Reads a field value. -/
def readDatum (cs : List Char) : Except Fault (Datum × List Char) :=
  match readHead cs with
  | .error fault => .error fault
  | .ok (.scalar s, rest) => .ok (s.datum, rest)
  | .ok (head, _) => .error (head.misplaced .scalar)

theorem readDatum_length {cs rest : List Char} {d : Datum} (h : readDatum cs = .ok (d, rest)) :
    rest.length < cs.length := by
  unfold readDatum at h
  split at h
  · cases h
  · next hHead => cases h; exact readHead_length hHead
  · cases h

/-! ## Records -/

/-- Reads a key of a map with the colon and the value after it. -/
def readMember (first : Bool) (cs : List Char) :
    Except Fault (Option (String × Datum) × List Char) :=
  match nextKey first cs with
  | .error fault => .error fault
  | .ok (none, rest) => .ok (none, rest)
  | .ok (some key, rest) =>
    match readColon rest with
    | .error fault => .error fault
    | .ok rest => (readDatum rest).map fun (value, rest) => (some (key, value), rest)

theorem readMember_length {first : Bool} {cs rest : List Char} {m : Option (String × Datum)}
    (h : readMember first cs = .ok (m, rest)) : rest.length < cs.length := by
  unfold readMember at h
  split at h
  · cases h
  · next hKey => cases h; exact nextKey_length hKey
  · next hKey =>
    have h₁ := nextKey_length hKey
    split at h
    · cases h
    · next hColon =>
      have h₂ := readColon_length hColon
      cases hValue : readDatum _ with
      | error fault => rw [hValue] at h; cases h
      | ok p =>
        rw [hValue] at h
        cases h
        have := readDatum_length hValue
        omega

/-- Reads the members of a map into a record, up to the closing brace. -/
def readMembers (first : Bool) (r : Record) (cs : List Char) : Except Fault (Record × List Char) :=
  match h : readMember first cs with
  | .error fault => .error fault
  | .ok (none, rest) => .ok (r, rest)
  | .ok (some (key, value), rest) =>
    have : rest.length < cs.length := readMember_length h
    readMembers false (r.insert key value) rest
termination_by cs.length

theorem readMembers_length (first : Bool) (r : Record) (cs : List Char) :
    ∀ {r' : Record} {rest : List Char},
      readMembers first r cs = .ok (r', rest) → rest.length < cs.length := by
  fun_induction readMembers first r cs with
  | case1 => intro r' rest h; cases h
  | case2 first r cs rest hMember => intro r' rest h; cases h; exact readMember_length hMember
  | case3 first r cs key value rest hMember hLt ih =>
    intro r' rest h
    exact Nat.lt_trans (ih h) hLt

/-- Reads a record. -/
def readRecord (cs : List Char) : Except Fault (Record × List Char) :=
  match readHead cs with
  | .error fault => .error fault
  | .ok (.map, rest) => readMembers true .empty rest
  | .ok (head, _) => .error (head.misplaced .map)

theorem readRecord_length {cs rest : List Char} {r : Record} (h : readRecord cs = .ok (r, rest)) :
    rest.length < cs.length := by
  unfold readRecord at h
  split at h
  · cases h
  · next hHead => exact Nat.lt_trans (readMembers_length _ _ _ h) (readHead_length hHead)
  · cases h

/-! ## Tables -/

/-- Reads the next record of a sequence, if there is one. -/
def readElement (first : Bool) (cs : List Char) : Except Fault (Option Record × List Char) :=
  match nextElement first cs with
  | .error fault => .error fault
  | .ok (false, rest) => .ok (none, rest)
  | .ok (true, rest) => (readRecord rest).map fun (r, rest) => (some r, rest)

theorem readElement_length {first : Bool} {cs rest : List Char} {r : Record}
    (h : readElement first cs = .ok (some r, rest)) : rest.length < cs.length := by
  unfold readElement at h
  split at h
  · cases h
  · cases h
  · next hElement =>
    have h₁ := nextElement_length hElement
    cases hRecord : readRecord _ with
    | error fault => rw [hRecord] at h; cases h
    | ok p =>
      rw [hRecord] at h
      cases h
      have := readRecord_length hRecord
      omega

/-- Reads the records of a sequence, up to the closing bracket. -/
def readElements (first : Bool) (cs : List Char) : Except Fault (List Record × List Char) :=
  match h : readElement first cs with
  | .error fault => .error fault
  | .ok (none, rest) => .ok ([], rest)
  | .ok (some r, rest) =>
    have : rest.length < cs.length := readElement_length h
    (readElements false rest).map fun (rs, rest) => (r :: rs, rest)
termination_by cs.length

theorem readElements_length (first : Bool) (cs : List Char) :
    ∀ {rs : List Record} {rest : List Char},
      readElements first cs = .ok (rs, rest) → rest.length ≤ cs.length := by
  fun_induction readElements first cs with
  | case1 => intro rs rest h; cases h
  | case2 first cs rest hElement =>
    intro rs rest h
    cases h
    unfold readElement at hElement
    split at hElement
    · cases hElement
    · next hNext => cases hElement; exact nextElement_length hNext
    · cases hRecord : readRecord _ with
      | error fault => rw [hRecord] at hElement; cases hElement
      | ok p => rw [hRecord] at hElement; cases hElement
  | case3 first cs r rest hElement hLt ih =>
    intro rs rest' h
    cases hTail : readElements false rest with
    | error fault => rw [hTail] at h; cases h
    | ok p =>
      rw [hTail] at h
      cases h
      exact Nat.le_of_lt (Nat.lt_of_le_of_lt (ih hTail) hLt)

/-- Reads the records of a table. -/
def readRecords (cs : List Char) : Except Fault (List Record × List Char) :=
  match readHead cs with
  | .error fault => .error fault
  | .ok (.sequence, rest) => readElements true rest
  | .ok (head, _) => .error (head.misplaced .sequence)

theorem readRecords_length {cs rest : List Char} {rs : List Record}
    (h : readRecords cs = .ok (rs, rest)) : rest.length < cs.length := by
  unfold readRecords at h
  split at h
  · cases h
  · next hHead => exact Nat.lt_of_le_of_lt (readElements_length _ _ h) (readHead_length hHead)
  · cases h

/-! ## Databases -/

/-- The table a key names, unless it is none's name or has been read before. -/
def readTableKey (seen : List Table) (key : String) : Except Fault Table :=
  match Table.ofExactName? key with
  | none => .error (.mismatch (.unknownField key (Table.all.map Table.name)))
  | some t =>
    if t ∈ seen then .error (.mismatch (.duplicateField t.name)) else .ok t

/-- Reads the next table of a map with its name, if there is one. -/
def readTable (first : Bool) (seen : List Table) (cs : List Char) :
    Except Fault (Option (Table × List Record) × List Char) :=
  match nextKey first cs with
  | .error fault => .error fault
  | .ok (none, rest) => .ok (none, rest)
  | .ok (some key, rest) =>
    match readTableKey seen key with
    | .error fault => .error fault
    | .ok t =>
      match readColon rest with
      | .error fault => .error fault
      | .ok rest => (readRecords rest).map fun (rs, rest) => (some (t, rs), rest)

theorem readTable_length {first : Bool} {seen : List Table} {cs rest : List Char}
    {t : Option (Table × List Record)} (h : readTable first seen cs = .ok (t, rest)) :
    rest.length < cs.length := by
  unfold readTable at h
  split at h
  · cases h
  · next hKey => cases h; exact nextKey_length hKey
  · next hKey =>
    have h₁ := nextKey_length hKey
    split at h
    · cases h
    · split at h
      · cases h
      · next hColon =>
        have h₂ := readColon_length hColon
        cases hRecords : readRecords _ with
        | error fault => rw [hRecords] at h; cases h
        | ok p =>
          rw [hRecords] at h
          cases h
          have := readRecords_length hRecords
          omega

/-- Reads the tables of a map into a database, up to the closing brace. -/
def readTables (first : Bool) (seen : List Table) (db : Database) (cs : List Char) :
    Except Fault (Database × List Char) :=
  match h : readTable first seen cs with
  | .error fault => .error fault
  | .ok (none, rest) => .ok (db, rest)
  | .ok (some (t, rs), rest) =>
    have : rest.length < cs.length := readTable_length h
    readTables false (t :: seen) (db.withRecords t rs) rest
termination_by cs.length

/-- Reads tables by their position in a sequence, up to the closing bracket. -/
def readPositions (first : Bool) (db : Database) :
    List Table → List Char → Except Fault (Database × List Char)
  | [], cs =>
    match skipBlanks cs with
    | [] => .error .ended
    | c :: rest => if c = ']' then .ok (db, rest) else .error .malformed
  | t :: ts, cs =>
    match nextElement first cs with
    | .error fault => .error fault
    | .ok (false, rest) => .ok (db, rest)
    | .ok (true, rest) =>
      match readRecords rest with
      | .error fault => .error fault
      | .ok (rs, rest) => readPositions false (db.withRecords t rs) ts rest

/-- Reads a database. -/
def readDatabase (cs : List Char) : Except Fault (Database × List Char) :=
  match readHead cs with
  | .error fault => .error fault
  | .ok (.map, rest) => readTables true [] .empty rest
  | .ok (.sequence, rest) => readPositions true .empty Table.all rest
  | .ok (head, _) => .error (head.misplaced .database)

/-! ## Whole texts -/

/-- A value that takes up a whole text. -/
def whole {α : Type} (result : Except Fault (α × List Char)) : Except Fault α :=
  match result with
  | .error fault => .error fault
  | .ok (a, rest) => if (skipBlanks rest).isEmpty then .ok a else .error .malformed

end RecordStore.Json

namespace RecordStore

/-- The field value that a JSON text holds. -/
def Datum.ofJson (s : String) : Except Json.Fault Datum := Json.whole (Json.readDatum s.toList)

/-- The database that a JSON text holds. -/
def Database.ofJson (s : String) : Except Json.Fault Database :=
  Json.whole (Json.readDatabase s.toList)

end RecordStore
