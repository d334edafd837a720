import RecordStore.Number.Binary64.Bits
import RecordStore.Number.Binary64.Shortest
import RecordStore.Text.Quoted

/-!
# Heads of messages

A message is a tree of values in the MessagePack format. The first byte of a value tells its kind,
and with some kinds the size of what follows. A head is a value as far as it can be told without
the values inside it: a scalar as a whole, a sequence or map only with its size.

Bytes are read from front to back and the first fault met is reported.

## Main results

- `textOf?_eq_some_iff`: a text and its bytes determine each other.
- `readBytes_length`: what is read and what is left make up the bytes.
-/

namespace RecordStore.Wire

/-- A value without the values inside it. -/
inductive Head where
  | nil
  | bool (value : Bool)
  | integer (value : Int)
  | double (value : Binary64.Pattern)
  | text (bytes : List UInt8)
  | binary (bytes : List UInt8)
  | sequence (size : Nat)
  | map (size : Nat)
  | extension

/-- What was expected of a value. -/
inductive Expected where
  | request
  | fieldName
  | string
  | modeName
  | modeIndex
  | sequence
  | scalar
  deriving DecidableEq

/-- Why bytes are no request. -/
inductive Fault where
  | malformed
  | tooDeep
  | wrongType (found : Head) (expected : Expected)
  | wrongValue (found : Head) (expected : Expected)
  | missingField (name : String)
  | duplicateField (name : String)
  | unknownMode (name : String)
  | empty

/-- The bytes of a text. -/
def bytesOf (s : String) : List UInt8 := s.toUTF8.data.toList

/-- The text that bytes encode. -/
def textOf? (bytes : List UInt8) : Option String := String.fromUTF8? ⟨bytes.toArray⟩

theorem textOf?_eq_some_iff {bytes : List UInt8} {s : String} :
    textOf? bytes = some s ↔ bytes = bytesOf s := by
  rw [textOf?, String.fromUTF8?]
  constructor
  · intro h
    split at h
    · cases h
      exact (List.toList_toArray).symm
    · cases h
  · rintro rfl
    have hBytes : (⟨(bytesOf s).toArray⟩ : ByteArray) = s.toByteArray := by
      rw [bytesOf, Array.toArray_toList]
      rfl
    have hValid : (⟨(bytesOf s).toArray⟩ : ByteArray).IsValidUTF8 := hBytes ▸ s.isValidUTF8
    rw [dif_pos hValid]
    exact congrArg some (String.toByteArray_inj.1 hBytes)

/-- How a double is shown: positionally, a whole number with `.0`. -/
def plainStyle : Binary64.Style := ⟨-400, 400, true, false⟩

namespace Head

/-- How a message speaks of a value. -/
def describe : Head → String
  | nil => "unit value"
  | bool b => s!"boolean `{b}`"
  | integer i => s!"integer `{i}`"
  | double (.finite b) => s!"floating point `{String.ofList (b.toChars plainStyle)}`"
  | double (.infinite negative) => if negative then "floating point `-inf`" else "floating point `inf`"
  | double .notANumber => "floating point `NaN`"
  | text bytes => "string " ++ String.ofList (Text.quoted ((textOf? bytes).getD "").toList)
  | binary _ => "byte array"
  | sequence _ => "sequence"
  | map _ => "map"
  | extension => "newtype struct"

/-- The number of values inside, for a value that can have some. -/
def children? : Head → Option Nat
  | sequence size => some size
  | map size => some (2 * size)
  | _ => none

end Head

def Expected.describe : Expected → String
  | request => "struct Request"
  | fieldName => "field identifier"
  | string => "a string"
  | modeName => "variant identifier"
  | modeIndex => "variant index 0 <= i < 4"
  | sequence => "a sequence"
  | scalar => "a scalar value (null, boolean, number or string)"

def Fault.message : Fault → String
  | malformed => "malformed message"
  | tooDeep => "depth limit exceeded"
  | wrongType found expected => s!"invalid type: {found.describe}, expected {expected.describe}"
  | wrongValue found expected => s!"invalid value: {found.describe}, expected {expected.describe}"
  | missingField name => s!"missing field `{name}`"
  | duplicateField name => s!"duplicate field `{name}`"
  | unknownMode name => s!"unknown variant `{name}`, expected one of `all`, `get`, `run`, `exec`"
  | empty => "invalid length 0, expected struct Request with 3 elements"

/-! ## Reading -/

/-- Exactly `count` bytes, and what follows them. -/
def readBytes (count : Nat) (bs : List UInt8) : Except Fault (List UInt8 × List UInt8) :=
  if (bs.take count).length = count then .ok (bs.take count, bs.drop count) else .error .malformed

theorem readBytes_length {count : Nat} {bs bytes rest : List UInt8}
    (h : readBytes count bs = .ok (bytes, rest)) :
    bytes.length = count ∧ bs = bytes ++ rest := by
  simp only [readBytes] at h
  split at h
  · next hLength => cases h; exact ⟨hLength, (List.take_append_drop count bs).symm⟩
  · cases h

/-- The number that bytes stand for, the highest first. -/
def natOf (bytes : List UInt8) : Nat := bytes.foldl (fun n b => n * 256 + b.toNat) 0

/-- A number of `count` bytes. -/
def readNat (count : Nat) (bs : List UInt8) : Except Fault (Nat × List UInt8) := do
  let (bytes, rest) ← readBytes count bs
  return (natOf bytes, rest)

/-- A number of `count` bytes with a sign, in two's complement. -/
def readInt (count : Nat) (bs : List UInt8) : Except Fault (Int × List UInt8) := do
  let (n, rest) ← readNat count bs
  return (if n < twos (8 * count - 1) then (n : Int) else (n : Int) - twos (8 * count), rest)

/-- A size of `count` bytes and as many bytes more. -/
def readSized (count extra : Nat) (bs : List UInt8) : Except Fault (List UInt8 × List UInt8) := do
  let (size, rest) ← readNat count bs
  readBytes (size + extra) rest

/-- The head of the value at the front. -/
def readHead : List UInt8 → Except Fault (Head × List UInt8)
  | [] => .error .malformed
  | byte :: bs => do
    let b := byte.toNat
    let text (r : List UInt8 × List UInt8) : Head × List UInt8 := (.text r.1, r.2)
    let binary (r : List UInt8 × List UInt8) : Head × List UInt8 := (.binary r.1, r.2)
    let extension (r : List UInt8 × List UInt8) : Head × List UInt8 := (.extension, r.2)
    let unsigned (r : Nat × List UInt8) : Head × List UInt8 := (.integer r.1, r.2)
    let signed (r : Int × List UInt8) : Head × List UInt8 := (.integer r.1, r.2)
    let sequence (r : Nat × List UInt8) : Head × List UInt8 := (.sequence r.1, r.2)
    let map (r : Nat × List UInt8) : Head × List UInt8 := (.map r.1, r.2)
    if b < 0x80 then return (.integer b, bs)
    else if b < 0x90 then return (.map (b - 0x80), bs)
    else if b < 0xa0 then return (.sequence (b - 0x90), bs)
    else if b < 0xc0 then return text (← readBytes (b - 0xa0) bs)
    else if 0xe0 ≤ b then return (.integer ((b : Int) - 256), bs)
    else
      match b with
      | 0xc0 => return (.nil, bs)
      | 0xc2 => return (.bool false, bs)
      | 0xc3 => return (.bool true, bs)
      | 0xc4 => return binary (← readSized 1 0 bs)
      | 0xc5 => return binary (← readSized 2 0 bs)
      | 0xc6 => return binary (← readSized 4 0 bs)
      | 0xc7 => return extension (← readSized 1 1 bs)
      | 0xc8 => return extension (← readSized 2 1 bs)
      | 0xc9 => return extension (← readSized 4 1 bs)
      | 0xca =>
        let (n, rest) ← readNat 4 bs
        return (.double (Binary64.ofShortBits n), rest)
      | 0xcb =>
        let (n, rest) ← readNat 8 bs
        return (.double (Binary64.ofBits n), rest)
      | 0xcc => return unsigned (← readNat 1 bs)
      | 0xcd => return unsigned (← readNat 2 bs)
      | 0xce => return unsigned (← readNat 4 bs)
      | 0xcf => return unsigned (← readNat 8 bs)
      | 0xd0 => return signed (← readInt 1 bs)
      | 0xd1 => return signed (← readInt 2 bs)
      | 0xd2 => return signed (← readInt 4 bs)
      | 0xd3 => return signed (← readInt 8 bs)
      | 0xd4 => return extension (← readBytes 2 bs)
      | 0xd5 => return extension (← readBytes 3 bs)
      | 0xd6 => return extension (← readBytes 5 bs)
      | 0xd7 => return extension (← readBytes 9 bs)
      | 0xd8 => return extension (← readBytes 17 bs)
      | 0xd9 => return text (← readSized 1 0 bs)
      | 0xda => return text (← readSized 2 0 bs)
      | 0xdb => return text (← readSized 4 0 bs)
      | 0xdc => return sequence (← readNat 2 bs)
      | 0xdd => return sequence (← readNat 4 bs)
      | 0xde => return map (← readNat 2 bs)
      | 0xdf => return map (← readNat 4 bs)
      | _ => throw .malformed

/-- What follows `count` values that are nested in each other at most `levels` deep. -/
def skip (levels count : Nat) (bs : List UInt8) : Except Fault (List UInt8) :=
  match count with
  | 0 => .ok bs
  | count + 1 => do
    let (head, rest) ← readHead bs
    match head.children?, levels with
    | none, levels => skip levels count rest
    | some _, 0 => throw .tooDeep
    | some inside, levels + 1 => do
      let rest ← skip levels inside rest
      skip (levels + 1) count rest
termination_by (levels, count)

@[simp] theorem skip_zero (levels : Nat) (bs : List UInt8) : skip levels 0 bs = .ok bs := by
  simp [skip]

end RecordStore.Wire
