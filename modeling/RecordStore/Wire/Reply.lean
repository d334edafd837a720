import RecordStore.Number.Decimal.Conversion
import RecordStore.Session
import RecordStore.Wire.Head

/-!
# Replies

A reply is the outcome of a request with its statistics, or a message that says what went wrong. It
is written in the shortest forms of the MessagePack format: a number or a size stands in the marker
itself if it is small, and otherwise behind the first marker that has room for it.

## Main results

- `length_bigEndian`: a number takes the bytes it is given.
-/

namespace RecordStore.Wire

/-- What a client is told. -/
inductive Reply where
  | result (output : Output) (stats : Stats)
  | error (message : String)

/-- The bytes of a number, the highest first. -/
def bigEndian : Nat → Nat → List UInt8
  | 0, _ => []
  | count + 1, n => bigEndian count (n / 256) ++ [UInt8.ofNat (n % 256)]

@[simp] theorem length_bigEndian (count n : Nat) : (bigEndian count n).length = count := by
  induction count generalizing n with
  | zero => rfl
  | succ count ih => simp [bigEndian, ih]

/-- A number behind the first of some markers whose bytes have room for it, or else the last. -/
def marked (n : Nat) : List (UInt8 × Nat) → List UInt8
  | [] => []
  | [(marker, count)] => marker :: bigEndian count n
  | (marker, count) :: next :: markers =>
    if n < twos (8 * count) then marker :: bigEndian count n else marked n (next :: markers)

/-- A number that is part of its marker if it is below a limit, and behind a marker otherwise. -/
def packed (base limit : Nat) (markers : List (UInt8 × Nat)) (n : Nat) : List UInt8 :=
  if n < limit then [UInt8.ofNat (base + n)] else marked n markers

/-- A number from zero up. -/
def writeNat (n : Nat) : List UInt8 :=
  packed 0 0x80 [(0xcc, 1), (0xcd, 2), (0xce, 4), (0xcf, 8)] n

/-- The largest number that is counted to. -/
def maxCount : Nat := twos 64 - 1

/-- How many there are of something. -/
def writeCount (n : Nat) : List UInt8 := writeNat (min n maxCount)

/-- A number below zero in `count` bytes. -/
def complement (count : Nat) (i : Int) : List UInt8 :=
  bigEndian count (i + twos (8 * count)).toNat

/-- An integer. -/
def writeInt (i : Int) : List UInt8 :=
  if 0 ≤ i then writeNat i.toNat
  else if -0x20 ≤ i then complement 1 i
  else if -0x80 ≤ i then 0xd0 :: complement 1 i
  else if -0x8000 ≤ i then 0xd1 :: complement 2 i
  else if -0x80000000 ≤ i then 0xd2 :: complement 4 i
  else 0xd3 :: complement 8 i

/-- A text. -/
def writeText (s : String) : List UInt8 :=
  packed 0xa0 0x20 [(0xd9, 1), (0xda, 2), (0xdb, 4)] (bytesOf s).length ++ bytesOf s

/-- A double. -/
def writeDouble (b : Binary64) : List UInt8 := 0xcb :: bigEndian 8 b.bits

/-- Written values in a sequence. -/
def writeSequence (items : List (List UInt8)) : List UInt8 :=
  packed 0x90 0x10 [(0xdc, 2), (0xdd, 4)] items.length ++ items.flatten

/-- Written values with their keys. -/
def writeMap (entries : List (String × List UInt8)) : List UInt8 :=
  packed 0x80 0x10 [(0xde, 2), (0xdf, 4)] entries.length ++
    entries.flatMap fun entry => writeText entry.1 ++ entry.2

/-- A field value. A decimal is written as a double. -/
def writeDatum : Datum → List UInt8
  | .null => [0xc0]
  | .bool false => [0xc2]
  | .bool true => [0xc3]
  | .integer i => writeInt i.toInt
  | .decimal d =>
    match d.toBinary64? with
    | some b => writeDouble b
    | none => writeText d.text
  | .text s => writeText s

/-- A record. -/
def writeRecord (r : Record) : List UInt8 :=
  writeMap (r.entries.map fun entry => (entry.1, writeDatum entry.2))

/-- An output. -/
def writeOutput : Output → List UInt8
  | .rows rs => writeSequence (rs.map writeRecord)
  | .row none => [0xc0]
  | .row (some r) => writeRecord r
  | .affected n => writeCount n

/-- Statistics. Time is not measured. -/
def writeStats (s : Stats) : List UInt8 :=
  writeMap [("rows_scanned", writeCount s.scanned), ("inserted_count", writeCount s.inserted),
    ("updated_count", writeCount s.updated), ("deleted_count", writeCount s.deleted),
    ("returned_count", writeCount s.returned), ("duration_ms", writeCount 0)]

/-- The bytes of a reply. -/
def Reply.toBytes : Reply → List UInt8
  | result output stats => writeMap [("result", writeOutput output), ("stats", writeStats stats)]
  | error message => writeMap [("error", writeText message)]

end RecordStore.Wire
