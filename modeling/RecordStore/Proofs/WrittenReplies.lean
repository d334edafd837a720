import Mathlib.Data.List.Forall2
import RecordStore.Proofs.MessageValues

/-!
# What replies say

A reply is a map. That of a request which was carried out has its output under `result` and the
counters under `stats`, that of any other has a text under `error`. `Reply.value` says so as a value.

A number, a text or a size is written in the shortest of its forms, a double always in full. All
sizes inside a reply are smaller than the reply, so one whose length fits into four bytes has no size
that does not, and is written whole. No other bytes for it are much shorter, since each value takes a
byte at least.

## Main results

- `Holds.length_text_le`: a text takes its bytes.
- `writes_int`, `writes_text`, `writes_double`: what is written for values without parts.
- `writes_sequence`, `writes_map`: written values put together.
- `Reply.writes_toBytes`: the bytes of a reply are what it says.
-/

namespace RecordStore.Wire

/-! ## Replies as values -/

def textValue (s : String) : Value := .text (bytesOf s)

/-- How many there are of something, as far as is counted. -/
def countValue (n : Nat) : Value := .integer (min n maxCount : Nat)

/-- A field value. A decimal is given as its double, or as its text if it has none. -/
def datumValue : Datum → Value
  | .null => .nil
  | .bool b => .bool b
  | .integer i => .integer i.toInt
  | .decimal d => (d.toBinary64?).elim (textValue d.text) fun b => .double (.finite b)
  | .text s => textValue s

def recordValue (r : Record) : Value :=
  .map (r.entries.map fun entry => (textValue entry.1, datumValue entry.2))

def outputValue : Output → Value
  | .rows rs => .sequence (rs.map recordValue)
  | .row r => r.elim .nil recordValue
  | .affected n => countValue n

def statsValue (s : Stats) : Value :=
  .map [(textValue "rows_scanned", countValue s.scanned),
    (textValue "inserted_count", countValue s.inserted),
    (textValue "updated_count", countValue s.updated),
    (textValue "deleted_count", countValue s.deleted),
    (textValue "returned_count", countValue s.returned), (textValue "duration_ms", countValue 0)]

/-- What a reply says. -/
def Reply.value : Reply → Value
  | .result output stats =>
    .map [(textValue "result", outputValue output), (textValue "stats", statsValue stats)]
  | .error message => .map [(textValue "error", textValue message)]

/-! ## Sizes -/

variable {bs rest : List UInt8} {v : Value} {vs : List Value}

theorem Head.Form.length_pos {h : Head} {form : List UInt8} (hForm : h.Form form) :
    0 < form.length := by
  cases hForm <;> exact Nat.succ_pos _

/-- A form of a text has a marker and the text. -/
theorem Head.Form.length_text {bytes form : List UInt8} (hForm : (Head.text bytes).Form form) :
    bytes.length < form.length := by
  cases hForm with
  | shortText => exact Nat.lt_succ_self _
  | text =>
    simp only [List.cons_append, List.length_cons, List.length_append]
    omega

/-- A value is another or stands inside it, however deep. -/
inductive Value.Reaches (w : Value) : Value → Prop
  | self : Reaches w w
  | inside {v u : Value} : u ∈ v.inside → Reaches w u → Reaches w v

/-- A text takes its bytes wherever it stands. -/
theorem Holds.length_text_le {bytes : List UInt8} (h : Holds bs vs rest) (hMem : v ∈ vs)
    (hReaches : (Value.text bytes).Reaches v) : bytes.length ≤ bs.length := by
  induction h generalizing v with
  | nil => cases hMem
  | cons hForm _ ih =>
    rw [List.length_append]
    rcases List.mem_cons.1 hMem with rfl | hMem
    · cases hReaches with
      | self =>
        have hLength := hForm.length_text
        omega
      | inside hInside hDeeper =>
        have hLength := ih (List.mem_append_left _ hInside) hDeeper
        omega
    · have hLength := ih (List.mem_append_right _ hMem) hReaches
      omega

/-- Every value takes a byte at least. -/
theorem Holds.length_le (h : Holds bs vs rest) : vs.length + rest.length ≤ bs.length := by
  induction h with
  | nil bs => exact Nat.le_of_eq (Nat.zero_add _)
  | cons hForm _ ih =>
    have hPos := hForm.length_pos
    rw [List.length_append] at ih ⊢
    rw [List.length_cons]
    omega

/-- What follows values makes no difference to them. -/
theorem Holds.extend (h : Holds bs vs rest) (more : List UInt8) :
    Holds (bs ++ more) vs (rest ++ more) := by
  induction h with
  | nil bs => exact .nil _
  | cons hForm _ ih =>
    rw [List.append_assoc]
    exact .cons hForm ih

/-- What is written for a value: bytes of it, if their length fits into four bytes, and in any case not
many more than others have that start with the value. -/
structure Writes (bs : List UInt8) (v : Value) : Prop where
  holds : bs.length < twos 32 → Holds bs [v] []
  length_le {other rest : List UInt8} : Holds other [v] rest →
    bs.length + 9 * rest.length ≤ 9 * other.length

theorem holds_form {form : List UInt8} (hForm : v.head.Form form) (hInside : Holds bs v.inside []) :
    Holds (form ++ bs) [v] [] :=
  .cons hForm (by rwa [List.append_nil])

theorem exists_form_of_holds (h : Holds bs [v] rest) :
    ∃ form tail, v.head.Form form ∧ bs = form ++ tail ∧ Holds tail v.inside rest := by
  obtain ⟨tail, hRead, hInside⟩ := holds_cons_iff.1 h
  obtain ⟨form, hForm, rfl⟩ := readHead_eq_ok_iff.1 hRead
  rw [List.append_nil] at hInside
  exact ⟨form, tail, hForm, rfl, hInside⟩

/-- A short value without parts is the form of its head. -/
theorem writes_of_form (hForm : v.head.Form bs) (hInside : v.inside = []) (hFew : bs.length ≤ 9) :
    Writes bs v where
  holds _ := by
    have hHolds := holds_form hForm (hInside ▸ Holds.nil [])
    rwa [List.append_nil] at hHolds
  length_le hOther := by
    have hRest := hOther.length_le
    rw [List.length_singleton] at hRest
    omega

/-! ## Numbers and sizes -/

/-- Where one of the markers has room for a number, it stands behind such a one. -/
theorem exists_marked {n : Nat} {markers : List (UInt8 × Nat)}
    (hRoom : ∃ m ∈ markers, n < twos (8 * m.2)) :
    ∃ marker count, (marker, count) ∈ markers ∧ n < twos (8 * count) ∧
      marked n markers = marker :: bigEndian count n := by
  induction markers with
  | nil =>
    obtain ⟨m, hMem, -⟩ := hRoom
    cases hMem
  | cons first markers ih =>
    obtain ⟨marker, count⟩ := first
    cases markers with
    | nil =>
      obtain ⟨m, hMem, hFits⟩ := hRoom
      obtain rfl := List.mem_singleton.1 hMem
      exact ⟨marker, count, hMem, hFits, rfl⟩
    | cons second markers =>
      rw [marked]
      by_cases hFits : n < twos (8 * count)
      · rw [if_pos hFits]
        exact ⟨marker, count, List.mem_cons_self, hFits, rfl⟩
      · rw [if_neg hFits]
        have hLater : ∃ m ∈ second :: markers, n < twos (8 * m.2) := by
          obtain ⟨m, hMem, hRoom⟩ := hRoom
          rcases List.mem_cons.1 hMem with rfl | hMem
          · exact absurd hRoom hFits
          · exact ⟨m, hMem, hRoom⟩
        obtain ⟨later, size, hMem, hRest⟩ := ih hLater
        exact ⟨later, size, List.mem_cons_of_mem _ hMem, hRest⟩

/-- What holds of a marker that has a number in it, and of one with the number behind it, holds of the
number as it is written. -/
theorem packed_of_forms {P : List UInt8 → Prop} {base limit n : Nat} {markers : List (UInt8 × Nat)}
    (hBase : base + limit ≤ 0x100) (hRoom : ∃ m ∈ markers, n < twos (8 * m.2))
    (hShort : ∀ marker : UInt8, n < limit → marker.toNat = base + n → P [marker])
    (hLong : ∀ (marker : UInt8) (bytes : List UInt8), (marker, bytes.length) ∈ markers →
      natOf bytes = n → P (marker :: bytes)) : P (packed base limit markers n) := by
  rw [packed]
  split
  · next hLess => exact hShort _ hLess (UInt8.toNat_ofNat_of_lt' (show base + n < 0x100 by omega))
  · obtain ⟨marker, count, hMem, hFits, hMarked⟩ := exists_marked hRoom
    rw [hMarked]
    exact hLong marker _ (by rwa [length_bigEndian]) (natOf_bigEndian hFits)

theorem length_marked_le {n k : Nat} {markers : List (UInt8 × Nat)}
    (hFew : ∀ m ∈ markers, m.2 ≤ k) : (marked n markers).length ≤ k + 1 := by
  induction markers with
  | nil => exact Nat.zero_le _
  | cons first markers ih =>
    obtain ⟨hFirst, hRest⟩ := List.forall_mem_cons.1 hFew
    have hLength (count : Nat) (hCount : count ≤ k) :
        (first.1 :: bigEndian count n).length ≤ k + 1 := by
      rw [List.length_cons, length_bigEndian]
      omega
    cases markers with
    | nil => exact hLength first.2 hFirst
    | cons second markers =>
      rw [marked]
      split
      · exact hLength first.2 hFirst
      · exact ih hRest

theorem length_packed_le {base limit n k : Nat} {markers : List (UInt8 × Nat)}
    (hFew : ∀ m ∈ markers, m.2 ≤ k) : (packed base limit markers n).length ≤ k + 1 := by
  rw [packed]
  split
  · exact Nat.le_add_left 1 k
  · exact length_marked_le hFew

theorem length_writeNat_le (n : Nat) : (writeNat n).length ≤ 9 := length_packed_le (by decide)

theorem length_writeInt_le (i : Int) : (writeInt i).length ≤ 9 := by
  have hComplement (count : Nat) : (complement count i).length = count := length_bigEndian _ _
  rw [writeInt]
  split
  · exact length_writeNat_le _
  · split_ifs <;> simp [hComplement]

theorem form_writeNat {n : Nat} (h : n < twos 64) : (Head.integer n).Form (writeNat n) := by
  refine packed_of_forms (by decide) ⟨(0xcf, 8), by simp, h⟩ (fun marker hSmall hMarker => ?_)
    fun marker bytes hMarker hBytes => ?_
  · have hForm : (Head.integer marker.toNat).Form [marker] := .small (by omega)
    rwa [hMarker, Nat.zero_add] at hForm
  · rw [← hBytes]
    exact .unsigned hMarker

theorem intOf_complement {count : Nat} {i : Int} (hPos : 0 < count)
    (hLow : -(twos (8 * count - 1) : Int) ≤ i) (hHigh : i < 0) : intOf (complement count i) = i := by
  have hDouble : twos (8 * count) = twos (8 * count - 1) * 2 := by
    rw [← twos_succ, show 8 * count - 1 + 1 = 8 * count by omega]
  have hNat : natOf (complement count i) = (i + twos (8 * count)).toNat :=
    natOf_bigEndian (by omega)
  rw [intOf, hNat, complement, length_bigEndian, if_neg (by omega)]
  omega

theorem form_signed {marker : UInt8} {count : Nat} {i : Int}
    (hMarker : (marker, count) ∈ [(0xd0, 1), (0xd1, 2), (0xd2, 4), (0xd3, 8)]) (hPos : 0 < count)
    (hLow : -(twos (8 * count - 1) : Int) ≤ i) (hHigh : i < 0) :
    (Head.integer i).Form (marker :: complement count i) := by
  have hForm : (Head.integer (intOf (complement count i))).Form (marker :: complement count i) :=
    .signed (by rwa [complement, length_bigEndian])
  rwa [intOf_complement hPos hLow hHigh] at hForm

theorem form_smallNegative {i : Int} (hLow : -0x20 ≤ i) (hHigh : i < 0) :
    (Head.integer i).Form (complement 1 i) := by
  have hTwos : twos (8 * 1) = 0x100 := by decide
  have hSize : (i + twos (8 * 1)).toNat < 0x100 := by omega
  have hByte : (UInt8.ofNat (i + twos (8 * 1)).toNat).toNat = (i + twos (8 * 1)).toNat :=
    UInt8.toNat_ofNat_of_lt' hSize
  have hValue : ((UInt8.ofNat (i + twos (8 * 1)).toNat).toNat : Int) - 0x100 = i := by omega
  have hForm : (Head.integer _).Form [UInt8.ofNat (i + twos (8 * 1)).toNat] :=
    .smallNegative (by omega)
  rw [hValue] at hForm
  rwa [complement, bigEndian, Nat.mod_eq_of_lt hSize]

theorem form_writeInt (i : Int64) : (Head.integer i.toInt).Form (writeInt i.toInt) := by
  have hLeast := i.le_toInt
  have hGreatest := i.toInt_lt
  have hTwos : twos (8 * 1 - 1) = 0x80 ∧ twos (8 * 2 - 1) = 0x8000 ∧ twos (8 * 4 - 1) = 0x80000000 ∧
      twos (8 * 8 - 1) = 0x8000000000000000 ∧ twos 64 = 0x10000000000000000 := by decide
  generalize i.toInt = i at hLeast hGreatest ⊢
  rw [writeInt]
  split
  · next hSign =>
    have hForm := form_writeNat (show i.toNat < twos 64 by omega)
    rwa [Int.toNat_of_nonneg hSign] at hForm
  split
  · exact form_smallNegative (by omega) (by omega)
  split
  · exact form_signed (by simp) (by decide) (by omega) (by omega)
  split
  · exact form_signed (by simp) (by decide) (by omega) (by omega)
  split
  · exact form_signed (by simp) (by decide) (by omega) (by omega)
  · exact form_signed (by simp) (by decide) (by omega) (by omega)

/-! ## Values without parts -/

theorem writes_int (i : Int64) : Writes (writeInt i.toInt) (.integer i.toInt) :=
  writes_of_form (form_writeInt i) rfl (length_writeInt_le _)

theorem writes_count (n : Nat) : Writes (writeCount n) (countValue n) := by
  have hLess : min n maxCount < twos 64 := by
    have hPos := twos_pos 64
    rw [maxCount]
    omega
  exact writes_of_form (form_writeNat hLess) rfl (length_writeNat_le _)

theorem writes_double (b : Binary64) : Writes (writeDouble b) (.double (.finite b)) := by
  have hForm : (Head.double _).Form (0xcb :: bigEndian 8 b.bits) :=
    .double (length_bigEndian _ _)
  rw [natOf_bigEndian b.bits_lt, Binary64.ofBits_bits] at hForm
  refine writes_of_form hForm rfl (Nat.le_of_eq ?_)
  rw [writeDouble, List.length_cons, length_bigEndian]

theorem writes_text (s : String) : Writes (writeText s) (textValue s) where
  holds hShort := by
    have hRoom : (bytesOf s).length < twos 32 := by
      rw [writeText, List.length_append] at hShort
      omega
    have hForm : (textValue s).head.Form (writeText s) := by
      rw [writeText]
      refine packed_of_forms (P := fun front => (textValue s).head.Form (front ++ bytesOf s))
        (by decide) ⟨(0xdb, 4), by simp, hRoom⟩
        (fun marker hSmall hMarker => .shortText hSmall hMarker)
        fun marker bytes hMarker hBytes => .text hMarker hBytes
    have hHolds := holds_form hForm (Holds.nil [])
    rwa [List.append_nil] at hHolds
  length_le {other rest} hOther := by
    obtain ⟨form, tail, hForm, rfl, hInside⟩ := exists_form_of_holds hOther
    obtain rfl := holds_nil_iff.1 hInside
    have hLength := hForm.length_text
    have hMarker : (packed 0xa0 0x20 [(0xd9, 1), (0xda, 2), (0xdb, 4)]
        (bytesOf s).length).length ≤ 4 + 1 := length_packed_le (by decide)
    rw [writeText, List.length_append, List.length_append]
    omega

theorem writes_datum (d : Datum) : Writes (writeDatum d) (datumValue d) := by
  cases d with
  | null => exact writes_of_form .nil rfl (by decide)
  | bool b => cases b <;> exact writes_of_form (.bool _) rfl (by decide)
  | integer i => exact writes_int i
  | decimal d =>
    rw [writeDatum, datumValue]
    cases d.toBinary64? with
    | none => exact writes_text d.text
    | some b => exact writes_double b
  | text s => exact writes_text s

/-! ## Values put together -/

/-- Written values behind one another. -/
theorem holds_flatten {items : List (List UInt8)} (h : List.Forall₂ Writes items vs)
    (hShort : items.flatten.length < twos 32) : Holds items.flatten vs [] := by
  induction h with
  | nil => exact .nil []
  | @cons item v items vs hItem _ ih =>
    rw [List.flatten_cons, List.length_append] at hShort
    have hFirst := (hItem.holds (by omega)).extend items.flatten
    rw [List.nil_append] at hFirst
    rw [List.flatten_cons]
    exact hFirst.append (ih (by omega))

theorem length_flatten_le {items : List (List UInt8)} (h : List.Forall₂ Writes items vs)
    {other : List UInt8} (hOther : Holds other vs rest) :
    items.flatten.length + 9 * rest.length ≤ 9 * other.length := by
  induction h generalizing other with
  | nil =>
    obtain rfl := holds_nil_iff.1 hOther
    exact Nat.le_of_eq (Nat.zero_add _)
  | @cons item v items vs hItem _ ih =>
    obtain ⟨mid, hFirst, hNext⟩ :=
      holds_append_iff.1 (show Holds other ([v] ++ vs) rest from hOther)
    have hItemLength := hItem.length_le hFirst
    have hItemsLength := ih hNext
    rw [List.flatten_cons, List.length_append]
    omega

theorem writes_sequence {items : List (List UInt8)} (h : List.Forall₂ Writes items vs) :
    Writes (writeSequence items) (.sequence vs) where
  holds hShort := by
    rw [writeSequence, List.length_append] at hShort
    have hItems := holds_flatten h (by omega)
    have hRoom : items.length < twos 32 := by
      have hCount := hItems.length_le
      rw [← h.length_eq] at hCount
      omega
    refine holds_form (v := .sequence vs) (packed_of_forms (by decide) ⟨(0xdd, 4), by simp, hRoom⟩
      (fun marker hSmall hMarker => ?_) fun marker bytes hMarker hBytes => ?_) hItems
    · rw [Value.head, ← h.length_eq]
      exact .shortSequence hSmall hMarker
    · rw [Value.head, ← h.length_eq, ← hBytes]
      exact .sequence hMarker
  length_le {other rest} hOther := by
    obtain ⟨form, tail, hForm, rfl, hInside⟩ := exists_form_of_holds hOther
    have hPos := hForm.length_pos
    have hItems := length_flatten_le h hInside
    have hMarker : (packed 0x90 0x10 [(0xdc, 2), (0xdd, 4)] items.length).length ≤ 4 + 1 :=
      length_packed_le (by decide)
    rw [writeSequence, List.length_append, List.length_append]
    omega

section Entries

variable {entries : List (String × List UInt8)} {values : List (Value × Value)}

theorem flatten_entries :
    (entries.flatMap fun e => [writeText e.1, e.2]).flatten =
      entries.flatMap fun e => writeText e.1 ++ e.2 := by
  induction entries with
  | nil => rfl
  | cons e entries ih =>
    rw [List.flatMap_cons, List.flatMap_cons, List.flatten_append, ih, List.flatten_cons,
      List.flatten_singleton]

variable (h : List.Forall₂ (fun e v => v.1 = textValue e.1 ∧ Writes e.2 v.2) entries values)

include h

/-- Keys and values are values as well. -/
theorem forall₂_entries :
    List.Forall₂ Writes (entries.flatMap fun e => [writeText e.1, e.2])
      (values.flatMap fun v => [v.1, v.2]) := by
  induction h with
  | nil => exact .nil
  | cons hEntry _ ih => exact .cons (hEntry.1 ▸ writes_text _) (.cons hEntry.2 ih)

theorem writes_map : Writes (writeMap entries) (.map values) where
  holds hShort := by
    rw [writeMap, List.length_append, ← flatten_entries] at hShort
    have hItems := holds_flatten (forall₂_entries h) (by omega)
    have hRoom : entries.length < twos 32 := by
      have hCount := hItems.length_le
      rw [Value.length_pairs, ← h.length_eq] at hCount
      omega
    rw [writeMap, ← flatten_entries]
    refine holds_form (v := .map values) (packed_of_forms (by decide) ⟨(0xdf, 4), by simp, hRoom⟩
      (fun marker hSmall hMarker => ?_) fun marker bytes hMarker hBytes => ?_) hItems
    · rw [Value.head, ← h.length_eq]
      exact .shortMap hSmall hMarker
    · rw [Value.head, ← h.length_eq, ← hBytes]
      exact .map hMarker
  length_le {other rest} hOther := by
    obtain ⟨form, tail, hForm, rfl, hInside⟩ := exists_form_of_holds hOther
    have hPos := hForm.length_pos
    have hItems := length_flatten_le (forall₂_entries h) hInside
    have hMarker : (packed 0x80 0x10 [(0xde, 2), (0xdf, 4)] entries.length).length ≤ 4 + 1 :=
      length_packed_le (by decide)
    rw [writeMap, List.length_append, List.length_append, ← flatten_entries]
    omega

end Entries

/-! ## Replies -/

theorem writes_record (r : Record) : Writes (writeRecord r) (recordValue r) := by
  refine writes_map ?_
  rw [List.forall₂_map_left_iff, List.forall₂_map_right_iff, List.forall₂_same]
  exact fun entry _ => ⟨rfl, writes_datum entry.2⟩

theorem writes_output (output : Output) : Writes (writeOutput output) (outputValue output) := by
  cases output with
  | rows rs =>
    refine writes_sequence ?_
    rw [List.forall₂_map_left_iff, List.forall₂_map_right_iff, List.forall₂_same]
    exact fun r _ => writes_record r
  | row r =>
    cases r with
    | none => exact writes_of_form .nil rfl (by decide)
    | some r => exact writes_record r
  | affected n => exact writes_count n

theorem writes_stats (s : Stats) : Writes (writeStats s) (statsValue s) := by
  have hCount (name : String) (n : Nat) :
      (textValue name, countValue n).1 = textValue name ∧ Writes (writeCount n) (countValue n) :=
    ⟨rfl, writes_count n⟩
  exact writes_map (.cons (hCount _ _) (.cons (hCount _ _) (.cons (hCount _ _) (.cons (hCount _ _)
    (.cons (hCount _ _) (.cons (hCount _ _) .nil))))))

theorem Reply.writes_toBytes (reply : Reply) : Writes reply.toBytes reply.value := by
  cases reply with
  | result output stats =>
    exact writes_map (.cons ⟨rfl, writes_output output⟩ (.cons ⟨rfl, writes_stats stats⟩ .nil))
  | error message => exact writes_map (.cons ⟨rfl, writes_text message⟩ .nil)

end RecordStore.Wire
