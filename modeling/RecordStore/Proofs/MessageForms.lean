import RecordStore.Proofs.Binding
import RecordStore.Proofs.Frames

/-!
# The forms of heads

In the MessagePack format the first byte of a value is a marker. It holds a small value itself, or it
says how many bytes follow and what they are: a number, the bits of a double, or the size of what comes
behind them. `Head.Form` lists the forms of each head, and `readHead` reads them and nothing else.

A form says where it ends, so no two heads have forms of which one starts the other.

## Main results

- `readHead_eq_ok_iff`: reading a head takes one of its forms from the front.
- `Head.Form.unique`: the form at the front and its head are determined.
-/

namespace RecordStore.Wire

/-- The number that bytes stand for in two's complement. -/
def intOf (bytes : List UInt8) : Int :=
  if natOf bytes < twos (8 * bytes.length - 1) then (natOf bytes : Int)
  else (natOf bytes : Int) - twos (8 * bytes.length)

/-- Bytes that are the form of a head. Where a form is a marker with a number of bytes behind it, the
markers are listed with those numbers. -/
inductive Head.Form : Head → List UInt8 → Prop
  | nil : Form .nil [0xc0]
  | bool (b : Bool) : Form (.bool b) [if b then 0xc3 else 0xc2]
  | small {byte : UInt8} : byte.toNat < 0x80 → Form (.integer byte.toNat) [byte]
  | smallNegative {byte : UInt8} : 0xe0 ≤ byte.toNat → Form (.integer (byte.toNat - 0x100)) [byte]
  | unsigned {marker : UInt8} {bytes : List UInt8} :
    (marker, bytes.length) ∈ [(0xcc, 1), (0xcd, 2), (0xce, 4), (0xcf, 8)] →
    Form (.integer (natOf bytes)) (marker :: bytes)
  | signed {marker : UInt8} {bytes : List UInt8} :
    (marker, bytes.length) ∈ [(0xd0, 1), (0xd1, 2), (0xd2, 4), (0xd3, 8)] →
    Form (.integer (intOf bytes)) (marker :: bytes)
  | shortDouble {bytes : List UInt8} : bytes.length = 4 →
    Form (.double (Binary64.ofShortBits (natOf bytes))) (0xca :: bytes)
  | double {bytes : List UInt8} : bytes.length = 8 →
    Form (.double (Binary64.ofBits (natOf bytes))) (0xcb :: bytes)
  | shortText {marker : UInt8} {bytes : List UInt8} : bytes.length < 0x20 →
    marker.toNat = 0xa0 + bytes.length → Form (.text bytes) (marker :: bytes)
  | text {marker : UInt8} {size bytes : List UInt8} :
    (marker, size.length) ∈ [(0xd9, 1), (0xda, 2), (0xdb, 4)] → natOf size = bytes.length →
    Form (.text bytes) (marker :: size ++ bytes)
  | binary {marker : UInt8} {size bytes : List UInt8} :
    (marker, size.length) ∈ [(0xc4, 1), (0xc5, 2), (0xc6, 4)] → natOf size = bytes.length →
    Form (.binary bytes) (marker :: size ++ bytes)
  | shortSequence {marker : UInt8} {size : Nat} : size < 0x10 → marker.toNat = 0x90 + size →
    Form (.sequence size) [marker]
  | sequence {marker : UInt8} {size : List UInt8} :
    (marker, size.length) ∈ [(0xdc, 2), (0xdd, 4)] → Form (.sequence (natOf size)) (marker :: size)
  | shortMap {marker : UInt8} {size : Nat} : size < 0x10 → marker.toNat = 0x80 + size →
    Form (.map size) [marker]
  | map {marker : UInt8} {size : List UInt8} :
    (marker, size.length) ∈ [(0xde, 2), (0xdf, 4)] → Form (.map (natOf size)) (marker :: size)
  | shortExtension {marker : UInt8} {bytes : List UInt8} :
    (marker, bytes.length) ∈ [(0xd4, 2), (0xd5, 3), (0xd6, 5), (0xd7, 9), (0xd8, 17)] →
    Form .extension (marker :: bytes)
  | extension {marker : UInt8} {size bytes : List UInt8} :
    (marker, size.length) ∈ [(0xc7, 1), (0xc8, 2), (0xc9, 4)] → natOf size + 1 = bytes.length →
    Form .extension (marker :: size ++ bytes)

/-! ## What follows a marker -/

theorem readInt_eq_ok_iff {count : Nat} {i : Int} {bs rest : List UInt8} :
    readInt count bs = .ok (i, rest) ↔
      ∃ bytes, bytes.length = count ∧ bs = bytes ++ rest ∧ intOf bytes = i := by
  rw [readInt, bind_eq_ok_iff]
  constructor
  · rintro ⟨⟨n, tail⟩, hRead, hPair⟩
    cases hPair
    obtain ⟨bytes, rfl, hBytes, hSize⟩ := readNat_eq_ok_iff.1 hRead
    exact ⟨bytes, rfl, hBytes, by rw [intOf, hSize]⟩
  · rintro ⟨bytes, rfl, hBytes, rfl⟩
    exact ⟨(natOf bytes, rest), readNat_eq_ok_iff.2 ⟨bytes, rfl, hBytes, rfl⟩, rfl⟩

theorem readSized_eq_ok_iff {count extra : Nat} {bytes bs rest : List UInt8} :
    readSized count extra bs = .ok (bytes, rest) ↔
      ∃ size, size.length = count ∧ natOf size + extra = bytes.length ∧
        bs = size ++ bytes ++ rest := by
  rw [readSized, bind_eq_ok_iff]
  constructor
  · rintro ⟨⟨n, tail⟩, hRead, hBytes⟩
    obtain ⟨size, hCount, rfl, rfl⟩ := readNat_eq_ok_iff.1 hRead
    obtain ⟨hLength, rfl⟩ := readBytes_eq_ok_iff.1 hBytes
    exact ⟨size, hCount, hLength.symm, (List.append_assoc _ _ _).symm⟩
  · rintro ⟨size, hCount, hSize, rfl⟩
    rw [List.append_assoc]
    exact ⟨(natOf size, bytes ++ rest), readNat_eq_ok_iff.2 ⟨size, hCount, rfl, rfl⟩,
      readBytes_eq_ok_iff.2 ⟨hSize.symm, rfl⟩⟩

/-! ## Reading gives a form -/

section Markers

variable {α : Type} {count extra : Nat} {tail rest : List UInt8} {h : Head}

/-- What is read behind a marker and made into a head. -/
theorem exists_of_bind {part : Except Fault (α × List UInt8)} {f : α → Head}
    (hRead : (do let r ← part; return (f r.1, r.2)) = .ok (h, rest)) :
    ∃ a, part = .ok (a, rest) ∧ f a = h := by
  cases part with
  | error fault => cases hRead
  | ok read =>
    cases hRead
    exact ⟨read.1, rfl, rfl⟩

theorem exists_of_readNat {f : Nat → Head}
    (hRead : (do let r ← readNat count tail; return (f r.1, r.2)) = .ok (h, rest)) :
    ∃ bytes, bytes.length = count ∧ tail = bytes ++ rest ∧ f (natOf bytes) = h := by
  obtain ⟨n, hNat, rfl⟩ := exists_of_bind hRead
  obtain ⟨bytes, hLength, hTail, rfl⟩ := readNat_eq_ok_iff.1 hNat
  exact ⟨bytes, hLength, hTail, rfl⟩

theorem exists_of_readInt {f : Int → Head}
    (hRead : (do let r ← readInt count tail; return (f r.1, r.2)) = .ok (h, rest)) :
    ∃ bytes, bytes.length = count ∧ tail = bytes ++ rest ∧ f (intOf bytes) = h := by
  obtain ⟨i, hInt, rfl⟩ := exists_of_bind hRead
  obtain ⟨bytes, hLength, hTail, rfl⟩ := readInt_eq_ok_iff.1 hInt
  exact ⟨bytes, hLength, hTail, rfl⟩

theorem exists_of_readBytes {f : List UInt8 → Head}
    (hRead : (do let r ← readBytes count tail; return (f r.1, r.2)) = .ok (h, rest)) :
    ∃ bytes, bytes.length = count ∧ tail = bytes ++ rest ∧ f bytes = h := by
  obtain ⟨bytes, hBytes, rfl⟩ := exists_of_bind hRead
  obtain ⟨hLength, hTail⟩ := readBytes_eq_ok_iff.1 hBytes
  exact ⟨bytes, hLength, hTail, rfl⟩

theorem exists_of_readSized {f : List UInt8 → Head}
    (hRead : (do let r ← readSized count extra tail; return (f r.1, r.2)) = .ok (h, rest)) :
    ∃ size bytes, size.length = count ∧ natOf size + extra = bytes.length ∧
      tail = size ++ bytes ++ rest ∧ f bytes = h := by
  obtain ⟨bytes, hBytes, rfl⟩ := exists_of_bind hRead
  obtain ⟨size, hCount, hSize, hTail⟩ := readSized_eq_ok_iff.1 hBytes
  exact ⟨size, bytes, hCount, hSize, hTail, rfl⟩

end Markers

theorem exists_form {h : Head} {bs rest : List UInt8} (hRead : readHead bs = .ok (h, rest)) :
    ∃ form, h.Form form ∧ bs = form ++ rest := by
  cases bs with
  | nil => cases hRead
  | cons byte tail =>
    simp only [readHead] at hRead
    split at hRead
    · next hByte =>
      cases hRead
      exact ⟨[byte], .small hByte, rfl⟩
    split at hRead
    · next hByte =>
      cases hRead
      exact ⟨[byte], .shortMap (by omega) (by omega), rfl⟩
    split at hRead
    · next hByte =>
      cases hRead
      exact ⟨[byte], .shortSequence (by omega) (by omega), rfl⟩
    split at hRead
    · next hByte =>
      obtain ⟨bytes, hLength, rfl, rfl⟩ := exists_of_readBytes (f := .text) hRead
      exact ⟨byte :: bytes, .shortText (by omega) (by omega), rfl⟩
    split at hRead
    · next hByte =>
      cases hRead
      exact ⟨[byte], .smallNegative hByte, rfl⟩
    -- What is left are the single markers from `0xc0` to `0xdf`, one case each.
    split at hRead
    case h_1 _ hByte =>
      obtain rfl : byte = 0xc0 := UInt8.toNat_inj.1 hByte
      cases hRead
      exact ⟨_, .nil, rfl⟩
    case h_2 _ hByte =>
      obtain rfl : byte = 0xc2 := UInt8.toNat_inj.1 hByte
      cases hRead
      exact ⟨_, .bool false, rfl⟩
    case h_3 _ hByte =>
      obtain rfl : byte = 0xc3 := UInt8.toNat_inj.1 hByte
      cases hRead
      exact ⟨_, .bool true, rfl⟩
    case h_4 _ hByte | h_5 _ hByte | h_6 _ hByte =>
      obtain ⟨size, bytes, hCount, hSize, rfl, rfl⟩ := exists_of_readSized (f := .binary) hRead
      refine ⟨byte :: size ++ bytes, .binary ?_ hSize, rfl⟩
      simp [hCount, ← UInt8.toNat_inj, hByte]
    case h_7 _ hByte | h_8 _ hByte | h_9 _ hByte =>
      obtain ⟨size, bytes, hCount, hSize, rfl, rfl⟩ :=
        exists_of_readSized (f := fun _ => .extension) hRead
      refine ⟨byte :: size ++ bytes, .extension ?_ hSize, rfl⟩
      simp [hCount, ← UInt8.toNat_inj, hByte]
    case h_10 _ hByte =>
      obtain rfl : byte = 0xca := UInt8.toNat_inj.1 hByte
      obtain ⟨bytes, hLength, rfl, rfl⟩ :=
        exists_of_readNat (f := fun n => .double (Binary64.ofShortBits n)) hRead
      exact ⟨_, .shortDouble hLength, rfl⟩
    case h_11 _ hByte =>
      obtain rfl : byte = 0xcb := UInt8.toNat_inj.1 hByte
      obtain ⟨bytes, hLength, rfl, rfl⟩ :=
        exists_of_readNat (f := fun n => .double (Binary64.ofBits n)) hRead
      exact ⟨_, .double hLength, rfl⟩
    case h_12 _ hByte | h_13 _ hByte | h_14 _ hByte | h_15 _ hByte =>
      obtain ⟨bytes, hLength, rfl, rfl⟩ := exists_of_readNat (f := fun n => .integer n) hRead
      refine ⟨byte :: bytes, .unsigned ?_, rfl⟩
      simp [hLength, ← UInt8.toNat_inj, hByte]
    case h_16 _ hByte | h_17 _ hByte | h_18 _ hByte | h_19 _ hByte =>
      obtain ⟨bytes, hLength, rfl, rfl⟩ := exists_of_readInt (f := .integer) hRead
      refine ⟨byte :: bytes, .signed ?_, rfl⟩
      simp [hLength, ← UInt8.toNat_inj, hByte]
    case h_20 _ hByte | h_21 _ hByte | h_22 _ hByte | h_23 _ hByte | h_24 _ hByte =>
      obtain ⟨bytes, hLength, rfl, rfl⟩ := exists_of_readBytes (f := fun _ => .extension) hRead
      refine ⟨byte :: bytes, .shortExtension ?_, rfl⟩
      simp [hLength, ← UInt8.toNat_inj, hByte]
    case h_25 _ hByte | h_26 _ hByte | h_27 _ hByte =>
      obtain ⟨size, bytes, hCount, hSize, rfl, rfl⟩ := exists_of_readSized (f := .text) hRead
      refine ⟨byte :: size ++ bytes, .text ?_ hSize, rfl⟩
      simp [hCount, ← UInt8.toNat_inj, hByte]
    case h_28 _ hByte | h_29 _ hByte =>
      obtain ⟨bytes, hLength, rfl, rfl⟩ := exists_of_readNat (f := .sequence) hRead
      refine ⟨byte :: bytes, .sequence ?_, rfl⟩
      simp [hLength, ← UInt8.toNat_inj, hByte]
    case h_30 _ hByte | h_31 _ hByte =>
      obtain ⟨bytes, hLength, rfl, rfl⟩ := exists_of_readNat (f := .map) hRead
      refine ⟨byte :: bytes, .map ?_, rfl⟩
      simp [hLength, ← UInt8.toNat_inj, hByte]
    case h_32 => cases hRead

/-! ## Reading a form -/

theorem readNat_append (bytes rest : List UInt8) :
    readNat bytes.length (bytes ++ rest) = .ok (natOf bytes, rest) :=
  readNat_eq_ok_iff.2 ⟨bytes, rfl, rfl, rfl⟩

theorem readInt_append (bytes rest : List UInt8) :
    readInt bytes.length (bytes ++ rest) = .ok (intOf bytes, rest) :=
  readInt_eq_ok_iff.2 ⟨bytes, rfl, rfl, rfl⟩

theorem readBytes_append (bytes rest : List UInt8) :
    readBytes bytes.length (bytes ++ rest) = .ok (bytes, rest) :=
  readBytes_eq_ok_iff.2 ⟨rfl, rfl⟩

theorem readSized_append {extra : Nat} {size bytes : List UInt8}
    (h : natOf size + extra = bytes.length) (rest : List UInt8) :
    readSized size.length extra (size ++ (bytes ++ rest)) = .ok (bytes, rest) :=
  readSized_eq_ok_iff.2 ⟨size, rfl, h, (List.append_assoc _ _ _).symm⟩

theorem Head.Form.readHead_append {h : Head} {form : List UInt8} (hForm : h.Form form)
    (rest : List UInt8) : readHead (form ++ rest) = .ok (h, rest) := by
  cases hForm with
  | nil => rfl
  | bool b => cases b <;> rfl
  | @small byte hByte =>
    simp only [List.singleton_append, readHead, if_pos hByte]
    rfl
  | @smallNegative byte hByte =>
    have hNot : ∀ n ≤ 0xe0, ¬ byte.toNat < n := by omega
    simp only [List.singleton_append, readHead, hNot, hByte, if_true, if_false, Nat.reduceLeDiff]
    rfl
  | @shortMap marker size hSize hMarker =>
    have hNot : ¬ marker.toNat < 0x80 := by omega
    have hLess : marker.toNat < 0x90 := by omega
    have hBack : marker.toNat - 0x80 = size := by omega
    simp only [List.singleton_append, readHead, if_neg hNot, if_pos hLess, hBack]
    rfl
  | @shortSequence marker size hSize hMarker =>
    have hNot : ∀ n ≤ 0x90, ¬ marker.toNat < n := by omega
    have hLess : marker.toNat < 0xa0 := by omega
    have hBack : marker.toNat - 0x90 = size := by omega
    simp only [List.singleton_append, readHead, hNot, if_pos hLess, hBack, if_false,
      Nat.reduceLeDiff]
    rfl
  | @shortText marker bytes hSize hMarker =>
    have hNot : ∀ n ≤ 0xa0, ¬ marker.toNat < n := by omega
    have hLess : marker.toNat < 0xc0 := by omega
    have hBack : marker.toNat - 0xa0 = bytes.length := by omega
    simp only [List.cons_append, readHead, hNot, if_pos hLess, hBack, if_false, Nat.reduceLeDiff,
      readBytes_append]
    rfl
  | @shortDouble bytes hLength =>
    have hRead := readNat_append bytes rest
    rw [hLength] at hRead
    simp [readHead, hRead]
  | @double bytes hLength =>
    have hRead := readNat_append bytes rest
    rw [hLength] at hRead
    simp [readHead, hRead]
  | @unsigned marker bytes hMarker =>
    have hRead := readNat_append bytes rest
    generalize bytes.length = count at hMarker hRead
    simp only [List.mem_cons, Prod.mk.injEq, List.not_mem_nil, or_false] at hMarker
    rcases hMarker with ⟨rfl, rfl⟩ | ⟨rfl, rfl⟩ | ⟨rfl, rfl⟩ | ⟨rfl, rfl⟩ <;> simp [readHead, hRead]
  | @signed marker bytes hMarker =>
    have hRead := readInt_append bytes rest
    generalize bytes.length = count at hMarker hRead
    simp only [List.mem_cons, Prod.mk.injEq, List.not_mem_nil, or_false] at hMarker
    rcases hMarker with ⟨rfl, rfl⟩ | ⟨rfl, rfl⟩ | ⟨rfl, rfl⟩ | ⟨rfl, rfl⟩ <;> simp [readHead, hRead]
  | @sequence marker size hMarker =>
    have hRead := readNat_append size rest
    generalize size.length = count at hMarker hRead
    simp only [List.mem_cons, Prod.mk.injEq, List.not_mem_nil, or_false] at hMarker
    rcases hMarker with ⟨rfl, rfl⟩ | ⟨rfl, rfl⟩ <;> simp [readHead, hRead]
  | @map marker size hMarker =>
    have hRead := readNat_append size rest
    generalize size.length = count at hMarker hRead
    simp only [List.mem_cons, Prod.mk.injEq, List.not_mem_nil, or_false] at hMarker
    rcases hMarker with ⟨rfl, rfl⟩ | ⟨rfl, rfl⟩ <;> simp [readHead, hRead]
  | @text marker size bytes hMarker hSize =>
    have hRead := readSized_append (show natOf size + 0 = bytes.length from hSize) rest
    generalize size.length = count at hMarker hRead
    simp only [List.mem_cons, Prod.mk.injEq, List.not_mem_nil, or_false] at hMarker
    rcases hMarker with ⟨rfl, rfl⟩ | ⟨rfl, rfl⟩ | ⟨rfl, rfl⟩ <;> simp [readHead, hRead]
  | @binary marker size bytes hMarker hSize =>
    have hRead := readSized_append (show natOf size + 0 = bytes.length from hSize) rest
    generalize size.length = count at hMarker hRead
    simp only [List.mem_cons, Prod.mk.injEq, List.not_mem_nil, or_false] at hMarker
    rcases hMarker with ⟨rfl, rfl⟩ | ⟨rfl, rfl⟩ | ⟨rfl, rfl⟩ <;> simp [readHead, hRead]
  | @extension marker size bytes hMarker hSize =>
    have hRead := readSized_append hSize rest
    generalize size.length = count at hMarker hRead
    simp only [List.mem_cons, Prod.mk.injEq, List.not_mem_nil, or_false] at hMarker
    rcases hMarker with ⟨rfl, rfl⟩ | ⟨rfl, rfl⟩ | ⟨rfl, rfl⟩ <;> simp [readHead, hRead]
  | @shortExtension marker bytes hMarker =>
    have hRead := readBytes_append bytes rest
    generalize bytes.length = count at hMarker hRead
    simp only [List.mem_cons, Prod.mk.injEq, List.not_mem_nil, or_false] at hMarker
    rcases hMarker with ⟨rfl, rfl⟩ | ⟨rfl, rfl⟩ | ⟨rfl, rfl⟩ | ⟨rfl, rfl⟩ | ⟨rfl, rfl⟩ <;>
      simp [readHead, hRead]

theorem readHead_eq_ok_iff {h : Head} {bs rest : List UInt8} :
    readHead bs = .ok (h, rest) ↔ ∃ form, h.Form form ∧ bs = form ++ rest := by
  refine ⟨exists_form, ?_⟩
  rintro ⟨form, hForm, rfl⟩
  exact hForm.readHead_append rest

/-- Bytes start with the form of one head, if any. -/
theorem Head.Form.unique {h h' : Head} {form form' rest rest' : List UInt8} (hForm : h.Form form)
    (hForm' : h'.Form form') (hBytes : form ++ rest = form' ++ rest') : h = h' ∧ rest = rest' := by
  have hRead := hForm.readHead_append rest
  rw [hBytes, hForm'.readHead_append rest'] at hRead
  cases hRead
  exact ⟨rfl, rfl⟩

end RecordStore.Wire
