import Mathlib.Data.List.Induction
import RecordStore.Wire.Service

/-!
# Bytes in frames

Four bytes and the number that they stand for determine each other, so a frame says where it ends. The
bytes of a client therefore fall into complete frames and a rest that does not start with one in a
single way (`splits_iff`), which `frames` and `remainder` compute.

More bytes at the end change nothing about the frames that are there, so they can be taken off as soon
as they are complete: it makes no difference in which pieces the bytes arrive (`converse_eq`).

## Main results

- `natOf_bigEndian`, `bigEndian_natOf`: numbers and their bytes.
- `nextFrame?_eq_some_iff`: when bytes start with a complete frame.
- `splits_iff`: how bytes fall into frames.
- `converse_eq`: a connection answers the frames of all its bytes.
-/

namespace RecordStore.Wire

/-! ## Numbers -/

theorem natOf_concat (bytes : List UInt8) (byte : UInt8) :
    natOf (bytes ++ [byte]) = natOf bytes * 256 + byte.toNat := by
  rw [natOf, List.foldl_append]
  rfl

theorem twos_byte (count : Nat) : twos (8 * (count + 1)) = twos (8 * count) * 256 := by
  show twos (8 * count + 8) = twos (8 * count) * 256
  simp only [twos_succ]
  omega

theorem natOf_bigEndian {count n : Nat} (h : n < twos (8 * count)) :
    natOf (bigEndian count n) = n := by
  induction count generalizing n with
  | zero =>
    have hZero : n = 0 := Nat.lt_one_iff.1 h
    rw [hZero]
    rfl
  | succ count ih =>
    have hHigh : n / 256 < twos (8 * count) := by
      rw [twos_byte] at h
      omega
    have hLow : (UInt8.ofNat (n % 256)).toNat = n % 256 :=
      UInt8.toNat_ofNat_of_lt' (Nat.mod_lt n (by decide))
    rw [bigEndian, natOf_concat, ih hHigh, hLow]
    omega

theorem bigEndian_natOf (bytes : List UInt8) : bigEndian bytes.length (natOf bytes) = bytes := by
  induction bytes using List.reverseRecOn with
  | nil => rfl
  | append_singleton bytes byte ih =>
    have hByte : byte.toNat < 256 := byte.toNat_lt
    have hHigh : (natOf bytes * 256 + byte.toNat) / 256 = natOf bytes := by omega
    have hLow : (natOf bytes * 256 + byte.toNat) % 256 = byte.toNat := by omega
    rw [natOf_concat, List.length_append, List.length_singleton, bigEndian, hHigh, hLow, ih,
      UInt8.ofNat_toNat]

/-! ## One frame -/

theorem readBytes_eq_ok_iff {count : Nat} {bs bytes rest : List UInt8} :
    readBytes count bs = .ok (bytes, rest) ↔ bytes.length = count ∧ bs = bytes ++ rest := by
  refine ⟨readBytes_length, fun ⟨hLength, hBytes⟩ => ?_⟩
  rw [readBytes, hBytes, ← hLength, List.take_left', List.drop_left', if_pos rfl] <;> rfl

theorem readNat_eq_ok_iff {count size : Nat} {bs rest : List UInt8} :
    readNat count bs = .ok (size, rest) ↔
      ∃ bytes, bytes.length = count ∧ bs = bytes ++ rest ∧ natOf bytes = size := by
  constructor
  · intro h
    rw [readNat] at h
    cases hRead : readBytes count bs with
    | error fault =>
      rw [hRead] at h
      cases h
    | ok read =>
      rw [hRead] at h
      cases h
      obtain ⟨hLength, hBytes⟩ := readBytes_eq_ok_iff.1 hRead
      exact ⟨read.1, hLength, hBytes, rfl⟩
  · rintro ⟨bytes, hLength, hBytes, rfl⟩
    rw [readNat, readBytes_eq_ok_iff.2 ⟨hLength, hBytes⟩]
    rfl

/-- The length of a request that is not too long fits into four bytes. -/
theorem maxFrame_lt : maxFrame < twos 32 := by decide

/-- Bytes start with a complete frame if they start with the length of a request that is not too
long, and the request follows. -/
theorem nextFrame?_eq_some_iff {bs payload rest : List UInt8} :
    nextFrame? bs = some (payload, rest) ↔
      bs = framed payload ++ rest ∧ payload.length ≤ maxFrame := by
  constructor
  · intro h
    rw [nextFrame?] at h
    cases hSize : readNat 4 bs with
    | error fault =>
      rw [hSize] at h
      cases h
    | ok read =>
      obtain ⟨size, tail⟩ := read
      rw [hSize] at h
      simp only at h
      split at h
      · cases h
      · next hSmall =>
        obtain ⟨bytes, hLength, rfl, rfl⟩ := readNat_eq_ok_iff.1 hSize
        cases hRead : readBytes (natOf bytes) tail with
        | error fault =>
          rw [hRead] at h
          cases h
        | ok found =>
          rw [hRead] at h
          cases h
          obtain ⟨hPayload, rfl⟩ := readBytes_eq_ok_iff.1 hRead
          rw [framed, hPayload, ← hLength, bigEndian_natOf, List.append_assoc]
          exact ⟨rfl, Nat.not_lt.1 hSmall⟩
  · rintro ⟨rfl, hSmall⟩
    have hSize : readNat 4 (framed payload ++ rest) = .ok (payload.length, payload ++ rest) := by
      refine readNat_eq_ok_iff.2 ⟨bigEndian 4 payload.length, length_bigEndian _ _, ?_, ?_⟩
      · rw [framed, List.append_assoc]
      · exact natOf_bigEndian (Nat.lt_of_le_of_lt hSmall maxFrame_lt)
    rw [nextFrame?, hSize]
    simp only
    rw [if_neg (Nat.not_lt.2 hSmall), readBytes_eq_ok_iff.2 ⟨rfl, rfl⟩]
    rfl

/-! ## All frames -/

/-- Bytes that fall into the frames of requests and a rest that does not start with such a frame. -/
structure Splits (bs : List UInt8) (payloads : List (List UInt8)) (rest : List UInt8) : Prop where
  bytes : bs = payloads.flatMap framed ++ rest
  small : ∀ payload ∈ payloads, payload.length ≤ maxFrame
  ends : ∀ payload more, payload.length ≤ maxFrame → rest ≠ framed payload ++ more

theorem splits_frames (bs : List UInt8) : Splits bs (frames bs) (remainder bs) := by
  induction bs using frames.induct with
  | case1 bs hNone =>
    rw [frames_of_none hNone, remainder_of_none hNone]
    refine ⟨rfl, nofun, fun payload more hSmall hStart => ?_⟩
    rw [nextFrame?_eq_some_iff.2 ⟨hStart, hSmall⟩] at hNone
    cases hNone
  | case2 bs payload rest hNext ih =>
    obtain ⟨hBytes, hSmall⟩ := nextFrame?_eq_some_iff.1 hNext
    rw [frames_of_some hNext, remainder_of_some hNext]
    refine ⟨?_, List.forall_mem_cons.2 ⟨hSmall, ih.small⟩, ih.ends⟩
    rw [List.flatMap_cons, List.append_assoc, ← ih.bytes]
    exact hBytes

/-- There is one way to split bytes into frames. -/
theorem splits_iff {bs rest : List UInt8} {payloads : List (List UInt8)} :
    Splits bs payloads rest ↔ payloads = frames bs ∧ rest = remainder bs := by
  constructor
  · intro h
    induction payloads generalizing bs with
    | nil =>
      obtain rfl : bs = rest := h.bytes
      have hNone : nextFrame? bs = none := by
        cases hNext : nextFrame? bs with
        | none => rfl
        | some next =>
          obtain ⟨hBytes, hSmall⟩ := nextFrame?_eq_some_iff.1 hNext
          exact absurd hBytes (h.ends next.1 next.2 hSmall)
      rw [frames_of_none hNone, remainder_of_none hNone]
      exact ⟨rfl, rfl⟩
    | cons payload payloads ih =>
      obtain ⟨hSmall, hRest⟩ := List.forall_mem_cons.1 h.small
      have hNext : nextFrame? bs = some (payload, payloads.flatMap framed ++ rest) := by
        refine nextFrame?_eq_some_iff.2 ⟨?_, hSmall⟩
        rw [h.bytes, List.flatMap_cons, List.append_assoc]
      obtain ⟨hFrames, hRemainder⟩ := ih ⟨rfl, hRest, h.ends⟩
      rw [frames_of_some hNext, remainder_of_some hNext, ← hFrames, ← hRemainder]
      exact ⟨rfl, rfl⟩
  · rintro ⟨rfl, rfl⟩
    exact splits_frames bs

/-! ## Bytes in pieces -/

theorem nextFrame?_append {bs payload rest : List UInt8}
    (h : nextFrame? bs = some (payload, rest)) (more : List UInt8) :
    nextFrame? (bs ++ more) = some (payload, rest ++ more) := by
  obtain ⟨rfl, hSmall⟩ := nextFrame?_eq_some_iff.1 h
  exact nextFrame?_eq_some_iff.2 ⟨List.append_assoc _ _ _, hSmall⟩

/-- The frames that are complete stay the same when more bytes arrive. -/
theorem frames_append (bs more : List UInt8) :
    frames (bs ++ more) = frames bs ++ frames (remainder bs ++ more) := by
  induction bs using frames.induct with
  | case1 bs hNone =>
    rw [frames_of_none hNone, remainder_of_none hNone]
    rfl
  | case2 bs payload rest hNext ih =>
    rw [frames_of_some hNext, remainder_of_some hNext, frames_of_some (nextFrame?_append hNext more),
      ih, List.cons_append]

theorem mayGrow_of_nextFrame? {bs more : List UInt8} {next : List UInt8 × List UInt8}
    (h : nextFrame? (bs ++ more) = some next) : mayGrow bs = true := by
  obtain ⟨hBytes, hSmall⟩ := nextFrame?_eq_some_iff.1 h
  rw [mayGrow]
  cases hSize : readNat 4 bs with
  | error fault => rfl
  | ok read =>
    obtain ⟨bytes, hLength, rfl, hRead⟩ := readNat_eq_ok_iff.1 hSize
    rw [framed, List.append_assoc, List.append_assoc] at hBytes
    obtain ⟨rfl, -⟩ := List.append_inj hBytes (hLength.trans (length_bigEndian _ _).symm)
    rw [natOf_bigEndian (Nat.lt_of_le_of_lt hSmall maxFrame_lt)] at hRead
    simp only
    rw [← hRead]
    exact decide_eq_true hSmall

theorem frames_append_of_not_mayGrow {bs : List UInt8} (h : mayGrow bs = false)
    (more : List UInt8) : frames (bs ++ more) = [] := by
  apply frames_of_none
  cases hNext : nextFrame? (bs ++ more) with
  | none => rfl
  | some next =>
    rw [mayGrow_of_nextFrame? hNext] at h
    cases h

section Connections

variable {n : Type → Type} [Monad n] [LawfulMonad n]

theorem allM_append {α : Type} (test : α → n Bool) (xs ys : List α) :
    (xs ++ ys).allM test = do
      if ← xs.allM test then ys.allM test else return false := by
  induction xs with
  | nil => simp
  | cons x xs ih =>
    rw [List.cons_append, List.allM_cons, List.allM_cons, ih, bind_assoc]
    refine bind_congr fun goesOn => ?_
    cases goesOn <;> simp

/-- A connection answers the frames of all bytes that arrive, in whatever pieces. -/
theorem converse_eq (answer : List UInt8 → n Bool) (bs : List UInt8)
    (pieces : List (List UInt8)) :
    converse answer bs pieces = do
      let _ ← (frames (bs ++ pieces.flatten)).allM answer
      return () := by
  induction pieces generalizing bs with
  | nil =>
    rw [converse, receive, bind_assoc, List.flatten_nil, List.append_nil]
    simp
  | cons piece pieces ih =>
    rw [converse, receive, bind_assoc, List.flatten_cons, frames_append, allM_append, bind_assoc]
    refine bind_congr fun goesOn => ?_
    rw [pure_bind]
    cases goesOn with
    | false => simp
    | true =>
      cases hGrows : mayGrow (remainder bs) with
      | true =>
        simp [ih]
      | false =>
        simp [frames_append_of_not_mayGrow hGrows]

end Connections

end RecordStore.Wire
