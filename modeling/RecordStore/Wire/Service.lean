import RecordStore.Wire.Reply
import RecordStore.Wire.Request

/-!
# Serving clients

A client sends frames: the number of bytes in four bytes, the highest first, and then the bytes of a
request. Each complete frame is answered by one frame, in order, whatever the request says. A frame
that is incomplete or longer than the limit ends the connection without an answer, and so does a
reply whose length does not fit into four bytes.

The bytes of a client arrive in pieces. A connection answers a frame as soon as it is complete and
keeps what follows it.

## Main results

- `nextFrame?_length`: what follows a frame is shorter than the bytes that start with it.
- `frames_of_none`, `frames_of_some`: how bytes fall into frames.
- `remainder_of_none`, `remainder_of_some`: what follows the frames.
-/

namespace RecordStore.Wire

/-- The longest request, in bytes. -/
def maxFrame : Nat := 16 * 1024 * 1024

/-- The request in the first frame, and what follows the frame. -/
def nextFrame? (bs : List UInt8) : Option (List UInt8 × List UInt8) :=
  match readNat 4 bs with
  | .error _ => none
  | .ok (size, rest) =>
    if maxFrame < size then none else (readBytes size rest).toOption

theorem nextFrame?_length {bs payload rest : List UInt8}
    (h : nextFrame? bs = some (payload, rest)) : rest.length < bs.length := by
  simp only [nextFrame?] at h
  split at h
  · cases h
  · next size tail hSize =>
    split at h
    · cases h
    · cases hBytes : readBytes size tail with
      | error e => simp [hBytes, Except.toOption] at h
      | ok r =>
        rw [hBytes] at h
        cases h
        have hTail := (readBytes_length hBytes).2
        simp only [readNat, bind, Except.bind] at hSize
        split at hSize
        · cases hSize
        · next r hRead =>
          cases hSize
          have := readBytes_length hRead
          simp only [this.2, List.length_append, hTail, this.1]
          omega

/-- The requests in the complete frames at the front. -/
def frames (bs : List UInt8) : List (List UInt8) :=
  match _hNext : nextFrame? bs with
  | none => []
  | some (payload, rest) => payload :: frames rest
termination_by bs.length
decreasing_by exact nextFrame?_length (by assumption)

theorem frames_of_none {bs : List UInt8} (h : nextFrame? bs = none) : frames bs = [] := by
  rw [frames]
  split
  · rfl
  · next hSome => simp [h] at hSome

theorem frames_of_some {bs payload rest : List UInt8}
    (h : nextFrame? bs = some (payload, rest)) : frames bs = payload :: frames rest := by
  rw [frames]
  split
  · next hNone => simp [h] at hNone
  · next hSome => rw [h] at hSome; cases hSome; rfl

/-- What follows the complete frames at the front. -/
def remainder (bs : List UInt8) : List UInt8 :=
  match _hNext : nextFrame? bs with
  | none => bs
  | some (_, rest) => remainder rest
termination_by bs.length
decreasing_by exact nextFrame?_length (by assumption)

theorem remainder_of_none {bs : List UInt8} (h : nextFrame? bs = none) : remainder bs = bs := by
  rw [remainder]
  split
  · rfl
  · next hSome => simp [h] at hSome

theorem remainder_of_some {bs payload rest : List UInt8}
    (h : nextFrame? bs = some (payload, rest)) : remainder bs = remainder rest := by
  rw [remainder]
  split
  · next hNone => simp [h] at hNone
  · next hSome => rw [h] at hSome; cases hSome; rfl

/-- Whether bytes without a complete frame can still grow into one. -/
def mayGrow (bs : List UInt8) : Bool :=
  match readNat 4 bs with
  | .ok (size, _) => size ≤ maxFrame
  | .error _ => true

/-- Bytes as a frame. -/
def framed (payload : List UInt8) : List UInt8 := bigEndian 4 payload.length ++ payload

/-! ## Connections -/

section Connections

variable {n : Type → Type} [Monad n]

/-- Sends a reply and tells whether the connection goes on. A reply whose length does not fit into four
bytes is not sent and ends it. -/
def sendReply (send : List UInt8 → n Unit) (r : Reply) : n Bool := do
  let payload := r.toBytes
  if payload.length < twos 32 then
    send (framed payload)
    return true
  else return false

/-- Has the complete frames at the front answered. What follows them is kept, unless the connection
is at its end. -/
def receive (answer : List UInt8 → n Bool) (bs : List UInt8) : n (Option (List UInt8)) := do
  let goesOn ← (frames bs).allM answer
  return if goesOn && mayGrow (remainder bs) then some (remainder bs) else none

/-- A connection on which bytes arrive in pieces, after those that are already there. -/
def converse (answer : List UInt8 → n Bool) (bs : List UInt8) : List (List UInt8) → n Unit
  | [] => do
    let _ ← receive answer bs
    return ()
  | piece :: pieces => do
    match ← receive answer bs with
    | some rest => converse answer (rest ++ piece) pieces
    | none => return ()

end Connections

variable {m : Type → Type} [Monad m]

/-- The reply to the bytes of a request. -/
def reply (b : Storage.Backend m) (clock : m Moment) (payload : List UInt8) :
    StateT Session m Reply := do
  match Request.ofBytes payload with
  | .error fault => return .error fault.message
  | .ok request =>
    let now ← StateT.lift clock
    match ← (Session.dispatch b request.mode request.statement request.parameters now).run with
    | .ok (output, stats) => return .result output stats
    | .error e => return .error e.message

/-- Answers the bytes of a request. The frames that are sent are kept in their order. -/
def answer (b : Storage.Backend m) (clock : m Moment) (payload : List UInt8) :
    StateT (List (List UInt8)) (StateT Session m) Bool := do
  let reply ← StateT.lift (reply b clock payload)
  sendReply (fun frame => modify fun sent => sent ++ [frame]) reply

/-- The frames that are sent to a client whose bytes arrive in pieces. -/
def serve (b : Storage.Backend m) (clock : m Moment) (pieces : List (List UInt8)) :
    StateT Session m (List (List UInt8)) := do
  let ((), sent) ← (converse (answer b clock) [] pieces).run []
  return sent

end RecordStore.Wire
