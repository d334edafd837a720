import RecordStore.Json.Fault

/-!
# Texts in JSON

Inside quotes a backslash starts an escape: one of eight letters, or `u` with four hexadecimal
digits. Characters beyond the first 65536 are written as a pair of such codes, and half a pair on
its own is a fault. Controls must be escaped. Written texts use the short escapes where there are
any and escape nothing that need not be.

## Main results

- `readText_length`: what follows a text is shorter than what starts inside it.
-/

namespace RecordStore.Json

open Text (byteLength)

/-! ## Reading -/

/-- The value of a hexadecimal digit. -/
def hexValue? (c : Char) : Option Nat :=
  if c.isDigit then some (c.toNat - '0'.toNat)
  else if 'a' ≤ c ∧ c ≤ 'f' then some (c.toNat - 'a'.toNat + 10)
  else if 'A' ≤ c ∧ c ≤ 'F' then some (c.toNat - 'A'.toNat + 10)
  else none

/-- Four hexadecimal digits. Where fewer than four bytes are left, the text ends too early. -/
def readCode (cs : List Char) : Except Fault (Nat × List Char) :=
  if byteLength (cs.take 4) < 4 then .error .ended
  else
    match cs with
    | a :: b :: c :: d :: rest =>
      match hexValue? a, hexValue? b, hexValue? c, hexValue? d with
      | some a, some b, some c, some d => .ok (((a * 16 + b) * 16 + c) * 16 + d, rest)
      | _, _, _, _ => .error .malformed
    | _ => .error .malformed

/-- The second code of a pair, with its backslash. -/
def readPartner : List Char → Except Fault (Nat × List Char)
  | [] | ['\\'] => .error .ended
  | '\\' :: 'u' :: cs => readCode cs
  | _ => .error .malformed

/-- The character of a code, or of the pair that starts with it. -/
def readCodePoint (cs : List Char) : Except Fault (Char × List Char) := do
  let (first, cs) ← readCode cs
  if 0xDC00 ≤ first ∧ first ≤ 0xDFFF then throw .malformed
  else if 0xD800 ≤ first ∧ first ≤ 0xDBFF then
    let (second, cs) ← readPartner cs
    if 0xDC00 ≤ second ∧ second ≤ 0xDFFF then
      return (Char.ofNat (0x10000 + (first - 0xD800) * 0x400 + (second - 0xDC00)), cs)
    else throw .malformed
  else return (Char.ofNat first, cs)

/-- The letters that stand for a character after a backslash. -/
def shortEscapes : List (Char × Char) :=
  [('"', '"'), ('\\', '\\'), ('/', '/'), ('b', '\x08'), ('f', '\x0c'), ('n', '\n'), ('r', '\r'),
    ('t', '\t')]

/-- The character of an escape, after its backslash. -/
def readEscape : List Char → Except Fault (Char × List Char)
  | [] => .error .ended
  | letter :: cs =>
    match shortEscapes.lookup letter with
    | some c => .ok (c, cs)
    | none => if letter = 'u' then readCodePoint cs else .error .malformed

theorem readCode_length {cs rest : List Char} {n : Nat} (h : readCode cs = .ok (n, rest)) :
    rest.length < cs.length := by
  unfold readCode at h
  split at h
  · cases h
  · split at h
    · split at h
      · cases h; simp only [List.length_cons]; omega
      · cases h
    · cases h

theorem readPartner_length {cs rest : List Char} {n : Nat} (h : readPartner cs = .ok (n, rest)) :
    rest.length < cs.length := by
  unfold readPartner at h
  split at h
  · cases h
  · cases h
  · have := readCode_length h
    simp only [List.length_cons]
    omega
  · cases h

theorem readCodePoint_length {cs rest : List Char} {c : Char}
    (h : readCodePoint cs = .ok (c, rest)) : rest.length < cs.length := by
  unfold readCodePoint at h
  cases hFirst : readCode cs with
  | error e => rw [hFirst] at h; cases h
  | ok p =>
    obtain ⟨first, cs₁⟩ := p
    have h₁ := readCode_length hFirst
    rw [hFirst] at h
    simp only [bind, Except.bind] at h
    split at h
    · cases h
    · split at h
      · cases hSecond : readPartner cs₁ with
        | error e => rw [hSecond] at h; cases h
        | ok p =>
          obtain ⟨second, cs₂⟩ := p
          have h₂ := readPartner_length hSecond
          rw [hSecond] at h
          simp only at h
          split at h
          · simp only [pure, Except.pure, Except.ok.injEq, Prod.mk.injEq] at h
            obtain ⟨-, rfl⟩ := h
            omega
          · cases h
      · simp only [pure, Except.pure, Except.ok.injEq, Prod.mk.injEq] at h
        obtain ⟨-, rfl⟩ := h
        exact h₁

theorem readEscape_length {cs rest : List Char} {c : Char} (h : readEscape cs = .ok (c, rest)) :
    rest.length < cs.length := by
  cases cs with
  | nil => cases h
  | cons letter cs =>
    simp only [readEscape] at h
    split at h
    · cases h; simp
    · split at h
      · have := readCodePoint_length h
        simp only [List.length_cons]
        omega
      · cases h

/-- The characters up to the closing quote, and what follows it. -/
def readText (cs : List Char) : Except Fault (List Char × List Char) :=
  match cs with
  | [] => .error .ended
  | c :: cs =>
    if c = '"' then .ok ([], cs)
    else if c = '\\' then
      match h : readEscape cs with
      | .error fault => .error fault
      | .ok (e, rest) =>
        have : rest.length < cs.length := readEscape_length h
        (readText rest).map fun (text, after) => (e :: text, after)
    else if c.toNat < 0x20 then .error .malformed
    else (readText cs).map fun (text, after) => (c :: text, after)
termination_by cs.length

theorem readText_length (cs : List Char) :
    ∀ {text rest : List Char}, readText cs = .ok (text, rest) → rest.length < cs.length := by
  fun_induction readText cs with
  | case1 => intro text rest h; cases h
  | case2 cs => intro text rest h; cases h; simp
  | case3 => intro text rest h; cases h
  | case4 cs e tail hEscape hLt hQuote ih =>
    intro text rest h
    cases hTail : readText tail with
    | error fault => rw [hTail] at h; cases h
    | ok p =>
      rw [hTail] at h
      cases h
      have := ih hTail
      simp only [List.length_cons]
      omega
  | case5 => intro text rest h; cases h
  | case6 c cs hQuote hSlash hControl ih =>
    intro text rest h
    cases hTail : readText cs with
    | error fault => rw [hTail] at h; cases h
    | ok p =>
      rw [hTail] at h
      cases h
      have := ih hTail
      simp only [List.length_cons]
      omega

/-! ## Writing -/

/-- A character as it is written inside quotes. -/
def writeChar (c : Char) : List Char :=
  if c = '"' ∨ c = '\\' then ['\\', c]
  else if c = '\x08' then ['\\', 'b']
  else if c = '\t' then ['\\', 't']
  else if c = '\n' then ['\\', 'n']
  else if c = '\x0c' then ['\\', 'f']
  else if c = '\r' then ['\\', 'r']
  else if c.toNat < 0x20 then
    ['\\', 'u', '0', '0', Nat.digitChar (c.toNat / 16), Nat.digitChar (c.toNat % 16)]
  else [c]

/-- A text with its quotes. -/
def writeText (s : String) : List Char := '"' :: s.toList.flatMap writeChar ++ ['"']

end RecordStore.Json
