import RecordStore.Json.Number
import RecordStore.Json.Text

/-!
# The front of a JSON value

A reader decides by the front of a value whether it fits: a scalar is read whole, of a sequence or
map only the opening bracket. `nextElement` and `nextKey` step through what is inside the brackets.

## Main results

- `readHead_length`, `nextElement_length`, `nextKey_length`, `readColon_length`: each step leaves
  less to read, so loops over elements and keys end.
-/

namespace RecordStore.Json

/-- The characters that may stand between the parts of a document. -/
def isBlank (c : Char) : Bool := c == ' ' || c == '\t' || c == '\n' || c == '\r'

/-- What follows the blanks at the front. -/
def skipBlanks (cs : List Char) : List Char := cs.dropWhile isBlank

theorem skipBlanks_length (cs : List Char) : (skipBlanks cs).length ≤ cs.length :=
  (List.dropWhile_sublist _).length_le

/-- A value without parts. -/
inductive Scalar where
  | null
  | bool (value : Bool)
  | number (value : Number)
  | text (value : String)

/-- The front of a value. -/
inductive Head where
  | scalar (value : Scalar)
  | sequence
  | map

/-- What a front is called where something else was expected. -/
def Head.found : Head → Found
  | scalar .null => .null
  | scalar (.bool b) => .bool b
  | scalar (.number (.unsigned n)) => .integer n
  | scalar (.number (.signed i)) => .integer i
  | scalar (.number (.double b)) => .double b
  | scalar (.text s) => .text s
  | sequence => .sequence
  | map => .map

/-- The fault of a front that does not fit. -/
def Head.misplaced (head : Head) (expected : Expected) : Fault :=
  .mismatch (.wrongType head.found expected)

/-- The rest of a word, letter by letter. -/
def readWord : List Char → List Char → Except Fault (List Char)
  | [], cs => .ok cs
  | _ :: _, [] => .error .ended
  | w :: ws, c :: cs => if c = w then readWord ws cs else .error .malformed

/-- The front of the next value, and what follows it. -/
def readHead (cs : List Char) : Except Fault (Head × List Char) :=
  match skipBlanks cs with
  | [] => .error .ended
  | c :: cs =>
    if c = '[' then .ok (.sequence, cs)
    else if c = '\x7b' then .ok (.map, cs)
    else if c = 'n' then (readWord ['u', 'l', 'l'] cs).map fun rest => (.scalar .null, rest)
    else if c = 't' then (readWord ['r', 'u', 'e'] cs).map fun rest => (.scalar (.bool true), rest)
    else if c = 'f' then
      (readWord ['a', 'l', 's', 'e'] cs).map fun rest => (.scalar (.bool false), rest)
    else if c = '"' then
      (readText cs).map fun (text, rest) => (.scalar (.text (String.ofList text)), rest)
    else if c = '-' then
      (readNumber true cs).map fun (number, rest) => (.scalar (.number number), rest)
    else if c.isDigit then
      (readNumber false (c :: cs)).map fun (number, rest) => (.scalar (.number number), rest)
    else .error .malformed

/-! ## Inside brackets -/

/-- Goes to the next element of a sequence and tells whether there is one; if not, the closing
bracket is passed. `first` tells that nothing has been read inside the brackets yet. -/
def nextElement (first : Bool) (cs : List Char) : Except Fault (Bool × List Char) :=
  match skipBlanks cs with
  | [] => .error .ended
  | c :: cs =>
    if c = ']' then .ok (false, cs)
    else if first then .ok (true, c :: cs)
    else if c = ',' then
      match skipBlanks cs with
      | [] => .error .ended
      | d :: cs => if d = ']' then .error .malformed else .ok (true, d :: cs)
    else .error .malformed

/-- Reads the next key of a map, if there is one; if not, the closing brace is passed. -/
def nextKey (first : Bool) (cs : List Char) : Except Fault (Option String × List Char) :=
  let key (cs : List Char) : Except Fault (Option String × List Char) :=
    (readText cs).map fun (text, rest) => (some (String.ofList text), rest)
  match skipBlanks cs with
  | [] => .error .ended
  | c :: cs =>
    if c = '\x7d' then .ok (none, cs)
    else if first then (if c = '"' then key cs else .error .malformed)
    else if c = ',' then
      match skipBlanks cs with
      | [] => .error .ended
      | d :: cs => if d = '"' then key cs else .error .malformed
    else .error .malformed

/-- Passes the colon between a key and its value. -/
def readColon (cs : List Char) : Except Fault (List Char) :=
  match skipBlanks cs with
  | [] => .error .ended
  | c :: cs => if c = ':' then .ok cs else .error .malformed

/-! ## Progress -/

theorem readWord_length {ws cs rest : List Char} (h : readWord ws cs = .ok rest) :
    rest.length ≤ cs.length := by
  induction ws generalizing cs with
  | nil => cases h; exact Nat.le_refl _
  | cons w ws ih =>
    cases cs with
    | nil => cases h
    | cons c cs =>
      simp only [readWord] at h
      split at h
      · exact Nat.le_succ_of_le (ih h)
      · cases h

private theorem map_ok {α β : Type} {r : Except Fault α} {f : α → β} {b : β}
    (h : r.map f = .ok b) : ∃ a, r = .ok a ∧ f a = b := by
  cases r with
  | error e => cases h
  | ok a => cases h; exact ⟨a, rfl, rfl⟩

theorem readHead_length {cs rest : List Char} {head : Head} (h : readHead cs = .ok (head, rest)) :
    rest.length < cs.length := by
  have hBlanks := skipBlanks_length cs
  unfold readHead at h
  split at h
  · cases h
  · next c tail hTail =>
    rw [hTail, List.length_cons] at hBlanks
    repeat' split at h
    · cases h; omega
    · cases h; omega
    · obtain ⟨r, hWord, hEq⟩ := map_ok h; cases hEq; have := readWord_length hWord; omega
    · obtain ⟨r, hWord, hEq⟩ := map_ok h; cases hEq; have := readWord_length hWord; omega
    · obtain ⟨r, hWord, hEq⟩ := map_ok h; cases hEq; have := readWord_length hWord; omega
    · obtain ⟨⟨t, r⟩, hText, hEq⟩ := map_ok h; cases hEq; have := readText_length _ hText; omega
    · obtain ⟨⟨n, r⟩, hNumber, hEq⟩ := map_ok h; cases hEq; have := readNumber_length hNumber; omega
    · obtain ⟨⟨n, r⟩, hNumber, hEq⟩ := map_ok h
      cases hEq
      have := readNumber_length hNumber
      rw [List.length_cons] at this
      omega
    · cases h

theorem nextElement_length {first more : Bool} {cs rest : List Char}
    (h : nextElement first cs = .ok (more, rest)) : rest.length ≤ cs.length := by
  have hBlanks := skipBlanks_length cs
  unfold nextElement at h
  split at h
  · cases h
  · next c tail hTail =>
    rw [hTail, List.length_cons] at hBlanks
    have hInner := skipBlanks_length tail
    repeat' split at h
    · cases h; omega
    · cases h; exact hBlanks
    · cases h
    · cases h
    · next hTail' _ =>
      cases h
      rw [hTail', List.length_cons] at hInner
      simp only [List.length_cons]
      omega
    · cases h

theorem nextKey_length {first : Bool} {cs rest : List Char} {key : Option String}
    (h : nextKey first cs = .ok (key, rest)) : rest.length < cs.length := by
  have hBlanks := skipBlanks_length cs
  unfold nextKey at h
  simp only at h
  split at h
  · cases h
  · next c tail hTail =>
    rw [hTail, List.length_cons] at hBlanks
    have hInner := skipBlanks_length tail
    repeat' split at h
    · cases h; omega
    · obtain ⟨⟨t, r⟩, hText, hEq⟩ := map_ok h
      cases hEq
      have := readText_length _ hText
      change r.length < _
      omega
    · cases h
    · cases h
    · next hTail' _ =>
      obtain ⟨⟨t, r⟩, hText, hEq⟩ := map_ok h
      cases hEq
      have := readText_length _ hText
      change r.length < _
      rw [hTail', List.length_cons] at hInner
      omega
    · cases h
    · cases h

theorem readColon_length {cs rest : List Char} (h : readColon cs = .ok rest) :
    rest.length < cs.length := by
  have hBlanks := skipBlanks_length cs
  unfold readColon at h
  split at h
  · cases h
  · next c tail hTail =>
    rw [hTail, List.length_cons] at hBlanks
    split at h
    · cases h; omega
    · cases h

end RecordStore.Json
