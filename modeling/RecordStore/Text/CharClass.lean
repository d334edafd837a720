import RecordStore.Text.Alphabetic
import RecordStore.Text.Numeric

/-!
# Character classes of the statement language

Blanks, letters and digits are those of Unicode: the properties `White_Space` and `Alphabetic`, and
the general categories of numbers. ASCII is tested directly and everything above it is looked up in
the range tables, so a class of an ASCII character is decided without touching a table.

Names and keywords are compared by `sameFolded`, which ignores the case of ASCII letters only.

## Main results

- `isBlank_of_isWhitespace`: every blank of the core library is a blank here.
- `not_isAlphanumeric_of_isBlank`, `not_isAlphabetic_of_isBlank`: no blank is a letter or digit.
- `sameFolded_refl`, `sameFolded_symm`, `sameFolded_trans`: folding gives an equivalence.
-/

namespace RecordStore.Text

/-- Whether `n` lies in one of the ranges, ends included. -/
def inRanges (ranges : List (Nat × Nat)) (n : Nat) : Bool :=
  ranges.any fun range => range.1.ble n && n.ble range.2

/-- The characters with the property `White_Space`. -/
def blanks : List Char :=
  ['\t', '\n', '\x0b', '\x0c', '\r', ' ', '\u0085', '\u00a0', '\u1680', '\u2000', '\u2001', '\u2002',
    '\u2003', '\u2004', '\u2005', '\u2006', '\u2007', '\u2008', '\u2009', '\u200a', '\u2028', '\u2029',
    '\u202f', '\u205f', '\u3000']

/-- A character that separates tokens and is trimmed from texts. -/
def isBlank (c : Char) : Bool := blanks.contains c

/-- A letter of any script. -/
def isAlphabetic (c : Char) : Bool :=
  if c.toNat < 0x80 then c.isAlpha else inRanges alphabeticRanges c.toNat

/-- A digit or other numeric character of any script. -/
def isNumeric (c : Char) : Bool :=
  if c.toNat < 0x80 then c.isDigit else inRanges numericRanges c.toNat

/-- A letter, digit or other numeric character of any script. -/
def isAlphanumeric (c : Char) : Bool := isAlphabetic c || isNumeric c

/-- A text with the blanks at both ends taken away. -/
def trim (cs : List Char) : List Char :=
  ((cs.dropWhile isBlank).reverse.dropWhile isBlank).reverse

/-! ## Case -/

/-- The characters of a name with ASCII letters in lower case. -/
def folded (s : String) : List Char := s.toList.map Char.toLower

/-- Equality of names up to the case of ASCII letters. -/
def sameFolded (a b : String) : Bool := folded a == folded b

theorem sameFolded_iff {a b : String} : sameFolded a b = true ↔ folded a = folded b := by
  simp [sameFolded]

theorem sameFolded_refl (a : String) : sameFolded a a = true := by simp [sameFolded]

theorem sameFolded_symm {a b : String} (h : sameFolded a b = true) : sameFolded b a = true :=
  sameFolded_iff.2 (sameFolded_iff.1 h).symm

theorem sameFolded_trans {a b c : String} (hab : sameFolded a b = true)
    (hbc : sameFolded b c = true) : sameFolded a c = true :=
  sameFolded_iff.2 ((sameFolded_iff.1 hab).trans (sameFolded_iff.1 hbc))

/-- The number of bytes the characters take in UTF-8. -/
def byteLength : List Char → Nat
  | [] => 0
  | c :: cs => c.utf8Size + byteLength cs

@[simp] theorem byteLength_nil : byteLength [] = 0 := rfl

@[simp] theorem byteLength_cons (c : Char) (cs : List Char) :
    byteLength (c :: cs) = c.utf8Size + byteLength cs := rfl

@[simp] theorem byteLength_append (as bs : List Char) :
    byteLength (as ++ bs) = byteLength as + byteLength bs := by
  induction as with
  | nil => simp
  | cons a as ih => simp [ih, Nat.add_assoc]

theorem byteLength_eq_utf8ByteSize (cs : List Char) :
    byteLength cs = (String.ofList cs).utf8ByteSize := by
  induction cs with
  | nil => simp
  | cons c cs ih =>
    rw [byteLength, ih, String.ofList_cons, String.utf8ByteSize_append, String.utf8ByteSize_singleton]

/-! ## Runs -/

theorem takeWhile_append_stop {α : Type} {p : α → Bool} {xs ys : List α}
    (hAll : ∀ x ∈ xs, p x = true) (hStop : ∀ y ∈ ys.head?, p y = false) :
    (xs ++ ys).takeWhile p = xs := by
  rw [List.takeWhile_append_of_pos hAll]
  cases ys with
  | nil => simp
  | cons y ys => simp [hStop y rfl]

theorem dropWhile_append_stop {α : Type} {p : α → Bool} {xs ys : List α}
    (hAll : ∀ x ∈ xs, p x = true) (hStop : ∀ y ∈ ys.head?, p y = false) :
    (xs ++ ys).dropWhile p = ys := by
  rw [List.dropWhile_append_of_pos hAll]
  cases ys with
  | nil => rfl
  | cons y ys => simp [hStop y rfl]

/-! ## The classes are apart -/

theorem isBlank_of_isWhitespace {c : Char} (h : c.isWhitespace = true) : isBlank c = true := by
  simp only [Char.isWhitespace, Bool.or_eq_true, decide_eq_true_eq] at h
  rcases h with ((rfl | rfl) | rfl) | rfl <;> decide

theorem not_isAlphanumeric_of_isBlank {c : Char} (h : isBlank c = true) :
    isAlphanumeric c = false := by
  have hAll : (blanks.all fun d => !isAlphanumeric d) = true := by decide +kernel
  have hBlank := List.all_eq_true.1 hAll c (List.contains_iff_mem.1 h)
  simpa using hBlank

theorem not_isAlphabetic_of_isBlank {c : Char} (h : isBlank c = true) : isAlphabetic c = false := by
  have hNot := not_isAlphanumeric_of_isBlank h
  simp only [isAlphanumeric, Bool.or_eq_false_iff] at hNot
  exact hNot.1

end RecordStore.Text
