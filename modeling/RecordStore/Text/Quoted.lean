import RecordStore.Text.CharClass
import RecordStore.Text.Hidden

/-!
# Texts quoted in messages

A message that shows a text puts it in double quotes. The quote, the backslash and the common
controls have short escapes; every other character that would not be shown as itself is spelled as
its code point in hexadecimal digits between braces.

## Main results

- `quoted_of_plain`: a text without escaped characters stands between the quotes unchanged.
-/

namespace RecordStore.Text

/-- Whether a character is spelled as its code point. -/
def isHidden (c : Char) : Bool :=
  if c.toNat < 0x80 then c.toNat < 0x20 || c.toNat == 0x7F else inRanges hiddenRanges c.toNat

/-- A character as it stands in a quoted text. -/
def quotedChar (c : Char) : List Char :=
  if c = '\x00' then ['\\', '0']
  else if c = '\t' then ['\\', 't']
  else if c = '\r' then ['\\', 'r']
  else if c = '\n' then ['\\', 'n']
  else if c = '"' ∨ c = '\\' then ['\\', c]
  else if isHidden c then ['\\', 'u', '\x7b'] ++ Nat.toDigits 16 c.toNat ++ ['\x7d']
  else [c]

/-- A text in double quotes. -/
def quoted (cs : List Char) : List Char := '"' :: cs.flatMap quotedChar ++ ['"']

theorem quoted_of_plain {cs : List Char} (h : ∀ c ∈ cs, quotedChar c = [c]) :
    quoted cs = '"' :: cs ++ ['"'] := by
  have hFlat : cs.flatMap quotedChar = cs := by
    induction cs with
    | nil => rfl
    | cons c cs ih =>
      rw [List.flatMap_cons, h c List.mem_cons_self, ih fun d hd => h d (List.mem_cons_of_mem _ hd)]
      rfl
  rw [quoted, hFlat]

end RecordStore.Text
