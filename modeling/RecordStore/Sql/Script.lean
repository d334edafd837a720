import RecordStore.Sql.Token

/-!
# Scripts

A script is a text of several statements with semicolons between them. Semicolons inside quotes and
comments do not count. `Mode` says what the characters read so far leave open; a quote written twice
closes and opens again, which leaves the same open as before.

## Main results

- `pieces_ne_nil`: a text has at least one piece.
- `intercalate_pieces`: the pieces with semicolons between them are the text.
- `groups_append`: semicolons cut a list of tokens into groups.
-/

namespace RecordStore.Sql

/-- What is open between two characters of a script. -/
inductive Mode where
  | statement
  | quote (mark : Char)
  | comment
  deriving DecidableEq

/-- The three characters that open a quote. -/
def isQuoteMark (c : Char) : Bool := c == '\'' || c == '"' || c == '`'

/-- What is open after the character `c` that `rest` follows. -/
def Mode.step (mode : Mode) (c : Char) (rest : List Char) : Mode :=
  match mode with
  | statement =>
    if c = '-' ∧ rest.head? = some '-' then comment
    else if isQuoteMark c then quote c
    else statement
  | quote mark => if c = mark then statement else quote mark
  | comment => if c = '\n' then statement else comment

/-- The pieces of a text between the semicolons that separate statements. -/
def pieces (mode : Mode) : List Char → List (List Char)
  | [] => [[]]
  | c :: rest =>
    if mode = .statement ∧ c = ';' then [] :: pieces .statement rest
    else (pieces (mode.step c rest) rest).modifyHead (c :: ·)

/-- The pieces of a script that hold more than blanks. -/
def splitChars (cs : List Char) : List (List Char) :=
  (pieces .statement cs).filter fun piece => !piece.all Text.isBlank

/-- The pieces of a script that hold more than blanks, as texts. -/
def split (script : String) : List String := (splitChars script.toList).map String.ofList

theorem pieces_ne_nil (mode : Mode) (cs : List Char) : pieces mode cs ≠ [] := by
  induction cs generalizing mode with
  | nil => simp [pieces]
  | cons c rest ih =>
    simp only [pieces]
    split
    · simp
    · simpa using ih _

theorem intercalate_pieces (mode : Mode) (cs : List Char) :
    [';'].intercalate (pieces mode cs) = cs := by
  induction cs generalizing mode with
  | nil => rfl
  | cons c rest ih =>
    simp only [pieces]
    split
    · next h => rw [List.intercalate_cons_of_ne_nil (pieces_ne_nil _ _), ih, h.2]; rfl
    · have hTail := ih (mode.step c rest)
      cases hPieces : pieces (mode.step c rest) rest with
      | nil => exact absurd hPieces (pieces_ne_nil _ _)
      | cons piece others =>
        rw [hPieces] at hTail
        rw [List.modifyHead_cons, List.intercalate_cons_cons_left, hTail]

/-! ## Tokens of a script -/

/-- The groups of tokens between semicolons, without those that hold none. -/
def groups (ts : List Token) : List (List Token) :=
  (ts.splitOnP (· == .semicolon)).filter fun group => !group.isEmpty

theorem groups_append (ts us : List Token) :
    groups (ts ++ .semicolon :: us) = groups ts ++ groups us := by
  rw [groups, List.splitOnP_append_cons ts us (by simp), List.filter_append]
  rfl

end RecordStore.Sql
