import RecordStore.Sql.Number
import RecordStore.Sql.Statement

/-!
# The grammar of statements

The rules say which tokens spell a statement and its parts, each rule how a longer spelling is put
together from shorter ones. Keywords may have letters of any case and a quoted name is never one.
Any name may be that of a column or table, except that a comparison does not begin with the keyword
`NOT`, and that a reserved word does not rename a table unless `AS` stands in front of it.

A placeholder may have any number in the rules for its operand; it is the whole statement that has
its placeholders numbered in written order.

## Main results

- `isName_iff`: a token names what it holds, quoted or not.
- `SpellsList.ne_nil`, `SpellsList.length_pos`: a list has one item at least.
- `SpellsCondition.group`: a condition that is a factor may stand where any condition may.
-/

namespace RecordStore.Sql.Grammar

/-! ## Names and keywords -/

/-- A token is a name, quoted or not. -/
inductive IsName : Token → String → Prop
  | bare (s : String) : IsName (.name s) s
  | quoted (s : String) : IsName (.quotedName s) s

theorem isName_iff {t : Token} {s : String} : IsName t s ↔ t.name? = some s := by
  constructor
  · rintro (_ | _) <;> rfl
  · cases t <;> intro h <;> cases h
    · exact .bare _
    · exact .quoted _

/-- Tokens are the words of a list, as keywords. -/
inductive SpellsWords : List String → List Token → Prop
  | nil : SpellsWords [] []
  | cons {word : String} {words : List String} {t : Token} {ts : List Token} :
    t.isKeyword word = true → SpellsWords words ts → SpellsWords (word :: words) (t :: ts)

/-- A token is the name of a table. -/
def IsTable (t : Token) (table : Table) : Prop :=
  ∃ s, IsName t s ∧ Text.sameFolded table.name s = true

/-! ## Lists and clauses that may be absent -/

/-- Items with commas between them, one at least. -/
inductive SpellsList {α : Type} (item : List Token → α → Prop) : List Token → List α → Prop
  | single {ts : List Token} {a : α} : item ts a → SpellsList item ts [a]
  | cons {ts us : List Token} {a : α} {as : List α} :
    item ts a → SpellsList item us as → SpellsList item (ts ++ .comma :: us) (a :: as)

/-- A clause, or nothing. -/
inductive SpellsOption {α : Type} (clause : List Token → α → Prop) : List Token → Option α → Prop
  | none : SpellsOption clause [] none
  | some {ts : List Token} {a : α} : clause ts a → SpellsOption clause ts (some a)

theorem SpellsList.ne_nil {α : Type} {item : List Token → α → Prop} {ts : List Token} {as : List α}
    (h : SpellsList item ts as) : as ≠ [] := by
  cases h <;> simp

theorem SpellsList.length_pos {α : Type} {item : List Token → α → Prop} {ts : List Token}
    {as : List α} (h : SpellsList item ts as) : 0 < as.length :=
  List.length_pos_iff.2 h.ne_nil

/-! ## Columns, tables and values -/

/-- A column: a name, or two with a point between them. -/
inductive SpellsColumn : List Token → Column → Prop
  | plain {t : Token} {s : String} : IsName t s → SpellsColumn [t] ⟨none, s⟩
  | qualified {t u : Token} {q s : String} :
    IsName t q → IsName u s → SpellsColumn [t, .dot, u] ⟨some q, s⟩

/-- A table, possibly renamed. -/
inductive SpellsSource : List Token → Source → Prop
  | plain {t : Token} {table : Table} : IsTable t table → SpellsSource [t] ⟨table, none⟩
  | renamed {t word u : Token} {table : Table} {s : String} :
    IsTable t table → word.isKeyword "AS" = true → IsName u s →
      SpellsSource [t, word, u] ⟨table, some s⟩
  | quotedAlias {t : Token} {table : Table} {s : String} :
    IsTable t table → SpellsSource [t, .quotedName s] ⟨table, some s⟩
  | bareAlias {t : Token} {table : Table} {s : String} :
    IsTable t table → (∀ word ∈ reservedWords, Text.sameFolded word s = false) →
      SpellsSource [t, .name s] ⟨table, some s⟩

/-- A value: a placeholder, a literal or the current time. -/
inductive SpellsOperand : List Token → Operand → Prop
  | placeholder (index : Nat) : SpellsOperand [.placeholder] (.placeholder index)
  | text (s : String) : SpellsOperand [.text s] (.literal (.text s))
  | number {digits : String} {d : Datum} :
    numberValue? false digits.toList = some d → SpellsOperand [.number digits] (.literal d)
  | negative {digits : String} {d : Datum} :
    numberValue? true digits.toList = some d → SpellsOperand [.minus, .number digits] (.literal d)
  | null {t : Token} : t.isKeyword "NULL" = true → SpellsOperand [t] (.literal .null)
  | isTrue {t : Token} : t.isKeyword "TRUE" = true → SpellsOperand [t] (.literal (.bool true))
  | isFalse {t : Token} : t.isKeyword "FALSE" = true → SpellsOperand [t] (.literal (.bool false))
  | now {t : Token} : t.isKeyword "CURRENT_TIMESTAMP" = true → SpellsOperand [t] .now
  | nowCall {t : Token} {s : String} :
    t.isKeyword "DATETIME" = true → Text.sameFolded "now" s = true →
      SpellsOperand [t, .leftParen, .text s, .rightParen] .now

/-! ## Conditions -/

/-- How tightly the parts of a condition hold together. -/
inductive Level where
  | disjunction
  | conjunction
  | factor
  deriving DecidableEq, Repr

/-- Whether tokens begin with the keyword `NOT`. -/
def beginsWithNot (ts : List Token) : Bool := ts.head?.any (Token.isKeyword "NOT")

/-- A condition: `OR` joins conjunctions and `AND` joins factors, both from the left; a factor is a
comparison, a negated factor or a condition in parentheses. -/
inductive SpellsCondition : Level → List Token → Condition → Prop
  | compare {ts us : List Token} {column : Column} {op : Comparator} {operand : Operand} :
    SpellsColumn ts column → beginsWithNot ts = false → SpellsOperand us operand →
      SpellsCondition .factor (ts ++ .comparator op :: us) (.compare ⟨column, op, operand⟩)
  | not {t : Token} {ts : List Token} {c : Condition} :
    t.isKeyword "NOT" = true → SpellsCondition .factor ts c →
      SpellsCondition .factor (t :: ts) (.not c)
  | parentheses {ts : List Token} {c : Condition} :
    SpellsCondition .disjunction ts c →
      SpellsCondition .factor (.leftParen :: ts ++ [.rightParen]) c
  | factor {ts : List Token} {c : Condition} :
    SpellsCondition .factor ts c → SpellsCondition .conjunction ts c
  | and {t : Token} {ts us : List Token} {l r : Condition} :
    SpellsCondition .conjunction ts l → t.isKeyword "AND" = true → SpellsCondition .factor us r →
      SpellsCondition .conjunction (ts ++ t :: us) (.and l r)
  | conjunction {ts : List Token} {c : Condition} :
    SpellsCondition .conjunction ts c → SpellsCondition .disjunction ts c
  | or {t : Token} {ts us : List Token} {l r : Condition} :
    SpellsCondition .disjunction ts l → t.isKeyword "OR" = true →
      SpellsCondition .conjunction us r → SpellsCondition .disjunction (ts ++ t :: us) (.or l r)

/-- A factor may stand where any condition may. -/
theorem SpellsCondition.group {ts : List Token} {c : Condition}
    (h : SpellsCondition .factor ts c) (level : Level) : SpellsCondition level ts c :=
  match level with
  | .factor => h
  | .conjunction => .factor h
  | .disjunction => .conjunction (.factor h)

/-! ## Clauses -/

/-- A condition after `WHERE`. -/
inductive SpellsWhere : List Token → Condition → Prop
  | mk {t : Token} {ts : List Token} {c : Condition} :
    t.isKeyword "WHERE" = true → SpellsCondition .disjunction ts c → SpellsWhere (t :: ts) c

/-- A column set to a value. -/
inductive SpellsAssignment : List Token → Assignment → Prop
  | mk {t : Token} {ts : List Token} {column : String} {value : Operand} :
    IsName t column → SpellsOperand ts value →
      SpellsAssignment (t :: .comparator .equal :: ts) ⟨column, value⟩

/-- Something that a query returns. -/
inductive SpellsItem : List Token → Item → Prop
  | everything : SpellsItem [.star] .everything
  | allOf {t : Token} {q : String} : IsName t q → SpellsItem [t, .dot, .star] (.allOf q)
  | column {ts : List Token} {c : Column} : SpellsColumn ts c → SpellsItem ts (.column c)

/-- A second table with the columns that have to agree. -/
inductive SpellsJoin : List Token → Join → Prop
  | mk {words onWord ts ls rs : List Token} {source : Source} {left right : Column} :
    SpellsWords ["JOIN"] words ∨ SpellsWords ["INNER", "JOIN"] words → SpellsSource ts source →
      SpellsWords ["ON"] onWord → SpellsColumn ls left → SpellsColumn rs right →
      SpellsJoin (words ++ ts ++ onWord ++ ls ++ .comparator .equal :: rs) ⟨source, left, right⟩

/-- The column to sort by, upwards unless `DESC` follows. -/
inductive SpellsSort : List Token → SortClause → Prop
  | plain {words ts : List Token} {column : Column} :
    SpellsWords ["ORDER", "BY"] words → SpellsColumn ts column →
      SpellsSort (words ++ ts) ⟨column, true⟩
  | upwards {words ts us : List Token} {column : Column} :
    SpellsWords ["ORDER", "BY"] words → SpellsColumn ts column → SpellsWords ["ASC"] us →
      SpellsSort (words ++ ts ++ us) ⟨column, true⟩
  | downwards {words ts us : List Token} {column : Column} :
    SpellsWords ["ORDER", "BY"] words → SpellsColumn ts column → SpellsWords ["DESC"] us →
      SpellsSort (words ++ ts ++ us) ⟨column, false⟩

/-- The largest number of rows. -/
inductive SpellsLimit : List Token → Nat → Prop
  | mk {t : Token} {digits : String} {n : Nat} :
    t.isKeyword "LIMIT" = true → rowCount? digits.toList = some n →
      SpellsLimit [t, .number digits] n

/-! ## Statements -/

/-- A statement without what may follow it. -/
inductive SpellsStatement : List Token → Statement → Prop
  | insert {verb valuesWord ns os : List Token} {t : Token} {table : Table} {columns : List String}
      {operands : List Operand} :
    SpellsWords ["INSERT", "INTO"] verb → IsTable t table →
      SpellsList (fun ts s => ∃ u, ts = [u] ∧ IsName u s) ns columns →
      SpellsWords ["VALUES"] valuesWord → SpellsList SpellsOperand os operands →
      columns.length = operands.length →
      SpellsStatement
        (verb ++ t :: .leftParen :: ns ++ .rightParen :: valuesWord ++ .leftParen :: os ++
          [.rightParen])
        (.insert table columns operands)
  | update {verb setWord ts ws : List Token} {t : Token} {table : Table}
      {assignments : List Assignment} {condition : Option Condition} :
    SpellsWords ["UPDATE"] verb → IsTable t table → SpellsWords ["SET"] setWord →
      SpellsList SpellsAssignment ts assignments → SpellsOption SpellsWhere ws condition →
      SpellsStatement (verb ++ t :: setWord ++ ts ++ ws) (.update table assignments condition)
  | delete {verb ws : List Token} {t : Token} {table : Table} {condition : Option Condition} :
    SpellsWords ["DELETE", "FROM"] verb → IsTable t table →
      SpellsOption SpellsWhere ws condition →
      SpellsStatement (verb ++ t :: ws) (.delete table condition)
  | select {verb fromWord items ts js ws ss ls : List Token} {q : Query} :
    SpellsWords ["SELECT"] verb → SpellsList SpellsItem items q.items →
      SpellsWords ["FROM"] fromWord → SpellsSource ts q.source → SpellsOption SpellsJoin js q.join →
      SpellsOption SpellsWhere ws q.condition → SpellsOption SpellsSort ss q.sort →
      SpellsOption SpellsLimit ls q.limit →
      SpellsStatement (verb ++ items ++ fromWord ++ ts ++ js ++ ws ++ ss ++ ls) (.select q)

/-- The number of an operand that is a placeholder. -/
def placeholder? : Operand → Option Nat
  | .placeholder i => some i
  | _ => none

/-- The numbers of the placeholders of a statement, in written order. -/
def placeholders (s : Statement) : List Nat := s.operands.filterMap placeholder?

/-- Tokens derive a statement if they spell it, semicolons may follow, and its placeholders are
numbered from zero in written order. -/
def Derives (ts : List Token) (s : Statement) : Prop :=
  ∃ body count, ts = body ++ List.replicate count .semicolon ∧ SpellsStatement body s ∧
    placeholders s = List.range (placeholders s).length

/-- Deleting everything is spelled by three tokens. -/
example : Derives [.name "delete", .name "FROM", .quotedName "Users", .semicolon]
    (.delete .users none) :=
  ⟨[.name "delete", .name "FROM", .quotedName "Users"], 1, rfl,
    .delete (.cons (by decide) (.cons (by decide) .nil)) ⟨"Users", .quoted _, by decide⟩ .none, rfl⟩

end RecordStore.Sql.Grammar
