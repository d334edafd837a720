import RecordStore.Proofs.ReadingStatements
import RecordStore.Sql.Substitution

/-!
# Question marks of a statement

A question mark stands for a value wherever it stands, so the tokens that spell a statement hold as
many of them as the statement has placeholders (`Marks`). The grammar is gone through rule by rule:
names, keywords and signs are no question marks, and an operand is one question mark or none.

The placeholders of a statement that was read are the numbers from zero on. The number of values
they need is one more than the largest of them, which is how many there are.

## Main results

- `marks_statement`: the tokens of a statement and its placeholders are equally many.
- `placeholders_of_ofTokens`: the placeholders of a statement that was read.
- `placeholderCount_of_placeholders`: how many values numbered placeholders need.
-/

namespace RecordStore.Sql

open Grammar

namespace Grammar

/-- There are as many question marks among tokens as placeholders among operands. -/
def Marks (ts : List Token) (os : List Operand) : Prop :=
  ts.count .placeholder = (os.filterMap placeholder?).length

variable {α : Type} {t : Token} {ts us : List Token} {os ps : List Operand}

theorem Marks.nil : Marks [] [] := rfl

theorem Marks.append (hLeft : Marks ts os) (hRight : Marks us ps) :
    Marks (ts ++ us) (os ++ ps) := by
  rw [Marks] at hLeft hRight ⊢
  rw [List.count_append, List.filterMap_append, List.length_append, hLeft, hRight]

/-- A token that is no question mark changes nothing. -/
theorem Marks.cons (h : Marks ts os) (ht : t ≠ .placeholder) : Marks (t :: ts) os := by
  rw [Marks] at h ⊢
  rw [List.count_cons_of_ne ht, h]

/-- Nor does an operand that is no placeholder. -/
theorem Marks.cons_operand {o : Operand} (h : Marks ts os) (ho : placeholder? o = none) :
    Marks ts (o :: os) := by
  rw [Marks] at h ⊢
  rw [List.filterMap_cons_none ho, h]

/-! ## Names and keywords -/

theorem ne_placeholder_of_isName {s : String} (h : IsName t s) : t ≠ .placeholder := by
  cases h <;> exact Token.noConfusion

theorem ne_placeholder_of_isTable {table : Table} (h : IsTable t table) : t ≠ .placeholder := by
  obtain ⟨s, hName, -⟩ := h
  exact ne_placeholder_of_isName hName

theorem ne_placeholder_of_isKeyword {word : String} (h : t.isKeyword word = true) :
    t ≠ .placeholder := by
  obtain ⟨s, rfl, -⟩ := isKeyword_iff.1 h
  exact Token.noConfusion

theorem marks_words {words : List String} (h : SpellsWords words ts) : Marks ts [] := by
  induction h with
  | nil => exact .nil
  | cons hWord _ ih => exact ih.cons (ne_placeholder_of_isKeyword hWord)

theorem marks_column {c : Column} (h : SpellsColumn ts c) : Marks ts [] := by
  cases h with
  | plain hName => exact Marks.nil.cons (ne_placeholder_of_isName hName)
  | qualified hFirst hSecond =>
    have hLast := Marks.nil.cons (ne_placeholder_of_isName hSecond)
    exact (hLast.cons Token.noConfusion).cons (ne_placeholder_of_isName hFirst)

theorem marks_source {s : Source} (h : SpellsSource ts s) : Marks ts [] := by
  cases h with
  | plain hTable => exact Marks.nil.cons (ne_placeholder_of_isTable hTable)
  | renamed hTable hAs hName =>
    have hLast := Marks.nil.cons (ne_placeholder_of_isName hName)
    exact (hLast.cons (ne_placeholder_of_isKeyword hAs)).cons (ne_placeholder_of_isTable hTable)
  | quotedAlias hTable | bareAlias hTable =>
    exact (Marks.nil.cons Token.noConfusion).cons (ne_placeholder_of_isTable hTable)

/-! ## Operands and conditions -/

theorem marks_operand {o : Operand} (h : SpellsOperand ts o) : Marks ts [o] := by
  cases h with
  | placeholder => rfl
  | text | number | negative => rfl
  | null hWord | isTrue hWord | isFalse hWord | now hWord =>
    exact (Marks.nil.cons (ne_placeholder_of_isKeyword hWord)).cons_operand rfl
  | @nowCall t s hWord =>
    have hArgument : Marks [.leftParen, .text s, .rightParen] [.now] := rfl
    exact hArgument.cons (ne_placeholder_of_isKeyword hWord)

theorem marks_condition {level : Level} {c : Condition} (h : SpellsCondition level ts c) :
    Marks ts c.operands := by
  induction h with
  | compare hColumn _ hOperand =>
    exact (marks_column hColumn).append ((marks_operand hOperand).cons Token.noConfusion)
  | not hWord _ ih => exact ih.cons (ne_placeholder_of_isKeyword hWord)
  | parentheses _ ih =>
    have hClosed := (ih.cons (t := .leftParen) Token.noConfusion).append
      (Marks.nil.cons (t := .rightParen) Token.noConfusion)
    rwa [List.append_nil] at hClosed
  | factor _ ih | conjunction _ ih => exact ih
  | and _ hWord _ ihl ihr | or _ hWord _ ihl ihr =>
    exact ihl.append (ihr.cons (ne_placeholder_of_isKeyword hWord))

/-! ## Lists and clauses -/

theorem marks_list {item : List Token → α → Prop} {f : α → List Operand} {as : List α}
    (hItem : ∀ ts a, item ts a → Marks ts (f a)) (h : SpellsList item ts as) :
    Marks ts (as.flatMap f) := by
  induction h with
  | single hFirst =>
    rw [List.flatMap_singleton]
    exact hItem _ _ hFirst
  | cons hFirst _ ih =>
    rw [List.flatMap_cons]
    exact (hItem _ _ hFirst).append (ih.cons Token.noConfusion)

theorem marks_option {clause : List Token → α → Prop} {f : α → List Operand} {a : Option α}
    (hClause : ∀ ts a, clause ts a → Marks ts (f a)) (h : SpellsOption clause ts a) :
    Marks ts (a.elim [] f) := by
  cases h with
  | none => exact .nil
  | some hSome => exact hClause _ _ hSome

/-- A list without operands. -/
theorem marks_plain_list {item : List Token → α → Prop} {as : List α}
    (hItem : ∀ ts a, item ts a → Marks ts []) (h : SpellsList item ts as) : Marks ts [] := by
  have hList : Marks ts (as.flatMap fun _ => []) := marks_list hItem h
  rwa [List.flatMap_eq_nil_iff.2 fun _ _ => rfl] at hList

/-- A clause without operands. -/
theorem marks_plain_option {clause : List Token → α → Prop} {a : Option α}
    (hClause : ∀ ts a, clause ts a → Marks ts []) (h : SpellsOption clause ts a) : Marks ts [] := by
  cases h with
  | none => exact .nil
  | some hSome => exact hClause _ _ hSome

theorem marks_where (ts : List Token) (c : Condition) (h : SpellsWhere ts c) :
    Marks ts c.operands := by
  cases h with
  | mk hWord hCondition =>
    exact (marks_condition hCondition).cons (ne_placeholder_of_isKeyword hWord)

theorem marks_assignment (ts : List Token) (a : Assignment) (h : SpellsAssignment ts a) :
    Marks ts [a.value] := by
  cases h with
  | mk hName hOperand =>
    have hValue := (marks_operand hOperand).cons (t := .comparator .equal) Token.noConfusion
    exact hValue.cons (ne_placeholder_of_isName hName)

theorem marks_item (ts : List Token) (i : Item) (h : SpellsItem ts i) : Marks ts [] := by
  cases h with
  | everything => rfl
  | allOf hName =>
    have hTail : Marks [.dot, .star] [] := rfl
    exact hTail.cons (ne_placeholder_of_isName hName)
  | column hColumn => exact marks_column hColumn

theorem marks_join (ts : List Token) (j : Join) (h : SpellsJoin ts j) : Marks ts [] := by
  cases h with
  | mk hWords hSource hOn hLeft hRight =>
    have hJoin := hWords.elim marks_words marks_words
    have hFront := ((hJoin.append (marks_source hSource)).append (marks_words hOn)).append
      (marks_column hLeft)
    exact hFront.append ((marks_column hRight).cons Token.noConfusion)

theorem marks_sort (ts : List Token) (s : SortClause) (h : SpellsSort ts s) : Marks ts [] := by
  cases h with
  | plain hWords hColumn => exact (marks_words hWords).append (marks_column hColumn)
  | upwards hWords hColumn hEnd | downwards hWords hColumn hEnd =>
    exact ((marks_words hWords).append (marks_column hColumn)).append (marks_words hEnd)

theorem marks_limit (ts : List Token) (n : Nat) (h : SpellsLimit ts n) : Marks ts [] := by
  cases h with
  | mk hWord =>
    exact (Marks.nil.cons Token.noConfusion).cons (ne_placeholder_of_isKeyword hWord)

/-! ## Statements -/

/-- The tokens of a statement hold as many question marks as it has placeholders. -/
theorem marks_statement {s : Statement} (h : SpellsStatement ts s) : Marks ts s.operands := by
  cases h with
  | @insert verb valuesWord ns os t table columns operands hVerb hTable hNames hValues hOperands =>
    have hColumns : Marks ns [] := marks_plain_list
      (fun _ _ ⟨u, hTokens, hName⟩ => hTokens ▸ Marks.nil.cons (ne_placeholder_of_isName hName))
      hNames
    have hList : Marks os (operands.flatMap fun o => [o]) :=
      marks_list (fun _ _ => marks_operand) hOperands
    rw [List.flatMap_singleton'] at hList
    have hFront := (marks_words hVerb).append
      ((hColumns.cons (t := .leftParen) Token.noConfusion).cons (ne_placeholder_of_isTable hTable))
    have hMiddle := hFront.append
      ((marks_words hValues).cons (t := .rightParen) Token.noConfusion)
    have hBack := hMiddle.append (hList.cons (t := .leftParen) Token.noConfusion)
    have hWhole := hBack.append (Marks.nil.cons (t := .rightParen) Token.noConfusion)
    rwa [List.append_nil] at hWhole
  | @update verb setWord ts ws t table assignments condition hVerb hTable hSet hList hWhere =>
    have hValues : Marks ts (assignments.flatMap fun a => [a.value]) :=
      marks_list marks_assignment hList
    rw [← List.map_eq_flatMap] at hValues
    have hFront := (marks_words hVerb).append
      ((marks_words hSet).cons (ne_placeholder_of_isTable hTable))
    exact (hFront.append hValues).append (marks_option marks_where hWhere)
  | delete hVerb hTable hWhere =>
    exact (marks_words hVerb).append
      ((marks_option marks_where hWhere).cons (ne_placeholder_of_isTable hTable))
  | @select verb fromWord items ts js ws ss ls q hVerb hItems hFrom hSource hJoin hWhere hSort
      hLimit =>
    have hFront := (((marks_words hVerb).append (marks_plain_list marks_item hItems)).append
      (marks_words hFrom)).append (marks_source hSource)
    have hMiddle := (hFront.append (marks_plain_option marks_join hJoin)).append
      (marks_option marks_where hWhere)
    have hWhole := (hMiddle.append (marks_plain_option marks_sort hSort)).append
      (marks_plain_option marks_limit hLimit)
    rwa [List.append_nil, List.append_nil] at hWhole

/-- An insertion has as many values as columns. -/
theorem length_columns_of_spells {table : Table} {columns : List String} {values : List Operand}
    (h : SpellsStatement ts (.insert table columns values)) : columns.length = values.length := by
  cases h with
  | insert _ _ _ _ _ hLength => exact hLength

end Grammar

/-! ## Numbers of placeholders -/

theorem mem_placeholders_iff {s : Statement} {i : Nat} :
    i ∈ placeholders s ↔ Operand.placeholder i ∈ s.operands := by
  rw [placeholders, List.mem_filterMap]
  constructor
  · rintro ⟨o, hMem, hNumber⟩
    cases o with
    | placeholder j =>
      obtain rfl : j = i := Option.some.inj hNumber
      exact hMem
    | literal d => cases hNumber
    | now => cases hNumber
  · intro hMem
    exact ⟨_, hMem, rfl⟩

/-- Placeholders that are numbered from zero on need as many values as they are. -/
theorem placeholderCount_of_placeholders {s : Statement} {n : Nat}
    (h : placeholders s = List.range n) : s.placeholderCount = n := by
  have hMem : ∀ i, Operand.placeholder i ∈ s.operands ↔ i < n := fun i => by
    rw [← mem_placeholders_iff, h, List.mem_range]
  apply Nat.le_antisymm
  · rw [Statement.placeholderCount_le_iff]
    intro o hOperand
    cases o with
    | placeholder i => exact (hMem i).1 hOperand
    | literal d => exact Nat.zero_le n
    | now => exact Nat.zero_le n
  · cases n with
    | zero => exact Nat.zero_le _
    | succ n =>
      have hLast : Operand.placeholder n ∈ s.operands := (hMem n).2 (Nat.lt_succ_self n)
      exact Statement.placeholderCount_le_iff.1 (Nat.le_refl _) _ hLast

/-- A statement that was read has its placeholders numbered from zero on, one number for each
question mark of the text. -/
theorem placeholders_of_ofTokens {ts : List Placed} {s : Statement}
    (h : Statement.ofTokens ts = .ok s) :
    placeholders s = List.range ((ts.map Placed.token).count .placeholder) ∧
      ∃ us, SpellsStatement us s := by
  obtain ⟨c, hBody, hEnd⟩ := ofTokens_eq_ok_iff_run.1 h
  obtain ⟨us, hSpells, ⟨ps, hTokens, hMap⟩, hNumbered⟩ := Reader.body_sound hBody
  have hWhole : ts = ps ++ c.tokens := hTokens
  have hTail : (c.tokens.map Placed.token).count .placeholder = 0 := by
    rw [List.count_eq_zero]
    intro hMem
    obtain ⟨t, ht, hToken⟩ := List.mem_map.1 hMem
    rw [hEnd t ht] at hToken
    cases hToken
  have hCount : (ts.map Placed.token).count .placeholder = (placeholders s).length := by
    rw [hWhole, List.map_append, List.count_append, hTail, hMap, Nat.add_zero]
    exact marks_statement hSpells
  have hFromZero : placeholders s = List.range' 0 (placeholders s).length :=
    exists_numbered_iff.1 ⟨_, hNumbered⟩
  refine ⟨?_, us, hSpells⟩
  rw [hCount, List.range_eq_range']
  exact hFromZero

end RecordStore.Sql
