import RecordStore.Proofs.ReadingSteps

/-!
# Reading the parts of statements

Columns, tables and values are told apart by their first tokens. Conditions are read by one reader
for each level of the grammar, and a chain of conjunctions or alternatives is the left-hand side of a
longer one. So soundness goes by the number of levels, where the links of a chain extend what has
been spelled already (`conjunction_sound`, `disjunction_sound`), and completeness by the derivation:
`ReadAs` says for each level of the grammar what the readers do with the tokens of a derivation, and
leaves the end of a chain open.

## Main results

- `column_reads`, `source_reads`, `operand_reads`: the parts that hold no others.
- `condition_reads`: conditions, whatever stands in parentheses.
-/

namespace RecordStore

/-- Tables differ in their names by more than the case of letters. -/
theorem Table.eq_of_sameFolded {t u : Table} (h : Text.sameFolded t.name u.name = true) :
    t = u := by
  revert h
  cases t <;> cases u <;> decide

theorem Table.ofName?_eq_some_iff {t : Table} {s : String} :
    ofName? s = some t ↔ Text.sameFolded t.name s = true := by
  constructor
  · exact List.find?_some (p := fun t : Table => Text.sameFolded t.name s)
  · intro h
    cases hFind : ofName? s with
    | none =>
      have hNot := List.find?_eq_none.1 hFind t t.mem_all
      exact absurd h hNot
    | some u =>
      have hSame : Text.sameFolded u.name s = true :=
        List.find?_some (p := fun t : Table => Text.sameFolded t.name s) hFind
      rw [eq_of_sameFolded (Text.sameFolded_trans hSame (Text.sameFolded_symm h))]

namespace Sql

open Text (sameFolded)
open Grammar

/-! ## Keywords -/

variable {t : Token} {word : String}

theorem isKeyword_iff :
    t.isKeyword word = true ↔ ∃ s, t = .name s ∧ sameFolded word s = true := by
  cases t <;> simp [Token.isKeyword]

/-- Names that differ in the case of letters only are alike to `f`. -/
def IgnoresCase {γ : Type} (f : Token → γ) : Prop :=
  ∀ word s, sameFolded word s = true → f (.name s) = f (.name word)

theorem IgnoresCase.eq {γ : Type} {f : Token → γ} (hf : IgnoresCase f)
    (h : t.isKeyword word = true) : f t = f (.name word) := by
  obtain ⟨s, rfl, hSame⟩ := isKeyword_iff.1 h
  exact hf word s hSame

theorem sameFolded_congr {v s : String} (h : sameFolded word s = true) :
    sameFolded v s = sameFolded v word := by
  rw [sameFolded, sameFolded, Text.sameFolded_iff.1 h]

theorem ignoresCase_isKeyword (v : String) : IgnoresCase (Token.isKeyword v) :=
  fun _ _ h => sameFolded_congr h

theorem ignoresCase_or {p q : Token → Bool} (hp : IgnoresCase p) (hq : IgnoresCase q) :
    IgnoresCase fun t => p t || q t := by
  intro w s h
  simp only [hp w s h, hq w s h]

namespace Reader

open Cursor
open Relation (ReflTransGen)

variable {c c' : Cursor}

/-! ## Columns and tables -/

theorem column_sound : Sound column SpellsColumn fun _ => [] := by
  intro c col c' h
  rw [column] at h
  obtain ⟨first, c₁, hFirst, h⟩ := run_bind_eq_ok_iff.1 h
  obtain ⟨dotted, c₂, hDot, h⟩ := run_bind_eq_ok_iff.1 h
  obtain ⟨t, hName, hPass⟩ := name_run_iff.1 hFirst
  cases dotted with
  | false =>
    obtain ⟨-, rfl⟩ := eatToken_false_iff.1 hDot
    obtain ⟨rfl, rfl⟩ := run_pure_eq_ok_iff.1 h
    exact ⟨[t], .plain hName, hPass⟩
  | true =>
    have hDotPass : c₁.Passes [.dot] [] c₂ := eatToken_true_iff.1 hDot
    obtain ⟨second, c₃, hSecond, h⟩ := run_bind_eq_ok_iff.1 h
    obtain ⟨rfl, rfl⟩ := run_pure_eq_ok_iff.1 h
    obtain ⟨u, hOther, hPass'⟩ := name_run_iff.1 hSecond
    exact ⟨[t, .dot, u], .qualified hName hOther, hPass.cons (hDotPass.cons hPass')⟩

theorem column_complete : Complete column SpellsColumn (fun _ => []) (· == .dot) := by
  intro c col c' us hSpells hPass hStop
  cases hSpells with
  | plain hName =>
    rw [column, run_bind (name_run_iff.2 ⟨_, hName, hPass⟩),
      run_bind (eatToken_false_iff.2 ⟨hStop, rfl⟩)]
    rfl
  | qualified hName hOther =>
    obtain ⟨c₁, hFirst, hPass⟩ := passes_cons_iff.1 hPass
    obtain ⟨c₂, hDot, hSecond⟩ := passes_cons_iff.1 hPass
    rw [column, run_bind (name_run_iff.2 ⟨_, hName, hFirst⟩),
      run_bind (eatToken_true_iff.2 hDot), if_pos rfl,
      run_bind (name_run_iff.2 ⟨_, hOther, hSecond⟩)]
    rfl

theorem column_reads : Reads column SpellsColumn (fun _ => []) (· == .dot) :=
  ⟨column_sound, column_complete⟩

theorem table_run_iff {table : Table} :
    Reader.table.run c = .ok (table, c') ↔ ∃ t, IsTable t table ∧ c.Passes [t] [] c' := by
  constructor
  · intro h
    rw [Reader.table] at h
    obtain ⟨s, c₁, hName, h⟩ := run_bind_eq_ok_iff.1 h
    obtain ⟨t, hToken, hPass⟩ := name_run_iff.1 hName
    split at h
    · next found hFound =>
      obtain ⟨rfl, rfl⟩ := run_pure_eq_ok_iff.1 h
      exact ⟨t, ⟨s, hToken, Table.ofName?_eq_some_iff.1 hFound⟩, hPass⟩
    · exact absurd h run_throw_ne_ok
  · rintro ⟨t, ⟨s, hToken, hSame⟩, hPass⟩
    have hFound : Table.ofName? s = some table := Table.ofName?_eq_some_iff.2 hSame
    rw [Reader.table, run_bind (name_run_iff.2 ⟨t, hToken, hPass⟩)]
    simp only [hFound]
    rfl

theorem aliasOf?_eq_some_iff {s : String} :
    aliasOf? t = some s ↔
      t = .quotedName s ∨ t = .name s ∧ ∀ word ∈ reservedWords, sameFolded word s = false := by
  cases t with
  | name v =>
    by_cases hReserved : reservedWords.any (sameFolded · v) = true
    · have hNot : ¬ ∀ word ∈ reservedWords, sameFolded word v = false := by
        obtain ⟨word, hMem, hSame⟩ := List.any_eq_true.1 hReserved
        intro hAll
        rw [hAll word hMem] at hSame
        cases hSame
      simp only [aliasOf?, if_pos hReserved, reduceCtorEq, false_or, Token.name.injEq, false_iff]
      rintro ⟨rfl, hAll⟩
      exact hNot hAll
    · have hAll : ∀ word ∈ reservedWords, sameFolded word v = false := by
        simpa using hReserved
      simp only [aliasOf?, if_neg hReserved, Option.some.injEq, reduceCtorEq, false_or,
        Token.name.injEq]
      exact ⟨fun h => ⟨h, h ▸ hAll⟩, fun h => h.1⟩
  | _ => simp [aliasOf?]

/-- A token that would rename a table in front of it. -/
def renames (t : Token) : Bool := t.isKeyword "AS" || (aliasOf? t).isSome

theorem ignoresCase_renames : IgnoresCase renames := by
  intro word s h
  have hAs : sameFolded "AS" s = sameFolded "AS" word := sameFolded_congr h
  have hReserved : reservedWords.any (sameFolded · s) = reservedWords.any (sameFolded · word) := by
    simp only [sameFolded_congr h]
  simp only [renames, Token.isKeyword, aliasOf?, hAs, hReserved]
  split <;> rfl

theorem source_sound : Sound source SpellsSource fun _ => [] := by
  intro c src c' h
  rw [source] at h
  obtain ⟨table, c₁, hTable, h⟩ := run_bind_eq_ok_iff.1 h
  obtain ⟨t, hToken, hPass⟩ := table_run_iff.1 hTable
  obtain ⟨announced, c₂, hAs, h⟩ := run_bind_eq_ok_iff.1 h
  cases announced with
  | true =>
    obtain ⟨word, hWord, hWordPass⟩ := eatKeyword_true_iff.1 hAs
    obtain ⟨s, c₃, hName, h⟩ := run_bind_eq_ok_iff.1 h
    obtain ⟨u, hAlias, hAliasPass⟩ := name_run_iff.1 hName
    obtain ⟨rfl, rfl⟩ := run_pure_eq_ok_iff.1 h
    exact ⟨[t, word, u], .renamed hToken hWord hAlias, hPass.cons (hWordPass.cons hAliasPass)⟩
  | false =>
    obtain ⟨-, rfl⟩ := eatKeyword_false_iff.1 hAs
    rw [if_neg (by decide), run_bind peek_run] at h
    cases hAlias : c₁.next?.bind aliasOf? with
    | none =>
      simp only [hAlias] at h
      obtain ⟨rfl, rfl⟩ := run_pure_eq_ok_iff.1 h
      exact ⟨[t], .plain hToken, hPass⟩
    | some s =>
      simp only [hAlias] at h
      obtain ⟨u, hNext, hRenames⟩ := Option.bind_eq_some_iff.1 hAlias
      obtain ⟨_, c₂, hSkip, h⟩ := run_bind_eq_ok_iff.1 h
      have hSkipPass : c₁.Passes [u] [] c₂ := (skip_run_iff hNext).1 hSkip
      obtain ⟨rfl, rfl⟩ := run_pure_eq_ok_iff.1 h
      rcases aliasOf?_eq_some_iff.1 hRenames with rfl | ⟨rfl, hFree⟩
      · exact ⟨_, .quotedAlias hToken, hPass.cons hSkipPass⟩
      · exact ⟨_, .bareAlias hToken hFree, hPass.cons hSkipPass⟩

/-- A name that is not reserved renames the table in front of it. -/
private theorem source_run_of_alias {s : String} {table : Table} {u : Token}
    (hToken : IsTable t table) (hPass : c.Passes [t, u] [] c') (hAs : u.isKeyword "AS" = false)
    (hAlias : aliasOf? u = some s) : source.run c = .ok (⟨table, some s⟩, c') := by
  obtain ⟨c₁, hFirst, hSecond⟩ := passes_cons_iff.1 hPass
  have hNext : c₁.next? = some u := hSecond.next?
  have hNotAs : c₁.nextIs (Token.isKeyword "AS") = false := by rw [nextIs_of_next? hNext, hAs]
  have hFound : c₁.next?.bind aliasOf? = some s := by rw [hNext, Option.bind_some, hAlias]
  rw [source, run_bind (table_run_iff.2 ⟨t, hToken, hFirst⟩),
    run_bind (eatKeyword_false_iff.2 ⟨hNotAs, rfl⟩), if_neg (by decide), run_bind peek_run]
  simp only [hFound]
  rw [run_bind ((skip_run_iff hNext).2 hSecond)]
  rfl

theorem source_complete : Complete source SpellsSource (fun _ => []) renames := by
  intro c src c' us hSpells hPass hStop
  cases hSpells with
  | plain hToken =>
    obtain ⟨hAs, hAlias⟩ := nextIs_or_iff.1 hStop
    have hNone : c'.next?.bind aliasOf? = none := by
      cases hNext : c'.next? with
      | none => rfl
      | some u =>
        rw [nextIs_of_next? hNext] at hAlias
        simpa using hAlias
    rw [source, run_bind (table_run_iff.2 ⟨_, hToken, hPass⟩),
      run_bind (eatKeyword_false_iff.2 ⟨hAs, rfl⟩), if_neg (by decide), run_bind peek_run]
    simp only [hNone]
    rfl
  | renamed hToken hWord hAlias =>
    obtain ⟨c₁, hFirst, hPass⟩ := passes_cons_iff.1 hPass
    obtain ⟨c₂, hSecond, hThird⟩ := passes_cons_iff.1 hPass
    rw [source, run_bind (table_run_iff.2 ⟨_, hToken, hFirst⟩),
      run_bind (eatKeyword_true_iff.2 ⟨_, hWord, hSecond⟩), if_pos rfl,
      run_bind (name_run_iff.2 ⟨_, hAlias, hThird⟩)]
    rfl
  | quotedAlias hToken => exact source_run_of_alias hToken hPass rfl rfl
  | bareAlias hToken hFree =>
    have hAs : sameFolded "AS" _ = false := hFree "AS" (by decide)
    exact source_run_of_alias hToken hPass hAs (aliasOf?_eq_some_iff.2 (.inr ⟨rfl, hFree⟩))

theorem source_reads : Reads source SpellsSource (fun _ => []) renames :=
  ⟨source_sound, source_complete⟩

/-! ## Values -/

theorem number_run_iff {negative : Bool} {digits : String} {o : Operand} :
    (number negative digits).run c = .ok (o, c') ↔
      ∃ d, numberValue? negative digits.toList = some d ∧ o = .literal d ∧ c = c' := by
  cases hValue : numberValue? negative digits.toList with
  | none =>
    simp only [number, hValue, reduceCtorEq, false_and, exists_false, iff_false]
    exact run_throw_ne_ok
  | some d =>
    simp only [number, hValue, run_pure_eq_ok_iff]
    constructor
    · rintro ⟨rfl, rfl⟩
      exact ⟨d, rfl, rfl, rfl⟩
    · rintro ⟨_, hSome, rfl, rfl⟩
      cases hSome
      exact ⟨rfl, rfl⟩

theorem nowArgument?_eq_some_iff :
    nowArgument? t = some () ↔ ∃ s, t = .text s ∧ sameFolded "now" s = true := by
  cases t <;> simp [nowArgument?]

theorem digits?_eq_some_iff {digits : String} : digits? t = some digits ↔ t = .number digits := by
  cases t <;> simp [digits?]

/-- What the tokens at the place of a value say. -/
inductive StartsValue : Token → ValueStart → Prop
  | placeholder : StartsValue .placeholder .placeholder
  | text (s : String) : StartsValue (.text s) (.literal (.text s))
  | number (digits : String) : StartsValue (.number digits) (.number digits)
  | minus : StartsValue .minus .minus
  | null {t : Token} : t.isKeyword "NULL" = true → StartsValue t (.literal .null)
  | isTrue {t : Token} : t.isKeyword "TRUE" = true → StartsValue t (.literal (.bool true))
  | isFalse {t : Token} : t.isKeyword "FALSE" = true → StartsValue t (.literal (.bool false))
  | now {t : Token} : t.isKeyword "CURRENT_TIMESTAMP" = true → StartsValue t .now
  | nowCall {t : Token} : t.isKeyword "DATETIME" = true → StartsValue t .nowCall

theorem ignoresCase_valueStart? : IgnoresCase valueStart? := by
  intro word s h
  simp only [valueStart?, wordValue?, sameFolded_congr h]

theorem startsValue_iff {start : ValueStart} :
    StartsValue t start ↔ valueStart? t = some start := by
  constructor
  · intro h
    cases h with
    | placeholder | text | number | minus => rfl
    | null hWord | isTrue hWord | isFalse hWord | now hWord | nowCall hWord =>
      rw [ignoresCase_valueStart?.eq hWord]
      rfl
  · intro h
    cases t with
    | placeholder => cases h; exact .placeholder
    | text s => cases h; exact .text s
    | number digits => cases h; exact .number digits
    | minus => cases h; exact .minus
    | name word =>
      simp only [valueStart?, wordValue?] at h
      split at h
      · next hWord => cases h; exact .null hWord
      split at h
      · next hWord => cases h; exact .isTrue hWord
      split at h
      · next hWord => cases h; exact .isFalse hWord
      split at h
      · next hWord => cases h; exact .now hWord
      split at h
      · next hWord => cases h; exact .nowCall hWord
      · cases h
    | quotedName | comma | dot | semicolon | leftParen | rightParen | star | comparator => cases h

theorem spellsOperand_of_literal {d : Datum} (h : StartsValue t (.literal d)) :
    SpellsOperand [t] (.literal d) := by
  cases h with
  | text s => exact .text s
  | null hWord => exact .null hWord
  | isTrue hWord => exact .isTrue hWord
  | isFalse hWord => exact .isFalse hWord

theorem operand_sound : Sound operand SpellsOperand fun o => [o] := by
  intro c o c' h
  rw [operand] at h
  obtain ⟨start, c₁, hStart, h⟩ := run_bind_eq_ok_iff.1 h
  obtain ⟨t, hAccept, hPass⟩ := take_run_iff.1 hStart
  have hStarts : StartsValue t start := startsValue_iff.2 hAccept
  cases start with
  | placeholder =>
    cases hStarts
    cases h
    have hSame : c.placeholders = c₁.placeholders := numbered_nil_iff.1 hPass.numbered
    exact ⟨_, .placeholder c₁.placeholders, passes_placeholder_iff.2 ⟨hSame.symm, rfl, hPass⟩⟩
  | literal d =>
    obtain ⟨rfl, rfl⟩ := run_pure_eq_ok_iff.1 h
    exact ⟨[t], spellsOperand_of_literal hStarts, (passes_other_iff rfl).2 hPass⟩
  | number digits =>
    cases hStarts
    obtain ⟨d, hValue, rfl, rfl⟩ := number_run_iff.1 h
    exact ⟨_, .number hValue, (passes_other_iff rfl).2 hPass⟩
  | minus =>
    cases hStarts
    obtain ⟨digits, c₂, hDigits, h⟩ := run_bind_eq_ok_iff.1 h
    obtain ⟨u, hNumber, hPass'⟩ := take_run_iff.1 hDigits
    obtain rfl := digits?_eq_some_iff.1 hNumber
    obtain ⟨d, hValue, rfl, rfl⟩ := number_run_iff.1 h
    exact ⟨_, .negative hValue, (passes_other_iff rfl).2 (hPass.cons hPass')⟩
  | now =>
    cases hStarts with
    | now hWord =>
      obtain ⟨rfl, rfl⟩ := run_pure_eq_ok_iff.1 h
      exact ⟨[t], .now hWord, (passes_other_iff rfl).2 hPass⟩
  | nowCall =>
    cases hStarts with
    | nowCall hWord =>
      obtain ⟨_, c₂, hLeft, h⟩ := run_bind_eq_ok_iff.1 h
      obtain ⟨_, c₃, hArgument, h⟩ := run_bind_eq_ok_iff.1 h
      obtain ⟨_, c₄, hRight, h⟩ := run_bind_eq_ok_iff.1 h
      obtain ⟨rfl, rfl⟩ := run_pure_eq_ok_iff.1 h
      obtain ⟨u, hAccept, hMiddle⟩ := take_run_iff.1 hArgument
      obtain ⟨s, rfl, hNow⟩ := nowArgument?_eq_some_iff.1 hAccept
      have hLeft : c₁.Passes [.leftParen] [] c₂ := symbol_run_iff.1 hLeft
      have hRight : c₃.Passes [.rightParen] [] c₄ := symbol_run_iff.1 hRight
      exact ⟨_, .nowCall hWord hNow,
        (passes_other_iff rfl).2 (hPass.cons (hLeft.cons (hMiddle.cons hRight)))⟩

/-- The first token of a value decides how it is read on. -/
private theorem run_start {start : ValueStart} (hStart : StartsValue t start)
    (hPass : c.Passes [t] [] c') :
    (take .value valueStart?).run c = .ok (start, c') :=
  take_run_iff.2 ⟨t, startsValue_iff.1 hStart, hPass⟩

private theorem operand_run_of_literal {d : Datum} (hStart : StartsValue t (.literal d))
    (hPass : c.Passes [t] [.literal d] c') : operand.run c = .ok (.literal d, c') := by
  rw [operand, run_bind (run_start hStart ((passes_other_iff rfl).1 hPass))]
  rfl

theorem operand_complete : Complete operand SpellsOperand (fun o => [o]) fun _ => false := by
  intro c o c' us hSpells hPass _
  cases hSpells with
  | placeholder i =>
    obtain ⟨rfl, hCount, hPass⟩ := passes_placeholder_iff.1 hPass
    obtain ⟨ts, n⟩ := c'
    obtain rfl : n = c.placeholders + 1 := hCount
    rw [operand, run_bind (run_start .placeholder hPass)]
    rfl
  | text s => exact operand_run_of_literal (.text s) hPass
  | number hValue =>
    rw [operand, run_bind (run_start (.number _) ((passes_other_iff rfl).1 hPass))]
    exact number_run_iff.2 ⟨_, hValue, rfl, rfl⟩
  | negative hValue =>
    obtain ⟨c₁, hSign, hDigits⟩ := passes_cons_iff.1 ((passes_other_iff rfl).1 hPass)
    have hRun : (take .number digits?).run c₁ = .ok (_, c') := take_run_iff.2 ⟨_, rfl, hDigits⟩
    rw [operand, run_bind (run_start .minus hSign)]
    exact (run_bind hRun).trans (number_run_iff.2 ⟨_, hValue, rfl, rfl⟩)
  | null hWord => exact operand_run_of_literal (.null hWord) hPass
  | isTrue hWord => exact operand_run_of_literal (.isTrue hWord) hPass
  | isFalse hWord => exact operand_run_of_literal (.isFalse hWord) hPass
  | now hWord =>
    rw [operand, run_bind (run_start (.now hWord) ((passes_other_iff rfl).1 hPass))]
    rfl
  | nowCall hWord hNow =>
    obtain ⟨c₁, hFirst, hPass⟩ := passes_cons_iff.1 ((passes_other_iff rfl).1 hPass)
    obtain ⟨c₂, hLeft, hPass⟩ := passes_cons_iff.1 hPass
    obtain ⟨c₃, hMiddle, hRight⟩ := passes_cons_iff.1 hPass
    have hArgument : (take .nowArgument nowArgument?).run c₂ = .ok ((), c₃) :=
      take_run_iff.2 ⟨_, nowArgument?_eq_some_iff.2 ⟨_, rfl, hNow⟩, hMiddle⟩
    rw [operand, run_bind (run_start (.nowCall hWord) hFirst)]
    simp only
    rw [run_bind (symbol_run_iff.2 hLeft), run_bind hArgument, run_bind (symbol_run_iff.2 hRight)]
    rfl

theorem operand_reads : Reads operand SpellsOperand (fun o => [o]) fun _ => false :=
  ⟨operand_sound, operand_complete⟩

/-! ## Conditions -/

theorem comparator?_eq_some_iff {op : Comparator} :
    comparator? t = some op ↔ t = .comparator op := by
  cases t <;> simp [comparator?]

theorem spellsColumn_head {us : List Token} {col : Column} (h : SpellsColumn us col) :
    ∃ t rest, us = t :: rest ∧ t ≠ .leftParen := by
  cases h with
  | plain hName | qualified hName =>
    refine ⟨_, _, rfl, ?_⟩
    rintro rfl
    cases hName

theorem comparison_sound (hNot : c.nextIs (Token.isKeyword "NOT") = false) {cond : Condition}
    (h : comparison.run c = .ok (cond, c')) :
    ∃ us, SpellsCondition .factor us cond ∧ c.Passes us cond.operands c' := by
  rw [comparison] at h
  obtain ⟨col, c₁, hColumn, h⟩ := run_bind_eq_ok_iff.1 h
  obtain ⟨op, c₂, hComparator, h⟩ := run_bind_eq_ok_iff.1 h
  obtain ⟨value, c₃, hOperand, h⟩ := run_bind_eq_ok_iff.1 h
  obtain ⟨rfl, rfl⟩ := run_pure_eq_ok_iff.1 h
  obtain ⟨us, hLeft, hLeftPass⟩ := column_reads.sound hColumn
  obtain ⟨t, hAccept, hOne⟩ := take_run_iff.1 hComparator
  obtain rfl := comparator?_eq_some_iff.1 hAccept
  obtain ⟨vs, hRight, hRightPass⟩ := operand_reads.sound hOperand
  obtain ⟨t, rest, rfl, -⟩ := spellsColumn_head hLeft
  have hBegins : beginsWithNot (t :: rest) = false := by
    rwa [nextIs_of_next? hLeftPass.next?] at hNot
  exact ⟨_, .compare hLeft hBegins hRight, hLeftPass.append (hOne.cons hRightPass)⟩

theorem comparison_complete {us vs : List Token} {col : Column} {op : Comparator} {o : Operand}
    (hLeft : SpellsColumn us col) (hRight : SpellsOperand vs o)
    (hPass : c.Passes (us ++ .comparator op :: vs) [o] c') :
    comparison.run c = .ok (.compare ⟨col, op, o⟩, c') := by
  obtain ⟨c₁, hColumn, hPass⟩ := passes_append_right_iff.1 hPass
  obtain ⟨c₂, hComparator, hOperand⟩ := passes_cons_iff.1 hPass
  have hNoDot : c₁.nextIs (· == .dot) = false := by
    rw [nextIs_of_next? hComparator.next?]
    rfl
  have hRun : (take .comparator comparator?).run c₁ = .ok (op, c₂) :=
    take_run_iff.2 ⟨_, rfl, hComparator⟩
  rw [comparison, run_bind (column_reads.complete hLeft hColumn hNoDot), run_bind hRun,
    run_bind (operand_reads.complete hRight hOperand nextIs_false)]
  rfl

/-- What `AND` joins, from the left. -/
theorem conjunction_sound {factor : Reader Condition} {limit : Nat}
    (hFactor : SoundWithin limit factor (SpellsCondition .factor) Condition.operands) :
    SoundWithin limit (conjunction factor) (SpellsCondition .conjunction) Condition.operands := by
  intro c cond c' hLimit h
  rw [conjunction] at h
  obtain ⟨first, c₁, hFirst, h⟩ := run_bind_eq_ok_iff.1 h
  obtain ⟨us, hSpells, hPass⟩ := hFactor hLimit hFirst
  have hLength : c.tokens.length = us.length + c₁.tokens.length := hPass.length_eq
  obtain ⟨hLinks, -⟩ := (chained_run_iff hFactor.advances (by omega)).1 h
  exact passes_of_links (SpellsCondition .conjunction) Condition.operands hFactor hLimit .and
    (fun _ _ => rfl) (.factor hSpells) hPass hLinks

/-- What `OR` joins, from the left. -/
theorem disjunction_sound {factor : Reader Condition} {limit : Nat}
    (hFactor : SoundWithin limit factor (SpellsCondition .factor) Condition.operands) :
    SoundWithin limit (disjunction factor) (SpellsCondition .disjunction) Condition.operands := by
  intro c cond c' hLimit h
  have hConjunction := conjunction_sound hFactor
  rw [disjunction] at h
  obtain ⟨first, c₁, hFirst, h⟩ := run_bind_eq_ok_iff.1 h
  obtain ⟨us, hSpells, hPass⟩ := hConjunction hLimit hFirst
  have hLength : c.tokens.length = us.length + c₁.tokens.length := hPass.length_eq
  obtain ⟨hLinks, -⟩ := (chained_run_iff hConjunction.advances (by omega)).1 h
  exact passes_of_links (SpellsCondition .disjunction) Condition.operands hConjunction hLimit .or
    (fun _ _ => rfl) (.conjunction hSpells) hPass hLinks

/-- With as many levels as there are tokens the last level has nothing to read. With fewer it would
take the keyword `NOT` for a column. -/
theorem factor_sound (levels : Nat) :
    SoundWithin levels (factor levels) (SpellsCondition .factor) Condition.operands := by
  induction levels with
  | zero =>
    intro c cond c' hLimit h
    have hEnd : c.tokens = [] := List.length_eq_zero_iff.1 (Nat.le_zero.1 hLimit)
    have hNot : c.nextIs (Token.isKeyword "NOT") = false := by
      rw [nextIs, next?, hEnd]
      rfl
    exact comparison_sound hNot h
  | succ levels ih =>
    intro c cond c' hLimit h
    rw [factor] at h
    obtain ⟨negated, c₁, hNot, h⟩ := run_bind_eq_ok_iff.1 h
    cases negated with
    | true =>
      obtain ⟨t, hWord, hOne⟩ := eatKeyword_true_iff.1 hNot
      obtain ⟨inner, c₂, hInner, h⟩ := run_bind_eq_ok_iff.1 h
      obtain ⟨rfl, rfl⟩ := run_pure_eq_ok_iff.1 h
      have hLength : c.tokens.length = 1 + c₁.tokens.length := hOne.length_eq
      obtain ⟨us, hSpells, hPass⟩ := ih (by omega) hInner
      exact ⟨_, .not hWord hSpells, hOne.cons hPass⟩
    | false =>
      obtain ⟨hNotNext, rfl⟩ := eatKeyword_false_iff.1 hNot
      obtain ⟨opened, c₂, hOpen, h⟩ := run_bind_eq_ok_iff.1 h
      cases opened with
      | true =>
        have hLeft : c.Passes [.leftParen] [] c₂ := eatToken_true_iff.1 hOpen
        obtain ⟨inner, c₃, hInner, h⟩ := run_bind_eq_ok_iff.1 h
        obtain ⟨_, c₄, hClose, h⟩ := run_bind_eq_ok_iff.1 h
        obtain ⟨rfl, rfl⟩ := run_pure_eq_ok_iff.1 h
        have hRight : c₃.Passes [.rightParen] [] c₄ := symbol_run_iff.1 hClose
        have hLength : c.tokens.length = 1 + c₂.tokens.length := hLeft.length_eq
        obtain ⟨us, hSpells, hPass⟩ := disjunction_sound ih (by omega) hInner
        have hInside : c₂.Passes (us ++ [.rightParen]) inner.operands c₄ :=
          passes_append_left_iff.2 ⟨c₃, hPass, hRight⟩
        exact ⟨_, .parentheses hSpells, hLeft.cons hInside⟩
      | false =>
        obtain ⟨-, rfl⟩ := eatToken_false_iff.1 hOpen
        exact comparison_sound hNotNext h

theorem condition_sound : Sound condition (SpellsCondition .disjunction) Condition.operands := by
  intro c cond c' h
  rw [condition, run_bind get_run] at h
  exact disjunction_sound (factor_sound _) (Nat.le_refl c.tokens.length) h

/-- What the reader for a level does with the condition of a derivation, where at most `levels`
tokens are left. A chain is not at its end yet: what follows may go on with it. -/
def ReadAs (levels : Nat) (c : Cursor) (cond : Condition) (c' : Cursor) : Level → Prop
  | .factor => (factor levels).run c = .ok (cond, c')
  | .conjunction => ∃ first c₁, (factor levels).run c = .ok (first, c₁) ∧
      ReflTransGen (Link (eatKeyword "AND") (factor levels) .and) (first, c₁) (cond, c')
  | .disjunction => c'.nextIs (Token.isKeyword "AND") = false →
      ∃ first c₁, (conjunction (factor levels)).run c = .ok (first, c₁) ∧
        ReflTransGen (Link (eatKeyword "OR") (conjunction (factor levels)) .or)
          (first, c₁) (cond, c')

variable {levels : Nat} {cond : Condition}

theorem ReadAs.conjunction_run (h : ReadAs levels c cond c' .conjunction)
    (hLimit : c.tokens.length ≤ levels) (hAnd : c'.nextIs (Token.isKeyword "AND") = false) :
    (conjunction (factor levels)).run c = .ok (cond, c') := by
  obtain ⟨first, c₁, hFirst, hLinks⟩ := h
  have hAdvances := (factor_sound levels).advances
  have hBehind : c₁.tokens.length ≤ c.tokens.length := hAdvances c first c₁ hLimit hFirst
  rw [conjunction, run_bind hFirst]
  exact (chained_run_iff hAdvances (by omega)).2 ⟨hLinks, hAnd⟩

theorem ReadAs.disjunction_run (h : ReadAs levels c cond c' .disjunction)
    (hLimit : c.tokens.length ≤ levels) (hAnd : c'.nextIs (Token.isKeyword "AND") = false)
    (hOr : c'.nextIs (Token.isKeyword "OR") = false) :
    (disjunction (factor levels)).run c = .ok (cond, c') := by
  obtain ⟨first, c₁, hFirst, hLinks⟩ := h hAnd
  have hAdvances := (conjunction_sound (factor_sound levels)).advances
  have hBehind : c₁.tokens.length ≤ c.tokens.length := hAdvances c first c₁ hLimit hFirst
  rw [disjunction, run_bind hFirst]
  exact (chained_run_iff hAdvances (by omega)).2 ⟨hLinks, hOr⟩

/-- One keyword is not another. -/
theorem nextIs_keyword {v : String} {us : List Token} {os : List Operand}
    (hPass : c.Passes (t :: us) os c') (hWord : t.isKeyword word = true)
    (hOther : sameFolded v word = false) : c.nextIs (Token.isKeyword v) = false := by
  rw [nextIs_of_next? hPass.next?, (ignoresCase_isKeyword v).eq hWord]
  exact hOther

theorem readAs_of_spells {level : Level} {us : List Token} (h : SpellsCondition level us cond)
    (hLimit : c.tokens.length ≤ levels) (hPass : c.Passes us cond.operands c') :
    ReadAs levels c cond c' level := by
  induction h generalizing levels c c' with
  | compare hLeft hBegins hRight =>
    have hRun := comparison_complete hLeft hRight hPass
    obtain ⟨t, rest, rfl, hOther⟩ := spellsColumn_head hLeft
    have hNext : c.next? = some t := hPass.next?
    have hNot : c.nextIs (Token.isKeyword "NOT") = false := by
      rw [nextIs_of_next? hNext]
      exact hBegins
    have hOpen : c.nextIs (· == .leftParen) = false := by
      rw [nextIs_of_next? hNext]
      simpa using hOther
    cases levels with
    | zero => exact hRun
    | succ levels =>
      rw [ReadAs, factor, run_bind (eatKeyword_false_iff.2 ⟨hNot, rfl⟩), if_neg (by decide),
        run_bind (eatToken_false_iff.2 ⟨hOpen, rfl⟩), if_neg (by decide), hRun]
  | not hWord _ ih =>
    obtain ⟨c₁, hOne, hInner⟩ := passes_cons_iff.1 hPass
    have hLength : c.tokens.length = 1 + c₁.tokens.length := hOne.length_eq
    cases levels with
    | zero => omega
    | succ levels =>
      have hRun : (factor levels).run c₁ = .ok (_, c') := ih (by omega) hInner
      rw [ReadAs, factor, run_bind (eatKeyword_true_iff.2 ⟨_, hWord, hOne⟩), if_pos rfl,
        run_bind hRun]
      rfl
  | @parentheses ts inner _ ih =>
    obtain ⟨c₁, hLeft, hPass⟩ := passes_cons_iff.1 hPass
    obtain ⟨c₂, hInner, hRight⟩ := passes_append_left_iff.1 hPass
    have hLength : c.tokens.length = 1 + c₁.tokens.length := hLeft.length_eq
    have hNot : c.nextIs (Token.isKeyword "NOT") = false := nextIs_of_next? hLeft.next?
    have hAnd : c₂.nextIs (Token.isKeyword "AND") = false := nextIs_of_next? hRight.next?
    have hOr : c₂.nextIs (Token.isKeyword "OR") = false := nextIs_of_next? hRight.next?
    cases levels with
    | zero => omega
    | succ levels =>
      have hRun : (disjunction (factor levels)).run c₁ = .ok (inner, c₂) :=
        (ih (by omega) hInner).disjunction_run (by omega) hAnd hOr
      rw [ReadAs, factor, run_bind (eatKeyword_false_iff.2 ⟨hNot, rfl⟩), if_neg (by decide),
        run_bind (eatToken_true_iff.2 hLeft), if_pos rfl, run_bind hRun,
        run_bind (symbol_run_iff.2 hRight)]
      rfl
  | factor _ ih => exact ⟨_, c', ih hLimit hPass, .refl⟩
  | @and t ts us l r _ hWord _ ihl ihr =>
    obtain ⟨c₁, hLeft, hPass⟩ := passes_append_iff.1 hPass
    obtain ⟨c₂, hOne, hRight⟩ := passes_cons_iff.1 hPass
    obtain ⟨first, c₀, hFirst, hLinks⟩ := ihl hLimit hLeft
    have hBefore : c.tokens.length = ts.length + c₁.tokens.length := hLeft.length_eq
    have hLength : c₁.tokens.length = 1 + c₂.tokens.length := hOne.length_eq
    have hNext : (factor levels).run c₂ = .ok (r, c') := ihr (by omega) hRight
    have hLink : Link (eatKeyword "AND") (factor levels) .and (l, c₁) (.and l r, c') :=
      ⟨r, c₂, eatKeyword_true_iff.2 ⟨t, hWord, hOne⟩, hNext, rfl⟩
    exact ⟨first, c₀, hFirst, hLinks.tail hLink⟩
  | conjunction _ ih =>
    intro hAnd
    exact ⟨_, c', (ih hLimit hPass).conjunction_run hLimit hAnd, .refl⟩
  | @or t ts us l r _ hWord _ ihl ihr =>
    intro hAnd
    obtain ⟨c₁, hLeft, hPass⟩ := passes_append_iff.1 hPass
    obtain ⟨c₂, hOne, hRight⟩ := passes_cons_iff.1 hPass
    have hBefore : c.tokens.length = ts.length + c₁.tokens.length := hLeft.length_eq
    have hLength : c₁.tokens.length = 1 + c₂.tokens.length := hOne.length_eq
    have hNotAnd : c₁.nextIs (Token.isKeyword "AND") = false :=
      nextIs_keyword hOne hWord (by decide)
    obtain ⟨first, c₀, hFirst, hLinks⟩ := ihl hLimit hLeft hNotAnd
    have hNext : (conjunction (factor levels)).run c₂ = .ok (r, c') :=
      (ihr (by omega) hRight).conjunction_run (by omega) hAnd
    have hLink : Link (eatKeyword "OR") (conjunction (factor levels)) .or (l, c₁) (.or l r, c') :=
      ⟨r, c₂, eatKeyword_true_iff.2 ⟨t, hWord, hOne⟩, hNext, rfl⟩
    exact ⟨first, c₀, hFirst, hLinks.tail hLink⟩

/-- A token that goes on with a condition. -/
def joins (t : Token) : Bool := t.isKeyword "AND" || t.isKeyword "OR"

theorem condition_complete :
    Complete condition (SpellsCondition .disjunction) Condition.operands joins := by
  intro c cond c' us hSpells hPass hStop
  obtain ⟨hAnd, hOr⟩ := nextIs_or_iff.1 hStop
  have hLimit : c.tokens.length ≤ c.tokens.length := Nat.le_refl _
  rw [condition, run_bind get_run]
  exact (readAs_of_spells hSpells hLimit hPass).disjunction_run hLimit hAnd hOr

/-- Conditions are read as the grammar has them. -/
theorem condition_reads :
    Reads condition (SpellsCondition .disjunction) Condition.operands joins :=
  ⟨condition_sound, condition_complete⟩

end Reader

end Sql

end RecordStore
