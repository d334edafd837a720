import RecordStore.Evaluation.Meaning
import RecordStore.Proofs.PrintedValues
import RecordStore.Proofs.ReadingStatements

/-!
# Printed conditions are read back

A printed condition has parentheses around alternatives and around what is negated, but none around
conjunctions. Behind `WHERE` it is read back all the same: conjunctions are the outermost part or
stand in parentheses of something else, and there `AND` is associative. So nothing is lost but how a
chain of `AND` was grouped, since it is read from the left, and how the decimals were written
(`Condition.ReadsAs`). Neither makes a difference to what the condition means.

A chain of `AND` behind an `AND` is not read as a part of its own. `IsSpelled` therefore says two
things about the tokens of a condition, what they are alone and what they are behind a conjunction,
and the second is what carries the induction over the condition.

## Main results

- `ReadsAs.comparisons`: the comparisons that are read back are those that were printed.
- `ReadsAs.holds_iff`: a condition and what it is read as hold of the same rows.
- `IsSpelled.and`: chains of `AND` one behind the other.
- `exists_isSpelled`: the tokens of a printed condition.
- `ofText_delete_display`: a printed condition behind `WHERE` is read back.
-/

namespace RecordStore.Sql

open Grammar

/-! ## What conditions are read as -/

/-- The same column, compared in the same way with what the operand is read back as. -/
structure Comparison.ReadsAs (a b : Comparison) : Prop where
  column : b.column = a.column
  op : b.op = a.op
  operand : a.operand.ReadsAs b.operand

theorem Comparison.ReadsAs.refl (a : Comparison) : a.ReadsAs a := ⟨rfl, rfl, .same a.operand⟩

theorem Comparison.ReadsAs.trans {a b c : Comparison} (h : a.ReadsAs b) (hNext : b.ReadsAs c) :
    a.ReadsAs c :=
  ⟨hNext.column.trans h.column, hNext.op.trans h.op, h.operand.trans hNext.operand⟩

/-- Only comparisons for equality look at the size of a number. -/
theorem Comparison.ReadsAs.holds_iff {s : Surroundings} {row : Row} {a b : Comparison}
    (h : a.ReadsAs b) : b.Holds s row ↔ a.Holds s row := by
  obtain ⟨column, op, o⟩ := a
  obtain ⟨column', op', o'⟩ := b
  obtain ⟨rfl, rfl, hOperand⟩ := h
  cases hOperand with
  | same => rfl
  | number hSize =>
    constructor
    · intro hHolds
      cases hHolds with
      | equal hField hValue hSame =>
        cases hValue
        exact .equal hField rfl ((Datum.sameValue_congr_right hSize.sameValue _).trans hSame)
    · intro hHolds
      cases hHolds with
      | equal hField hValue hSame =>
        cases hValue
        exact .equal hField rfl ((Datum.sameValue_congr_right hSize.sameValue _).symm.trans hSame)

namespace Condition

/-- Conditions that differ in nothing but how chains of `AND` are grouped and how decimals are
written: the second is what the first is read back as. -/
inductive ReadsAs : Condition → Condition → Prop
  | compare {a b : Comparison} : a.ReadsAs b → ReadsAs (.compare a) (.compare b)
  | and {l l' r r' : Condition} : ReadsAs l l' → ReadsAs r r' → ReadsAs (.and l r) (.and l' r')
  | or {l l' r r' : Condition} : ReadsAs l l' → ReadsAs r r' → ReadsAs (.or l r) (.or l' r')
  | not {c c' : Condition} : ReadsAs c c' → ReadsAs (.not c) (.not c')
  | regroup (a b c : Condition) : ReadsAs (.and a (.and b c)) (.and (.and a b) c)
  | trans {a b c : Condition} : ReadsAs a b → ReadsAs b c → ReadsAs a c

theorem ReadsAs.refl (c : Condition) : c.ReadsAs c := by
  induction c with
  | compare c => exact .compare (.refl c)
  | and l r ihl ihr => exact .and ihl ihr
  | or l r ihl ihr => exact .or ihl ihr
  | not c ih => exact .not ih

/-- The comparisons of a condition in written order. -/
def comparisons : Condition → List Comparison
  | compare c => [c]
  | and l r | or l r => l.comparisons ++ r.comparisons
  | not c => c.comparisons

theorem operands_eq (c : Condition) : c.operands = c.comparisons.map Comparison.operand := by
  induction c with
  | compare c => rfl
  | and l r ihl ihr | or l r ihl ihr => rw [operands, comparisons, List.map_append, ihl, ihr]
  | not c ih => exact ih

private theorem forall₂_trans {as bs cs : List Comparison}
    (h : List.Forall₂ Comparison.ReadsAs as bs) (hNext : List.Forall₂ Comparison.ReadsAs bs cs) :
    List.Forall₂ Comparison.ReadsAs as cs := by
  induction h generalizing cs with
  | nil => exact hNext
  | cons hHead _ ih =>
    obtain ⟨c, cs, hNextHead, hNextTail, rfl⟩ := List.forall₂_cons_left_iff.1 hNext
    exact .cons (hHead.trans hNextHead) (ih hNextTail)

/-- The comparisons that are read back are those that were printed, in the same order. -/
theorem ReadsAs.comparisons {c c' : Condition} (h : c.ReadsAs c') :
    List.Forall₂ Comparison.ReadsAs c.comparisons c'.comparisons := by
  induction h with
  | compare hComparison => exact .cons hComparison .nil
  | and _ _ ihl ihr | or _ _ ihl ihr => exact List.rel_append ihl ihr
  | not _ ih => exact ih
  | regroup a b c =>
    simp only [Condition.comparisons, List.append_assoc]
    exact List.forall₂_same.2 fun comparison _ => .refl comparison
  | trans _ _ ih ih' => exact forall₂_trans ih ih'

theorem ReadsAs.holds_iff {s : Surroundings} {row : Row} {c c' : Condition} (h : c.ReadsAs c') :
    c'.Holds s row ↔ c.Holds s row := by
  induction h with
  | compare hComparison => exact hComparison.holds_iff
  | and _ _ ihl ihr => exact and_congr ihl ihr
  | or _ _ ihl ihr => exact or_congr ihl ihr
  | not _ ih => exact not_congr ih
  | regroup a b c => exact and_assoc
  | trans _ _ ih ih' => exact ih'.trans ih

end Condition

/-! ## Spelled conditions -/

open Condition (ReadsAs)

variable {c c' l r : Condition} {t : Token} {ts us : List Token}

/-- Tokens spell a condition, alone and as the end of a longer conjunction. -/
structure IsSpelled (c : Condition) (ts : List Token) : Prop where
  alone : ∃ c', SpellsCondition .conjunction ts c' ∧ c.ReadsAs c'
  behind : ∀ us l t, SpellsCondition .conjunction us l → t.isKeyword "AND" = true →
    ∃ c', SpellsCondition .conjunction (us ++ t :: ts) c' ∧ (Condition.and l c).ReadsAs c'

theorem IsSpelled.factor (hSpells : SpellsCondition .factor ts c') (hReads : c.ReadsAs c') :
    IsSpelled c ts where
  alone := ⟨c', .factor hSpells, hReads⟩
  behind _ l _ hLeft hAnd := ⟨.and l c', .and hLeft hAnd hSpells, .and (.refl l) hReads⟩

/-- One conjunction behind another is read from the left. -/
theorem IsSpelled.and (hl : IsSpelled l ts) (hr : IsSpelled r us) (hAnd : t.isKeyword "AND" = true) :
    IsSpelled (.and l r) (ts ++ t :: us) where
  alone := by
    obtain ⟨l', hLeft, hReads⟩ := hl.alone
    obtain ⟨c', hSpells, hWhole⟩ := hr.behind ts l' t hLeft hAnd
    exact ⟨c', hSpells, (ReadsAs.and hReads (.refl r)).trans hWhole⟩
  behind vs k u hFront hJoin := by
    -- What stands in front takes in the left part first, and then both take in the right one.
    obtain ⟨l', hLeft, hReads⟩ := hl.behind vs k u hFront hJoin
    obtain ⟨c', hSpells, hWhole⟩ := hr.behind (vs ++ u :: ts) l' t hLeft hAnd
    refine ⟨c', ?_, (ReadsAs.regroup k l r).trans ((ReadsAs.and hReads (.refl r)).trans hWhole)⟩
    simpa using hSpells

theorem IsSpelled.or (hl : IsSpelled l ts) (hr : IsSpelled r us) (hOr : t.isKeyword "OR" = true) :
    IsSpelled (.or l r) (.leftParen :: (ts ++ t :: us ++ [.rightParen])) := by
  obtain ⟨l', hLeft, hReadsLeft⟩ := hl.alone
  obtain ⟨r', hRight, hReadsRight⟩ := hr.alone
  have hInner : SpellsCondition .disjunction (ts ++ t :: us) (.or l' r') :=
    .or (.conjunction hLeft) hOr hRight
  exact .factor (.parentheses hInner) (.or hReadsLeft hReadsRight)

theorem IsSpelled.not (hc : IsSpelled c ts) (hNot : t.isKeyword "NOT" = true) :
    IsSpelled (.not c) (t :: .leftParen :: (ts ++ [.rightParen])) := by
  obtain ⟨c', hSpells, hReads⟩ := hc.alone
  exact .factor (.not hNot (.parentheses (.conjunction hSpells))) (.not hReads)

/-! ## Printed forms -/

theorem Column.toList_display_qualified (q name : String) :
    (Column.mk (some q) name).display.toList = q.toList ++ '.' :: name.toList := by
  simp [Column.display, toString]

theorem Comparison.toList_display (column : Column) (op : Comparator) (o : Operand) :
    (Comparison.mk column op o).display.toList =
      column.display.toList ++ ' ' :: (op.symbol.toList ++ ' ' :: o.display.toList) := by
  simp [Comparison.display, toString]

namespace Condition

theorem toList_display_and (l r : Condition) :
    (and l r).display.toList =
      l.display.toList ++ ' ' :: ("AND".toList ++ ' ' :: r.display.toList) := by
  simp [display, toString]

theorem toList_display_or (l r : Condition) :
    (or l r).display.toList =
      '(' :: (l.display.toList ++ ' ' :: ("OR".toList ++ ' ' :: r.display.toList) ++ [')']) := by
  simp [display, toString]

theorem toList_display_not (c : Condition) :
    (not c).display.toList = "NOT".toList ++ ' ' :: '(' :: (c.display.toList ++ [')']) := by
  simp [display, toString]

end Condition

/-! ## Printed conditions -/

/-- A column that can be printed without quotes: its names are bare ones, and the first of them is
not the keyword `NOT`. -/
structure Column.IsPlain (column : Column) : Prop where
  name : (Token.name column.name).isProper = true
  qualifier : ∀ q, column.qualifier = some q → (Token.name q).isProper = true
  notNot : Text.sameFolded "NOT" (column.qualifier.getD column.name) = false

/-- A comparison of a column that can be printed without quotes, not with a placeholder. -/
structure Comparison.IsPlain (comparison : Comparison) : Prop where
  column : comparison.column.IsPlain
  value : ∀ i, comparison.operand ≠ .placeholder i

theorem exists_spellsColumn {column : Column} (h : column.IsPlain) :
    ∃ ts, Prints column.display.toList ts ∧ SpellsColumn ts column ∧ beginsWithNot ts = false := by
  obtain ⟨qualifier, name⟩ := column
  have hName : Prints name.toList [.name name] := prints_name h.name
  cases qualifier with
  | none => exact ⟨_, hName, .plain (.bare name), h.notNot⟩
  | some q =>
    have hPoint : continuesName '.' = false := by decide
    have hTail : Prints ('.' :: name.toList) [.dot, .name name] :=
      hName.behind fun rest => gives_mark (by simp) _
    have hQualified : Prints (q.toList ++ '.' :: name.toList) [.name q, .dot, .name name] :=
      hTail.behind fun rest =>
        gives_of_readsBefore (readsBefore_name (h.qualifier q rfl)) (endsRun_cons hPoint _)
    rw [Column.toList_display_qualified]
    exact ⟨_, hQualified, .qualified (.bare q) (.bare name), h.notNot⟩

theorem exists_isSpelled_compare {comparison : Comparison} (h : comparison.IsPlain) :
    ∃ ts, Prints comparison.display.toList ts ∧ IsSpelled (.compare comparison) ts := by
  obtain ⟨column, op, o⟩ := comparison
  obtain ⟨ts, hLeft, hSpellsColumn, hNot⟩ := exists_spellsColumn h.column
  obtain ⟨us, o', hRight, hSpellsOperand, hReads⟩ := exists_spellsOperand h.value
  have hSymbol : ReadsBack (.comparator op) op.symbol.toList :=
    readsBack_spelling (l := ⟨.comparator op, .double⟩) rfl
  have hComparison : (Comparison.mk column op o).ReadsAs ⟨column, op, o'⟩ := ⟨rfl, rfl, hReads⟩
  rw [Comparison.toList_display]
  exact ⟨_, hLeft.append_blank (hRight.cons_blank hSymbol),
    .factor (.compare hSpellsColumn hNot hSpellsOperand) (.compare hComparison)⟩

/-- Words are read back in front of a blank. -/
theorem readsBack_word {word : String} (h : (Token.name word).isProper = true) :
    ReadsBack (.name word) word.toList :=
  readsBack_spelling (l := ⟨.name word, .double⟩) h

/-- A condition is printed as tokens that spell it. -/
theorem exists_isSpelled (h : ∀ comparison ∈ c.comparisons, comparison.IsPlain) :
    ∃ ts, Prints c.display.toList ts ∧ IsSpelled c ts := by
  induction c with
  | compare comparison => exact exists_isSpelled_compare (h comparison (List.mem_singleton_self _))
  | and l r ihl ihr =>
    obtain ⟨hPlainLeft, hPlainRight⟩ := List.forall_mem_append.1 h
    obtain ⟨ts, hLeft, hl⟩ := ihl hPlainLeft
    obtain ⟨us, hRight, hr⟩ := ihr hPlainRight
    have hAnd : ReadsBack (.name "AND") "AND".toList := readsBack_word (by decide)
    rw [Condition.toList_display_and]
    exact ⟨_, hLeft.append_blank (hRight.cons_blank hAnd), hl.and hr (by decide)⟩
  | or l r ihl ihr =>
    obtain ⟨hPlainLeft, hPlainRight⟩ := List.forall_mem_append.1 h
    obtain ⟨ts, hLeft, hl⟩ := ihl hPlainLeft
    obtain ⟨us, hRight, hr⟩ := ihr hPlainRight
    have hOr : ReadsBack (.name "OR") "OR".toList := readsBack_word (by decide)
    rw [Condition.toList_display_or]
    exact ⟨_, (hLeft.append_blank (hRight.cons_blank hOr)).parentheses, hl.or hr (by decide)⟩
  | not c ih =>
    obtain ⟨ts, hInner, hc⟩ := ih h
    have hNot : ReadsBack (.name "NOT") "NOT".toList := readsBack_word (by decide)
    rw [Condition.toList_display_not]
    exact ⟨_, hInner.parentheses.cons_blank hNot, hc.not (by decide)⟩

/-- No placeholder is read back where none was printed. -/
theorem ne_placeholder_of_forall₂ {as bs : List Comparison}
    (h : List.Forall₂ Comparison.ReadsAs as bs) (hPlain : ∀ a ∈ as, a.IsPlain) :
    ∀ b ∈ bs, ∀ i, b.operand ≠ .placeholder i := by
  induction h with
  | nil => simp
  | cons hHead _ ih =>
    rw [List.forall_mem_cons] at hPlain ⊢
    exact ⟨hHead.operand.ne_placeholder hPlain.1.value, ih hPlain.2⟩

theorem placeholder_notMem_of_readsAs (h : ∀ comparison ∈ c.comparisons, comparison.IsPlain)
    (hReads : c.ReadsAs c') (i : Nat) : Operand.placeholder i ∉ c'.operands := by
  intro hMem
  rw [c'.operands_eq, List.mem_map] at hMem
  obtain ⟨b, hMem, hOperand⟩ := hMem
  exact ne_placeholder_of_forall₂ hReads.comparisons h b hMem i hOperand

/-! ## Deletions -/

/-- A text is read as the statement without placeholders that its tokens spell. -/
theorem ofText_of_spells {text : String} {s : Statement} (hTokens : lexemes text.toList = some ts)
    (hSpells : SpellsStatement ts s) (hValues : ∀ i, Operand.placeholder i ∉ s.operands) :
    Statement.ofText text = .ok s := by
  rw [lexemes_toList] at hTokens
  cases hScan : tokens text with
  | error e =>
    rw [hScan] at hTokens
    cases hTokens
  | ok ps =>
    rw [hScan] at hTokens
    have hMap : ps.map Placed.token = ts := Option.some.inj hTokens
    have hPass : Cursor.Passes ⟨ps, 0⟩ ts s.operands ⟨[], 0⟩ :=
      ⟨⟨ps, (List.append_nil ps).symm, hMap⟩, numbered_of_placeholder_notMem hValues 0⟩
    have hEnds : Cursor.EndsAt ⟨[], 0⟩ [] := by
      intro t hNext
      cases hNext
    rw [Statement.ofText, hScan]
    exact ofTokens_eq_ok_iff_run.2 ⟨_, Reader.body_complete hSpells hPass hEnds, by simp⟩

/-- What is printed behind `WHERE` in front of a condition. -/
theorem prints_delete {cs : List Char} (h : Prints cs ts) :
    Prints ("DELETE FROM users WHERE ".toList ++ cs)
      (.name "DELETE" :: .name "FROM" :: .name "users" :: .name "WHERE" :: ts) := by
  have hWhere : ReadsBack (.name "WHERE") "WHERE".toList := readsBack_word (by decide)
  have hUsers : ReadsBack (.name "users") "users".toList := readsBack_word (by decide)
  have hFrom : ReadsBack (.name "FROM") "FROM".toList := readsBack_word (by decide)
  have hDelete : ReadsBack (.name "DELETE") "DELETE".toList := readsBack_word (by decide)
  exact (((h.cons_blank hWhere).cons_blank hUsers).cons_blank hFrom).cons_blank hDelete

theorem spells_delete (h : SpellsCondition .disjunction ts c) :
    SpellsStatement (.name "DELETE" :: .name "FROM" :: .name "users" :: .name "WHERE" :: ts)
      (.delete .users (some c)) := by
  have hVerb : SpellsWords ["DELETE", "FROM"] [.name "DELETE", .name "FROM"] :=
    .cons (by decide) (.cons (by decide) .nil)
  have hTable : IsTable (.name "users") .users := ⟨"users", .bare _, by decide⟩
  exact .delete hVerb hTable (.some (.mk (by decide) h))

/-- **A printed condition is read back as what it was.** Behind `WHERE` the printed form of a condition
without placeholders and with bare names for its columns is read as a condition that differs in
nothing but how chains of `AND` are grouped and how decimals are written. It holds of the same rows. -/
theorem ofText_delete_display (hPlain : ∀ comparison ∈ c.comparisons, comparison.IsPlain) :
    ∃ c', Statement.ofText ("DELETE FROM users WHERE " ++ c.display) =
        .ok (.delete .users (some c')) ∧
      c.ReadsAs c' ∧ ∀ s row, c'.Holds s row ↔ c.Holds s row := by
  obtain ⟨ts, hPrints, hSpelled⟩ := exists_isSpelled hPlain
  obtain ⟨c', hSpells, hReads⟩ := hSpelled.alone
  have hTokens := (prints_delete hPrints).lexemes_eq
  rw [← String.toList_append] at hTokens
  refine ⟨c', ?_, hReads, fun s row => hReads.holds_iff⟩
  exact ofText_of_spells hTokens (spells_delete (.conjunction hSpells))
    (placeholder_notMem_of_readsAs hPlain hReads)

/-- A conjunction grouped to the right, with an alternative in it, a quote in a text and a decimal with
a sign. -/
theorem ofText_delete_display_nested :
    let age : Condition :=
      .compare ⟨⟨some "u", "age"⟩, .less, .literal (.decimal ⟨true, 150, 1, by decide, by decide⟩)⟩
    let note : Condition := .compare ⟨⟨none, "note"⟩, .unequal, .literal (.text "it's")⟩
    let seen : Condition := .compare ⟨⟨none, "seen"⟩, .atMost, .now⟩
    let id : Condition := .compare ⟨⟨none, "id"⟩, .equal, .literal .null⟩
    let c : Condition := .and age (.and (.or note (.not seen)) id)
    (∀ comparison ∈ c.comparisons, comparison.IsPlain) ∧
      ∃ c', Statement.ofText ("DELETE FROM users WHERE u.age < -15.0 AND " ++
            "(note != 'it''s' OR NOT (seen <= datetime('now'))) AND id = NULL") =
          .ok (.delete .users (some c')) ∧
        c.ReadsAs c' := by
  intro age note seen id c
  have hPlain : ∀ comparison ∈ c.comparisons, comparison.IsPlain := by
    intro comparison hMem
    simp only [c, age, note, seen, id, Condition.comparisons, List.mem_append,
      List.mem_singleton] at hMem
    rcases hMem with rfl | (rfl | rfl) | rfl <;>
      exact ⟨⟨by decide, by decide, by decide⟩, by simp⟩
  obtain ⟨c', hText, hReads, -⟩ := ofText_delete_display hPlain
  have hDisplay : "DELETE FROM users WHERE " ++ c.display =
      "DELETE FROM users WHERE u.age < -15.0 AND " ++
        "(note != 'it''s' OR NOT (seen <= datetime('now'))) AND id = NULL" := by
    decide +kernel
  rw [hDisplay] at hText
  exact ⟨hPlain, c', hText, hReads⟩

end RecordStore.Sql
