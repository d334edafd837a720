import Mathlib.Data.List.TakeWhile
import RecordStore.Proofs.ReadingParts

/-!
# Reading whole statements

Clauses that may be absent are told from what follows by their first keyword. After a statement
there is nothing but semicolons, and after a clause there may be the keyword of a later one:
`Cursor.EndsAt` says which keywords may be next.

## Main results

- `whereClause_reads`, `join_reads`, `sortClause_reads`, `limit_reads`: the clauses of statements.
- `ofTokens_eq_ok_iff`: the statements that are read are those that the grammar derives.
-/

namespace RecordStore.Sql

open Text (sameFolded)
open Grammar

namespace Cursor

variable {c c' : Cursor} {words new : List String}

/-- Next is the end, a semicolon or one of these keywords. -/
def EndsAt (c : Cursor) (words : List String) : Prop :=
  ∀ t, c.next? = some t → t = .semicolon ∨ ∃ word ∈ words, t.isKeyword word = true

/-- What is not a semicolon and none of the keywords is not next. -/
theorem EndsAt.nextIs {p : Token → Bool} (h : c.EndsAt words) (hp : IgnoresCase p)
    (hSemicolon : p .semicolon = false) (hWords : ∀ word ∈ words, p (.name word) = false) :
    c.nextIs p = false := by
  cases hNext : c.next? with
  | none => rw [Cursor.nextIs, hNext]; rfl
  | some t =>
    rw [nextIs_of_next? hNext]
    rcases h t hNext with rfl | ⟨word, hMem, hWord⟩
    · exact hSemicolon
    · rw [hp.eq hWord, hWords word hMem]

theorem EndsAt.of_next {t : Token} {word : String} (h : c.next? = some t)
    (hWord : t.isKeyword word = true) : c.EndsAt [word] := by
  intro u hu
  rw [h, Option.some.injEq] at hu
  exact .inr ⟨word, List.mem_singleton_self word, hu ▸ hWord⟩

/-- In front of a clause that may be absent its keywords may be next as well. -/
theorem EndsAt.clause {α : Type} {clause : List Token → α → Prop} {us : List Token} {o : Option α}
    {os : List Operand} (h : c'.EndsAt words)
    (hFirst : ∀ {us a}, clause us a →
      ∃ t rest, us = t :: rest ∧ ∃ word ∈ new, t.isKeyword word = true)
    (hSpells : SpellsOption clause us o) (hPass : c.Passes us os c') :
    c.EndsAt (new ++ words) := by
  intro t hNext
  cases hSpells with
  | none =>
    obtain ⟨ps, hTokens, hMap⟩ := hPass.tokens
    have hNil : ps = [] := List.map_eq_nil_iff.1 hMap
    have hSame : c.next? = c'.next? := by rw [next?, next?, hTokens, hNil, List.nil_append]
    rw [hSame] at hNext
    rcases h t hNext with hSemicolon | ⟨word, hMem, hWord⟩
    · exact .inl hSemicolon
    · exact .inr ⟨word, List.mem_append_right _ hMem, hWord⟩
  | some hClause =>
    obtain ⟨u, rest, rfl, word, hMem, hWord⟩ := hFirst hClause
    rw [hPass.next?, Option.some.injEq] at hNext
    exact .inr ⟨word, List.mem_append_left _ hMem, hNext ▸ hWord⟩

end Cursor

namespace Reader

open Cursor

variable {c c' : Cursor} {t : Token} {us : List Token}

/-! ## Words -/

theorem spellsWords_singleton_iff {word : String} :
    SpellsWords [word] us ↔ ∃ t, us = [t] ∧ t.isKeyword word = true := by
  constructor
  · intro h
    cases h with
    | cons hWord hNil =>
      cases hNil
      exact ⟨_, rfl, hWord⟩
  · rintro ⟨t, rfl, hWord⟩
    exact .cons hWord .nil

theorem spellsWords_pair_iff {word other : String} :
    SpellsWords [word, other] us ↔
      ∃ t u, us = [t, u] ∧ t.isKeyword word = true ∧ u.isKeyword other = true := by
  constructor
  · intro h
    cases h with
    | cons hWord hRest =>
      obtain ⟨u, rfl, hOther⟩ := spellsWords_singleton_iff.1 hRest
      exact ⟨_, u, rfl, hWord, hOther⟩
  · rintro ⟨t, u, rfl, hWord, hOther⟩
    exact .cons hWord (.cons hOther .nil)

/-! ## Clauses -/

theorem name_reads :
    Reads name (fun us s => ∃ u, us = [u] ∧ IsName u s) (fun _ => []) fun _ => false := by
  constructor
  · intro c s c' h
    obtain ⟨t, hName, hPass⟩ := name_run_iff.1 h
    exact ⟨[t], ⟨t, rfl, hName⟩, hPass⟩
  · rintro c s c' _ ⟨t, rfl, hName⟩ hPass _
    exact name_run_iff.2 ⟨t, hName, hPass⟩

theorem assignment_reads :
    Reads assignment SpellsAssignment (fun a => [a.value]) fun _ => false := by
  constructor
  · intro c a c' h
    rw [assignment] at h
    obtain ⟨col, c₁, hName, h⟩ := run_bind_eq_ok_iff.1 h
    obtain ⟨_, c₂, hEqual, h⟩ := run_bind_eq_ok_iff.1 h
    obtain ⟨value, c₃, hValue, h⟩ := run_bind_eq_ok_iff.1 h
    obtain ⟨rfl, rfl⟩ := run_pure_eq_ok_iff.1 h
    obtain ⟨t, hToken, hFirst⟩ := name_run_iff.1 hName
    obtain ⟨us, hSpells, hPass⟩ := operand_reads.sound hValue
    have hSecond : c₁.Passes [.comparator .equal] [] c₂ := symbol_run_iff.1 hEqual
    exact ⟨_, .mk hToken hSpells, hFirst.cons (hSecond.cons hPass)⟩
  · rintro c _ c' _ ⟨hToken, hSpells⟩ hPass _
    obtain ⟨c₁, hFirst, hPass⟩ := passes_cons_iff.1 hPass
    obtain ⟨c₂, hEqual, hValue⟩ := passes_cons_iff.1 hPass
    rw [assignment, run_bind (name_run_iff.2 ⟨_, hToken, hFirst⟩),
      run_bind (symbol_run_iff.2 hEqual),
      run_bind (operand_reads.complete hSpells hValue nextIs_false)]
    rfl

theorem whereClause_reads :
    Reads whereClause (SpellsOption SpellsWhere) (·.elim [] Condition.operands)
      fun t => t.isKeyword "WHERE" || joins t := by
  constructor
  · intro c o c' h
    rw [whereClause] at h
    obtain ⟨announced, c₁, hWhere, h⟩ := run_bind_eq_ok_iff.1 h
    cases announced with
    | true =>
      obtain ⟨t, hWord, hOne⟩ := eatKeyword_true_iff.1 hWhere
      obtain ⟨cond, c₂, hCondition, h⟩ := run_bind_eq_ok_iff.1 h
      obtain ⟨rfl, rfl⟩ := run_pure_eq_ok_iff.1 h
      obtain ⟨us, hSpells, hPass⟩ := condition_reads.sound hCondition
      exact ⟨_, .some (.mk hWord hSpells), hOne.cons hPass⟩
    | false =>
      obtain ⟨-, rfl⟩ := eatKeyword_false_iff.1 hWhere
      obtain ⟨rfl, rfl⟩ := run_pure_eq_ok_iff.1 h
      exact ⟨[], .none, passes_nil_iff.2 rfl⟩
  · intro c o c' us hSpells hPass hStop
    obtain ⟨hWhere, hJoins⟩ := nextIs_or_iff.1 hStop
    cases hSpells with
    | none =>
      obtain rfl := passes_nil_iff.1 hPass
      rw [whereClause, run_bind (eatKeyword_false_iff.2 ⟨hWhere, rfl⟩)]
      rfl
    | some hClause =>
      obtain ⟨hWord, hCondition⟩ := hClause
      obtain ⟨c₁, hOne, hPass⟩ := passes_cons_iff.1 hPass
      rw [whereClause, run_bind (eatKeyword_true_iff.2 ⟨_, hWord, hOne⟩), if_pos rfl,
        run_bind (condition_reads.complete hCondition hPass hJoins)]
      rfl

/-- A name is not the mark for everything. -/
private theorem not_star {s : String} (hName : IsName t s) (hPass : c.Passes [t] [] c') :
    (eatToken .star).run c = .ok (false, c) := by
  refine eatToken_false_iff.2 ⟨?_, rfl⟩
  rw [nextIs_of_next? hPass.next?]
  cases hName <;> rfl

theorem item_reads : Reads item SpellsItem (fun _ => []) (· == .dot) := by
  constructor
  · intro c i c' h
    rw [item] at h
    obtain ⟨everything, c₁, hStar, h⟩ := run_bind_eq_ok_iff.1 h
    cases everything with
    | true =>
      obtain ⟨rfl, rfl⟩ := run_pure_eq_ok_iff.1 h
      exact ⟨[.star], .everything, eatToken_true_iff.1 hStar⟩
    | false =>
      obtain ⟨-, rfl⟩ := eatToken_false_iff.1 hStar
      obtain ⟨first, c₂, hFirst, h⟩ := run_bind_eq_ok_iff.1 h
      obtain ⟨dotted, c₃, hDot, h⟩ := run_bind_eq_ok_iff.1 h
      obtain ⟨t, hName, hPass⟩ := name_run_iff.1 hFirst
      cases dotted with
      | false =>
        obtain ⟨-, rfl⟩ := eatToken_false_iff.1 hDot
        obtain ⟨rfl, rfl⟩ := run_pure_eq_ok_iff.1 h
        exact ⟨[t], .column (.plain hName), hPass⟩
      | true =>
        have hDotPass : c₂.Passes [.dot] [] c₃ := eatToken_true_iff.1 hDot
        obtain ⟨allOf, c₄, hAll, h⟩ := run_bind_eq_ok_iff.1 h
        cases allOf with
        | true =>
          have hAllPass : c₃.Passes [.star] [] c₄ := eatToken_true_iff.1 hAll
          obtain ⟨rfl, rfl⟩ := run_pure_eq_ok_iff.1 h
          exact ⟨[t, .dot, .star], .allOf hName, hPass.cons (hDotPass.cons hAllPass)⟩
        | false =>
          obtain ⟨-, rfl⟩ := eatToken_false_iff.1 hAll
          obtain ⟨second, c₅, hSecond, h⟩ := run_bind_eq_ok_iff.1 h
          obtain ⟨u, hOther, hPass'⟩ := name_run_iff.1 hSecond
          obtain ⟨rfl, rfl⟩ := run_pure_eq_ok_iff.1 h
          exact ⟨[t, .dot, u], .column (.qualified hName hOther),
            hPass.cons (hDotPass.cons hPass')⟩
  · intro c i c' us hSpells hPass hStop
    cases hSpells with
    | everything =>
      rw [item, run_bind (eatToken_true_iff.2 hPass)]
      rfl
    | allOf hName =>
      obtain ⟨c₁, hFirst, hPass⟩ := passes_cons_iff.1 hPass
      obtain ⟨c₂, hDot, hStar⟩ := passes_cons_iff.1 hPass
      rw [item, run_bind (not_star hName hFirst), if_neg (by decide),
        run_bind (name_run_iff.2 ⟨_, hName, hFirst⟩), run_bind (eatToken_true_iff.2 hDot),
        if_pos rfl, run_bind (eatToken_true_iff.2 hStar)]
      rfl
    | column hColumn =>
      cases hColumn with
      | plain hName =>
        rw [item, run_bind (not_star hName hPass), if_neg (by decide),
          run_bind (name_run_iff.2 ⟨_, hName, hPass⟩),
          run_bind (eatToken_false_iff.2 ⟨hStop, rfl⟩)]
        rfl
      | qualified hName hOther =>
        obtain ⟨c₁, hFirst, hPass⟩ := passes_cons_iff.1 hPass
        obtain ⟨c₂, hDot, hSecond⟩ := passes_cons_iff.1 hPass
        rw [item, run_bind (not_star hName hFirst), if_neg (by decide),
          run_bind (name_run_iff.2 ⟨_, hName, hFirst⟩), run_bind (eatToken_true_iff.2 hDot),
          if_pos rfl, run_bind (not_star hOther hSecond), if_neg (by decide),
          run_bind (name_run_iff.2 ⟨_, hOther, hSecond⟩)]
        rfl

/-- A token that goes on with the column at the end of a join, or begins a join. -/
def goesOnWithJoin (t : Token) : Bool :=
  t == .dot || (t.isKeyword "INNER" || t.isKeyword "JOIN")

theorem joinTail_sound {j : Join} (h : joinTail.run c = .ok (j, c')) :
    ∃ ts onWord ls rs, SpellsSource ts j.source ∧ SpellsWords ["ON"] onWord ∧
      SpellsColumn ls j.left ∧ SpellsColumn rs j.right ∧
      c.Passes (ts ++ onWord ++ ls ++ .comparator .equal :: rs) [] c' := by
  rw [joinTail] at h
  obtain ⟨src, c₁, hSource, h⟩ := run_bind_eq_ok_iff.1 h
  obtain ⟨_, c₂, hOn, h⟩ := run_bind_eq_ok_iff.1 h
  obtain ⟨left, c₃, hLeft, h⟩ := run_bind_eq_ok_iff.1 h
  obtain ⟨_, c₄, hEqual, h⟩ := run_bind_eq_ok_iff.1 h
  obtain ⟨right, c₅, hRight, h⟩ := run_bind_eq_ok_iff.1 h
  obtain ⟨rfl, rfl⟩ := run_pure_eq_ok_iff.1 h
  obtain ⟨ts, hSpellsSource, hSourcePass⟩ := source_reads.sound hSource
  obtain ⟨t, hWord, hOnPass⟩ := keyword_run_iff.1 hOn
  obtain ⟨ls, hSpellsLeft, hLeftPass⟩ := column_reads.sound hLeft
  have hEqualPass : c₃.Passes [.comparator .equal] [] c₄ := symbol_run_iff.1 hEqual
  obtain ⟨rs, hSpellsRight, hRightPass⟩ := column_reads.sound hRight
  refine ⟨ts, [t], ls, rs, hSpellsSource, .cons hWord .nil, hSpellsLeft, hSpellsRight, ?_⟩
  exact ((hSourcePass.append hOnPass).append hLeftPass).append (hEqualPass.cons hRightPass)

theorem joinTail_complete {ts onWord ls rs : List Token} {src : Source} {left right : Column}
    (hSource : SpellsSource ts src) (hOn : SpellsWords ["ON"] onWord)
    (hLeft : SpellsColumn ls left) (hRight : SpellsColumn rs right)
    (hPass : c.Passes (ts ++ onWord ++ ls ++ .comparator .equal :: rs) [] c')
    (hStop : c'.nextIs (· == .dot) = false) :
    joinTail.run c = .ok (⟨src, left, right⟩, c') := by
  obtain ⟨t, rfl, hWord⟩ := spellsWords_singleton_iff.1 hOn
  obtain ⟨c₃, hPass, hAfter⟩ := passes_append_right_iff.1 hPass
  obtain ⟨c₂, hPass, hLeftPass⟩ := passes_append_right_iff.1 hPass
  obtain ⟨c₁, hSourcePass, hOnPass⟩ := passes_append_right_iff.1 hPass
  obtain ⟨c₄, hEqual, hRightPass⟩ := passes_cons_iff.1 hAfter
  have hEnds : c₁.EndsAt ["ON"] := .of_next hOnPass.next? hWord
  have hNoName : c₁.nextIs renames = false := hEnds.nextIs ignoresCase_renames rfl (by decide)
  have hNoDot : c₃.nextIs (· == .dot) = false := nextIs_of_next? hEqual.next?
  rw [joinTail, run_bind (source_reads.complete hSource hSourcePass hNoName),
    run_bind (keyword_run_iff.2 ⟨t, hWord, hOnPass⟩),
    run_bind (column_reads.complete hLeft hLeftPass hNoDot), run_bind (symbol_run_iff.2 hEqual),
    run_bind (column_reads.complete hRight hRightPass hStop)]
  rfl

/-- After its keywords a join is read to its end. -/
private theorem spellsJoin_of_words {words : List Token} {j : Join} {c₁ : Cursor}
    (hWords : SpellsWords ["JOIN"] words ∨ SpellsWords ["INNER", "JOIN"] words)
    (hPass : c.Passes words [] c₁) (h : joinTail.run c₁ = .ok (j, c')) :
    ∃ us, SpellsOption SpellsJoin us (some j) ∧ c.Passes us [] c' := by
  obtain ⟨ts, onWord, ls, rs, hSource, hOn, hLeft, hRight, hTail⟩ := joinTail_sound h
  refine ⟨_, .some (.mk hWords hSource hOn hLeft hRight), ?_⟩
  simp only [List.append_assoc] at hTail ⊢
  exact passes_append_right_iff.2 ⟨c₁, hPass, hTail⟩

theorem join_sound : Sound join (SpellsOption SpellsJoin) fun _ => [] := by
  intro c o c' h
  rw [join] at h
  obtain ⟨inner, c₁, hInner, h⟩ := run_bind_eq_ok_iff.1 h
  cases inner with
  | true =>
    obtain ⟨t, hWord, hFirst⟩ := eatKeyword_true_iff.1 hInner
    obtain ⟨_, c₂, hJoin, h⟩ := run_bind_eq_ok_iff.1 h
    obtain ⟨j, c₃, hTail, h⟩ := run_bind_eq_ok_iff.1 h
    obtain ⟨rfl, rfl⟩ := run_pure_eq_ok_iff.1 h
    obtain ⟨u, hOther, hSecond⟩ := keyword_run_iff.1 hJoin
    exact spellsJoin_of_words (.inr (.cons hWord (.cons hOther .nil))) (hFirst.cons hSecond) hTail
  | false =>
    obtain ⟨-, rfl⟩ := eatKeyword_false_iff.1 hInner
    obtain ⟨announced, c₂, hJoin, h⟩ := run_bind_eq_ok_iff.1 h
    cases announced with
    | true =>
      obtain ⟨t, hWord, hOne⟩ := eatKeyword_true_iff.1 hJoin
      obtain ⟨j, c₃, hTail, h⟩ := run_bind_eq_ok_iff.1 h
      obtain ⟨rfl, rfl⟩ := run_pure_eq_ok_iff.1 h
      exact spellsJoin_of_words (.inl (.cons hWord .nil)) hOne hTail
    | false =>
      obtain ⟨-, rfl⟩ := eatKeyword_false_iff.1 hJoin
      obtain ⟨rfl, rfl⟩ := run_pure_eq_ok_iff.1 h
      exact ⟨[], .none, passes_nil_iff.2 rfl⟩

theorem join_complete : Complete join (SpellsOption SpellsJoin) (fun _ => []) goesOnWithJoin := by
  intro c o c' us hSpells hPass hStop
  obtain ⟨hDot, hWords⟩ := nextIs_or_iff.1 hStop
  obtain ⟨hInner, hJoin⟩ := nextIs_or_iff.1 hWords
  cases hSpells with
  | none =>
    obtain rfl := passes_nil_iff.1 hPass
    rw [join, run_bind (eatKeyword_false_iff.2 ⟨hInner, rfl⟩), if_neg (by decide),
      run_bind (eatKeyword_false_iff.2 ⟨hJoin, rfl⟩)]
    rfl
  | some hClause =>
    obtain ⟨hWords, hSource, hOn, hLeft, hRight⟩ := hClause
    rw [List.append_assoc, List.append_assoc, List.append_assoc] at hPass
    obtain ⟨c₁, hFirst, hTail⟩ := passes_append_right_iff.1 hPass
    rw [← List.append_assoc, ← List.append_assoc] at hTail
    have hRun := joinTail_complete hSource hOn hLeft hRight hTail hDot
    rcases hWords with hOne | hTwo
    · obtain ⟨t, rfl, hWord⟩ := spellsWords_singleton_iff.1 hOne
      have hNotInner : c.nextIs (Token.isKeyword "INNER") = false :=
        nextIs_keyword hFirst hWord (by decide)
      rw [join, run_bind (eatKeyword_false_iff.2 ⟨hNotInner, rfl⟩), if_neg (by decide),
        run_bind (eatKeyword_true_iff.2 ⟨t, hWord, hFirst⟩), if_pos rfl, run_bind hRun]
      rfl
    · obtain ⟨t, u, rfl, hWord, hOther⟩ := spellsWords_pair_iff.1 hTwo
      obtain ⟨c₀, hBefore, hAfter⟩ := passes_cons_iff.1 hFirst
      rw [join, run_bind (eatKeyword_true_iff.2 ⟨t, hWord, hBefore⟩), if_pos rfl,
        run_bind (keyword_run_iff.2 ⟨u, hOther, hAfter⟩), run_bind hRun]
      rfl

/-- A second table is read as the grammar has it, if there is one. -/
theorem join_reads : Reads join (SpellsOption SpellsJoin) (fun _ => []) goesOnWithJoin :=
  ⟨join_sound, join_complete⟩

/-- A direction of sorting. -/
inductive SpellsDirection : List Token → Bool → Prop
  | none : SpellsDirection [] true
  | upwards {t : Token} : t.isKeyword "ASC" = true → SpellsDirection [t] true
  | downwards {t : Token} : t.isKeyword "DESC" = true → SpellsDirection [t] false

theorem direction_reads :
    Reads direction SpellsDirection (fun _ => [])
      fun t => t.isKeyword "DESC" || t.isKeyword "ASC" := by
  constructor
  · intro c upwards c' h
    rw [direction] at h
    obtain ⟨down, c₁, hDown, h⟩ := run_bind_eq_ok_iff.1 h
    cases down with
    | true =>
      obtain ⟨t, hWord, hOne⟩ := eatKeyword_true_iff.1 hDown
      obtain ⟨rfl, rfl⟩ := run_pure_eq_ok_iff.1 h
      exact ⟨[t], .downwards hWord, hOne⟩
    | false =>
      obtain ⟨-, rfl⟩ := eatKeyword_false_iff.1 hDown
      obtain ⟨up, c₂, hUp, h⟩ := run_bind_eq_ok_iff.1 h
      obtain ⟨rfl, rfl⟩ := run_pure_eq_ok_iff.1 h
      cases up with
      | true =>
        obtain ⟨t, hWord, hOne⟩ := eatKeyword_true_iff.1 hUp
        exact ⟨[t], .upwards hWord, hOne⟩
      | false =>
        obtain ⟨-, rfl⟩ := eatKeyword_false_iff.1 hUp
        exact ⟨[], .none, passes_nil_iff.2 rfl⟩
  · intro c upwards c' us hSpells hPass hStop
    obtain ⟨hDown, hUp⟩ := nextIs_or_iff.1 hStop
    cases hSpells with
    | none =>
      obtain rfl := passes_nil_iff.1 hPass
      rw [direction, run_bind (eatKeyword_false_iff.2 ⟨hDown, rfl⟩), if_neg (by decide),
        run_bind (eatKeyword_false_iff.2 ⟨hUp, rfl⟩)]
      rfl
    | upwards hWord =>
      have hNotDown : c.nextIs (Token.isKeyword "DESC") = false :=
        nextIs_keyword hPass hWord (by decide)
      rw [direction, run_bind (eatKeyword_false_iff.2 ⟨hNotDown, rfl⟩), if_neg (by decide),
        run_bind (eatKeyword_true_iff.2 ⟨_, hWord, hPass⟩)]
      rfl
    | downwards hWord =>
      rw [direction, run_bind (eatKeyword_true_iff.2 ⟨_, hWord, hPass⟩)]
      rfl

/-- A clause for sorting is a column after two keywords and a direction. -/
theorem spellsSort_iff {sort : SortClause} :
    SpellsSort us sort ↔
      ∃ t u ts ds, us = t :: u :: (ts ++ ds) ∧ t.isKeyword "ORDER" = true ∧
        u.isKeyword "BY" = true ∧ SpellsColumn ts sort.column ∧
        SpellsDirection ds sort.ascending := by
  constructor
  · intro h
    cases h with
    | plain hWords hColumn =>
      obtain ⟨t, u, rfl, hOrder, hBy⟩ := spellsWords_pair_iff.1 hWords
      exact ⟨t, u, _, [], by simp, hOrder, hBy, hColumn, .none⟩
    | upwards hWords hColumn hUp =>
      obtain ⟨t, u, rfl, hOrder, hBy⟩ := spellsWords_pair_iff.1 hWords
      obtain ⟨v, rfl, hWord⟩ := spellsWords_singleton_iff.1 hUp
      exact ⟨t, u, _, [v], rfl, hOrder, hBy, hColumn, .upwards hWord⟩
    | downwards hWords hColumn hDown =>
      obtain ⟨t, u, rfl, hOrder, hBy⟩ := spellsWords_pair_iff.1 hWords
      obtain ⟨v, rfl, hWord⟩ := spellsWords_singleton_iff.1 hDown
      exact ⟨t, u, _, [v], rfl, hOrder, hBy, hColumn, .downwards hWord⟩
  · rintro ⟨t, u, ts, ds, rfl, hOrder, hBy, hColumn, hDirection⟩
    obtain ⟨col, ascending⟩ := sort
    have hWords : SpellsWords ["ORDER", "BY"] [t, u] := .cons hOrder (.cons hBy .nil)
    cases hDirection with
    | none =>
      rw [List.append_nil]
      exact .plain hWords hColumn
    | upwards hWord => exact .upwards hWords hColumn (.cons hWord .nil)
    | downwards hWord => exact .downwards hWords hColumn (.cons hWord .nil)

/-- A token that goes on with a clause for sorting, or begins one. -/
def goesOnWithSort (t : Token) : Bool :=
  t == .dot || ((t.isKeyword "DESC" || t.isKeyword "ASC") || t.isKeyword "ORDER")

theorem sortClause_sound : Sound sortClause (SpellsOption SpellsSort) fun _ => [] := by
  intro c o c' h
  rw [sortClause] at h
  obtain ⟨announced, c₁, hOrder, h⟩ := run_bind_eq_ok_iff.1 h
  cases announced with
  | true =>
    obtain ⟨t, hWord, hFirst⟩ := eatKeyword_true_iff.1 hOrder
    obtain ⟨_, c₂, hBy, h⟩ := run_bind_eq_ok_iff.1 h
    obtain ⟨col, c₃, hColumn, h⟩ := run_bind_eq_ok_iff.1 h
    obtain ⟨upwards, c₄, hDirection, h⟩ := run_bind_eq_ok_iff.1 h
    obtain ⟨rfl, rfl⟩ := run_pure_eq_ok_iff.1 h
    obtain ⟨u, hOther, hSecond⟩ := keyword_run_iff.1 hBy
    obtain ⟨ts, hSpells, hColumnPass⟩ := column_reads.sound hColumn
    obtain ⟨ds, hSpellsDirection, hDirectionPass⟩ := direction_reads.sound hDirection
    refine ⟨_, .some (spellsSort_iff.2 ⟨t, u, ts, ds, rfl, hWord, hOther, hSpells, ?_⟩), ?_⟩
    · exact hSpellsDirection
    · exact hFirst.cons (hSecond.cons (hColumnPass.append hDirectionPass))
  | false =>
    obtain ⟨-, rfl⟩ := eatKeyword_false_iff.1 hOrder
    obtain ⟨rfl, rfl⟩ := run_pure_eq_ok_iff.1 h
    exact ⟨[], .none, passes_nil_iff.2 rfl⟩

/-- A direction does not begin with a point. -/
private theorem not_dot_of_direction {upwards : Bool} (hSpells : SpellsDirection us upwards)
    (hPass : c.Passes us [] c') (hStop : c'.nextIs (· == .dot) = false) :
    c.nextIs (· == .dot) = false := by
  cases hSpells with
  | none =>
    obtain rfl := passes_nil_iff.1 hPass
    exact hStop
  | upwards hWord | downwards hWord =>
    obtain ⟨s, rfl, -⟩ := isKeyword_iff.1 hWord
    exact nextIs_of_next? hPass.next?

theorem sortClause_complete :
    Complete sortClause (SpellsOption SpellsSort) (fun _ => []) goesOnWithSort := by
  intro c o c' us hSpells hPass hStop
  obtain ⟨hDot, hWords⟩ := nextIs_or_iff.1 hStop
  obtain ⟨hDirectionStops, hOrder⟩ := nextIs_or_iff.1 hWords
  cases hSpells with
  | none =>
    obtain rfl := passes_nil_iff.1 hPass
    rw [sortClause, run_bind (eatKeyword_false_iff.2 ⟨hOrder, rfl⟩)]
    rfl
  | some hClause =>
    obtain ⟨t, u, ts, ds, rfl, hWord, hOther, hColumn, hDirection⟩ := spellsSort_iff.1 hClause
    obtain ⟨c₁, hFirst, hPass⟩ := passes_cons_iff.1 hPass
    obtain ⟨c₂, hSecond, hPass⟩ := passes_cons_iff.1 hPass
    obtain ⟨c₃, hColumnPass, hDirectionPass⟩ := passes_append_right_iff.1 hPass
    have hNoDot : c₃.nextIs (· == .dot) = false :=
      not_dot_of_direction hDirection hDirectionPass hDot
    rw [sortClause, run_bind (eatKeyword_true_iff.2 ⟨t, hWord, hFirst⟩), if_pos rfl,
      run_bind (keyword_run_iff.2 ⟨u, hOther, hSecond⟩),
      run_bind (column_reads.complete hColumn hColumnPass hNoDot),
      run_bind (direction_reads.complete hDirection hDirectionPass hDirectionStops)]
    rfl

/-- A clause for sorting is read as the grammar has it, if there is one. -/
theorem sortClause_reads :
    Reads sortClause (SpellsOption SpellsSort) (fun _ => []) goesOnWithSort :=
  ⟨sortClause_sound, sortClause_complete⟩

theorem limit_reads :
    Reads limit (SpellsOption SpellsLimit) (fun _ => []) (Token.isKeyword "LIMIT") := by
  constructor
  · intro c o c' h
    rw [limit] at h
    obtain ⟨announced, c₁, hLimit, h⟩ := run_bind_eq_ok_iff.1 h
    cases announced with
    | true =>
      obtain ⟨t, hWord, hFirst⟩ := eatKeyword_true_iff.1 hLimit
      obtain ⟨digits, c₂, hDigits, h⟩ := run_bind_eq_ok_iff.1 h
      obtain ⟨u, hAccept, hSecond⟩ := take_run_iff.1 hDigits
      obtain rfl := digits?_eq_some_iff.1 hAccept
      cases hCount : rowCount? digits.toList with
      | none =>
        simp only [hCount] at h
        exact absurd h run_throw_ne_ok
      | some n =>
        simp only [hCount] at h
        obtain ⟨rfl, rfl⟩ := run_pure_eq_ok_iff.1 h
        exact ⟨[t, .number digits], .some (.mk hWord hCount), hFirst.cons hSecond⟩
    | false =>
      obtain ⟨-, rfl⟩ := eatKeyword_false_iff.1 hLimit
      obtain ⟨rfl, rfl⟩ := run_pure_eq_ok_iff.1 h
      exact ⟨[], .none, passes_nil_iff.2 rfl⟩
  · intro c o c' us hSpells hPass hStop
    cases hSpells with
    | none =>
      obtain rfl := passes_nil_iff.1 hPass
      rw [limit, run_bind (eatKeyword_false_iff.2 ⟨hStop, rfl⟩)]
      rfl
    | some hClause =>
      obtain ⟨hWord, hCount⟩ := hClause
      obtain ⟨c₁, hFirst, hSecond⟩ := passes_cons_iff.1 hPass
      have hDigits : (take .rowCount digits?).run c₁ = .ok (_, c') :=
        take_run_iff.2 ⟨_, rfl, hSecond⟩
      rw [limit, run_bind (eatKeyword_true_iff.2 ⟨_, hWord, hFirst⟩), if_pos rfl,
        run_bind hDigits]
      simp only [hCount]
      rfl

/-! ## Statements -/

/-- Items without operands have none together. -/
private theorem flatMap_nil {α : Type} (as : List α) :
    as.flatMap (fun _ => ([] : List Operand)) = [] :=
  List.flatMap_eq_nil_iff.2 fun _ _ => rfl

theorem insertion_sound : Sound insertion SpellsStatement Statement.operands := by
  intro c s c' h
  rw [insertion] at h
  obtain ⟨_, c₁, hInsert, h⟩ := run_bind_eq_ok_iff.1 h
  obtain ⟨_, c₂, hInto, h⟩ := run_bind_eq_ok_iff.1 h
  obtain ⟨table, c₃, hTable, h⟩ := run_bind_eq_ok_iff.1 h
  obtain ⟨_, c₄, hOpen, h⟩ := run_bind_eq_ok_iff.1 h
  obtain ⟨columns, c₅, hColumns, h⟩ := run_bind_eq_ok_iff.1 h
  obtain ⟨_, c₆, hClose, h⟩ := run_bind_eq_ok_iff.1 h
  obtain ⟨_, c₇, hValues, h⟩ := run_bind_eq_ok_iff.1 h
  obtain ⟨_, c₈, hOpen', h⟩ := run_bind_eq_ok_iff.1 h
  obtain ⟨values, c₉, hOperands, h⟩ := run_bind_eq_ok_iff.1 h
  obtain ⟨_, c₁₀, hClose', h⟩ := run_bind_eq_ok_iff.1 h
  split at h
  · next hLength =>
    obtain ⟨rfl, rfl⟩ := run_pure_eq_ok_iff.1 h
    obtain ⟨t₁, hWord₁, h₁⟩ := keyword_run_iff.1 hInsert
    obtain ⟨t₂, hWord₂, h₂⟩ := keyword_run_iff.1 hInto
    obtain ⟨t₃, hName, h₃⟩ := table_run_iff.1 hTable
    have h₄ : c₃.Passes [.leftParen] [] c₄ := symbol_run_iff.1 hOpen
    obtain ⟨ns, hSpellsColumns, h₅⟩ := list_sound name_reads.sound hColumns
    have h₆ : c₅.Passes [.rightParen] [] c₆ := symbol_run_iff.1 hClose
    obtain ⟨t₇, hWord₇, h₇⟩ := keyword_run_iff.1 hValues
    have h₈ : c₇.Passes [.leftParen] [] c₈ := symbol_run_iff.1 hOpen'
    obtain ⟨os, hSpellsValues, h₉⟩ := list_sound operand_reads.sound hOperands
    have h₁₀ : c₉.Passes [.rightParen] [] c₁₀ := symbol_run_iff.1 hClose'
    refine ⟨_, .insert (.cons hWord₁ (.cons hWord₂ .nil)) hName hSpellsColumns
      (.cons hWord₇ .nil) hSpellsValues hLength, ?_⟩
    have hPass := h₁.cons (h₂.cons (h₃.cons (h₄.cons (h₅.append (h₆.cons (h₇.cons (h₈.cons
      (h₉.append h₁₀))))))))
    simpa [Statement.operands, flatMap_nil] using hPass
  · exact absurd h run_throw_ne_ok

theorem insertion_complete {table : Table} {columns : List String} {values : List Operand}
    (hSpells : SpellsStatement us (.insert table columns values)) (hPass : c.Passes us values c') :
    insertion.run c = .ok (.insert table columns values, c') := by
  cases hSpells with
  | insert hVerb hTable hColumns hValuesWord hValues hLength =>
    obtain ⟨t₁, t₂, rfl, hInsert, hInto⟩ := spellsWords_pair_iff.1 hVerb
    obtain ⟨t₇, rfl, hWord⟩ := spellsWords_singleton_iff.1 hValuesWord
    simp only [List.append_assoc, List.cons_append, List.nil_append] at hPass
    obtain ⟨c₁, h₁, hPass⟩ := passes_cons_iff.1 hPass
    obtain ⟨c₂, h₂, hPass⟩ := passes_cons_iff.1 hPass
    obtain ⟨c₃, h₃, hPass⟩ := passes_cons_iff.1 hPass
    obtain ⟨c₄, h₄, hPass⟩ := passes_cons_iff.1 hPass
    obtain ⟨c₅, h₅, hPass⟩ := passes_append_right_iff.1 hPass
    obtain ⟨c₆, h₆, hPass⟩ := passes_cons_iff.1 hPass
    obtain ⟨c₇, h₇, hPass⟩ := passes_cons_iff.1 hPass
    obtain ⟨c₈, h₈, hPass⟩ := passes_cons_iff.1 hPass
    obtain ⟨c₉, h₉, h₁₀⟩ := passes_append_left_iff.1 hPass
    rw [← flatMap_nil columns] at h₅
    rw [← List.flatMap_singleton' values] at h₉
    have hNamesEnd : c₅.nextIs (fun t => false || t == .comma) = false := nextIs_of_next? h₆.next?
    have hValuesEnd : c₉.nextIs (fun t => false || t == .comma) = false :=
      nextIs_of_next? h₁₀.next?
    rw [insertion, run_bind (keyword_run_iff.2 ⟨t₁, hInsert, h₁⟩),
      run_bind (keyword_run_iff.2 ⟨t₂, hInto, h₂⟩), run_bind (table_run_iff.2 ⟨_, hTable, h₃⟩),
      run_bind (symbol_run_iff.2 h₄),
      run_bind ((list_reads name_reads rfl).complete hColumns h₅ hNamesEnd),
      run_bind (symbol_run_iff.2 h₆), run_bind (keyword_run_iff.2 ⟨t₇, hWord, h₇⟩),
      run_bind (symbol_run_iff.2 h₈),
      run_bind ((list_reads operand_reads rfl).complete hValues h₉ hValuesEnd),
      run_bind (symbol_run_iff.2 h₁₀), if_pos hLength]
    rfl

/-- The operands of assignments are their values. -/
private theorem flatMap_value (as : List Assignment) :
    as.flatMap (fun a => [a.value]) = as.map Assignment.value :=
  List.map_eq_flatMap.symm

theorem updating_sound : Sound updating SpellsStatement Statement.operands := by
  intro c s c' h
  rw [updating] at h
  obtain ⟨_, c₁, hUpdate, h⟩ := run_bind_eq_ok_iff.1 h
  obtain ⟨table, c₂, hTable, h⟩ := run_bind_eq_ok_iff.1 h
  obtain ⟨_, c₃, hSet, h⟩ := run_bind_eq_ok_iff.1 h
  obtain ⟨assignments, c₄, hList, h⟩ := run_bind_eq_ok_iff.1 h
  obtain ⟨cond, c₅, hWhere, h⟩ := run_bind_eq_ok_iff.1 h
  obtain ⟨rfl, rfl⟩ := run_pure_eq_ok_iff.1 h
  obtain ⟨t₁, hWord₁, h₁⟩ := keyword_run_iff.1 hUpdate
  obtain ⟨t₂, hName, h₂⟩ := table_run_iff.1 hTable
  obtain ⟨t₃, hWord₃, h₃⟩ := keyword_run_iff.1 hSet
  obtain ⟨ts, hSpells, h₄⟩ := list_sound assignment_reads.sound hList
  obtain ⟨ws, hSpellsWhere, h₅⟩ := whereClause_reads.sound hWhere
  refine ⟨_, .update (.cons hWord₁ .nil) hName (.cons hWord₃ .nil) hSpells hSpellsWhere, ?_⟩
  have hPass := h₁.cons (h₂.cons (h₃.cons (h₄.append h₅)))
  simpa [Statement.operands, flatMap_value] using hPass

theorem deletion_sound : Sound deletion SpellsStatement Statement.operands := by
  intro c s c' h
  rw [deletion] at h
  obtain ⟨_, c₁, hDelete, h⟩ := run_bind_eq_ok_iff.1 h
  obtain ⟨_, c₂, hFrom, h⟩ := run_bind_eq_ok_iff.1 h
  obtain ⟨table, c₃, hTable, h⟩ := run_bind_eq_ok_iff.1 h
  obtain ⟨cond, c₄, hWhere, h⟩ := run_bind_eq_ok_iff.1 h
  obtain ⟨rfl, rfl⟩ := run_pure_eq_ok_iff.1 h
  obtain ⟨t₁, hWord₁, h₁⟩ := keyword_run_iff.1 hDelete
  obtain ⟨t₂, hWord₂, h₂⟩ := keyword_run_iff.1 hFrom
  obtain ⟨t₃, hName, h₃⟩ := table_run_iff.1 hTable
  obtain ⟨ws, hSpellsWhere, h₄⟩ := whereClause_reads.sound hWhere
  exact ⟨_, .delete (.cons hWord₁ (.cons hWord₂ .nil)) hName hSpellsWhere,
    h₁.cons (h₂.cons (h₃.cons h₄))⟩

theorem selection_sound : Sound selection SpellsStatement Statement.operands := by
  intro c s c' h
  rw [selection] at h
  obtain ⟨_, c₁, hSelect, h⟩ := run_bind_eq_ok_iff.1 h
  obtain ⟨items, c₂, hItems, h⟩ := run_bind_eq_ok_iff.1 h
  obtain ⟨_, c₃, hFrom, h⟩ := run_bind_eq_ok_iff.1 h
  obtain ⟨src, c₄, hSource, h⟩ := run_bind_eq_ok_iff.1 h
  obtain ⟨second, c₅, hJoin, h⟩ := run_bind_eq_ok_iff.1 h
  obtain ⟨cond, c₆, hWhere, h⟩ := run_bind_eq_ok_iff.1 h
  obtain ⟨sort, c₇, hSort, h⟩ := run_bind_eq_ok_iff.1 h
  obtain ⟨count, c₈, hLimit, h⟩ := run_bind_eq_ok_iff.1 h
  obtain ⟨rfl, rfl⟩ := run_pure_eq_ok_iff.1 h
  obtain ⟨t₁, hWord₁, h₁⟩ := keyword_run_iff.1 hSelect
  obtain ⟨is, hSpellsItems, h₂⟩ := list_sound item_reads.sound hItems
  obtain ⟨t₃, hWord₃, h₃⟩ := keyword_run_iff.1 hFrom
  obtain ⟨ts, hSpellsSource, h₄⟩ := source_reads.sound hSource
  obtain ⟨js, hSpellsJoin, h₅⟩ := join_reads.sound hJoin
  obtain ⟨ws, hSpellsWhere, h₆⟩ := whereClause_reads.sound hWhere
  obtain ⟨ss, hSpellsSort, h₇⟩ := sortClause_reads.sound hSort
  obtain ⟨ls, hSpellsLimit, h₈⟩ := limit_reads.sound hLimit
  refine ⟨_, .select (.cons hWord₁ .nil) hSpellsItems (.cons hWord₃ .nil) hSpellsSource
    hSpellsJoin hSpellsWhere hSpellsSort hSpellsLimit, ?_⟩
  have hPass := h₁.cons (h₂.append (h₃.cons (h₄.append (h₅.append (h₆.append (h₇.append h₈))))))
  simpa [Statement.operands, flatMap_nil] using hPass

theorem spellsWhere_head {cond : Condition} (h : SpellsWhere us cond) :
    ∃ t rest, us = t :: rest ∧ ∃ word ∈ ["WHERE"], t.isKeyword word = true := by
  cases h with
  | mk hWord _ => exact ⟨_, _, rfl, "WHERE", by simp, hWord⟩

theorem spellsJoin_head {j : Join} (h : SpellsJoin us j) :
    ∃ t rest, us = t :: rest ∧ ∃ word ∈ ["JOIN", "INNER"], t.isKeyword word = true := by
  cases h with
  | mk hWords =>
    rcases hWords with hOne | hTwo
    · obtain ⟨t, rfl, hWord⟩ := spellsWords_singleton_iff.1 hOne
      exact ⟨t, _, rfl, "JOIN", by simp, hWord⟩
    · obtain ⟨t, u, rfl, hWord, -⟩ := spellsWords_pair_iff.1 hTwo
      exact ⟨t, _, rfl, "INNER", by simp, hWord⟩

theorem spellsSort_head {sort : SortClause} (h : SpellsSort us sort) :
    ∃ t rest, us = t :: rest ∧ ∃ word ∈ ["ORDER"], t.isKeyword word = true := by
  obtain ⟨t, u, ts, ds, rfl, hWord, -⟩ := spellsSort_iff.1 h
  exact ⟨t, _, rfl, "ORDER", by simp, hWord⟩

theorem spellsLimit_head {n : Nat} (h : SpellsLimit us n) :
    ∃ t rest, us = t :: rest ∧ ∃ word ∈ ["LIMIT"], t.isKeyword word = true := by
  cases h with
  | mk hWord _ => exact ⟨_, _, rfl, "LIMIT", by simp, hWord⟩

theorem ignoresCase_joins : IgnoresCase joins :=
  ignoresCase_or (ignoresCase_isKeyword _) (ignoresCase_isKeyword _)

/-- A condition that may be absent is read to its end. -/
theorem whereClause_run {cond : Option Condition} {words : List String}
    (hSpells : SpellsOption SpellsWhere us cond)
    (hPass : c.Passes us (cond.elim [] Condition.operands) c') (hEnds : c'.EndsAt words)
    (hWords : ∀ word ∈ words, (sameFolded "WHERE" word || joins (.name word)) = false) :
    whereClause.run c = .ok (cond, c') := by
  have hFolds := ignoresCase_or (ignoresCase_isKeyword "WHERE") ignoresCase_joins
  exact whereClause_reads.complete hSpells hPass (hEnds.nextIs hFolds rfl hWords)

theorem updating_complete {table : Table} {assignments : List Assignment} {cond : Option Condition}
    (hSpells : SpellsStatement us (.update table assignments cond))
    (hPass : c.Passes us (Statement.update table assignments cond).operands c')
    (hEnds : c'.EndsAt []) :
    updating.run c = .ok (.update table assignments cond, c') := by
  cases hSpells with
  | update hVerb hTable hSet hList hWhere =>
    obtain ⟨t₁, rfl, hWord₁⟩ := spellsWords_singleton_iff.1 hVerb
    obtain ⟨t₃, rfl, hWord₃⟩ := spellsWords_singleton_iff.1 hSet
    simp only [List.cons_append, List.nil_append] at hPass
    obtain ⟨c₁, h₁, hPass⟩ := passes_cons_iff.1 hPass
    obtain ⟨c₂, h₂, hPass⟩ := passes_cons_iff.1 hPass
    obtain ⟨c₃, h₃, hPass⟩ := passes_cons_iff.1 hPass
    obtain ⟨c₄, h₄, h₅⟩ := passes_append_iff.1 hPass
    rw [← flatMap_value assignments] at h₄
    have hWhereNext : c₄.EndsAt ["WHERE"] := hEnds.clause spellsWhere_head hWhere h₅
    have hListEnds : c₄.nextIs (fun t => false || t == .comma) = false :=
      hWhereNext.nextIs (fun _ _ _ => rfl) rfl (by decide)
    rw [updating, run_bind (keyword_run_iff.2 ⟨t₁, hWord₁, h₁⟩),
      run_bind (table_run_iff.2 ⟨_, hTable, h₂⟩), run_bind (keyword_run_iff.2 ⟨t₃, hWord₃, h₃⟩),
      run_bind ((list_reads assignment_reads rfl).complete hList h₄ hListEnds),
      run_bind (whereClause_run hWhere h₅ hEnds (by decide))]
    rfl

theorem deletion_complete {table : Table} {cond : Option Condition}
    (hSpells : SpellsStatement us (.delete table cond))
    (hPass : c.Passes us (Statement.delete table cond).operands c') (hEnds : c'.EndsAt []) :
    deletion.run c = .ok (.delete table cond, c') := by
  cases hSpells with
  | delete hVerb hTable hWhere =>
    obtain ⟨t₁, t₂, rfl, hWord₁, hWord₂⟩ := spellsWords_pair_iff.1 hVerb
    obtain ⟨c₁, h₁, hPass⟩ := passes_cons_iff.1 hPass
    obtain ⟨c₂, h₂, hPass⟩ := passes_cons_iff.1 hPass
    obtain ⟨c₃, h₃, h₄⟩ := passes_cons_iff.1 hPass
    rw [deletion, run_bind (keyword_run_iff.2 ⟨t₁, hWord₁, h₁⟩),
      run_bind (keyword_run_iff.2 ⟨t₂, hWord₂, h₂⟩), run_bind (table_run_iff.2 ⟨_, hTable, h₃⟩),
      run_bind (whereClause_run hWhere h₄ hEnds (by decide))]
    rfl

theorem ignoresCase_goesOnWithJoin : IgnoresCase goesOnWithJoin :=
  ignoresCase_or (fun _ _ _ => rfl)
    (ignoresCase_or (ignoresCase_isKeyword _) (ignoresCase_isKeyword _))

theorem ignoresCase_goesOnWithSort : IgnoresCase goesOnWithSort :=
  ignoresCase_or (fun _ _ _ => rfl)
    (ignoresCase_or (ignoresCase_or (ignoresCase_isKeyword _) (ignoresCase_isKeyword _))
      (ignoresCase_isKeyword _))

theorem selection_complete {q : Query} (hSpells : SpellsStatement us (.select q))
    (hPass : c.Passes us (Statement.select q).operands c') (hEnds : c'.EndsAt []) :
    selection.run c = .ok (.select q, c') := by
  cases hSpells with
  | select hVerb hItems hFrom hSource hJoin hWhere hSort hLimit =>
    obtain ⟨t₁, rfl, hWord₁⟩ := spellsWords_singleton_iff.1 hVerb
    obtain ⟨t₃, rfl, hWord₃⟩ := spellsWords_singleton_iff.1 hFrom
    simp only [List.append_assoc, List.cons_append, List.nil_append] at hPass
    obtain ⟨c₁, h₁, hPass⟩ := passes_cons_iff.1 hPass
    obtain ⟨c₂, h₂, hPass⟩ := passes_append_right_iff.1 hPass
    obtain ⟨c₃, h₃, hPass⟩ := passes_cons_iff.1 hPass
    obtain ⟨c₄, h₄, hPass⟩ := passes_append_right_iff.1 hPass
    obtain ⟨c₅, h₅, hPass⟩ := passes_append_right_iff.1 hPass
    obtain ⟨c₆, h₆, hPass⟩ := passes_append_left_iff.1 hPass
    obtain ⟨c₇, h₇, h₈⟩ := passes_append_right_iff.1 hPass
    rw [← flatMap_nil q.items] at h₂
    -- From the end to the front: the keywords that may follow each clause.
    have hLimitNext : c₇.EndsAt ["LIMIT"] := hEnds.clause spellsLimit_head hLimit h₈
    have hSortNext : c₆.EndsAt ["ORDER", "LIMIT"] := hLimitNext.clause spellsSort_head hSort h₇
    have hWhereNext : c₅.EndsAt ["WHERE", "ORDER", "LIMIT"] :=
      hSortNext.clause spellsWhere_head hWhere h₆
    have hJoinNext : c₄.EndsAt ["JOIN", "INNER", "WHERE", "ORDER", "LIMIT"] :=
      hWhereNext.clause spellsJoin_head hJoin h₅
    have hFromNext : c₂.EndsAt ["FROM"] := .of_next h₃.next? hWord₃
    have hItemsRun := (list_reads item_reads rfl).complete hItems h₂
      (hFromNext.nextIs (fun _ _ _ => rfl) rfl (by decide))
    have hSourceRun := source_reads.complete hSource h₄
      (hJoinNext.nextIs ignoresCase_renames rfl (by decide))
    have hJoinRun := join_reads.complete hJoin h₅
      (hWhereNext.nextIs ignoresCase_goesOnWithJoin rfl (by decide))
    have hWhereRun := whereClause_run hWhere h₆ hSortNext (by decide)
    have hSortRun := sortClause_reads.complete hSort h₇
      (hLimitNext.nextIs ignoresCase_goesOnWithSort rfl (by decide))
    have hLimitRun := limit_reads.complete hLimit h₈
      (hEnds.nextIs (ignoresCase_isKeyword "LIMIT") rfl (by decide))
    rw [selection, run_bind (keyword_run_iff.2 ⟨t₁, hWord₁, h₁⟩), run_bind hItemsRun,
      run_bind (keyword_run_iff.2 ⟨t₃, hWord₃, h₃⟩), run_bind hSourceRun, run_bind hJoinRun,
      run_bind hWhereRun, run_bind hSortRun, run_bind hLimitRun]
    rfl

/-- The verb of a statement. -/
def verb : Statement → String
  | .insert _ _ _ => "INSERT"
  | .update _ _ _ => "UPDATE"
  | .delete _ _ => "DELETE"
  | .select _ => "SELECT"

/-- A statement begins with its verb. -/
theorem spellsStatement_head {s : Statement} (h : SpellsStatement us s) :
    ∃ t rest, us = t :: rest ∧ t.isKeyword (verb s) = true := by
  cases h with
  | insert hVerb | delete hVerb =>
    obtain ⟨t, u, rfl, hWord, -⟩ := spellsWords_pair_iff.1 hVerb
    exact ⟨t, _, rfl, hWord⟩
  | update hVerb | select hVerb =>
    obtain ⟨t, rfl, hWord⟩ := spellsWords_singleton_iff.1 hVerb
    exact ⟨t, _, rfl, hWord⟩

theorem body_sound : Sound body SpellsStatement Statement.operands := by
  intro c s c' h
  rw [body, run_bind peek_run] at h
  split at h
  · exact absurd h run_throw_ne_ok
  · split at h
    · exact insertion_sound h
    split at h
    · exact updating_sound h
    split at h
    · exact deletion_sound h
    split at h
    · exact selection_sound h
    · exact absurd h run_throw_ne_ok
  · exact absurd h run_throw_ne_ok

theorem body_complete {s : Statement} (hSpells : SpellsStatement us s)
    (hPass : c.Passes us s.operands c') (hEnds : c'.EndsAt []) : body.run c = .ok (s, c') := by
  obtain ⟨t, rest, rfl, hVerb⟩ := spellsStatement_head hSpells
  obtain ⟨word, rfl, hSame⟩ := isKeyword_iff.1 hVerb
  rw [body, run_bind peek_run, hPass.next?]
  simp only [sameFolded_congr hSame]
  cases s with
  | insert =>
    rw [verb, if_pos (by decide)]
    exact insertion_complete hSpells hPass
  | update =>
    rw [verb, if_neg (by decide), if_pos (by decide)]
    exact updating_complete hSpells hPass hEnds
  | delete =>
    rw [verb, if_neg (by decide), if_neg (by decide), if_pos (by decide)]
    exact deletion_complete hSpells hPass hEnds
  | select =>
    rw [verb, if_neg (by decide), if_neg (by decide), if_neg (by decide), if_pos (by decide)]
    exact selection_complete hSpells hPass hEnds

/-- At the end there may be nothing but semicolons. -/
theorem finish_run_iff :
    finish.run c = .ok ((), c') ↔
      (∀ t ∈ c.tokens, t.token = .semicolon) ∧ c = c' := by
  have hRest : (c.tokens.dropWhile fun t => t.token == .semicolon).isEmpty = true ↔
      ∀ t ∈ c.tokens, t.token = .semicolon := by
    simp only [List.isEmpty_iff, List.dropWhile_eq_nil_iff, beq_iff_eq]
  rw [finish, run_bind get_run, ← hRest]
  cases hEmpty : (c.tokens.dropWhile fun t => t.token == .semicolon).isEmpty with
  | true =>
    simp only [hEmpty, if_true, true_and]
    rw [run_pure_eq_ok_iff]
    exact and_iff_right rfl
  | false =>
    simp only [hEmpty, Bool.false_eq_true, if_false, false_and, iff_false]
    exact run_throw_ne_ok

theorem statement_run_iff {s : Statement} :
    statement.run c = .ok (s, c') ↔
      body.run c = .ok (s, c') ∧ ∀ t ∈ c'.tokens, t.token = .semicolon := by
  rw [statement, run_bind_eq_ok_iff]
  constructor
  · rintro ⟨s', c₁, hBody, h⟩
    obtain ⟨_, c₂, hFinish, h⟩ := run_bind_eq_ok_iff.1 h
    obtain ⟨hEnd, rfl⟩ := finish_run_iff.1 hFinish
    obtain ⟨rfl, rfl⟩ := run_pure_eq_ok_iff.1 h
    exact ⟨hBody, hEnd⟩
  · rintro ⟨hBody, hEnd⟩
    refine ⟨s, c', hBody, ?_⟩
    rw [run_bind (finish_run_iff.2 ⟨hEnd, rfl⟩)]
    rfl

end Reader

open Reader Cursor

/-- Tokens make up a statement if one is read off their front and only semicolons are left. -/
theorem ofTokens_eq_ok_iff_run {ts : List Placed} {s : Statement} :
    Statement.ofTokens ts = .ok s ↔
      ∃ c, body.run ⟨ts, 0⟩ = .ok (s, c) ∧ ∀ t ∈ c.tokens, t.token = .semicolon := by
  simp only [← statement_run_iff, Statement.ofTokens]
  cases hRun : statement.run ⟨ts, 0⟩ with
  | error e => simp [Functor.map, Except.map]
  | ok found =>
    obtain ⟨s', c⟩ := found
    simp [Functor.map, Except.map]

/-- **Tokens make up the statements that the grammar derives from them**, and no others. -/
theorem ofTokens_eq_ok_iff (ts : List Placed) (s : Statement) :
    Statement.ofTokens ts = .ok s ↔ Grammar.Derives (ts.map Placed.token) s := by
  rw [ofTokens_eq_ok_iff_run]
  constructor
  · rintro ⟨c, hBody, hEnd⟩
    obtain ⟨us, hSpells, ⟨ps, hTokens, hMap⟩, hNumbered⟩ := body_sound hBody
    refine ⟨us, c.tokens.length, ?_, hSpells, ?_⟩
    · have hTail : c.tokens.map Placed.token = List.replicate c.tokens.length .semicolon := by
        rw [List.eq_replicate_iff]
        simpa using hEnd
      have hWhole : ts = ps ++ c.tokens := hTokens
      rw [hWhole, List.map_append, hMap, hTail]
    · have hFromZero := exists_numbered_iff.1 ⟨_, hNumbered⟩
      rw [List.range_eq_range']
      exact hFromZero
  · rintro ⟨us, count, hTokens, hSpells, hNumbers⟩
    obtain ⟨ps, tail, rfl, hMap, hTail⟩ := List.map_eq_append_iff.1 hTokens
    have hSemicolons : ∀ t ∈ tail, t.token = .semicolon := by
      intro t hMem
      have hToken : t.token ∈ tail.map Placed.token := List.mem_map_of_mem hMem
      rw [hTail] at hToken
      exact List.eq_of_mem_replicate hToken
    rw [Grammar.placeholders, List.range_eq_range'] at hNumbers
    obtain ⟨k, hNumbered⟩ := exists_numbered_iff.2 hNumbers
    have hEnds : EndsAt ⟨tail, k⟩ [] := by
      intro t hNext
      cases tail with
      | nil => cases hNext
      | cons p tail =>
        obtain rfl : p.token = t := Option.some.inj hNext
        exact .inl (hSemicolons p List.mem_cons_self)
    have hPass : Passes ⟨ps ++ tail, 0⟩ us s.operands ⟨tail, k⟩ :=
      ⟨⟨ps, rfl, hMap⟩, hNumbered⟩
    exact ⟨_, body_complete hSpells hPass hEnds, hSemicolons⟩

end RecordStore.Sql
