import Mathlib.Logic.Function.Iterate
import RecordStore.Proofs.IndependentMutations
import RecordStore.Proofs.Parameters

/-!
# Updates and deletions that are repeated

An update may set the very fields that its condition reads, so it may find other records when it is
carried out again. It can only find fewer: a record that it passed over is as it was and is passed
over again, so what it finds the second time it has found and changed before. And a record that it
has changed is not changed any further, since the same fields are set to the same values at the same
time.

A deletion leaves no record that it would find, so there is nothing left for it to drop.

## Main results

- `updated_updated`: the fields of a record are set once and for all.
- `change_change`, `acceptsRecord_of_change`: record by record, an update is settled after one run.
- `settles_of_command`: so are the commands of updates and deletions.
- `evaluate_again`: an update or a deletion that is carried out again.
-/

namespace RecordStore

open Plan (Slot Predicate Action)

variable {parameters : List Datum} {clock : Moment}

/-! ## One record -/

/-- Setting the same fields at the same time once more changes nothing. -/
theorem Record.updated_updated (r : Record) (fields : List (String × Datum)) (clock : Moment) :
    (r.updated fields clock).updated fields clock = r.updated fields clock := by
  refine ext fun name => ?_
  by_cases hMark : name = updatedAt
  · simp only [updated, get?_insert, if_pos hMark]
  · simp only [updated, get?_insert, get?_insertAll, if_neg hMark]
    -- An assigned field has its value from the list both times, any other one from the record.
    cases fields.reverse.lookup name with
    | none => rfl
    | some value => rfl

/-- What an update makes of a record, whether or not it is about it. -/
def Matcher.change (m : Matcher) (fields : List (String × Datum)) (clock : Moment) (r : Record) :
    Record :=
  if m.acceptsRecord r then r.updated fields clock else r

namespace Matcher

variable {m : Matcher} {fields : List (String × Datum)} {r : Record}

theorem change_of_accepts (h : m.acceptsRecord r = true) :
    m.change fields clock r = r.updated fields clock := if_pos h

theorem change_of_not_accepts (h : ¬ m.acceptsRecord r = true) : m.change fields clock r = r :=
  if_neg h

theorem change_change (m : Matcher) (fields : List (String × Datum)) (clock : Moment) (r : Record) :
    m.change fields clock (m.change fields clock r) = m.change fields clock r := by
  by_cases hBefore : m.acceptsRecord r = true
  · rw [change_of_accepts hBefore]
    by_cases hAfter : m.acceptsRecord (r.updated fields clock) = true
    · rw [change_of_accepts hAfter, Record.updated_updated]
    · rw [change_of_not_accepts hAfter]
  · rw [change_of_not_accepts hBefore, change_of_not_accepts hBefore]

/-- A record that an update is about afterwards is one that it was about before. -/
theorem acceptsRecord_of_change (h : m.acceptsRecord (m.change fields clock r) = true) :
    m.acceptsRecord r = true := by
  by_cases hBefore : m.acceptsRecord r = true
  · exact hBefore
  · rwa [change_of_not_accepts hBefore] at h

/-- So an update is about no more records of a list afterwards than before. -/
theorem countP_change_le (m : Matcher) (fields : List (String × Datum)) (clock : Moment)
    (rs : List Record) :
    (rs.map (m.change fields clock)).countP m.acceptsRecord ≤ rs.countP m.acceptsRecord := by
  rw [List.countP_map]
  exact List.countP_mono_left fun _ _ => acceptsRecord_of_change

end Matcher

/-! ## One table -/

namespace Command

/-- A command that is done when it has been run once: run again it changes nothing, and it counts no
more updates than before and no deletions. -/
structure Settles (c : Command) : Prop where
  database : ∀ db, (c.run (c.run db).2).2 = (c.run db).2
  updated : ∀ db, (c.run (c.run db).2).1.stats.updated ≤ (c.run db).1.stats.updated
  deleted : ∀ db, (c.run (c.run db).2).1.stats.deleted = 0

theorem settles_update (table : Table) (m : Matcher) (fields : List (String × Datum))
    (clock : Moment) : (update table m fields clock).Settles := by
  have hRecords (db : Database) : ((update table m fields clock).run db).2.records table =
      (db.records table).map (m.change fields clock) := records_run_update table m fields clock db
  refine ⟨fun db => ?_, fun db => ?_, fun db => rfl⟩
  · refine Database.ext fun other => ?_
    by_cases hOther : other = table
    · rw [hOther, hRecords, hRecords, List.map_map]
      exact List.map_congr_left fun r _ => m.change_change fields clock r
    · have hTarget : (update table m fields clock).target? ≠ some other :=
        fun h => hOther (Option.some.inj h).symm
      exact records_run_of_ne hTarget _
  · show (((update table m fields clock).run db).2.records table).countP m.acceptsRecord ≤
      (db.records table).countP m.acceptsRecord
    rw [hRecords]
    exact m.countP_change_le fields clock _

theorem settles_delete (table : Table) (m : Matcher) : (delete table m).Settles := by
  -- Nothing that a deletion is about is left in its table.
  have hKept (db : Database) : ∀ r ∈ ((delete table m).run db).2.records table,
      (!m.acceptsRecord r) = true := by
    intro r hr
    rw [records_run_delete] at hr
    exact (List.mem_filter.1 hr).2
  refine ⟨fun db => ?_, fun db => Nat.le_refl 0, fun db => ?_⟩
  · refine Database.ext fun other => ?_
    by_cases hOther : other = table
    · rw [hOther, records_run_delete]
      exact List.filter_eq_self.2 (hKept db)
    · have hTarget : (delete table m).target? ≠ some other :=
        fun h => hOther (Option.some.inj h).symm
      exact records_run_of_ne hTarget _
  · refine List.countP_eq_zero.2 fun r hr hAccepts => ?_
    have hNot := hKept db r hr
    rw [hAccepts] at hNot
    cases hNot

end Command

/-! ## Plans -/

namespace Plan

/-- Whether an action changes or drops records that are there. -/
def Action.revises : Action → Bool
  | update .. | delete .. => true
  | insert .. | select _ | unrecognized _ => false

theorem Action.settles_of_command {action : Action} {c : Command} (h : action.revises = true)
    (hCommand : action.command parameters clock = .ok c) : c.Settles := by
  cases fills_of_command hCommand with
  | update hFields hMatcher => exact Command.settles_update _ _ _ _
  | delete hMatcher => exact Command.settles_delete _ _
  | insert | select | unrecognized => cases h

/-- An update or a deletion that is carried out again, with the same parameters and at the same
time, leaves the database as it left it the first time, however often this is done. It is carried
out if it is given as many parameters as it asks for and they fill its slots, as they do for the
plan of a statement; otherwise it is refused every time in the same way. The second time it updates
no more records than the first time, and it deletes none. -/
theorem evaluate_again {p : Plan} (h : p.action.revises = true) (parameters : List Datum)
    (clock : Moment) (db : Database) :
    let first := p.evaluate parameters clock db
    let second := p.evaluate parameters clock first.2
    second.2 = first.2 ∧
      (∀ n, (fun d => (p.evaluate parameters clock d).2)^[n + 1] db = first.2) ∧
      ((∃ outcome, first.1 = .ok outcome) ↔ parameters.length = p.parameterCount ∧
        ∀ slot ∈ p.action.slots, slot.Fits parameters.length) ∧
      (∀ dialect s, Plan.ofStatement dialect s = .ok p → parameters.length = p.parameterCount →
        ∃ outcome, first.1 = .ok outcome) ∧
      (∀ e, first.1 = .error e → second = first) ∧
      ∀ outcome, first.1 = .ok outcome → ∃ again, second.1 = .ok again ∧
        again.stats.updated ≤ outcome.stats.updated ∧ again.stats.deleted = 0 := by
  intro first second
  have hAgain : second.2 = first.2 ∧ (∀ e, first.1 = .error e → second = first) ∧
      ∀ outcome, first.1 = .ok outcome → ∃ again, second.1 = .ok again ∧
        again.stats.updated ≤ outcome.stats.updated ∧ again.stats.deleted = 0 := by
    rcases evaluate_eq_command p parameters clock with ⟨c, hCommand, hRun⟩ | ⟨e, hRefused⟩
    · have hSettles := Action.settles_of_command h hCommand
      have hFirst : first = (.ok (c.run db).1, (c.run db).2) := congrFun hRun db
      have hSecond : second = (.ok (c.run (c.run db).2).1, (c.run (c.run db).2).2) := by
        show p.evaluate parameters clock first.2 = _
        rw [hFirst, hRun]
      rw [hSecond, hFirst]
      refine ⟨hSettles.database db, fun e hNot => (by cases hNot), fun outcome hOutcome => ?_⟩
      cases hOutcome
      exact ⟨_, rfl, hSettles.updated db, hSettles.deleted db⟩
    · have hFirst : first = (.error e, db) := congrFun hRefused db
      have hSecond : second = (.error e, db) := by
        show p.evaluate parameters clock first.2 = _
        rw [hFirst, hRefused]
      rw [hSecond, hFirst]
      exact ⟨rfl, fun _ _ => rfl, fun outcome hNot => (by cases hNot)⟩
  refine ⟨hAgain.1, fun n => ?_, exists_evaluate_iff, fun dialect s hPlan hCount => ?_, hAgain.2⟩
  · rw [Function.iterate_succ_apply]
    exact Function.iterate_fixed hAgain.1 n
  · refine exists_evaluate_iff.2 ⟨hCount, ?_⟩
    rw [hCount]
    exact slots_fit hPlan

/-- The posts that are open are closed, by the field that the condition reads. The first time there
are two of them and the second time none. -/
theorem evaluate_again_closing :
    let closing : Plan := ⟨.update .posts [("status", .parameter 0)]
      (.conjunction [.equals ⟨.base, "status"⟩ (.literal (.text "open"))]), 1⟩
    let post (status : String) := Record.ofList [("status", .text status)]
    let db := Database.empty.withRecords .posts [post "open", post "closed", post "open"]
    let run := closing.evaluate [.text "closed"] ⟨0, 0⟩
    closing.action.revises = true ∧
      (run (run db).2).2 = (run db).2 ∧
      ∃ outcome again, (run db).1 = .ok outcome ∧ outcome.stats.updated = 2 ∧
        (run (run db).2).1 = .ok again ∧ again.stats.updated = 0 := by
  intro closing post db run
  have hRevises : closing.action.revises = true := rfl
  obtain ⟨hSame, -, hCarriedOut, -, -, hOutcomes⟩ :=
    evaluate_again hRevises [.text "closed"] ⟨0, 0⟩ db
  obtain ⟨outcome, hFirst⟩ : ∃ outcome, (run db).1 = .ok outcome := by
    refine hCarriedOut.2 ⟨rfl, ?_⟩
    simp [closing, Action.slots, Predicate.slots, Clause.slots, Slot.Fits]
  obtain ⟨again, hSecond, -, -⟩ := hOutcomes outcome hFirst
  refine ⟨hRevises, hSame, outcome, again, hFirst, ?_, hSecond, ?_⟩
  · cases hFirst
    decide +kernel
  · cases hSecond
    decide +kernel

end Plan

end RecordStore
