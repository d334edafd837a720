import Mathlib.Data.List.Basic
import RecordStore.Proofs.SessionRuns

/-!
# What the counts add up to

The counts in the statistics and the number that a script returns are kept apart from the changes
that they are about. They agree with them: a command adds as many records as it says and removes as
many (`size_run`), and the tables that a script clears lose as many records together as it counts,
also when it names a table more than once (`size_foldl_clear`). Over a run the counts therefore add
up to the difference between the first database and the last.

## Main results

- `size_run`, `size_foldl_clear`: the number of records after one change.
- `bounded_of_evaluate`: how large each count of a plan can be.
- `history_counts`: the counts of a whole run.
-/

namespace RecordStore

open Storage (Backend)

/-! ## One change -/

theorem Command.size_run (c : Command) (db : Database) :
    (c.run db).2.size + (c.run db).1.stats.deleted = db.size + (c.run db).1.stats.inserted := by
  cases c with
  | insert table r =>
    have hSize := db.size_withRecords table (db.records table ++ [r])
    rw [List.length_append, List.length_singleton] at hSize
    show (db.withRecords table (db.records table ++ [r])).size + 0 = db.size + 1
    omega
  | update table m fields clock =>
    have hSize := db.size_withRecords table
      ((db.records table).map fun r => if m.acceptsRecord r then r.updated fields clock else r)
    rw [List.length_map] at hSize
    exact Nat.add_right_cancel hSize
  | delete table m =>
    have hSize := db.size_withRecords table
      ((db.records table).filter fun r => !m.acceptsRecord r)
    have hSplit := List.length_eq_length_filter_add (l := db.records table) m.acceptsRecord
    rw [← List.countP_eq_length_filter] at hSplit
    show (db.withRecords table ((db.records table).filter fun r => !m.acceptsRecord r)).size +
      (db.records table).countP m.acceptsRecord = db.size + 0
    omega
  | select | nothing => rfl

/-- What a script counts is what its tables lose together. A table that is named again has nothing
left to lose. -/
theorem Database.size_foldl_clear (tables : List Table) (db : Database) :
    (tables.foldl clear db).size + db.clearedCount tables = db.size := by
  induction tables generalizing db with
  | nil => rfl
  | cons table tables ih =>
    have hCleared : (db.clear table).size + (db.records table).length = db.size + 0 :=
      db.size_withRecords table []
    have hRest := ih (db.clear table)
    rw [List.foldl_cons, clearedCount]
    omega

namespace Plan

/-- The table whose records a plan goes through. -/
def Action.scanned? : Action → Option Table
  | update table _ _ | delete table _ => some table
  | select s => some s.table
  | insert .. | unrecognized _ => none

theorem Selection.length_rows_le (s : Selection) (db : Database) :
    (s.rows db).length ≤ (db.records s.table).length := by
  rw [rows]
  cases s.join with
  | none => exact Nat.le_of_eq (List.length_map _)
  | some join => exact List.length_filterMap_le _ _

theorem Selection.length_arranged (s : Selection) (rows : List Row) :
    (s.arranged rows).length = rows.length := by
  rw [arranged]
  cases s.sort with
  | none => rfl
  | some key => exact List.length_mergeSort _

/-- A query does not return more records than its table has, and not more than it asks for. -/
theorem Selection.length_result_le (s : Selection) (m : Matcher) (db : Database) :
    (s.result m db).length ≤ (db.records s.table).length ∧
      ∀ limit, s.limit = some limit → (s.result m db).length ≤ limit := by
  have hFound : (s.arranged ((s.rows db).filter m.accepts)).length ≤
      (db.records s.table).length := by
    rw [length_arranged]
    exact Nat.le_trans (List.length_filter_le _ _) (s.length_rows_le db)
  rw [result, List.length_map, limited]
  cases s.limit with
  | none => exact ⟨hFound, nofun⟩
  | some most =>
    refine ⟨Nat.le_trans (List.length_take_le' _ _) hFound, fun limit hLimit => ?_⟩
    cases hLimit
    exact List.length_take_le _ _

end Plan

/-- The bounds that hold for the counts of an action. -/
structure Stats.Bounded (stats : Stats) (action : Plan.Action) (db : Database) : Prop where
  scanned : stats.scanned = action.scanned?.elim 0 fun table => (db.records table).length
  updated : stats.updated ≤ stats.scanned
  deleted : stats.deleted ≤ stats.scanned
  returned : stats.returned ≤ stats.scanned
  limited : ∀ s limit, action = .select s → s.limit = some limit → stats.returned ≤ limit

/-- How large each count of a plan can be. -/
theorem Plan.bounded_of_evaluate {p : Plan} {parameters : List Datum} {clock : Moment}
    {db changed : Database} {outcome : Outcome}
    (h : p.evaluate parameters clock db = (.ok outcome, changed)) :
    outcome.stats.Bounded p.action db := by
  cases hCommand : p.command parameters clock with
  | error e =>
    rw [evaluate_of_error hCommand] at h
    cases h
  | ok c =>
    rw [evaluate_of_command hCommand] at h
    cases h
    have hFills := (fills_of_command hCommand).2
    generalize p.action = action at hFills ⊢
    cases hFills with
    | insert =>
      exact ⟨rfl, Nat.zero_le _, Nat.zero_le _, Nat.zero_le _, fun _ _ hNot => by cases hNot⟩
    | update =>
      exact ⟨rfl, List.countP_le_length, Nat.zero_le _, Nat.zero_le _,
        fun _ _ hNot => by cases hNot⟩
    | delete =>
      exact ⟨rfl, Nat.zero_le _, List.countP_le_length, Nat.zero_le _,
        fun _ _ hNot => by cases hNot⟩
    | @select s m =>
      obtain ⟨hTable, hLimited⟩ := s.length_result_le m db
      refine ⟨rfl, Nat.zero_le _, Nat.zero_le _, hTable, fun other limit hSame hLimit => ?_⟩
      cases hSame
      exact hLimited limit hLimit
    | unrecognized reason =>
      exact ⟨rfl, Nat.zero_le _, Nat.zero_le _, Nat.zero_le _, fun _ _ hNot => by cases hNot⟩

namespace Session

/-- What an answer reports; a failure reports nothing. -/
def reported (count : Answer → Nat) (answer : Except SessionError Answer) : Nat :=
  answer.toOption.elim 0 count

/-- What answers report together. -/
def reportedTotal (count : Answer → Nat) : List (Except SessionError Answer) → Nat
  | [] => 0
  | answer :: answers => reported count answer + reportedTotal count answers

variable {σ γ : Type} {b : Backend (StateM σ)} {ready : σ → Prop} {dialect : Dialect}
  {db : Database}

theorem Carries.size_eq {command? : Option Command} {inserted removed : Nat}
    {changed : Database} (h : Carries command? db inserted removed changed) :
    changed.size + removed = db.size + inserted := by
  cases h with
  | nothing => rfl
  | @command c _ => exact c.size_run db
  | script tables => exact Database.size_foldl_clear tables db

/-- While saves succeed, a request that fails has left the database as it was. -/
theorem Ends.eq_of_error {α : Type} {post : α → Database → Prop} {e : SessionError}
    {changed : Database} (h : Ends b ready post db (.error e) changed)
    (hSaves : ∀ db w, ready w → ((b.save db).run w).1 = .ok ()) : changed = db := by
  cases h with
  | refused => rfl
  | unsaved _ hReady hFault =>
    rw [hSaves _ _ hReady] at hFault
    cases hFault

theorem Runs.size_eq {requests : List Request} {answers : List (Except SessionError Answer)}
    {last : Database} (h : Runs b ready dialect db requests answers last)
    (hSaves : ∀ db w, ready w → ((b.save db).run w).1 = .ok ()) :
    last.size + reportedTotal Answer.removedCount answers =
      db.size + reportedTotal Answer.insertedCount answers := by
  induction h with
  | nil => rfl
  | @cons request requests answer answers db changed last hEnds _ ih =>
    have hStep : changed.size + reported Answer.removedCount answer =
        db.size + reported Answer.insertedCount answer := by
      cases answer with
      | ok a =>
        cases hEnds with
        | answered hDone => exact hDone.size_eq
      | error e => rw [hEnds.eq_of_error hSaves]; rfl
    rw [reportedTotal, reportedTotal]
    omega

/-- What the counts of a run add up to, and how large those of a plan can be. The run starts on any
database. Its saves succeed, its loads may fail, and a request that fails changes nothing. -/
theorem history_counts {held : σ → γ} {written : Database → γ}
    (hb : b.Stores ready held written) {p : Session × σ} (hp : WorksOn b ready dialect db p)
    (requests : List Request) :
    let q := afterHistory b requests p
    (∃ last, WorksOn b ready dialect last q.2 ∧
      last.size + reportedTotal Answer.removedCount q.1 =
        db.size + reportedTotal Answer.insertedCount q.1 ∧
      ∀ request e, (after (Request.perform b request) q.2).1 = .error e →
        WorksOn b ready dialect last (after (request.perform b) q.2).2) ∧
    ∀ (plan : Plan) parameters clock before outcome changed,
      plan.evaluate parameters clock before = (.ok outcome, changed) →
        outcome.stats.Bounded plan.action before := by
  intro q
  obtain ⟨last, hRuns, hLast⟩ := runs_afterHistory hb.keeps requests hp
  refine ⟨⟨last, hLast, hRuns.size_eq hb.save_ok, fun request e hError => ?_⟩,
    fun plan parameters clock before outcome changed hRun => Plan.bounded_of_evaluate hRun⟩
  obtain ⟨changed, hEnds, hWorks⟩ := meets_perform hb.keeps request last q.2 hLast
  rw [hError] at hEnds
  rw [hEnds.eq_of_error hb.save_ok] at hWorks
  exact hWorks

/-- A memory with one user. Two more are inserted, one is deleted, and a script clears the table
twice. The second insertion is given no parameter and fails. -/
theorem history_counts_of_memory :
    let one := Database.empty.withRecords .users [Record.ofList [("id", .text "u1")]]
    let requests := [
      Request.run "INSERT INTO users (id) VALUES (?)" [.text "u2"] ⟨0, 0⟩,
      .run "INSERT INTO users (id) VALUES (?)" [] ⟨0, 0⟩,
      .dispatch .run "DELETE FROM users WHERE id = 'u1'" [] ⟨0, 0⟩,
      .run "INSERT INTO users (id) VALUES (?)" [.text "u3"] ⟨0, 0⟩,
      .exec "DELETE FROM users; DELETE FROM users"]
    let p : Session × Option Database := (⟨none, false, .through, .strict⟩, some one)
    let q := afterHistory Backend.memory requests p
    Backend.memory.Stores (fun _ => True) (fun saved => saved.getD .empty) id ∧
      WorksOn Backend.memory (fun _ => True) .strict one p ∧
      reportedTotal Answer.insertedCount q.1 = 2 ∧ reportedTotal Answer.removedCount q.1 = 3 ∧
      ∃ last, WorksOn Backend.memory (fun _ => True) .strict last q.2 ∧ last.size = 0 := by
  intro one requests p q
  have hb := Backend.faithful_memory.stores Backend.reliable_memory
  have hp : WorksOn Backend.memory (fun _ => True) .strict one p :=
    ⟨rfl, nofun, fun _ => Backend.offers_of_load rfl, trivial⟩
  have hInserted : reportedTotal Answer.insertedCount q.1 = 2 := by decide +kernel
  have hRemoved : reportedTotal Answer.removedCount q.1 = 3 := by decide +kernel
  have hOne : one.size = 1 := by decide +kernel
  obtain ⟨⟨last, hLast, hSize, -⟩, -⟩ := history_counts hb hp requests
  refine ⟨hb, hp, hInserted, hRemoved, last, hLast, ?_⟩
  rw [hInserted, hRemoved, hOne] at hSize
  exact Nat.add_right_cancel hSize

end Session

end RecordStore
