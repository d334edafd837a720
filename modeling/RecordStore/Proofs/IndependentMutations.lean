import Mathlib.Data.List.Basic
import RecordStore.Proofs.Binding

/-!
# Mutations in either order

A plan that changes records has one table. What it answers, and what becomes of that table, depends
on the records of the table alone, and all other tables stay as they are (`evaluate_within`). Changes
of this kind on different tables do not see each other, so it makes no difference which comes first
(`Within.comm`).

Two deletions on one table do see each other, since a record can be removed only once. They leave the
same records in either order, and so they have removed the same number together, though perhaps not
each.

## Main results

- `evaluate_within`: a mutation is about the records of its table alone.
- `exists_drops`: a deletion drops records by a test that does not depend on the others.
- `evaluate_either_order`: two mutations in either order.
-/

namespace RecordStore

open Plan (Action Predicate)

/-! ## Changes of one table -/

/-- An answer and a change that depend on the records of one table, and change only these. -/
def Database.Within {α : Type} (table : Table) (f : Database → α × Database) : Prop :=
  ∃ g : List Record → α × List Record, ∀ db,
    f db = ((g (db.records table)).1, db.withRecords table (g (db.records table)).2)

namespace Database

variable {α β : Type} {table other : Table} {f : Database → α × Database}
  {g : Database → β × Database}

/-- A change of one table shows nothing to a look at another. -/
theorem Within.records_of_ne (hf : Within table f) (h : other ≠ table) (db : Database) :
    (f db).2.records other = db.records other := by
  obtain ⟨change, hChange⟩ := hf
  rw [hChange, records_withRecords, if_neg h]

/-- What is answered about a table stays the same when another one is changed. -/
theorem Within.answer_eq (hf : Within table f) (hg : Within other g) (h : table ≠ other)
    (db : Database) : (g (f db).2).1 = (g db).1 := by
  have hRecords := hf.records_of_ne h.symm db
  obtain ⟨look, hLook⟩ := hg
  rw [hLook, hLook, hRecords]

/-- Changes of different tables leave the same database in either order. -/
theorem Within.comm (hf : Within table f) (hg : Within other g) (h : table ≠ other)
    (db : Database) : (g (f db).2).2 = (f (g db).2).2 := by
  have hOther := hf.records_of_ne h.symm db
  have hTable := hg.records_of_ne h db
  obtain ⟨first, hFirst⟩ := hf
  obtain ⟨second, hSecond⟩ := hg
  calc (g (f db).2).2
      = (f db).2.withRecords other (second ((f db).2.records other)).2 := by rw [hSecond]
    _ = (db.withRecords table (first (db.records table)).2).withRecords other
          (second (db.records other)).2 := by rw [hOther, hFirst]
    _ = (db.withRecords other (second (db.records other)).2).withRecords table
          (first (db.records table)).2 := withRecords_comm db h _ _
    _ = (g db).2.withRecords table (first ((g db).2.records table)).2 := by rw [hTable, hSecond]
    _ = (f (g db).2).2 := by rw [hFirst]

end Database

/-! ## Mutations -/

/-- The table that an action may change. -/
def Plan.Action.target? : Action → Option Table
  | insert table _ | update table _ _ | delete table _ => some table
  | select _ | unrecognized _ => none

/-- A command is about the table of its action. -/
theorem Plan.Action.target?_command {action : Action} {parameters : List Datum} {clock : Moment}
    {c : Command} (h : action.command parameters clock = .ok c) : c.target? = action.target? := by
  cases fills_of_command h <;> rfl

theorem Command.run_within {c : Command} {table : Table} (h : c.target? = some table) :
    Database.Within table c.run := by
  cases c with
  | insert t r =>
    cases h
    exact ⟨fun rs => ({ stats := { inserted := 1 } }, rs ++ [r]), fun _ => rfl⟩
  | update t m fields clock =>
    cases h
    exact ⟨fun rs =>
      ({ stats := { scanned := rs.length, updated := rs.countP m.acceptsRecord } },
        rs.map fun r => if m.acceptsRecord r then r.updated fields clock else r), fun _ => rfl⟩
  | delete t m =>
    cases h
    exact ⟨fun rs =>
      ({ stats := { scanned := rs.length, deleted := rs.countP m.acceptsRecord } },
        rs.filter fun r => !m.acceptsRecord r), fun _ => rfl⟩
  | select | nothing => cases h

namespace Plan

variable {p : Plan} {parameters : List Datum} {clock : Moment}

/-- Whether a plan is carried out does not depend on the database. -/
theorem evaluate_eq_command (p : Plan) (parameters : List Datum) (clock : Moment) :
    (∃ c, p.action.command parameters clock = .ok c ∧
      p.evaluate parameters clock = fun db => (.ok (c.run db).1, (c.run db).2)) ∨
    ∃ e, p.evaluate parameters clock = fun db => (.error e, db) := by
  cases hCommand : p.command parameters clock with
  | error e => exact .inr ⟨e, funext fun db => evaluate_of_error hCommand db⟩
  | ok c =>
    refine .inl ⟨c, ?_, funext fun db => evaluate_of_command hCommand db⟩
    rw [command] at hCommand
    split at hCommand
    · exact hCommand
    · cases hCommand

/-- A mutation is about the records of its table alone. -/
theorem evaluate_within {table : Table} (h : p.action.target? = some table) :
    Database.Within table (p.evaluate parameters clock) := by
  rcases evaluate_eq_command p parameters clock with ⟨c, hCommand, hRun⟩ | ⟨e, hRefused⟩
  · obtain ⟨run, hWithin⟩ := Command.run_within ((Action.target?_command hCommand).trans h)
    refine ⟨fun rs => (.ok (run rs).1, (run rs).2), fun db => ?_⟩
    rw [hRun]
    simp only [hWithin]
  · refine ⟨fun rs => (.error e, rs), fun db => ?_⟩
    rw [hRefused, Database.withRecords_records]

end Plan

/-! ## Deletions -/

/-- The number of records that are gone after a plan; none are if it is not carried out. -/
def removedBy (answer : Except EvalError Outcome) : Nat :=
  answer.toOption.elim 0 fun outcome => outcome.stats.deleted

/-- A deletion drops the records that satisfy a test. One that is not carried out drops none. -/
theorem Plan.exists_drops {p : Plan} {table : Table} {predicate : Predicate}
    (h : p.action = .delete table predicate) (parameters : List Datum) (clock : Moment) :
    ∃ drop : Record → Bool, ∀ db,
      (p.evaluate parameters clock db).2 = db.removeWhere table drop ∧
        removedBy (p.evaluate parameters clock db).1 = (db.records table).countP drop := by
  rcases evaluate_eq_command p parameters clock with ⟨c, hCommand, hRun⟩ | ⟨e, hRefused⟩
  · rw [h] at hCommand
    obtain ⟨m, -, hDelete⟩ := bind_eq_ok_iff.1 hCommand
    cases hDelete
    exact ⟨m.acceptsRecord, fun db => by rw [hRun]; exact ⟨rfl, rfl⟩⟩
  · refine ⟨fun _ => false, fun db => ?_⟩
    rw [hRefused]
    constructor
    · have hKept : (db.records table).filter (fun r => !(fun _ => false) r) = db.records table :=
        List.filter_eq_self.2 fun _ _ => rfl
      rw [Database.removeWhere, hKept, Database.withRecords_records]
    · rw [List.countP_false]
      rfl

theorem Database.removeWhere_comm (db : Database) (table : Table) (a b : Record → Bool) :
    (db.removeWhere table a).removeWhere table b =
      (db.removeWhere table b).removeWhere table a := by
  refine ext fun other => ?_
  simp only [removeWhere, records_withRecords, if_true]
  split
  · exact List.filter_comm _ _ _
  · rfl

/-- Two tests drop as many records together as either one after the other. -/
theorem countP_add_countP_filter (xs : List Record) (a b : Record → Bool) :
    xs.countP a + (xs.filter fun r => !a r).countP b =
      xs.countP b + (xs.filter fun r => !b r).countP a := by
  have hSplit (p : Record → Bool) (ys : List Record) :
      ys.countP p + (ys.filter fun r => !p r).length = ys.length := by
    rw [List.countP_eq_length_filter]
    exact (List.length_eq_length_filter_add p).symm
  have hSame : (xs.filter fun r => !a r).filter (fun r => !b r) =
      (xs.filter fun r => !b r).filter fun r => !a r := List.filter_comm _ _ _
  have hA := hSplit a xs
  have hB := hSplit b xs
  have hAB := hSplit b (xs.filter fun r => !a r)
  have hBA := hSplit a (xs.filter fun r => !b r)
  rw [hSame] at hAB
  omega

/-- Two mutations are carried out in either order. They are carried out if they are given the
parameters that they ask for, whatever the other one does. On different tables both orders lead to
the same database and to the same answers. Two deletions on one table lead to the same database, and
together they remove the same number of records. -/
theorem evaluate_either_order (p q : Plan) (xs ys : List Datum) (now later : Moment)
    (db : Database) :
    let first := p.evaluate xs now db
    let second := q.evaluate ys later first.2
    let second' := q.evaluate ys later db
    let first' := p.evaluate xs now second'.2
    (((∃ outcome, first.1 = .ok outcome) ↔
        xs.length = p.parameterCount ∧ ∀ slot ∈ p.action.slots, slot.Fits xs.length) ∧
      ((∃ outcome, second.1 = .ok outcome) ↔
        ys.length = q.parameterCount ∧ ∀ slot ∈ q.action.slots, slot.Fits ys.length)) ∧
    (∀ t u, p.action.target? = some t → q.action.target? = some u → t ≠ u →
      second.2 = first'.2 ∧ first.1 = first'.1 ∧ second.1 = second'.1) ∧
    ∀ t pre post, p.action = .delete t pre → q.action = .delete t post →
      second.2 = first'.2 ∧
        removedBy first.1 + removedBy second.1 = removedBy second'.1 + removedBy first'.1 := by
  intro first second second' first'
  refine ⟨⟨exists_evaluate_iff, exists_evaluate_iff⟩, fun t u hp hq hNe => ?_,
    fun t pre post hp hq => ?_⟩
  · have hFirst : Database.Within t (p.evaluate xs now) := Plan.evaluate_within hp
    have hSecond : Database.Within u (q.evaluate ys later) := Plan.evaluate_within hq
    exact ⟨hFirst.comm hSecond hNe db, (hSecond.answer_eq hFirst hNe.symm db).symm,
      hFirst.answer_eq hSecond hNe db⟩
  · obtain ⟨a, hA⟩ := Plan.exists_drops hp xs now
    obtain ⟨b, hB⟩ := Plan.exists_drops hq ys later
    constructor
    · simp only [first, second, first', second', (hA _).1, (hB _).1]
      exact Database.removeWhere_comm db t a b
    · simp only [first, second, first', second', (hA _).2, (hB _).2, (hA _).1, (hB _).1,
        Database.removeWhere, Database.records_withRecords_self]
      exact countP_add_countP_filter _ a b

/-- Of three posts two have the same name. A user may be inserted before or after these two are
deleted, and whether they are deleted on their own or with all posts, three posts are removed. -/
theorem evaluate_either_order_posts :
    let post (id : String) := Record.ofList [("id", .text id)]
    let db := Database.empty.withRecords .posts [post "a", post "b", post "a"]
    let named : Predicate := .conjunction [.equals ⟨.base, "id"⟩ (.parameter 0)]
    let insert : Plan := ⟨.insert .users [("id", .parameter 0)], 1⟩
    let twins : Plan := ⟨.delete .posts named, 1⟩
    let all : Plan := ⟨.delete .posts .always, 0⟩
    (insert.action.target? = some .users ∧ twins.action.target? = some .posts ∧
      Table.users ≠ .posts ∧
      (twins.evaluate [.text "a"] ⟨0, 0⟩ (insert.evaluate [.text "u"] ⟨1, 0⟩ db).2).2 =
        (insert.evaluate [.text "u"] ⟨1, 0⟩ (twins.evaluate [.text "a"] ⟨0, 0⟩ db).2).2) ∧
    twins.action = .delete .posts named ∧ all.action = .delete .posts .always ∧
      removedBy (twins.evaluate [.text "a"] ⟨0, 0⟩ db).1 = 2 ∧
      removedBy (all.evaluate [] ⟨0, 0⟩ db).1 +
        removedBy (twins.evaluate [.text "a"] ⟨0, 0⟩ (all.evaluate [] ⟨0, 0⟩ db).2).1 = 3 := by
  intro post db named insert twins all
  obtain ⟨-, hTables, -⟩ :=
    evaluate_either_order insert twins [.text "u"] [.text "a"] ⟨1, 0⟩ ⟨0, 0⟩ db
  obtain ⟨-, -, hDeletions⟩ :=
    evaluate_either_order twins all [.text "a"] [] ⟨0, 0⟩ ⟨0, 0⟩ db
  have hAlone : removedBy (twins.evaluate [.text "a"] ⟨0, 0⟩ db).1 = 2 := by decide +kernel
  have hLeft : removedBy (all.evaluate [] ⟨0, 0⟩
      (twins.evaluate [.text "a"] ⟨0, 0⟩ db).2).1 = 1 := by decide +kernel
  obtain ⟨-, hTogether⟩ := hDeletions .posts named .always rfl rfl
  rw [hAlone, hLeft] at hTogether
  exact ⟨⟨rfl, rfl, by decide, (hTables .users .posts rfl rfl (by decide)).1⟩, rfl, rfl, hAlone,
    hTogether.symm⟩

end RecordStore
