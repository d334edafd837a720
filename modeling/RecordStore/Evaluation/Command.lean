import RecordStore.Database
import RecordStore.Evaluation.Matcher

/-!
# Commands

A command is what is left of a plan when its slots are filled. Carrying it out cannot fail: it takes
a database to a database, yields the rows of a query, and counts what it did.

- Inserting puts one record at the end of a table.
- Updating sets the fields of every record that matches and marks it as updated; deleting drops every
  record that matches. The other records and the order stay as they are.
- A query pairs up, filters, sorts, cuts and projects, in this order. Sorting is stable in both
  directions, and a missing field counts as null.

## Main results

- `records_run_of_ne`: a command leaves the tables alone that it is not about.
- `records_run_insert`, `records_run_update`, `records_run_delete`: what becomes of its table.
-/

namespace RecordStore

/-- What a command did, in records. -/
structure Stats where
  scanned : Nat := 0
  inserted : Nat := 0
  updated : Nat := 0
  deleted : Nat := 0
  returned : Nat := 0
  deriving DecidableEq, Inhabited, Repr

/-- The number of records that were changed. -/
def Stats.affected (s : Stats) : Nat := s.inserted + s.updated + s.deleted

/-- What carrying out a command yields. -/
structure Outcome where
  rows : List Record := []
  stats : Stats := {}
  deriving DecidableEq, Inhabited

/-- The field that tells when a record was made. -/
def createdAt : String := "created_at"

/-- The field that tells when a record was changed last. -/
def updatedAt : String := "updated_at"

/-- A plan with its slots filled. -/
inductive Command where
  | insert (table : Table) (record : Record)
  | update (table : Table) (matcher : Matcher) (fields : List (String × Datum)) (clock : Moment)
  | delete (table : Table) (matcher : Matcher)
  | select (selection : Plan.Selection) (matcher : Matcher)
  | nothing

/-! ## Records -/

/-- The record with a field set to the time where it is blank. -/
def Record.stamped (clock : Moment) (r : Record) (name : String) : Record :=
  if Datum.isBlank (r.get? name) then r.insert name (.text clock.stamp) else r

/-- The record that is inserted for a list of fields. -/
def Record.created (fields : List (String × Datum)) (clock : Moment) : Record :=
  [createdAt, updatedAt].foldl (Record.stamped clock) (Record.ofList fields)

/-- The record with fields set and marked as changed. -/
def Record.updated (r : Record) (fields : List (String × Datum)) (clock : Moment) : Record :=
  (r.insertAll fields).insert updatedAt (.text clock.stamp)

/-! ## Queries -/

/-- Whether a row may stand before another in the result. -/
def Plan.SortKey.le (key : Plan.SortKey) (a b : Row) : Bool :=
  let order := Datum.order (a.field key.field) (b.field key.field)
  if key.ascending then order.isLE else order.isGE

namespace Plan.Selection

/-- The rows of a query before anything is left out. -/
def rows (s : Selection) (db : Database) : List Row :=
  match s.join with
  | none => (db.records s.table).map Row.single
  | some join => Row.join join (db.records s.table) (db.records join.table)

/-- Rows in the order that a query asks for. -/
def arranged (s : Selection) (rows : List Row) : List Row :=
  match s.sort with
  | none => rows
  | some key => rows.mergeSort key.le

/-- No more rows than a query asks for. -/
def limited (s : Selection) (rows : List Row) : List Row :=
  match s.limit with
  | none => rows
  | some limit => rows.take limit

/-- The records that a query returns. -/
def result (s : Selection) (matcher : Matcher) (db : Database) : List Record :=
  (s.limited (s.arranged ((s.rows db).filter matcher.accepts))).map (Row.project · s.items)

end Plan.Selection

/-! ## Carrying out -/

namespace Command

/-- What a command yields and the database after it. -/
def run : Command → Database → Outcome × Database
  | insert table record, db => ({ stats := { inserted := 1 } }, db.append table record)
  | update table matcher fields clock, db =>
    let records := db.records table
    let change (r : Record) : Record :=
      if matcher.acceptsRecord r then r.updated fields clock else r
    ({ stats := { scanned := records.length, updated := records.countP matcher.acceptsRecord } },
      db.withRecords table (records.map change))
  | delete table matcher, db =>
    let records := db.records table
    ({ stats := { scanned := records.length, deleted := records.countP matcher.acceptsRecord } },
      db.removeWhere table matcher.acceptsRecord)
  | select selection matcher, db =>
    let rows := selection.result matcher db
    ({ rows, stats :=
      { scanned := (db.records selection.table).length, returned := rows.length } }, db)
  | nothing, db => ({}, db)

/-- The table that a command may change. -/
def target? : Command → Option Table
  | insert table _ | update table _ _ _ | delete table _ => some table
  | select .. | nothing => none

theorem records_run_of_ne {c : Command} {table : Table} (h : c.target? ≠ some table)
    (db : Database) : (c.run db).2.records table = db.records table := by
  cases c with
  | insert t r =>
    have hNe : table ≠ t := fun hEq => h (hEq ▸ rfl)
    simp [run, Database.append, Database.records_withRecords, hNe]
  | update t m fields clock =>
    have hNe : table ≠ t := fun hEq => h (hEq ▸ rfl)
    simp [run, Database.records_withRecords, hNe]
  | delete t m =>
    have hNe : table ≠ t := fun hEq => h (hEq ▸ rfl)
    simp [run, Database.removeWhere, Database.records_withRecords, hNe]
  | select selection m => rfl
  | nothing => rfl

theorem records_run_insert (table : Table) (r : Record) (db : Database) :
    ((insert table r).run db).2.records table = db.records table ++ [r] := by
  simp [run, Database.append]

theorem records_run_update (table : Table) (m : Matcher) (fields : List (String × Datum))
    (clock : Moment) (db : Database) :
    ((update table m fields clock).run db).2.records table =
      (db.records table).map fun r =>
        if m.acceptsRecord r then r.updated fields clock else r := by
  simp [run]

theorem records_run_delete (table : Table) (m : Matcher) (db : Database) :
    ((delete table m).run db).2.records table =
      (db.records table).filter fun r => !m.acceptsRecord r := by
  simp [run, Database.removeWhere]

end Command

end RecordStore
