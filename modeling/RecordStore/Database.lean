import RecordStore.Record
import RecordStore.Table

/-!
# Databases

A database holds a list of records for every table. New records go to the end of their table, and
nothing reorders them.

Every operation is described by what `records` shows afterwards for each table, and a database is
determined by that view (`ext`).

## Main results

- `records_withRecords`: setting a table's records changes that table only.
- `withRecords_comm`: the records of two tables may be set in either order.
- `ext`: a database is determined by the records of its tables.
- `size_withRecords`: how the number of records changes when one table's list is replaced.
-/

namespace RecordStore

/-- The records of every table, by the position of the table. -/
structure Database where
  contents : Vector (List Record) 9
  deriving DecidableEq

namespace Database

/-- The database without records. -/
def empty : Database := ⟨Vector.replicate 9 []⟩

instance : Inhabited Database := ⟨empty⟩

/-- The records of a table, oldest first. -/
def records (db : Database) (table : Table) : List Record := db.contents[table.index]

/-- The database with the records of one table replaced. -/
def withRecords (db : Database) (table : Table) (rs : List Record) : Database :=
  ⟨db.contents.set table.index rs⟩

@[simp] theorem records_empty (table : Table) : empty.records table = [] := by
  simp [records, empty]

theorem records_withRecords (db : Database) (table other : Table) (rs : List Record) :
    (db.withRecords table rs).records other = if other = table then rs else db.records other := by
  simp only [records, withRecords, Fin.getElem_fin, Vector.getElem_set]
  by_cases h : other = table
  · simp [h]
  · rw [if_neg fun hEq => h (Table.index_injective (Fin.ext hEq)).symm, if_neg h]

@[simp] theorem records_withRecords_self (db : Database) (table : Table) (rs : List Record) :
    (db.withRecords table rs).records table = rs := by simp [records_withRecords]

/-- A database is determined by the records of its tables. -/
theorem ext {db db' : Database} (h : ∀ table, db.records table = db'.records table) :
    db = db' := by
  obtain ⟨xs⟩ := db
  obtain ⟨ys⟩ := db'
  simp only [mk.injEq]
  have hTable : ∀ i : Fin 9, ∃ t : Table, t.index = i := by
    intro i
    match i with
    | 0 => exact ⟨.users, rfl⟩
    | 1 => exact ⟨.communities, rfl⟩
    | 2 => exact ⟨.communityMembers, rfl⟩
    | 3 => exact ⟨.proposals, rfl⟩
    | 4 => exact ⟨.proposalVotes, rfl⟩
    | 5 => exact ⟨.posts, rfl⟩
    | 6 => exact ⟨.pledges, rfl⟩
    | 7 => exact ⟨.comments, rfl⟩
    | 8 => exact ⟨.sessions, rfl⟩
  refine Vector.ext fun i hi => ?_
  obtain ⟨t, ht⟩ := hTable ⟨i, hi⟩
  have := h t
  simpa [records, ht] using this

theorem withRecords_records (db : Database) (table : Table) :
    db.withRecords table (db.records table) = db := by
  refine ext fun other => ?_
  rw [records_withRecords]
  split
  · next hEq => rw [hEq]
  · rfl

/-- The lists of two tables may be replaced in either order. -/
theorem withRecords_comm (db : Database) {table other : Table} (h : table ≠ other)
    (rs ss : List Record) :
    (db.withRecords table rs).withRecords other ss =
      (db.withRecords other ss).withRecords table rs := by
  refine ext fun third => ?_
  simp only [records_withRecords]
  split
  · next hOther => rw [if_neg fun hTable => h (hTable.symm.trans hOther)]
  · rfl

/-! ## Operations -/

/-- A record added at the end of a table. -/
def append (db : Database) (table : Table) (r : Record) : Database :=
  db.withRecords table (db.records table ++ [r])

/-- The records of a table that do not satisfy `drop`, in their order. -/
def removeWhere (db : Database) (table : Table) (drop : Record → Bool) : Database :=
  db.withRecords table ((db.records table).filter fun r => !drop r)

/-- A table without its records. -/
def clear (db : Database) (table : Table) : Database := db.withRecords table []

/-- The number of records that are gone when tables are cleared one after the other. A table that is
cleared again has none left. -/
def clearedCount (db : Database) : List Table → Nat
  | [] => 0
  | table :: rest => (db.records table).length + (db.clear table).clearedCount rest

/-- The number of records of all tables. -/
def size (db : Database) : Nat := Table.all.foldl (fun n t => n + (db.records t).length) 0

/-- Whether no table has a record. -/
def isEmpty (db : Database) : Bool := db.size == 0

/-- The database of given tables; tables that are not given are empty. -/
def ofFunction (f : Table → List Record) : Database :=
  Table.all.foldl (fun db t => db.withRecords t (f t)) empty

theorem size_withRecords (db : Database) (table : Table) (rs : List Record) :
    (db.withRecords table rs).size + (db.records table).length = db.size + rs.length := by
  cases table <;>
    simp [size, Table.all, records_withRecords] <;> omega

end Database

end RecordStore
