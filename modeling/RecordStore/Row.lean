import RecordStore.Plan
import RecordStore.Record

/-!
# Rows

A row is a record of the first table of a statement together with the record that was joined with
it, if there is one.

A join is an inner join that pairs each record of the first table with one record of the second at
most: the first whose key has the same value. Records whose own key is missing or null, or that find
no partner, drop out.

Projection puts the fields that the items supply into one record, one after the other, so a later
field replaces an earlier one of its name.

## Main results

- `get?_project`: a projected field is the last that the items supply.
- `base_of_mem_join`: a joined row keeps a record of the first table.
- `mem_allPairs_iff`: the full join pairs all records whose keys agree.
-/

namespace RecordStore

open Plan (Side Field Item)

/-- A record of the first table and the record joined with it. -/
structure Row where
  base : Record
  joined : Option Record
  deriving DecidableEq

namespace Row

/-- The row of a record on its own. -/
def single (r : Record) : Row := ⟨r, none⟩

/-- The record on one side of a row. -/
def side (row : Row) : Side → Option Record
  | .base => some row.base
  | .joined => row.joined

/-- The value of a field of a row. -/
def field (row : Row) (f : Field) : Option Datum := (row.side f.side).bind (·.get? f.name)

/-- All fields of the record on one side. -/
def fieldsOf (row : Row) (s : Side) : List (String × Datum) :=
  (row.side s).elim [] Record.entries

/-- The fields that an item supplies, in the order in which they are put into the result. -/
def supplied (row : Row) : Item → List (String × Datum)
  | .everything => row.fieldsOf .base ++ row.fieldsOf .joined
  | .allOf s => row.fieldsOf s
  | .field f => ((row.field f).map fun value => (f.name, value)).toList

/-- The record that a query returns of a row. -/
def project (row : Row) (items : List Item) : Record := Record.ofList (items.flatMap row.supplied)

theorem get?_project (row : Row) (items : List Item) (name : String) :
    (row.project items).get? name = (items.flatMap row.supplied).reverse.lookup name := by
  simp [project, Record.ofList, Record.get?_insertAll]

/-! ## Joining -/

/-- Whether a record has a key of the same value. -/
def hasKey (name : String) (key : Datum) (r : Record) : Bool :=
  (r.get? name).any (·.sameValue key)

/-- The row of a record and its first partner among others. -/
def pair? (join : Plan.Join) (others : List Record) (r : Record) : Option Row := do
  let key ← (r.get? join.baseKey).filter fun key => !key.isNull
  let partner ← others.find? (hasKey join.joinedKey key)
  return ⟨r, some partner⟩

/-- The rows of the records that find a partner among others. -/
def join (join : Plan.Join) (records others : List Record) : List Row :=
  records.filterMap (pair? join others)

theorem base_of_pair? {join : Plan.Join} {others : List Record} {r : Record} {row : Row}
    (h : pair? join others r = some row) : row.base = r := by
  obtain ⟨key, _, hRow⟩ := Option.bind_eq_some_iff.1 h
  obtain ⟨partner, _, hRow⟩ := Option.bind_eq_some_iff.1 hRow
  cases hRow
  rfl

theorem base_of_mem_join {join : Plan.Join} {records others : List Record} {row : Row}
    (h : row ∈ Row.join join records others) : row.base ∈ records := by
  obtain ⟨r, hMem, hPair⟩ := List.mem_filterMap.1 h
  exact base_of_pair? hPair ▸ hMem

/-! ## The full join

A record may have several partners. The full join has a row for each of them.
-/

/-- Whether the keys of two records are there, not null and of the same value. -/
def keysAgree (join : Plan.Join) (r other : Record) : Bool :=
  match r.get? join.baseKey, other.get? join.joinedKey with
  | some a, some b => !a.isNull && !b.isNull && a.sameValue b
  | _, _ => false

/-- The rows of all pairs of records whose keys agree. -/
def allPairs (join : Plan.Join) (records others : List Record) : List Row :=
  records.flatMap fun r => (others.filter (keysAgree join r)).map fun other => ⟨r, some other⟩

theorem mem_allPairs_iff {join : Plan.Join} {records others : List Record} {row : Row} :
    row ∈ allPairs join records others ↔
      ∃ r ∈ records, ∃ other ∈ others, keysAgree join r other = true ∧ row = ⟨r, some other⟩ := by
  simp only [allPairs, List.mem_flatMap, List.mem_map, List.mem_filter]
  constructor
  · rintro ⟨r, hr, other, ⟨hOther, hKeys⟩, rfl⟩
    exact ⟨r, hr, other, hOther, hKeys, rfl⟩
  · rintro ⟨r, hr, other, hOther, hKeys, rfl⟩
    exact ⟨r, hr, other, ⟨hOther, hKeys⟩, rfl⟩

end Row

end RecordStore
