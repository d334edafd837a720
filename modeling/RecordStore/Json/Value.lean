import Mathlib.Data.List.Forall2
import RecordStore.Json.Document

/-!
# JSON values and what they hold

A JSON value is a tree. `Spells` says which texts are written forms of a tree: blanks may stand
around every value and key, scalars are spelled as they are read one at a time, and whole values are
put together with brackets, commas and colons. The relation knows nothing of what a store document
looks like.

Which trees hold a record, a table or a database is said by `Value.IsRecord`, `Value.IsTable` and
`Value.IsStore`. A store document is meant to be a map (`Value.IsTableMap`), and a sequence of tables
holds a database as well.

## Main results

- `Spells.surround`: blanks around a value do not count.
-/

namespace RecordStore.Json

/-- A JSON value. Keys of a map may be repeated. -/
inductive Value where
  | scalar (value : Scalar)
  | sequence (items : List Value)
  | map (entries : List (String × Value))

namespace Value

/-! ## What a value holds -/

/-- The field value that a value is, if it has no parts. -/
def datum? : Value → Option Datum
  | scalar s => some s.datum
  | _ => none

/-- A record: a map of which no value has parts. Of a name given more than once the last counts. -/
def IsRecord (v : Value) (r : Record) : Prop :=
  ∃ entries, v = map entries ∧ (∀ entry ∈ entries, ∃ d, entry.2.datum? = some d) ∧
    ∀ name, r.get? name = (entries.reverse.lookup name).bind datum?

/-- The records of a table in their order. -/
def IsTable (v : Value) (rs : List Record) : Prop :=
  ∃ items, v = sequence items ∧ List.Forall₂ IsRecord items rs

/-- Records of tables by the names of the tables. No table is named twice, and those that are not
named are empty. -/
def IsTableMap (v : Value) (db : Database) : Prop :=
  ∃ entries, v = map entries ∧ (entries.map Prod.fst).Nodup ∧
    (∀ entry ∈ entries, ∃ t : Table, entry.1 = t.name ∧ entry.2.IsTable (db.records t)) ∧
    ∀ t : Table, t.name ∉ entries.map Prod.fst → db.records t = []

/-- Records of tables in the order of the tables. Those that are missing at the end are empty. -/
def IsTableSequence (v : Value) (db : Database) : Prop :=
  ∃ items tables, v = sequence items ∧ List.Forall₂ IsTable items tables ∧
    tables.length ≤ Table.all.length ∧ ∀ t : Table, db.records t = (tables[t.index.val]?).getD []

/-- What is loaded as a database. -/
def IsStore (v : Value) (db : Database) : Prop := v.IsTableMap db ∨ v.IsTableSequence db

end Value

/-! ## Written forms -/

/-- What is spelled: a value, or what stands between brackets. -/
inductive Part where
  | value (v : Value)
  | items (vs : List Value)
  | entries (es : List (String × Value))

/-- Characters spell a key, blanks around it included. -/
def SpellsKey (cs : List Char) (key : String) : Prop :=
  ∃ before inner text after, cs = before ++ '"' :: inner ++ after ∧ before.all isBlank = true ∧
    after.all isBlank = true ∧ readText inner = .ok (text, []) ∧ key = String.ofList text

/-- Characters are a written form of a value, or of what stands between brackets. -/
inductive Spells : List Char → Part → Prop
  | blankBefore {c : Char} {cs : List Char} {v : Value} :
    isBlank c = true → Spells cs (.value v) → Spells (c :: cs) (.value v)
  | blankAfter {c : Char} {cs : List Char} {v : Value} :
    isBlank c = true → Spells cs (.value v) → Spells (cs ++ [c]) (.value v)
  | scalar {cs : List Char} {s : Scalar} :
    readHead cs = .ok (.scalar s, []) → Spells cs (.value (.scalar s))
  | emptySequence {blanks : List Char} :
    blanks.all isBlank = true → Spells ('[' :: blanks ++ [']']) (.value (.sequence []))
  | sequence {cs : List Char} {vs : List Value} :
    Spells cs (.items vs) → Spells ('[' :: cs ++ [']']) (.value (.sequence vs))
  | item {cs : List Char} {v : Value} : Spells cs (.value v) → Spells cs (.items [v])
  | items {cs ds : List Char} {v : Value} {vs : List Value} :
    Spells cs (.value v) → Spells ds (.items vs) → Spells (cs ++ ',' :: ds) (.items (v :: vs))
  | emptyMap {blanks : List Char} :
    blanks.all isBlank = true → Spells ('\x7b' :: blanks ++ ['\x7d']) (.value (.map []))
  | map {cs : List Char} {es : List (String × Value)} :
    Spells cs (.entries es) → Spells ('\x7b' :: cs ++ ['\x7d']) (.value (.map es))
  | entry {ks cs : List Char} {key : String} {v : Value} :
    SpellsKey ks key → Spells cs (.value v) → Spells (ks ++ ':' :: cs) (.entries [(key, v)])
  | entries {ks cs ds : List Char} {key : String} {v : Value} {es : List (String × Value)} :
    SpellsKey ks key → Spells cs (.value v) → Spells ds (.entries es) →
      Spells (ks ++ ':' :: cs ++ ',' :: ds) (.entries ((key, v) :: es))

/-- Blanks around a value do not count. -/
theorem Spells.surround {before cs after : List Char} {v : Value}
    (hBefore : before.all isBlank = true) (hAfter : after.all isBlank = true)
    (h : Spells cs (.value v)) : Spells (before ++ cs ++ after) (.value v) := by
  induction before with
  | cons c before ih =>
    obtain ⟨hc, hRest⟩ := Bool.and_eq_true_iff.1 (List.all_cons ▸ hBefore)
    exact .blankBefore hc (ih hRest)
  | nil =>
    rw [List.nil_append]
    induction after generalizing cs with
    | nil => simpa using h
    | cons c after ih =>
      obtain ⟨hc, hRest⟩ := Bool.and_eq_true_iff.1 (List.all_cons ▸ hAfter)
      have hNext := ih hRest (.blankAfter hc h)
      simpa using hNext

end RecordStore.Json
