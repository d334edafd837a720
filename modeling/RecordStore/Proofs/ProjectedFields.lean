import Mathlib.Data.List.Induction
import RecordStore.Row

/-!
# The fields of a projected record

A projection goes through its items from front to back and puts what each of them supplies into one
record. After an item the record has what the item supplies and, for names that it does not supply,
what was there before it (`get?_project_append`). So the last item that supplies a name decides, and
a name that no item supplies is not in the record.

Which item supplies what is said without the lists that are put together (`Supplies`). All fields of
a row are those of the joined record and, for names that it does not have, those of the base record.

## Main results

- `supply?_eq_some_iff`: what an item supplies.
- `get?_project_append`: what one more item does to a projected record.
- `project_last`: the last item that supplies a name decides about its value.
-/

namespace RecordStore.Row

open Plan (Side Field Item)

/-- An item supplies a value for a name. -/
inductive Supplies (row : Row) : Item → String → Datum → Prop
  | field {f : Field} {value : Datum} : row.field f = some value →
    Supplies row (.field f) f.name value
  | allOf {s : Side} {r : Record} {name : String} {value : Datum} : row.side s = some r →
    r.get? name = some value → Supplies row (.allOf s) name value
  | joined {r : Record} {name : String} {value : Datum} : row.joined = some r →
    r.get? name = some value → Supplies row .everything name value
  | base {name : String} {value : Datum} : (∀ r, row.joined = some r → r.get? name = none) →
    row.base.get? name = some value → Supplies row .everything name value

variable {row : Row} {item : Item} {name : String} {value : Datum}

/-- The value that an item supplies for a name, which is the last one in its list. -/
def supply? (row : Row) (item : Item) (name : String) : Option Datum :=
  (row.supplied item).reverse.lookup name

/-! ## What an item supplies -/

theorem lookup_fieldsOf (row : Row) (s : Side) (name : String) :
    (row.fieldsOf s).reverse.lookup name = (row.side s).bind (·.get? name) := by
  rw [fieldsOf]
  cases row.side s with
  | none => rfl
  | some r => exact r.lookup_reverse name

theorem supply?_everything (row : Row) (name : String) :
    row.supply? .everything name = (row.joined.bind (·.get? name)).or (row.base.get? name) := by
  rw [supply?, supplied, List.reverse_append, List.lookup_append, lookup_fieldsOf, lookup_fieldsOf]
  rfl

theorem supply?_field (row : Row) (f : Field) (name : String) :
    row.supply? (.field f) name = if name = f.name then row.field f else none := by
  rw [supply?, supplied]
  cases row.field f with
  | none => simp
  | some value =>
    by_cases hName : name = f.name
    · simp [hName]
    · simp [hName, List.lookup_cons, beq_eq_false_iff_ne.2 hName]

theorem supply?_eq_some_iff :
    row.supply? item name = some value ↔ Supplies row item name value := by
  cases item with
  | everything =>
    rw [supply?_everything, Option.or_eq_some_iff, Option.bind_eq_some_iff, Option.bind_eq_none_iff]
    constructor
    · rintro (⟨r, hJoined, hGet⟩ | ⟨hNone, hGet⟩)
      · exact .joined hJoined hGet
      · exact .base hNone hGet
    · intro h
      cases h with
      | joined hJoined hGet => exact .inl ⟨_, hJoined, hGet⟩
      | base hNone hGet => exact .inr ⟨hNone, hGet⟩
  | allOf s =>
    rw [supply?, supplied, lookup_fieldsOf, Option.bind_eq_some_iff]
    constructor
    · rintro ⟨r, hSide, hGet⟩
      exact .allOf hSide hGet
    · intro h
      cases h with
      | allOf hSide hGet => exact ⟨_, hSide, hGet⟩
  | field f =>
    rw [supply?_field, Option.ite_none_right_eq_some]
    constructor
    · rintro ⟨rfl, hField⟩
      exact .field hField
    · intro h
      cases h with
      | field hField => exact ⟨rfl, hField⟩

theorem supply?_eq_none_iff :
    row.supply? item name = none ↔ ∀ value, ¬ Supplies row item name value := by
  rw [Option.eq_none_iff_forall_ne_some]
  exact forall_congr' fun value => not_congr supply?_eq_some_iff

/-! ## What a projection puts together -/

/-- One more item replaces what it supplies and leaves the rest. -/
theorem get?_project_append (row : Row) (items : List Item) (item : Item) (name : String) :
    (row.project (items ++ [item])).get? name =
      (row.supply? item name).or ((row.project items).get? name) := by
  rw [get?_project, get?_project, List.flatMap_append, List.reverse_append, List.lookup_append,
    List.flatMap_singleton, supply?]

/-- The first item from the end that supplies a name decides about it. -/
theorem get?_project_eq_findSome? (row : Row) (items : List Item) (name : String) :
    (row.project items).get? name = items.reverse.findSome? (row.supply? · name) := by
  induction items using List.reverseRecOn with
  | nil => rfl
  | append_singleton items item ih =>
    rw [get?_project_append, List.reverse_append, List.reverse_singleton, List.singleton_append,
      List.findSome?_cons, ih]
    cases row.supply? item name <;> rfl

theorem get?_project_eq_some_iff {items : List Item} :
    (row.project items).get? name = some value ↔
      ∃ before item after, items = before ++ item :: after ∧ Supplies row item name value ∧
        ∀ other ∈ after, ∀ v, ¬ Supplies row other name v := by
  rw [get?_project_eq_findSome?, List.findSome?_eq_some_iff]
  constructor
  · rintro ⟨after, item, before, hItems, hItem, hAfter⟩
    refine ⟨before.reverse, item, after.reverse, ?_, supply?_eq_some_iff.1 hItem,
      fun other hOther => supply?_eq_none_iff.1 (hAfter other (List.mem_reverse.1 hOther))⟩
    rw [← items.reverse_reverse, hItems]
    simp
  · rintro ⟨before, item, after, rfl, hItem, hAfter⟩
    refine ⟨after.reverse, item, before.reverse, by simp, supply?_eq_some_iff.2 hItem,
      fun other hOther => supply?_eq_none_iff.2 (hAfter other (List.mem_reverse.1 hOther))⟩

theorem has_project_iff {items : List Item} :
    (row.project items).has name = true ↔
      ∃ item ∈ items, ∃ value, Supplies row item name value := by
  rw [Record.has, get?_project_eq_findSome?, List.findSome?_isSome_iff]
  constructor
  · rintro ⟨item, hItem, hSome⟩
    obtain ⟨value, hValue⟩ := Option.isSome_iff_exists.1 hSome
    exact ⟨item, List.mem_reverse.1 hItem, value, supply?_eq_some_iff.1 hValue⟩
  · rintro ⟨item, hItem, value, hValue⟩
    exact ⟨item, List.mem_reverse.2 hItem,
      Option.isSome_iff_exists.2 ⟨value, supply?_eq_some_iff.2 hValue⟩⟩

/-- A projected record has the fields that an item supplies, and no others. The value of a field is
the one, and the only one, that the last item supplies that supplies any for its name. -/
theorem project_last (row : Row) (items : List Item) (name : String) :
    ((row.project items).has name = true ↔
      ∃ item ∈ items, ∃ value, Supplies row item name value) ∧
    (∀ value, (row.project items).get? name = some value ↔
      ∃ before item after, items = before ++ item :: after ∧ Supplies row item name value ∧
        ∀ other ∈ after, ∀ v, ¬ Supplies row other name v) ∧
    ∀ item v w, Supplies row item name v → Supplies row item name w → v = w := by
  refine ⟨has_project_iff, fun value => get?_project_eq_some_iff, fun item v w hv hw => ?_⟩
  have hLookup := supply?_eq_some_iff.2 hv
  exact Option.some.inj (hLookup.symm.trans (supply?_eq_some_iff.2 hw))

/-- Behind everything, the fields of the base record take their names back. -/
theorem project_last_everything_base :
    let row : Row := ⟨Record.ofList [("id", .integer 1)],
      some (Record.ofList [("id", .integer 2), ("title", .text "news")])⟩
    Supplies row .everything "id" (.integer 2) ∧ Supplies row (.allOf .base) "id" (.integer 1) ∧
      (row.project [.everything, .allOf .base]).get? "id" = some (.integer 1) ∧
      (row.project [.everything, .allOf .base]).get? "title" = some (.text "news") := by
  intro row
  have hJoined : Supplies row .everything "id" (.integer 2) := .joined rfl (by decide +kernel)
  have hTitle : Supplies row .everything "title" (.text "news") := .joined rfl (by decide +kernel)
  have hBase : Supplies row (.allOf .base) "id" (.integer 1) := .allOf rfl (by decide +kernel)
  have hNoTitle : row.supply? (.allOf .base) "title" = none := by decide +kernel
  obtain ⟨-, hId, -⟩ := project_last row [.everything, .allOf .base] "id"
  obtain ⟨-, hLast, -⟩ := project_last row [.everything, .allOf .base] "title"
  refine ⟨hJoined, hBase, (hId _).2 ⟨[.everything], .allOf .base, [], rfl, hBase, nofun⟩,
    (hLast _).2 ⟨[], .everything, [.allOf .base], rfl, hTitle, fun other hOther => ?_⟩⟩
  obtain rfl := List.mem_singleton.1 hOther
  exact supply?_eq_none_iff.1 hNoTitle

end RecordStore.Row
