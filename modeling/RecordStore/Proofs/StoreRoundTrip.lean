import Mathlib.Data.List.Forall2
import RecordStore.Proofs.SteadyDecimals
import RecordStore.Proofs.StoreDocument

/-!
# Saving what was loaded

A database that was saved can always be loaded, the layout of its document does not matter, and
without decimals it is loaded as what it was.

With decimals the shape is kept, that is the records, their order and their field names, and so is
every value that is no decimal. The values of the decimals are kept exactly if each of them survives
its double. Short ones do, outside of four ranges. Not all that a document can hold do: an integer
beyond the signed 64-bit range has more digits than a double, and in one of the ranges a number with
two places is loaded one unit in the last place too large, and again each time it is saved and
loaded.

## Main results

- `exists_ofJson_document`: both documents of a database are loaded as one database, which is the
  original one unless there is a decimal in it.
- `reload_matches`: saving a loaded database keeps its values just when its decimals survive, and
  they do if they are steady.
-/

namespace RecordStore

/-- A value stands in some field of a database. -/
def Database.Holds (db : Database) (d : Datum) : Prop :=
  ∃ t, ∃ r ∈ db.records t, ∃ name, (name, d) ∈ r.entries

/-- Field by field two records have the same name and values that are related. -/
def Record.Matches (related : Datum → Datum → Prop) (r s : Record) : Prop :=
  List.Forall₂ (fun x y => x.1 = y.1 ∧ related x.2 y.2) r.entries s.entries

/-- Table by table two databases have matching records in the same order. -/
def Database.Matches (related : Datum → Datum → Prop) (db db' : Database) : Prop :=
  ∀ t, List.Forall₂ (Record.Matches related) (db.records t) (db'.records t)

theorem forall₂_map_iff {α β : Type} {p : α → β → Prop} {f : α → β} {xs : List α} :
    List.Forall₂ p xs (xs.map f) ↔ ∀ x ∈ xs, p x (f x) := by
  rw [List.forall₂_map_right_iff, List.forall₂_same]

theorem Record.matches_mapValues_iff {related : Datum → Datum → Prop} {f : Datum → Datum}
    {r : Record} :
    r.Matches related (r.mapValues f) ↔ ∀ entry ∈ r.entries, related entry.2 (f entry.2) := by
  show List.Forall₂ _ r.entries (r.entries.map _) ↔ _
  rw [forall₂_map_iff]
  exact ⟨fun h entry hEntry => (h entry hEntry).2, fun h entry hEntry => ⟨rfl, h entry hEntry⟩⟩

/-- A database matches what is loaded of it just when each of its values does. -/
theorem Database.matches_reread_iff {related : Datum → Datum → Prop} {db : Database} :
    db.Matches related db.reread ↔ ∀ d, db.Holds d → related d d.reread := by
  constructor
  · rintro h d ⟨t, r, hr, name, hEntry⟩
    have hTable := h t
    rw [records_reread, forall₂_map_iff] at hTable
    exact Record.matches_mapValues_iff.1 (hTable r hr) (name, d) hEntry
  · intro h t
    rw [records_reread, forall₂_map_iff]
    intro r hr
    rw [Record.matches_mapValues_iff]
    exact fun entry hEntry => h entry.2 ⟨t, r, hr, entry.1, hEntry⟩

theorem Database.reread_eq_self {db : Database} (h : ∀ d, db.Holds d → d.isDecimal = false) :
    db.reread = db := by
  refine ext fun t => ?_
  rw [records_reread]
  refine (List.map_congr_left fun r hr => ?_).trans (List.map_id _)
  exact Record.mapValues_eq_self fun entry hEntry =>
    Datum.reread_eq_self (h entry.2 ⟨t, r, hr, entry.1, hEntry⟩)

/-- What a test says of every field is so for every value of a database. -/
theorem Database.of_holds {p : Datum → Bool} {db : Database}
    (h : (Table.all.all fun t => (db.records t).all fun r => r.entries.all fun entry =>
      p entry.2) = true) {d : Datum} (hd : db.Holds d) : p d = true := by
  obtain ⟨t, r, hr, name, hEntry⟩ := hd
  have hTable := List.all_eq_true.1 h t t.mem_all
  have hRecord := List.all_eq_true.1 hTable r hr
  exact List.all_eq_true.1 hRecord (name, d) hEntry

namespace Storage

theorem exists_ofJson_document (db : Database) :
    ∃ db', (∀ layout, Database.ofJson (document layout db) = .ok db') ∧
      ((∀ d, db.Holds d → d.isDecimal = false) → db' = db) := by
  refine ⟨db.reread, fun layout => ofJson_document layout db, fun h => ?_⟩
  exact Database.reread_eq_self h

/-- A database with hostile names and texts and with the ends of the integers. -/
def hostileDatabase : Database :=
  (Database.empty.append .users (Record.ofList
    [("\"name\\\n", .text "\x00\x1f\"\x7d],\u2028é😀"), ("", .text ""), ("least", .integer Int64.minValue),
      ("most", .integer Int64.maxValue), ("yes", .bool true), ("none", .null)])).append .sessions .empty

theorem ofJson_document_hostileDatabase :
    (∀ d, hostileDatabase.Holds d → d.isDecimal = false) ∧
      ∀ layout, Database.ofJson (document layout hostileDatabase) = .ok hostileDatabase := by
  have hPlain : ∀ d, hostileDatabase.Holds d → d.isDecimal = false := by
    intro d hd
    have hNot : (!d.isDecimal) = true := Database.of_holds (p := fun d => !d.isDecimal) (by decide) hd
    simpa using hNot
  obtain ⟨db, hRead, hSame⟩ := exists_ofJson_document hostileDatabase
  rw [hSame hPlain] at hRead
  exact ⟨hPlain, hRead⟩

/-! ## Values of decimals -/

theorem reload_matches (s : String) (db : Database) :
    Database.ofJson s = .ok db → ∀ layout, ∃ db',
      Database.ofJson (document layout db) = .ok db' ∧
      db.Matches (fun d e => d.isDecimal = false → e = d) db' ∧
      (db.Matches (fun d e => d.sameValue e = true) db' ↔
        ∀ value, db.Holds (.decimal value) → value.survives = true) ∧
      ((∀ value, db.Holds (.decimal value) → value.steady = true) →
        db.Matches (fun d e => d.sameValue e = true) db') := by
  intro _ layout
  have hSurvive : db.Matches (fun d e => d.sameValue e = true) db.reread ↔
      ∀ value, db.Holds (.decimal value) → value.survives = true := by
    rw [Database.matches_reread_iff]
    constructor
    · intro h value hValue
      exact h (.decimal value) hValue
    · intro h d hd
      rw [Datum.sameValue_reread_iff]
      rintro value rfl
      exact h value hd
  refine ⟨db.reread, ofJson_document layout db, ?_, hSurvive, fun hSteady => ?_⟩
  · rw [Database.matches_reread_iff]
    exact fun d _ hPlain => Datum.reread_eq_self hPlain
  · exact hSurvive.2 fun value hValue => Decimal.survives_of_steady (hSteady value hValue)

theorem ofJson_of_toOption {s : String} {db : Database}
    (h : (Database.ofJson s).toOption = some db) : Database.ofJson s = .ok db := by
  cases hRead : Database.ofJson s with
  | error fault => rw [hRead] at h; cases h
  | ok other => rw [hRead] at h; cases h; rfl

/-- A database with one price. -/
def pricedDatabase (price : Decimal) : Database :=
  Database.empty.append .posts (Record.ofList [("price", .decimal price)])

/-- The decimal `12.5`. -/
def twelveAndAHalf : Decimal := (Decimal.ofParts? false 125 1).getD .zero

theorem reload_matches_price :
    Database.ofJson "\x7b\"posts\":[\x7b\"price\":12.5\x7d]\x7d" =
        .ok (pricedDatabase twelveAndAHalf) ∧
      ∃ db', Database.ofJson (document .indented (pricedDatabase twelveAndAHalf)) = .ok db' ∧
        (pricedDatabase twelveAndAHalf).Matches (fun d e => d.sameValue e = true) db' := by
  have hLoad : Database.ofJson "\x7b\"posts\":[\x7b\"price\":12.5\x7d]\x7d" =
      .ok (pricedDatabase twelveAndAHalf) := ofJson_of_toOption (by decide +kernel)
  refine ⟨hLoad, ?_⟩
  obtain ⟨db', hReload, -, -, hSame⟩ := reload_matches _ _ hLoad .indented
  refine ⟨db', hReload, hSame fun value hValue => ?_⟩
  exact Database.of_holds (p := fun d => d.asDecimal?.all Decimal.steady) (by decide +kernel) hValue

/-- The decimal `9223372036854775809`, which is `2 ^ 63 + 1`. -/
def beyondInt64 : Decimal := (Decimal.ofNat? 9223372036854775809).getD .zero

/-- An integer that only an unsigned word holds is loaded with all its digits and saved without the
last of them. -/
theorem reload_changes_large_integer :
    Database.ofJson "\x7b\"posts\":[\x7b\"price\":9223372036854775809\x7d]\x7d" =
        .ok (pricedDatabase beyondInt64) ∧
      ∀ layout, ∃ db', Database.ofJson (document layout (pricedDatabase beyondInt64)) = .ok db' ∧
        ¬ (pricedDatabase beyondInt64).Matches (fun d e => d.sameValue e = true) db' := by
  refine ⟨ofJson_of_toOption (by decide +kernel), fun layout => ?_⟩
  refine ⟨_, ofJson_document layout _, fun hMatches => ?_⟩
  have hHolds : (pricedDatabase beyondInt64).Holds (.decimal beyondInt64) :=
    ⟨.posts, _, List.mem_singleton_self _, "price", List.mem_singleton_self _⟩
  have hSame := Database.matches_reread_iff.1 hMatches _ hHolds
  revert hSame
  decide +kernel

end Storage

end RecordStore
