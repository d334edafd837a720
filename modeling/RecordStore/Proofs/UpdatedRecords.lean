import Mathlib.Data.List.Forall2
import RecordStore.Proofs.Parameters

/-!
# What an update changes

An update goes through its table from front to back and tests every record as it was before the
statement, since a record is tested before its own fields are set and no record is tested twice. A
record that passes has its fields set one after the other and is marked as changed at the end; the
others are passed over.

What this makes of a record is said field by field and by the assignments as they are written
(`Record.Becomes`): an assigned field has the value of its last assignment, the field that tells when
the record was changed has the time whatever is assigned to it, and every other field is as it was,
also where it is missing. This leaves no choice, so it describes the new record completely.

## Main results

- `exists_resolveFields_append`: the value that an assignment in the middle of others is given.
- `becomes_updated`: the record that an update makes of another.
- `evaluate_update`: what an update changes, counts and leaves alone.
-/

namespace RecordStore

open Plan (Slot Predicate Action Clause)

variable {parameters : List Datum} {clock : Moment}

/-! ## Fields in their order -/

theorem map_fst_of_resolveFields {fields : List (String × Slot)} {values : List (String × Datum)}
    (h : Plan.resolveFields parameters clock fields = .ok values) :
    values.map Prod.fst = fields.map Prod.fst := by
  induction fields generalizing values with
  | nil =>
    cases h
    rfl
  | cons field fields ih =>
    rw [Plan.resolveFields, List.mapM_cons] at h
    obtain ⟨value, hHead, hRest⟩ := bind_eq_ok_iff.1 h
    obtain ⟨rest, hTail, hAll⟩ := bind_eq_ok_iff.1 hRest
    obtain ⟨d, -, hField⟩ := bind_eq_ok_iff.1 hHead
    cases hAll
    cases hField
    rw [List.map_cons, List.map_cons, ih hTail]

/-- An assignment between others is given the value of its own slot, and the fields behind it are
those that are assigned behind it. -/
theorem exists_resolveFields_append {before after : List (String × Slot)} {name : String}
    {slot : Slot} {values : List (String × Datum)}
    (h : Plan.resolveFields parameters clock (before ++ (name, slot) :: after) = .ok values) :
    ∃ front value back, slot.resolve parameters clock = .ok value ∧
      values = front ++ (name, value) :: back ∧
      back.map Prod.fst = after.map Prod.fst := by
  rw [Plan.resolveFields, List.mapM_append] at h
  obtain ⟨front, -, hRest⟩ := bind_eq_ok_iff.1 h
  obtain ⟨rest, hBehind, hAll⟩ := bind_eq_ok_iff.1 hRest
  rw [List.mapM_cons] at hBehind
  obtain ⟨field, hHead, hMore⟩ := bind_eq_ok_iff.1 hBehind
  obtain ⟨back, hTail, hBack⟩ := bind_eq_ok_iff.1 hMore
  obtain ⟨value, hValue, hField⟩ := bind_eq_ok_iff.1 hHead
  cases hAll
  cases hBack
  cases hField
  exact ⟨front, value, back, hValue, rfl, map_fst_of_resolveFields hTail⟩

namespace Record

theorem get?_insertAll_of_not_mem {fields : List (String × Datum)} {name : String}
    (h : name ∉ fields.map Prod.fst) (r : Record) :
    (r.insertAll fields).get? name = r.get? name := by
  induction fields generalizing r with
  | nil => rfl
  | cons field fields ih =>
    rw [List.map_cons, List.mem_cons, not_or] at h
    show ((r.insert field.1 field.2).insertAll fields).get? name = r.get? name
    rw [ih h.2, get?_insert, if_neg h.1]

/-- Of the fields that are set, the last of each name counts. -/
theorem get?_insertAll_of_last {front back : List (String × Datum)} {name : String}
    (h : name ∉ back.map Prod.fst) (value : Datum) (r : Record) :
    (r.insertAll (front ++ (name, value) :: back)).get? name = some value := by
  rw [insertAll_append]
  show (((r.insertAll front).insert name value).insertAll back).get? name = some value
  rw [get?_insertAll_of_not_mem h, get?_insert_self]

/-! ## One record -/

/-- The record that assignments make of another at a time. -/
structure Becomes (assignments : List (String × Slot)) (parameters : List Datum) (clock : Moment)
    (old new : Record) : Prop where
  assigned : ∀ before name slot after, assignments = before ++ (name, slot) :: after →
    name ∉ after.map Prod.fst → name ≠ updatedAt →
      ∃ value, slot.resolve parameters clock = .ok value ∧ new.get? name = some value
  marked : new.get? updatedAt = some (.text clock.stamp)
  others : ∀ name, name ∉ assignments.map Prod.fst → name ≠ updatedAt →
    new.get? name = old.get? name

theorem becomes_updated {assignments : List (String × Slot)} {fields : List (String × Datum)}
    (h : Plan.resolveFields parameters clock assignments = .ok fields) (old : Record) :
    Becomes assignments parameters clock old (old.updated fields clock) := by
  have hUnmarked (name : String) (hName : name ≠ updatedAt) :
      (old.updated fields clock).get? name = (old.insertAll fields).get? name := by
    rw [updated, get?_insert, if_neg hName]
  refine ⟨fun before name slot after hWritten hLast hName => ?_, get?_insert_self _ _ _,
    fun name hName hMark => ?_⟩
  · rw [hWritten] at h
    obtain ⟨front, value, back, hValue, hFields, hBack⟩ := exists_resolveFields_append h
    refine ⟨value, hValue, ?_⟩
    rw [hUnmarked name hName, hFields]
    apply get?_insertAll_of_last
    rw [hBack]
    exact hLast
  · rw [hUnmarked name hMark]
    apply get?_insertAll_of_not_mem
    rw [map_fst_of_resolveFields h]
    exact hName

end Record

/-! ## The whole table -/

namespace Plan

/-- An update that is carried out has its assignments and its condition filled. -/
theorem exists_of_evaluate_update {p : Plan} {table : Table} {assignments : List (String × Slot)}
    {predicate : Predicate} (hAction : p.action = .update table assignments predicate)
    {db changed : Database} {outcome : Outcome}
    (h : p.evaluate parameters clock db = (.ok outcome, changed)) :
    ∃ fields m, resolveFields parameters clock assignments = .ok fields ∧
      Matcher.ofPredicate parameters clock .nothing predicate = .ok m ∧
      (Command.update table m fields clock).run db = (outcome, changed) := by
  cases hCommand : p.command parameters clock with
  | error e =>
    rw [evaluate_of_error hCommand] at h
    cases h
  | ok c =>
    rw [evaluate_of_command hCommand] at h
    have hFills := (fills_of_command hCommand).2
    rw [hAction] at hFills
    cases hFills with
    | @update _ _ _ fields m hFields hMatcher =>
      cases h
      exact ⟨fields, m, hFields, hMatcher, rfl⟩

/-- What an update does when it is given as many parameters as it asks for. It is carried out if they
fill its slots, as they do for the plan of a statement, and otherwise nothing changes. When it is
carried out, the records are tested as they were, those that do not pass stay as they are, and those
that pass become what the assignments say, each in its place. No other table is changed, and the
statistics have the length of the table and the number of records that passed. -/
theorem evaluate_update {p : Plan} {table : Table} {assignments : List (String × Slot)}
    {predicate : Predicate} (hAction : p.action = .update table assignments predicate)
    (hCount : parameters.length = p.parameterCount) (clock : Moment) (db : Database) :
    ((∃ outcome, (p.evaluate parameters clock db).1 = .ok outcome) ↔
      ∀ slot ∈ assignments.map Prod.snd ++ predicate.slots, slot.Fits parameters.length) ∧
    (∀ dialect s, Plan.ofStatement dialect s = .ok p →
      ∃ outcome, (p.evaluate parameters clock db).1 = .ok outcome) ∧
    (∀ e, (p.evaluate parameters clock db).1 = .error e →
      (p.evaluate parameters clock db).2 = db) ∧
    ∀ outcome changed, p.evaluate parameters clock db = (.ok outcome, changed) →
      ∃ m, Matcher.ofPredicate parameters clock .nothing predicate = .ok m ∧
        (∀ other, other ≠ table → changed.records other = db.records other) ∧
        List.Forall₂ (fun old new =>
            (m.acceptsRecord old = false → new = old) ∧
            (m.acceptsRecord old = true → Record.Becomes assignments parameters clock old new))
          (db.records table) (changed.records table) ∧
        outcome.rows = [] ∧
        outcome.stats =
          { scanned := (db.records table).length,
            updated := ((db.records table).filter m.acceptsRecord).length } := by
  have hFills : (∃ outcome, (p.evaluate parameters clock db).1 = .ok outcome) ↔
      ∀ slot ∈ assignments.map Prod.snd ++ predicate.slots, slot.Fits parameters.length := by
    have hSlots : p.action.slots = assignments.map Prod.snd ++ predicate.slots := by
      rw [hAction]
      rfl
    rw [exists_evaluate_iff, hSlots]
    exact ⟨fun h => h.2, fun h => ⟨hCount, h⟩⟩
  refine ⟨hFills, fun dialect s hPlan => ?_, fun e hError => ?_, fun outcome changed hRun => ?_⟩
  · apply exists_evaluate_iff.2
    refine ⟨hCount, ?_⟩
    rw [hCount]
    exact slots_fit hPlan
  · cases hCommand : p.command parameters clock with
    | error e => rw [evaluate_of_error hCommand]
    | ok c =>
      rw [evaluate_of_command hCommand] at hError
      cases hError
  · obtain ⟨fields, m, hFields, hMatcher, hUpdate⟩ := exists_of_evaluate_update hAction hRun
    obtain ⟨rfl, rfl⟩ := Prod.mk.inj hUpdate
    refine ⟨m, hMatcher, fun other hOther => ?_, ?_, rfl, ?_⟩
    · rw [Database.records_withRecords, if_neg hOther]
    · rw [Database.records_withRecords_self, List.forall₂_map_right_iff, List.forall₂_same]
      intro old _
      constructor
      · intro hPasses
        rw [if_neg (by simp [hPasses])]
      · intro hPasses
        rw [if_pos hPasses]
        exact Record.becomes_updated hFields old
    · rw [← List.countP_eq_length_filter]

/-- A field of the condition is assigned twice, and so is the time of the change. Two of three posts
are open: they get the last value and the time of the statement, and keep their title. -/
theorem evaluate_update_open_posts :
    let assignments := [("status", Slot.literal .null), ("updated_at", .literal (.text "never")),
      ("status", .parameter 0)]
    let predicate : Predicate := .conjunction [.equals ⟨.base, "status"⟩ (.parameter 1)]
    let p : Plan := ⟨.update .posts assignments predicate, 2⟩
    let post (status : String) := Record.ofList [("status", .text status), ("title", .text "A")]
    let db := Database.empty.withRecords .posts [post "open", post "closed", post "open"]
    let parameters := [Datum.text "closed", .text "open"]
    p.action = .update .posts assignments predicate ∧ parameters.length = p.parameterCount ∧
      ∃ outcome changed first last,
        p.evaluate parameters ⟨0, 0⟩ db = (.ok outcome, changed) ∧
        changed.records .posts = [first, post "closed", last] ∧ outcome.stats.updated = 2 ∧
        last.get? "status" = some (.text "closed") ∧ last.get? "title" = some (.text "A") ∧
        last.get? updatedAt = some (.text "1970-01-01T00:00:00.000Z") := by
  intro assignments predicate p post db parameters
  have hAction : p.action = .update .posts assignments predicate := rfl
  have hCount : parameters.length = p.parameterCount := rfl
  obtain ⟨hFills, -, -, hRuns⟩ := evaluate_update hAction hCount ⟨0, 0⟩ db
  have hCarriedOut : ∃ outcome, (p.evaluate parameters ⟨0, 0⟩ db).1 = .ok outcome := by
    apply hFills.2
    simp [assignments, predicate, parameters, Predicate.slots, Clause.slots, Slot.Fits]
  obtain ⟨outcome, hOutcome⟩ := hCarriedOut
  obtain ⟨m, hMatcher, -, hRecords, -, hStats⟩ := hRuns outcome _ (Prod.ext hOutcome rfl)
  cases hMatcher
  obtain ⟨first, rest, -, hRest, hFirst⟩ := List.forall₂_cons_left_iff.1 hRecords
  obtain ⟨second, rest', hSecond, hRest', rfl⟩ := List.forall₂_cons_left_iff.1 hRest
  obtain ⟨last, rest'', hLast, hNone, rfl⟩ := List.forall₂_cons_left_iff.1 hRest'
  obtain rfl := List.forall₂_nil_left_iff.1 hNone
  have hOpen : Record.Becomes assignments parameters ⟨0, 0⟩ (post "open") last :=
    hLast.2 (by decide +kernel)
  obtain ⟨value, hValue, hStatus⟩ :=
    hOpen.assigned (assignments.take 2) "status" (.parameter 0) [] rfl (by simp) (by decide)
  cases hValue
  refine ⟨hAction, hCount, outcome, _, first, last, Prod.ext hOutcome rfl, ?_, ?_, hStatus, ?_, ?_⟩
  · rw [hFirst, hSecond.1 (by decide +kernel)]
  · rw [hStats]
    decide +kernel
  · rw [hOpen.others "title" (by decide +kernel) (by decide)]
    decide +kernel
  · rw [hOpen.marked]
    decide +kernel

end Plan

end RecordStore
