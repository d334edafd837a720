import Mathlib.Data.List.Induction
import RecordStore.Proofs.SameRows
import RecordStore.Proofs.UpdatedRecords
import RecordStore.Proofs.WrittenTokens

/-!
# What an insertion adds

An insertion makes one record and puts it at the end of its table. The record has the columns that
are listed, each with the last value given for it, and the two fields that tell when it was made and
changed. These two have the time of the statement if nothing is given for them, or nothing but null
or the empty text. As for an update, this leaves no choice (`Record.Begins`).

Every value is the same as itself, so a query for any field of the new record with its value finds
the record, behind those that it found before. A field may have any name, which is written between
marks in the text of the query.

## Main results

- `get?_created`: the fields of a record that is made of a list of values.
- `ofText_asking`: the query for a field is read from its text.
- `evaluate_insert`: what an insertion adds, and where queries find it.
-/

namespace RecordStore

open Plan (Slot Predicate Selection)
open Sql (Statement Operand Lexeme)

variable {parameters : List Datum} {clock : Moment}

/-! ## The new record -/

/-- The fields that are filled in with the time where they are blank. -/
def isTime (name : String) : Bool := name = createdAt || name = updatedAt

namespace Record

/-- A name that is listed has a last place in the list. -/
theorem exists_last_of_mem {fields : List (String × Datum)} {name : String}
    (h : name ∈ fields.map Prod.fst) :
    ∃ front value back, fields = front ++ (name, value) :: back ∧ name ∉ back.map Prod.fst := by
  induction fields using List.reverseRecOn with
  | nil => cases h
  | append_singleton fields field ih =>
    by_cases hName : name = field.1
    · exact ⟨fields, field.2, [], by rw [hName], List.not_mem_nil⟩
    · have hFront : name ∈ fields.map Prod.fst := by
        rw [List.map_append, List.mem_append] at h
        exact h.resolve_right fun hLast => hName (List.mem_singleton.1 hLast)
      obtain ⟨front, value, back, hFields, hBack⟩ := ih hFront
      refine ⟨front, value, back ++ [field], by rw [hFields, List.append_assoc]; rfl, ?_⟩
      rw [List.map_append, List.mem_append, not_or]
      exact ⟨hBack, fun hLast => hName (List.mem_singleton.1 hLast)⟩

theorem has_ofList_iff {fields : List (String × Datum)} {name : String} :
    (ofList fields).has name = true ↔ name ∈ fields.map Prod.fst := by
  by_cases hMem : name ∈ fields.map Prod.fst
  · obtain ⟨front, value, back, rfl, hBack⟩ := exists_last_of_mem hMem
    have hGet : (ofList (front ++ (name, value) :: back)).get? name = some value :=
      get?_insertAll_of_last hBack value empty
    rw [has, hGet]
    exact iff_of_true rfl hMem
  · have hGet : (ofList fields).get? name = none := get?_insertAll_of_not_mem hMem empty
    rw [has, hGet]
    exact iff_of_false Bool.false_ne_true hMem

theorem get?_stamped (r : Record) (clock : Moment) (name key : String) :
    (r.stamped clock name).get? key =
      if key = name ∧ Datum.isBlank (r.get? key) then some (.text clock.stamp) else r.get? key := by
  by_cases hKey : key = name
  · subst hKey
    rw [stamped]
    by_cases hBlank : Datum.isBlank (r.get? key) = true
    · rw [if_pos hBlank, if_pos ⟨rfl, hBlank⟩, get?_insert_self]
    · rw [if_neg hBlank, if_neg fun h => hBlank h.2]
  · rw [if_neg fun h => hKey h.1, stamped]
    split
    · rw [get?_insert, if_neg hKey]
    · rfl

/-- A new record has the fields of the list, and the time where it has none for it. -/
theorem get?_created (fields : List (String × Datum)) (clock : Moment) (name : String) :
    (created fields clock).get? name =
      if isTime name ∧ Datum.isBlank ((ofList fields).get? name) then some (.text clock.stamp)
      else (ofList fields).get? name := by
  have hDiffer : createdAt ≠ updatedAt := by decide
  show (((ofList fields).stamped clock createdAt).stamped clock updatedAt).get? name = _
  rw [get?_stamped, get?_stamped]
  by_cases hCreated : name = createdAt
  · have hUpdated : name ≠ updatedAt := fun h => hDiffer (hCreated.symm.trans h)
    simp [isTime, hCreated, hDiffer]
  · simp [isTime, hCreated]

/-- The record that values for columns make at a time. -/
structure Begins (given : List (String × Operand)) (parameters : List Datum) (clock : Moment)
    (r : Record) : Prop where
  fields : ∀ name, r.has name = true ↔ name ∈ given.map Prod.fst ∨ isTime name = true
  values : ∀ before name operand after, given = before ++ (name, operand) :: after →
    name ∉ after.map Prod.fst →
      ∃ value, (Slot.ofOperand operand).resolve parameters clock = .ok value ∧
        r.get? name = some
          (if isTime name ∧ Datum.isBlank (some value) then .text clock.stamp else value)
  times : ∀ name, isTime name = true → name ∉ given.map Prod.fst →
    r.get? name = some (.text clock.stamp)

theorem begins_created {given : List (String × Operand)} {fields : List (String × Datum)}
    (h : Plan.resolveFields parameters clock
      (given.map fun field => (field.1, Slot.ofOperand field.2)) = .ok fields) :
    Begins given parameters clock (created fields clock) := by
  have hNames : fields.map Prod.fst = given.map Prod.fst := by
    rw [map_fst_of_resolveFields h, List.map_map]
    rfl
  have hMissing (name : String) (hName : name ∉ given.map Prod.fst) :
      (ofList fields).get? name = none :=
    get?_insertAll_of_not_mem (hNames ▸ hName) empty
  refine ⟨fun name => ?_, fun before name operand after hGiven hLast => ?_,
    fun name hTime hName => ?_⟩
  · rw [has, get?_created]
    by_cases hMem : name ∈ given.map Prod.fst
    · have hHas : (ofList fields).has name = true := has_ofList_iff.2 (hNames ▸ hMem)
      refine iff_of_true ?_ (.inl hMem)
      split
      · rfl
      · exact hHas
    · rw [hMissing name hMem]
      by_cases hTime : isTime name = true
      · rw [if_pos ⟨hTime, rfl⟩]
        exact iff_of_true rfl (.inr hTime)
      · rw [if_neg fun h => hTime h.1]
        exact iff_of_false Bool.false_ne_true (not_or.2 ⟨hMem, hTime⟩)
  · rw [hGiven, List.map_append, List.map_cons] at h
    obtain ⟨front, value, back, hValue, rfl, hBack⟩ := exists_resolveFields_append h
    have hUnset : name ∉ back.map Prod.fst := by
      rw [hBack, List.map_map]
      exact hLast
    have hGet : (ofList (front ++ (name, value) :: back)).get? name = some value :=
      get?_insertAll_of_last hUnset value empty
    refine ⟨value, hValue, ?_⟩
    rw [get?_created, hGet]
    split
    · rfl
    · rfl
  · rw [get?_created, hMissing name hName, if_pos ⟨hTime, rfl⟩]

end Record

/-! ## Queries for a field -/

/-- The query for the whole records of a table that have a value in a field. -/
def Sql.Statement.asking (table : Table) (name : String) : Statement :=
  .select (.wholeRecords table (some (.compare ⟨⟨none, name⟩, .equal, .placeholder 0⟩)))

/-- The tokens of that query, with the name of the field between marks. -/
def Sql.askingTokens (table : Table) (name : String) : List Lexeme :=
  [.name "SELECT", .star, .name "FROM", .name table.name, .name "WHERE", .quotedName name,
    .comparator .equal, .placeholder].map fun token => ⟨token, .double⟩

/-- The text of that query. -/
def Sql.askingText (table : Table) (name : String) : String :=
  String.ofList (Lexeme.write (askingTokens table name))

theorem Sql.ofText_asking (table : Table) (name : String) :
    Statement.ofText (askingText table name) = .ok (.asking table name) := by
  have hProper : (askingTokens table name).all (·.token.isProper) = true := by
    cases table <;> rfl
  have hTokens :
      tokens (askingText table name) = .ok (Lexeme.placed 0 (askingTokens table name)) := by
    rw [tokens, askingText, String.toList_ofList]
    exact scan_write (List.all_eq_true.1 hProper) 0
  have hRead : Statement.ofTokens (Lexeme.placed 0 (askingTokens table name)) =
      .ok (.asking table name) := by
    cases table <;> rfl
  rw [Statement.ofText, hTokens]
  exact hRead

/-- Whether a field of a record has a value; a missing one counts as null. -/
def Record.answers (r : Record) (name : String) (value : Datum) : Bool :=
  ((r.get? name).getD .null).sameValue value

theorem Record.answers_get? {r : Record} {name : String} {value : Datum}
    (h : r.get? name = some value) : r.answers name value = true := by
  rw [answers, h]
  exact value.sameValue_refl

namespace Plan

/-- The plan of the query for a field, which is the same in both dialects. -/
def asking (table : Table) (name : String) : Plan :=
  ⟨.select ⟨table, none, .conjunction [.equals ⟨.base, name⟩ (.parameter 0)], [.everything], none,
    none⟩, 1⟩

theorem ofText_asking (dialect : Dialect) (table : Table) (name : String) :
    Plan.ofText dialect (Sql.askingText table name) = .ok (asking table name) := by
  refine ofText_eq_ok_iff.2 (.inl ⟨_, Sql.ofText_asking table name, ?_⟩)
  cases dialect <;> rfl

/-- The query for a field returns the records with the value, in order. -/
theorem evaluate_asking (table : Table) (name : String) (value : Datum) (clock : Moment)
    (db : Database) :
    ∃ outcome, (asking table name).evaluate [value] clock db = (.ok outcome, db) ∧
      outcome.rows = (db.records table).filter (·.answers name value) := by
  let selection : Selection := ⟨table, none, .conjunction [.equals ⟨.base, name⟩ (.parameter 0)],
    [.everything], none, none⟩
  let m : Matcher := .all [.equals ⟨.base, name⟩ value]
  have hRun : (asking table name).evaluate [value] clock db =
      (.ok ((Command.select selection m).run db).1, db) := evaluate_of_command rfl db
  refine ⟨_, hRun, ?_⟩
  show selection.result m db = _
  rw [Selection.result_wholeRecords]
  apply List.filter_congr
  intro r _
  show (((r.get? name).getD .null).sameValue value && true) = r.answers name value
  rw [Bool.and_true, Record.answers]

/-- An insertion with a value for every column has a plan in both dialects. With as many parameters
as it asks for, it is carried out: one record, made of the values and the time, is put at the end
of the table, and no other table is changed. The query for any field of that record, with the value
that the field has, then returns what it returned before and behind it the record. -/
theorem evaluate_insert {columns : List String} {values : List Operand}
    (hBalanced : columns.length = values.length) (dialect : Dialect) (table : Table) :
    ∃ insertion, Plan.ofStatement dialect (.insert table columns values) = .ok insertion ∧
      ∀ parameters clock db, parameters.length = insertion.parameterCount →
        ∃ outcome changed r,
          insertion.evaluate parameters clock db = (.ok outcome, changed) ∧
          Record.Begins (columns.zip values) parameters clock r ∧
          (columns.zip values).map Prod.fst = columns ∧
          changed.records table = db.records table ++ [r] ∧
          (∀ other, other ≠ table → changed.records other = db.records other) ∧
          outcome.stats = { inserted := 1 } ∧
          ∀ name value, r.get? name = some value →
            ∃ query, Plan.ofText dialect (Sql.askingText table name) = .ok query ∧
              ∀ later, ∃ before after,
                query.evaluate [value] later db = (.ok before, db) ∧
                query.evaluate [value] later changed = (.ok after, changed) ∧
                after.rows = before.rows ++ [r] := by
  have hPlan : Plan.ofStatement dialect (.insert table columns values) =
      .ok ⟨.insert table (columns.zip (values.map Slot.ofOperand)),
        (Statement.insert table columns values).placeholderCount⟩ := rfl
  refine ⟨_, hPlan, fun parameters clock db hCount => ?_⟩
  have hPairs : columns.zip (values.map Slot.ofOperand) =
      (columns.zip values).map fun field => (field.1, Slot.ofOperand field.2) :=
    List.zip_map_right
  have hFit := slots_fit hPlan
  rw [← hCount] at hFit
  obtain ⟨fields, hFields⟩ : ∃ fields, resolveFields parameters clock
      (columns.zip (values.map Slot.ofOperand)) = .ok fields := exists_resolveFields_iff.2 hFit
  let r := Record.created fields clock
  have hCommand : (Action.insert table (columns.zip (values.map Slot.ofOperand))).command parameters
      clock = .ok (.insert table r) := by
    rw [Action.command, hFields]
    rfl
  have hRun := evaluate_of_action hCount hCommand db
  have hTable : (db.append table r).records table = db.records table ++ [r] :=
    Command.records_run_insert table r db
  refine ⟨_, _, r, hRun, Record.begins_created (hPairs ▸ hFields), ?_, hTable, ?_, rfl, ?_⟩
  · exact List.map_fst_zip (Nat.le_of_eq hBalanced)
  · intro other hOther
    have hTarget : (Command.insert table r).target? ≠ some other :=
      fun h => hOther (Option.some.inj h).symm
    exact Command.records_run_of_ne hTarget db
  · intro name value hValue
    refine ⟨asking table name, ofText_asking dialect table name, fun later => ?_⟩
    obtain ⟨before, hBefore, hRows⟩ := evaluate_asking table name value later db
    obtain ⟨after, hAfter, hMore⟩ := evaluate_asking table name value later (db.append table r)
    refine ⟨before, after, hBefore, hAfter, ?_⟩
    have hNew : [r].filter (·.answers name value) = [r] :=
      List.filter_eq_self.2 fun other hOther =>
        List.mem_singleton.1 hOther ▸ Record.answers_get? hValue
    rw [hMore, hTable, List.filter_append, hRows, hNew]

/-- The identifier is given twice, the time of making is empty and the name is null. A user without
a name is found by that null before, and the new user behind it afterwards. -/
theorem evaluate_insert_nameless :
    let columns := ["id", "created_at", "id", "name"]
    let values : List Operand :=
      [.literal (.text "x"), .literal (.text ""), .placeholder 0, .literal .null]
    let old := Record.ofList [("id", .integer 6)]
    let db := Database.empty.withRecords .users [old, Record.ofList [("name", .text "Bob")]]
    columns.length = values.length ∧
      ∃ insertion, Plan.ofStatement .strict (.insert .users columns values) = .ok insertion ∧
        [Datum.integer 7].length = insertion.parameterCount ∧
        ∃ outcome changed r query after,
          insertion.evaluate [.integer 7] ⟨0, 0⟩ db = (.ok outcome, changed) ∧
          r.get? "id" = some (.integer 7) ∧ r.get? "name" = some .null ∧
          r.get? createdAt = some (.text "1970-01-01T00:00:00.000Z") ∧
          Plan.ofText .strict "SELECT * FROM users WHERE \"name\" = ?" = .ok query ∧
          query.evaluate [.null] ⟨0, 0⟩ changed = (.ok after, changed) ∧ after.rows = [old, r] := by
  intro columns values old db
  have hBalanced : columns.length = values.length := rfl
  obtain ⟨insertion, hPlan, hRuns⟩ := evaluate_insert hBalanced .strict .users
  have hCount : [Datum.integer 7].length = insertion.parameterCount := by
    cases hPlan
    decide
  obtain ⟨outcome, changed, r, hRun, hBegins, -, -, -, -, hFound⟩ :=
    hRuns [.integer 7] ⟨0, 0⟩ db hCount
  obtain ⟨id, hId, hGetId⟩ := hBegins.values ((columns.zip values).take 2) "id" (.placeholder 0)
    [("name", .literal .null)] rfl (by decide)
  obtain ⟨time, hTime, hGetTime⟩ := hBegins.values ((columns.zip values).take 1) createdAt
    (.literal (.text "")) ((columns.zip values).drop 2) rfl (by decide)
  obtain ⟨name, hName, hGetName⟩ := hBegins.values ((columns.zip values).take 3) "name"
    (.literal .null) [] rfl (by decide)
  cases hId
  cases hTime
  cases hName
  obtain ⟨query, hQuery, hEvaluate⟩ := hFound "name" .null hGetName
  obtain ⟨before, after, hBefore, hAfter, hRows⟩ := hEvaluate ⟨0, 0⟩
  have hText : Sql.askingText .users "name" = "SELECT * FROM users WHERE \"name\" = ?" := by
    decide +kernel
  rw [hText] at hQuery
  refine ⟨hBalanced, insertion, hPlan, hCount, outcome, changed, r, query, after, hRun, hGetId,
    hGetName, ?_, hQuery, hAfter, ?_⟩
  · rw [hGetTime]
    decide +kernel
  · have hOld : before.rows = [old] := by
      obtain rfl := Except.ok.inj (hQuery.symm.trans (hText ▸ ofText_asking .strict .users "name"))
      obtain ⟨found, hEvaluated, hFiltered⟩ := evaluate_asking .users "name" .null ⟨0, 0⟩ db
      obtain rfl := Except.ok.inj (Prod.mk.inj (hBefore.symm.trans hEvaluated)).1
      rw [hFiltered]
      decide +kernel
    rw [hRows, hOld]
    rfl

end Plan

end RecordStore
