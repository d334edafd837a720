import RecordStore.Proofs.Parameters

/-!
# Selecting, deleting and updating with one condition

A condition that the strict dialect takes becomes the same predicate in a query, a deletion and an
update of a table, and it is filled from the same parameters as long as no assignment uses any. What
the three verbs do with it differs: a query keeps the rows that pass, a deletion keeps the others, and
an update changes records where they are. But a predicate of the strict dialect does not depend on
what an unsupported condition counts as, so all three go by one test of a record.

Hence what a deletion removes is what the query returned, and the records before it are those two
parts put together again in order (`Interleaves`).

## Main results

- `interleaves_filter`: a list is made of the members that pass and of the others, in order.
- `evaluate_same_rows`: the three verbs are about the same records.
-/

namespace RecordStore

open Plan (Predicate Action Scope Slot)
open Sql (Statement Condition Assignment)

/-- The third list has the members of the other two, each part in its own order. -/
inductive Interleaves {α : Type} : List α → List α → List α → Prop
  | nil : Interleaves [] [] []
  | left {x : α} {xs ys zs : List α} : Interleaves xs ys zs → Interleaves (x :: xs) ys (x :: zs)
  | right {y : α} {xs ys zs : List α} : Interleaves xs ys zs → Interleaves xs (y :: ys) (y :: zs)

theorem interleaves_filter {α : Type} (p : α → Bool) (xs : List α) :
    Interleaves (xs.filter p) (xs.filter fun x => !p x) xs := by
  induction xs with
  | nil => exact .nil
  | cons x xs ih =>
    cases hx : p x with
    | true =>
      rw [List.filter_cons_of_pos hx, List.filter_cons_of_neg (by simp [hx])]
      exact ih.left
    | false =>
      rw [List.filter_cons_of_neg (by simp [hx]), List.filter_cons_of_pos (by simp [hx])]
      exact ih.right

/-! ## Plans with the same condition -/

/-- The query for whole records of a table. -/
def Sql.Query.wholeRecords (table : Table) (condition : Option Condition) : Sql.Query where
  items := [.everything]
  source := ⟨table, none⟩
  join := none
  condition := condition
  sort := none
  limit := none

/-- No assignment takes its value from a parameter. -/
def Sql.Assignment.AreFixed (assignments : List Assignment) : Prop :=
  ∀ a ∈ assignments, ∀ i, a.value ≠ .placeholder i

/-- Fixed assignments need no parameters besides those of the condition. -/
theorem Sql.Statement.placeholderCount_update {assignments : List Assignment}
    (h : Assignment.AreFixed assignments) (table : Table) (condition : Option Condition) :
    (update table assignments condition).placeholderCount =
      (delete table condition).placeholderCount := by
  have hNone : ∀ a ∈ assignments, a.value.needed = 0 := by
    intro a ha
    cases hValue : a.value with
    | placeholder i => exact absurd hValue (h a ha i)
    | literal d | now => rfl
  refine Nat.le_antisymm (placeholderCount_le_iff.2 fun o ho => ?_)
    (placeholderCount_le_iff.2 fun o ho => ?_)
  · rcases List.mem_append.1 ho with hSet | hCondition
    · obtain ⟨a, ha, rfl⟩ := List.mem_map.1 hSet
      rw [hNone a ha]
      exact Nat.zero_le _
    · exact placeholderCount_le_iff.1 (Nat.le_refl _) o hCondition
  · exact placeholderCount_le_iff.1 (Nat.le_refl _) o (List.mem_append_right _ ho)

namespace Plan

variable {table : Table} {condition : Option Condition} {predicate : Predicate}

theorem ofStatement_wholeRecords
    (h : Predicate.ofCondition .strict (.single table) condition = .ok predicate) :
    Plan.ofStatement .strict (.select (.wholeRecords table condition)) =
      .ok ⟨.select ⟨table, none, predicate, [.everything], none, none⟩,
        (Statement.delete table condition).placeholderCount⟩ := by
  have hAction : Action.ofStatement .strict (.select (.wholeRecords table none)) =
      .ok (.select ⟨table, none, .always, [.everything], none, none⟩) := rfl
  exact ofStatement_eq_ok_iff.2 ⟨_, predicate, hAction, h, rfl⟩

theorem ofStatement_delete
    (h : Predicate.ofCondition .strict (.single table) condition = .ok predicate) :
    Plan.ofStatement .strict (.delete table condition) =
      .ok ⟨.delete table predicate, (Statement.delete table condition).placeholderCount⟩ :=
  ofStatement_eq_ok_iff.2 ⟨_, predicate, rfl, h, rfl⟩

theorem ofStatement_update {assignments : List Assignment}
    (h : Predicate.ofCondition .strict (.single table) condition = .ok predicate)
    (hFixed : Assignment.AreFixed assignments) :
    Plan.ofStatement .strict (.update table assignments condition) =
      .ok ⟨.update table (assignments.map assigned) predicate,
        (Statement.delete table condition).placeholderCount⟩ := by
  rw [← Statement.placeholderCount_update hFixed]
  exact ofStatement_eq_ok_iff.2 ⟨_, predicate, rfl, h, rfl⟩

/-- What an unsupported condition counts as makes no difference to a strict predicate. -/
theorem ofPredicate_strict {scope : Scope}
    (h : Predicate.ofCondition .strict scope condition = .ok predicate)
    (parameters : List Datum) (clock : Moment) (fallback fallback' : Fallback) :
    Matcher.ofPredicate parameters clock fallback predicate =
      Matcher.ofPredicate parameters clock fallback' predicate := by
  cases predicate with
  | always | conjunction clauses => rfl
  | unsupported part =>
    cases condition with
    | none => cases h
    | some c =>
      simp only [Predicate.ofCondition] at h
      split at h
      · cases h
      · next hLenient => cases hLenient
      · cases h

/-- A plan is refused with another number of parameters than it asks for. -/
theorem evaluate_of_length_ne {count : Nat} {parameters : List Datum} (h : parameters.length ≠ count)
    (action : Action) (clock : Moment) (db : Database) :
    (Plan.mk action count).evaluate parameters clock db =
      (.error (.parameterCount count parameters.length), db) := by
  refine evaluate_of_error ?_ db
  rw [command, if_neg h]

/-- With the number of parameters that it asks for a plan is carried out as its action says. -/
theorem evaluate_of_action {count : Nat} {parameters : List Datum} {action : Action}
    {clock : Moment} {c : Command} (h : parameters.length = count)
    (hAction : action.command parameters clock = .ok c) (db : Database) :
    (Plan.mk action count).evaluate parameters clock db = (.ok (c.run db).1, (c.run db).2) := by
  refine evaluate_of_command ?_ db
  rw [command, if_pos h, hAction]

/-- Fixed assignments can be filled with any parameters. -/
theorem exists_resolveFields_of_fixed {assignments : List Assignment}
    (h : Assignment.AreFixed assignments) (parameters : List Datum) (clock : Moment) :
    ∃ fields, resolveFields parameters clock (assignments.map assigned) = .ok fields := by
  rw [exists_resolveFields_iff]
  intro slot hSlot
  obtain ⟨field, hField, rfl⟩ := List.mem_map.1 hSlot
  obtain ⟨a, ha, rfl⟩ := List.mem_map.1 hField
  rw [assigned, Slot.fits_ofOperand_iff]
  cases hValue : a.value with
  | placeholder i => exact absurd hValue (h a ha i)
  | literal d | now => exact Nat.zero_le _

end Plan

/-! ## Rows of one table -/

/-- A whole record of one table is returned as it is. -/
theorem Row.project_single (r : Record) : (single r).project [.everything] = r := by
  show Record.empty.insertAll ((r.entries ++ []) ++ []) = r
  rw [List.append_nil, List.append_nil, Record.insertAll_entries]

/-- A query for whole records returns those that pass. -/
theorem Plan.Selection.result_wholeRecords (table : Table) (predicate : Predicate) (m : Matcher)
    (db : Database) :
    (Selection.mk table none predicate [.everything] none none).result m db =
      (db.records table).filter m.acceptsRecord := by
  show (((db.records table).map Row.single).filter m.accepts).map (Row.project · [.everything]) = _
  rw [List.filter_map, List.map_map]
  exact (List.map_congr_left fun r _ => Row.project_single r).trans (List.map_id _)

/-- A condition that the strict dialect takes in one of the three verbs has a predicate. -/
theorem Plan.exists_ofCondition_of_accepted {table : Table} {condition : Option Condition}
    {assignments : List Assignment}
    (h : ∃ s ∈ [Statement.select (.wholeRecords table condition), .delete table condition,
      .update table assignments condition], ∃ p, Plan.ofStatement .strict s = .ok p) :
    ∃ predicate, Predicate.ofCondition .strict (.single table) condition = .ok predicate := by
  obtain ⟨s, hVerb, p, hPlan⟩ := h
  obtain ⟨-, predicate, -, hPredicate, -⟩ := ofStatement_eq_ok_iff.1 hPlan
  refine ⟨predicate, ?_⟩
  simp only [List.mem_cons, List.not_mem_nil, or_false] at hVerb
  rcases hVerb with rfl | rfl | rfl
  · exact hPredicate
  · exact hPredicate
  · exact hPredicate

/-- A query for whole records, a deletion and an update with fixed values have the same condition. If
the strict dialect takes one of them, it takes all three, and they are about the same records. With
another number of parameters than the condition has all three are refused alike. Otherwise one test
tells which records are returned, which are removed and which are changed. The table before is made
of the records that the query returned and of those that the deletion left, in order, and no other
table is changed. -/
theorem evaluate_same_rows {table : Table} {condition : Option Condition}
    {assignments : List Assignment} (hFixed : Assignment.AreFixed assignments)
    (hAccepted : ∃ s ∈ [Statement.select (.wholeRecords table condition),
      .delete table condition, .update table assignments condition],
      ∃ p, Plan.ofStatement .strict s = .ok p) :
    ∃ query deletion update,
      Plan.ofStatement .strict (.select (.wholeRecords table condition)) = .ok query ∧
      Plan.ofStatement .strict (.delete table condition) = .ok deletion ∧
      Plan.ofStatement .strict (.update table assignments condition) = .ok update ∧
      ∀ parameters clock db,
        (parameters.length ≠ query.parameterCount →
          let refused := .error (.parameterCount query.parameterCount parameters.length)
          query.evaluate parameters clock db = (refused, db) ∧
          deletion.evaluate parameters clock db = (refused, db) ∧
          update.evaluate parameters clock db = (refused, db)) ∧
        (parameters.length = query.parameterCount →
          ∃ (passes : Record → Bool) (fields : List (String × Datum))
            (selected deleted updated : Outcome) (left changed : Database),
            query.evaluate parameters clock db = (.ok selected, db) ∧
            deletion.evaluate parameters clock db = (.ok deleted, left) ∧
            update.evaluate parameters clock db = (.ok updated, changed) ∧
            selected.rows = (db.records table).filter passes ∧
            left.records table = ((db.records table).filter fun r => !passes r) ∧
            changed.records table = ((db.records table).map fun r =>
              if passes r then r.updated fields clock else r) ∧
            Interleaves selected.rows (left.records table) (db.records table) ∧
            selected.stats.returned = selected.rows.length ∧
            deleted.stats.deleted = selected.stats.returned ∧
            updated.stats.updated = selected.stats.returned ∧
            ∀ other, other ≠ table →
              left.records other = db.records other ∧
              changed.records other = db.records other) := by
  obtain ⟨predicate, hCondition⟩ := Plan.exists_ofCondition_of_accepted hAccepted
  have hQuery := Plan.ofStatement_wholeRecords hCondition
  have hDeletion := Plan.ofStatement_delete hCondition
  have hUpdate := Plan.ofStatement_update hCondition hFixed
  refine ⟨_, _, _, hQuery, hDeletion, hUpdate, fun parameters clock db => ⟨fun hCount => ?_,
    fun hCount => ?_⟩⟩
  · exact ⟨Plan.evaluate_of_length_ne hCount _ clock db,
      Plan.evaluate_of_length_ne hCount _ clock db, Plan.evaluate_of_length_ne hCount _ clock db⟩
  · have hFits := Plan.slots_fit hDeletion
    rw [← hCount] at hFits
    obtain ⟨m, hNothing⟩ : ∃ m, Matcher.ofPredicate parameters clock .nothing predicate = .ok m :=
      exists_matcher_iff.2 hFits
    have hEverything : Matcher.ofPredicate parameters clock .everything predicate = .ok m :=
      (Plan.ofPredicate_strict hCondition parameters clock _ _).trans hNothing
    obtain ⟨fields, hFields⟩ := Plan.exists_resolveFields_of_fixed hFixed parameters clock
    have hSelected := Plan.Selection.result_wholeRecords table predicate m db
    refine ⟨m.acceptsRecord, fields, _, _, _, _, _,
      Plan.evaluate_of_action hCount (c := .select _ m) ?_ db,
      Plan.evaluate_of_action hCount (c := .delete table m) ?_ db,
      Plan.evaluate_of_action hCount (c := .update table m fields clock) ?_ db,
      hSelected, Command.records_run_delete table m db,
      Command.records_run_update table m fields clock db, ?_, rfl, ?_, ?_, fun other hOther => ?_⟩
    · rw [Action.command, hEverything]
      rfl
    · rw [Action.command, hNothing]
      rfl
    · rw [Action.command, hFields, hNothing]
      rfl
    · rw [Command.records_run_delete]
      show Interleaves (Plan.Selection.result _ m db) _ _
      rw [hSelected]
      exact interleaves_filter _ _
    · show (db.records table).countP m.acceptsRecord = (Plan.Selection.result _ m db).length
      rw [hSelected, List.countP_eq_length_filter]
    · show (db.records table).countP m.acceptsRecord = (Plan.Selection.result _ m db).length
      rw [hSelected, List.countP_eq_length_filter]
    · have hTarget (c : Command) (h : c.target? = some table) : c.target? ≠ some other :=
        fun hEq => hOther (Option.some.inj (h.symm.trans hEq)).symm
      exact ⟨Command.records_run_of_ne (hTarget (.delete table m) rfl) db,
        Command.records_run_of_ne (hTarget (.update table m fields clock) rfl) db⟩

/-- Of three posts two are by one author, and the same two are found and deleted by that name. -/
theorem evaluate_same_rows_posts :
    let condition := some (Condition.compare ⟨⟨some "POSTS", "author"⟩, .equal, .placeholder 0⟩)
    let assignments : List Assignment := [⟨"author", .literal (.text "bob")⟩, ⟨"seen", .now⟩]
    let deletion : Plan :=
      ⟨.delete .posts (.conjunction [.equals ⟨.base, "author"⟩ (.parameter 0)]), 1⟩
    let post (author : String) := Record.ofList [("author", .text author)]
    let db := Database.empty.withRecords .posts [post "ann", post "bob", post "ann"]
    Assignment.AreFixed assignments ∧
      Plan.ofStatement .strict (.delete .posts condition) = .ok deletion ∧
      ∃ query selected deleted left,
        Plan.ofStatement .strict (.select (.wholeRecords .posts condition)) = .ok query ∧
        query.evaluate [.text "ann"] ⟨0, 0⟩ db = (.ok selected, db) ∧
        deletion.evaluate [.text "ann"] ⟨0, 0⟩ db = (.ok deleted, left) ∧
        deleted.stats.deleted = 2 ∧ selected.rows.length = 2 ∧
        Interleaves selected.rows (left.records .posts) (db.records .posts) := by
  intro condition assignments deletion post db
  have hFixed : Assignment.AreFixed assignments := by
    intro a ha i
    simp only [assignments, List.mem_cons, List.not_mem_nil, or_false] at ha
    rcases ha with rfl | rfl
    · exact nofun
    · exact nofun
  have hDeletion : Plan.ofStatement .strict (.delete .posts condition) = .ok deletion :=
    ok_of_toOption (by decide +kernel)
  have hAccepted : ∃ s ∈ [Statement.select (.wholeRecords .posts condition),
      .delete .posts condition, .update .posts assignments condition],
      ∃ p, Plan.ofStatement .strict s = .ok p :=
    ⟨_, List.mem_cons_of_mem _ List.mem_cons_self, deletion, hDeletion⟩
  obtain ⟨query, _, _, hQuery, hSame, _, hRuns⟩ := evaluate_same_rows hFixed hAccepted
  obtain rfl := Except.ok.inj (hDeletion.symm.trans hSame)
  have hCount : query.parameterCount = 1 := by
    obtain rfl := Except.ok.inj (hQuery.symm.trans (Plan.ofStatement_wholeRecords rfl))
    decide +kernel
  obtain ⟨passes, fields, selected, deleted, updated, left, changed, hSelected, hDeleted, -, -, -, -,
    hParts, hReturned, hRemoved, -⟩ := (hRuns [.text "ann"] ⟨0, 0⟩ db).2 hCount.symm
  have hTwo : (deletion.evaluate [.text "ann"] ⟨0, 0⟩ db).1.toOption.map (·.stats.deleted) =
      some 2 := by decide +kernel
  rw [hDeleted] at hTwo
  have hTwo : deleted.stats.deleted = 2 := Option.some.inj hTwo
  refine ⟨hFixed, hDeletion, query, selected, deleted, left, hQuery, hSelected, hDeleted, hTwo, ?_,
    hParts⟩
  rw [← hReturned, ← hRemoved, hTwo]

end RecordStore
