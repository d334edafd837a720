import Mathlib.Data.List.Perm.Basic
import RecordStore.Proofs.QueryPipeline
import RecordStore.Proofs.SameRows
import RecordStore.Proofs.StampOrder

/-!
# Sorting by written moments

A field that holds written moments sorts by time: texts are ordered by their characters, and written
moments of years 0 to 9999 compare as the moments do, to the millisecond. What a sorted query returns
is a part of the rows that it starts from, in order, so any two of its rows that hold written moments
stand in the order of time. Between them there may be rows that hold something else.

## Main results

- `Selection.chronological`: arranged rows go by non-decreasing milliseconds.
- `stamps_chronological`: the order of written moments, and of what a sorted query returns.
-/

namespace RecordStore

/-! ## Stamped records in order -/

/-- Rows with written moments come by non-decreasing milliseconds. -/
def Row.Chronological (field : Plan.Field) (rows : List Row) : Prop :=
  rows.Pairwise fun x y => ∀ a b : Moment, x.StampedAt field a → y.StampedAt field b →
    a.millisecond ≤ b.millisecond

/-- Records with written moments come by non-decreasing milliseconds. -/
def Record.Chronological (name : String) (rs : List Record) : Prop :=
  rs.Pairwise fun x y => ∀ a b : Moment, x.StampedAt name a → y.StampedAt name b →
    a.millisecond ≤ b.millisecond

theorem Plan.SortKey.millisecond_le {key : SortKey} (hKey : key.ascending = true) {x y : Row}
    (h : ¬ key.Precedes y x) {a b : Moment} (ha : x.StampedAt key.field a)
    (hb : y.StampedAt key.field b) : a.millisecond ≤ b.millisecond := by
  have hOrder : compare b.stamp a.stamp ≠ .lt := by
    rw [Precedes, ha.2, hb.2, hKey] at h
    exact h
  rw [Moment.compare_stamp hb.1 ha.1, Int.compare_ne_lt] at hOrder
  exact hOrder

namespace Plan

/-- Arranged and cut rows are some of the rows there are, by non-decreasing milliseconds. -/
theorem Selection.chronological {q : Selection} {field : Field}
    (hSort : q.sort = some ⟨field, true⟩) (rows : List Row) :
    (q.limited (q.arranged rows)).Subperm rows ∧
      Row.Chronological field (q.limited (q.arranged rows)) := by
  have hArranged := q.isArranged_arranged rows
  have hAll : Row.Chronological field (q.arranged rows) :=
    (hArranged.pairwise _ hSort).imp fun h a b ha hb => SortKey.millisecond_le rfl h ha hb
  rw [Selection.limited_eq_take]
  exact ⟨(List.take_sublist _ _).subperm.trans hArranged.perm.subperm, hAll.take⟩

/-- Only the first table is there for the columns of a query without a join. -/
theorem Scope.side_of_resolve {source : Sql.Source} {column : Sql.Column} {field : Field}
    (h : (Scope.mk source none).resolve column = .ok field) : field.side = .base := by
  rw [resolve] at h
  split at h
  · cases h
    rfl
  · obtain ⟨side, hSide, hField⟩ := bind_eq_ok_iff.1 h
    cases hField
    rw [Scope.side] at hSide
    split at hSide
    · cases hSide
      rfl
    · cases hSide

/-- The parts of the plan of a query that is sorted. -/
theorem exists_selection_of_sort {dialect : Dialect} {query : Sql.Query} {p : Plan}
    {column : Sql.Column} {ascending : Bool}
    (h : Plan.ofStatement dialect (.select query) = .ok p)
    (hSort : query.sort = some ⟨column, ascending⟩) :
    ∃ q field, p.action = .select q ∧ (Scope.ofQuery query).resolve column = .ok field ∧
      q.sort = some ⟨field, ascending⟩ ∧ q.limit = query.limit ∧
      (query.condition = none → q.predicate = .always) ∧
      (query.join = none → q.join = none) ∧
      (query.items = [.everything] → q.items = [.everything]) := by
  obtain ⟨action, hAction, hPlan⟩ := bind_eq_ok_iff.1 h
  obtain ⟨q, hQuery, hSelect⟩ := bind_eq_ok_iff.1 hAction
  obtain ⟨join, hJoin, hRest⟩ := bind_eq_ok_iff.1 hQuery
  obtain ⟨items, hItems, hRest⟩ := bind_eq_ok_iff.1 hRest
  obtain ⟨sort, hSorted, hRest⟩ := bind_eq_ok_iff.1 hRest
  obtain ⟨predicate, hPredicate, hParts⟩ := bind_eq_ok_iff.1 hRest
  cases hParts
  cases hSelect
  cases hPlan
  rw [hSort] at hSorted
  obtain ⟨key, hKey, hSorted⟩ := bind_eq_ok_iff.1 hSorted
  obtain ⟨field, hField, hKey⟩ := bind_eq_ok_iff.1 hKey
  cases hKey
  cases hSorted
  refine ⟨_, field, rfl, hField, rfl, rfl, fun hNone => ?_, fun hNone => ?_, fun hAll => ?_⟩
  · rw [hNone] at hPredicate
    exact (Except.ok.inj hPredicate).symm
  · rw [hNone] at hJoin
    exact (Except.ok.inj hJoin).symm
  · rw [hAll] at hItems
    exact (Except.ok.inj hItems).symm

/-- With the number of parameters that its plan asks for a query returns its result. -/
theorem exists_evaluate_of_select {dialect : Dialect} {query : Sql.Query} {p : Plan} {q : Selection}
    (h : Plan.ofStatement dialect (.select query) = .ok p) (hAction : p.action = .select q)
    {parameters : List Datum} (hCount : parameters.length = p.parameterCount) (clock : Moment)
    (db : Database) :
    ∃ m outcome, Matcher.ofPredicate parameters clock .everything q.predicate = .ok m ∧
      p.evaluate parameters clock db = (.ok outcome, db) ∧ outcome.rows = q.result m db := by
  have hFits := slots_fit h
  rw [hAction, ← hCount] at hFits
  obtain ⟨m, hMatcher⟩ : ∃ m,
      Matcher.ofPredicate parameters clock .everything q.predicate = .ok m :=
    exists_matcher_iff.2 hFits
  obtain ⟨action, count⟩ := p
  obtain rfl : action = .select q := hAction
  have hCommand : (Plan.mk (.select q) count).command parameters clock = .ok (.select q m) := by
    rw [command_of_select hCount, hMatcher]
    rfl
  exact ⟨m, _, hMatcher, evaluate_of_command hCommand db, rfl⟩

/-- Of whole records of one table, sorted rows are the records in the same order. -/
theorem Selection.chronological_project {db : Database} {q : Selection} {name : String}
    {rows : List Row} (hJoin : q.join = none) (hSub : rows ⊆ q.rows db)
    (h : Row.Chronological ⟨.base, name⟩ rows) :
    Record.Chronological name (rows.map (Row.project · [.everything])) := by
  have hSingle : ∀ row ∈ rows, ∃ r, row = .single r := by
    intro row hRow
    have hRows := hSub hRow
    rw [Selection.rows, hJoin] at hRows
    obtain ⟨r, -, hSelf⟩ := List.mem_map.1 hRows
    exact ⟨r, hSelf.symm⟩
  rw [Record.Chronological, List.pairwise_map]
  refine h.imp_of_mem fun {x y} hx hy hLe => ?_
  obtain ⟨r, rfl⟩ := hSingle x hx
  obtain ⟨s, rfl⟩ := hSingle y hy
  rw [Row.project_single, Row.project_single]
  exact hLe

/-- Written moments are in the order of time, to the millisecond, for years of four digits. A new
record is stamped with the time at which it is made unless that is given. So what a query returns
that is sorted upwards by such a field goes by non-decreasing milliseconds, whatever else the field
holds in other rows. -/
theorem stamps_chronological {a b : Moment} (ha : a.HasFourDigitYear) (hb : b.HasFourDigitYear)
    (hLe : a.nanoseconds ≤ b.nanoseconds) :
    Datum.order (some (.text a.stamp)) (some (.text b.stamp)) ≠ .gt ∧
      (Datum.order (some (.text a.stamp)) (some (.text b.stamp)) = .lt ↔
        a.millisecond ≠ b.millisecond) ∧
      (∀ fields, Datum.isBlank ((Record.ofList fields).get? createdAt) = true →
        (Record.created fields a).StampedAt createdAt a) ∧
      ∀ (dialect : Dialect) (query : Sql.Query) (column : Sql.Column) (p : Plan),
        query.sort = some ⟨column, true⟩ → Plan.ofStatement dialect (.select query) = .ok p →
          ∃ q field, p.action = .select q ∧ (Scope.ofQuery query).resolve column = .ok field ∧
            ∀ parameters clock db, parameters.length = p.parameterCount →
              ∃ (rows : List Row) (outcome : Outcome),
                p.evaluate parameters clock db = (.ok outcome, db) ∧
                outcome.rows = rows.map (Row.project · q.items) ∧
                rows.Subperm (q.rows db) ∧ Row.Chronological field rows ∧
                (query.condition = none → query.limit = none → rows.Perm (q.rows db)) ∧
                (query.join = none → query.items = [.everything] →
                  Record.Chronological field.name outcome.rows) := by
  have hOrder : Datum.order (some (.text a.stamp)) (some (.text b.stamp)) =
      compare a.millisecond b.millisecond := Moment.compare_stamp ha hb
  have hMono := Moment.millisecond_mono hLe
  rw [hOrder, Int.compare_eq_lt, Int.compare_ne_gt]
  refine ⟨hMono, by omega, fun fields => Record.stampedAt_created ha, ?_⟩
  intro dialect query column p hSort hPlan
  obtain ⟨q, field, hAction, hField, hKey, hLimit, hAlways, hJoin, hItems⟩ :=
    exists_selection_of_sort hPlan hSort
  refine ⟨q, field, hAction, hField, fun parameters clock db hCount => ?_⟩
  obtain ⟨m, outcome, hMatcher, hOutcome, hRows⟩ :=
    exists_evaluate_of_select hPlan hAction hCount clock db
  obtain ⟨hPart, hChronological⟩ := Selection.chronological hKey ((q.rows db).filter m.accepts)
  have hSub := hPart.trans List.filter_sublist.subperm
  refine ⟨_, outcome, hOutcome, hRows, hSub, hChronological, fun hNone hUnlimited => ?_,
    fun hNone hAll => ?_⟩
  · -- Without a condition every row is accepted, and without a limit none is cut off.
    rw [hAlways hNone] at hMatcher
    cases hMatcher
    have hPass : (q.rows db).filter (Matcher.constant true).accepts = q.rows db :=
      List.filter_eq_self.2 fun _ _ => rfl
    rw [hPass, Selection.limited, hLimit, hUnlimited]
    exact (q.isArranged_arranged (q.rows db)).perm
  · have hSide : field.side = .base := by
      rw [Scope.ofQuery, hNone] at hField
      exact Scope.side_of_resolve hField
    obtain ⟨side, name⟩ := field
    obtain rfl : side = .base := hSide
    rw [hRows, Selection.result, hItems hAll]
    exact Selection.chronological_project (hJoin hNone) hSub.subset hChronological

/-- Two posts, made in two time zones shortly before and after the start of 1970, are returned in the
order of time. -/
theorem stamps_chronological_posts :
    let early : Moment := ⟨-1, 7200⟩
    let late : Moment := ⟨500000, -18000⟩
    let query : Sql.Query :=
      { Sql.Query.wholeRecords .posts none with sort := some ⟨⟨none, "created_at"⟩, true⟩ }
    let post (clock : Moment) := Record.created [("author", .text "ann")] clock
    let db := Database.empty.withRecords .posts [post late, post early]
    let plan : Plan := ⟨.select ⟨.posts, none, .always, [.everything],
      some ⟨⟨.base, "created_at"⟩, true⟩, none⟩, 0⟩
    early.HasFourDigitYear ∧ late.HasFourDigitYear ∧ early.nanoseconds ≤ late.nanoseconds ∧
      Datum.order (some (.text early.stamp)) (some (.text late.stamp)) = .lt ∧
      (post early).StampedAt createdAt early ∧
      Plan.ofStatement .strict (.select query) = .ok plan ∧
      ∃ outcome, plan.evaluate [] ⟨0, 0⟩ db = (.ok outcome, db) ∧
        outcome.rows.length = 2 ∧ Record.Chronological createdAt outcome.rows := by
  intro early late query post db plan
  have hEarly : early.HasFourDigitYear := by decide +kernel
  have hLate : late.HasFourDigitYear := by decide +kernel
  have hLe : early.nanoseconds ≤ late.nanoseconds := by decide
  obtain ⟨-, hOrder, hCreated, hQueries⟩ := stamps_chronological hEarly hLate hLe
  have hPlan : Plan.ofStatement .strict (.select query) = .ok plan := rfl
  obtain ⟨q, field, hAction, hField, hRows⟩ := hQueries .strict query _ plan rfl hPlan
  cases hAction
  cases hField
  obtain ⟨rows, outcome, hOutcome, hRows, -, -, hPerm, hChronological⟩ := hRows [] ⟨0, 0⟩ db rfl
  refine ⟨hEarly, hLate, hLe, hOrder.2 (by decide +kernel), hCreated _ (by decide +kernel), hPlan,
    outcome, hOutcome, ?_, hChronological rfl rfl⟩
  rw [hRows, List.length_map, (hPerm rfl rfl).length_eq]
  rfl

end Plan

end RecordStore
