import RecordStore.Evaluation
import RecordStore.Proofs.Binding
import RecordStore.Proofs.ValueOrder

/-!
# What a query returns

A query is described here step by step and without its functions. The rows it starts from are the
records of its table, each with its first partner if there is a join (`Paired`); of these the ones
that pass are kept; they are put in order without losing, adding or repeating any, and rows that tie
stay as they were (`IsArranged`); and the first of them are projected.

`evaluate_select` says that evaluation yields just this. Sorting is the step with an argument: the
order of values is a total preorder, and so is the reversed one, hence a merge sort is sorted and
keeps every sorted part of its input. The rows that tie with a given row are such a part, whichever
way the sort goes.

## Main results

- `paired_join`: a join finds the first partner of every record that has one.
- `isArranged_arranged`: arranged rows are sorted, are the rows that passed, and keep ties in place.
- `evaluate_select`: a query evaluates to the result of these steps.
-/

namespace RecordStore

open Plan (Selection SortKey)

/-! ## The rows a query starts from -/

/-- A record is the first partner of another: its key is there and of the same value as the other's,
which is not null, and the key of no record in front of it is. -/
def Row.IsFirstPartner (join : Plan.Join) (others : List Record) (r partner : Record) : Prop :=
  ∃ key before after, r.get? join.baseKey = some key ∧ key.isNull = false ∧
    others = before ++ partner :: after ∧ hasKey join.joinedKey key partner = true ∧
    ∀ other ∈ before, hasKey join.joinedKey key other = false

/-- Rows that keep the records with a partner, in order, each with the first one. -/
inductive Row.Paired (join : Plan.Join) (others : List Record) : List Record → List Row → Prop
  | nil : Paired join others [] []
  | keep {r partner : Record} {rs : List Record} {rows : List Row} :
    IsFirstPartner join others r partner → Paired join others rs rows →
      Paired join others (r :: rs) (⟨r, some partner⟩ :: rows)
  | drop {r : Record} {rs : List Record} {rows : List Row} :
    (∀ partner, ¬ IsFirstPartner join others r partner) → Paired join others rs rows →
      Paired join others (r :: rs) rows

namespace Row

variable {join : Plan.Join} {others : List Record} {r partner : Record}

theorem pair?_eq_some_iff {row : Row} :
    pair? join others r = some row ↔
      ∃ partner, IsFirstPartner join others r partner ∧ row = ⟨r, some partner⟩ := by
  constructor
  · intro h
    obtain ⟨key, hKey, hRow⟩ := Option.bind_eq_some_iff.1 h
    obtain ⟨hGet, hNotNull⟩ := Option.filter_eq_some_iff.1 hKey
    obtain ⟨partner, hFind, hRow⟩ := Option.bind_eq_some_iff.1 hRow
    obtain ⟨hHas, before, after, hOthers, hBefore⟩ := List.find?_eq_some_iff_append.1 hFind
    cases hRow
    exact ⟨partner, ⟨key, before, after, hGet, by simpa using hNotNull, hOthers, hHas,
      fun other hMem => by simpa using hBefore other hMem⟩, rfl⟩
  · rintro ⟨partner, ⟨key, before, after, hGet, hNotNull, hOthers, hHas, hBefore⟩, rfl⟩
    have hFind : others.find? (hasKey join.joinedKey key) = some partner :=
      List.find?_eq_some_iff_append.2
        ⟨hHas, before, after, hOthers, fun other hMem => by simp [hBefore other hMem]⟩
    simp [pair?, hGet, Option.filter, hNotNull, hFind]

theorem pair?_eq_none_iff :
    pair? join others r = none ↔ ∀ partner, ¬ IsFirstPartner join others r partner := by
  rw [Option.eq_none_iff_forall_ne_some]
  constructor
  · intro h partner hPartner
    exact h ⟨r, some partner⟩ (pair?_eq_some_iff.2 ⟨partner, hPartner, rfl⟩)
  · intro h row hRow
    obtain ⟨partner, hPartner, rfl⟩ := pair?_eq_some_iff.1 hRow
    exact h partner hPartner

/-- A join finds the first partner of every record that has one. -/
theorem paired_join (join : Plan.Join) (others records : List Record) :
    Paired join others records (Row.join join records others) := by
  induction records with
  | nil => exact .nil
  | cons r records ih =>
    cases hPair : pair? join others r with
    | none =>
      rw [Row.join, List.filterMap_cons_none hPair]
      exact .drop (pair?_eq_none_iff.1 hPair) ih
    | some row =>
      obtain ⟨partner, hPartner, rfl⟩ := pair?_eq_some_iff.1 hPair
      rw [Row.join, List.filterMap_cons_some hPair]
      exact .keep hPartner ih

end Row

/-- The rows that a query starts from. -/
def Plan.Selection.StartsFrom (q : Selection) (db : Database) (rows : List Row) : Prop :=
  match q.join with
  | none => rows = (db.records q.table).map Row.single
  | some join => Row.Paired join (db.records join.table) (db.records q.table) rows

theorem Plan.Selection.startsFrom_rows (q : Selection) (db : Database) :
    q.StartsFrom db (q.rows db) := by
  rw [StartsFrom, rows]
  cases q.join with
  | none => rfl
  | some join => exact Row.paired_join join _ _

/-! ## Sorting -/

namespace Plan.SortKey

/-- A row comes strictly before another. -/
def Precedes (key : SortKey) (a b : Row) : Prop :=
  Datum.order (a.field key.field) (b.field key.field) = if key.ascending then .lt else .gt

/-- Whether the fields of two rows compare equal. -/
def ties (key : SortKey) (a b : Row) : Bool :=
  Datum.order (a.field key.field) (b.field key.field) == .eq

variable {key : SortKey} {a b c : Row}

theorem le_iff_not_precedes : key.le a b = true ↔ ¬ key.Precedes b a := by
  rw [le, Precedes, Datum.order_swap (a.field key.field) (b.field key.field)]
  cases key.ascending <;>
    cases Datum.order (a.field key.field) (b.field key.field) <;> decide

theorem le_trans (hab : key.le a b = true) (hbc : key.le b c = true) : key.le a c = true := by
  rw [le] at hab hbc ⊢
  cases hAscending : key.ascending with
  | true =>
    simp only [hAscending, if_true] at hab hbc ⊢
    exact Std.TransCmp.isLE_trans hab hbc
  | false =>
    simp only [hAscending, Bool.false_eq_true, if_false] at hab hbc ⊢
    exact Std.TransCmp.isGE_trans hab hbc

theorem le_total (a b : Row) : (key.le a b || key.le b a) = true := by
  rw [le, le, Datum.order_swap (a.field key.field) (b.field key.field)]
  cases key.ascending <;>
    cases Datum.order (a.field key.field) (b.field key.field) <;> decide

/-- Rows that tie with one row may stand before each other. -/
theorem le_of_ties {r : Row} (ha : key.ties r a = true) (hb : key.ties r b = true) :
    key.le a b = true := by
  rw [ties, beq_iff_eq] at ha hb
  have hEq : Datum.order (a.field key.field) (b.field key.field) = .eq :=
    Std.TransCmp.eq_trans (Std.OrientedCmp.eq_symm ha) hb
  rw [le, hEq]
  cases key.ascending <;> rfl

end Plan.SortKey

/-- Sorting keeps a part of a list that is sorted already, so it keeps all members that satisfy a
condition if these may stand before each other. -/
theorem filter_mergeSort_of_pairwise {α : Type} {le : α → α → Bool} {p : α → Bool} {xs : List α}
    (hTrans : ∀ a b c, le a b = true → le b c = true → le a c = true)
    (hTotal : ∀ a b, (le a b || le b a) = true)
    (hSorted : (xs.filter p).Pairwise fun a b => le a b = true) :
    (xs.mergeSort le).filter p = xs.filter p := by
  have hSub : (xs.filter p).Sublist (xs.mergeSort le) :=
    List.sublist_mergeSort hTrans hTotal hSorted List.filter_sublist
  have hFiltered : (xs.filter p).Sublist ((xs.mergeSort le).filter p) := by
    simpa [List.filter_filter] using hSub.filter p
  have hLength : ((xs.mergeSort le).filter p).length = (xs.filter p).length :=
    ((List.mergeSort_perm xs le).filter p).length_eq
  exact (hFiltered.eq_of_length hLength.symm).symm

/-- Rows in the order that a query asks for: no row is lost, added or repeated, none stands in front
of one that precedes it, and those that tie stay as they were. -/
structure Plan.Selection.IsArranged (q : Selection) (rows arranged : List Row) : Prop where
  unsorted : q.sort = none → arranged = rows
  perm : arranged.Perm rows
  pairwise : ∀ key, q.sort = some key → arranged.Pairwise fun a b => ¬ key.Precedes b a
  stable : ∀ key, q.sort = some key → ∀ r, arranged.filter (key.ties r) = rows.filter (key.ties r)

theorem Plan.Selection.isArranged_arranged (q : Selection) (rows : List Row) :
    q.IsArranged rows (q.arranged rows) := by
  rw [arranged]
  cases hSort : q.sort with
  | none => exact ⟨fun _ => rfl, .refl _, by simp [hSort], by simp [hSort]⟩
  | some key =>
    have hTrans : ∀ a b c, key.le a b = true → key.le b c = true → key.le a c = true :=
      fun _ _ _ => SortKey.le_trans
    refine ⟨by simp [hSort], List.mergeSort_perm rows key.le, ?_, ?_⟩
    · intro key' hKey
      obtain rfl : key = key' := Option.some.inj (hSort.symm.trans hKey)
      exact (List.pairwise_mergeSort hTrans SortKey.le_total rows).imp SortKey.le_iff_not_precedes.1
    · intro key' hKey r
      obtain rfl : key = key' := Option.some.inj (hSort.symm.trans hKey)
      have hTied : (rows.filter (key.ties r)).Pairwise fun a b => key.le a b = true :=
        List.pairwise_of_forall_mem_list fun a ha b hb =>
          SortKey.le_of_ties (List.mem_filter.1 ha).2 (List.mem_filter.1 hb).2
      exact filter_mergeSort_of_pairwise hTrans SortKey.le_total hTied

/-! ## The whole of a query -/

namespace Plan

/-- The query without its limit. -/
def Selection.unlimited (q : Selection) : Selection := { q with limit := none }

namespace Selection

theorem limited_eq_take (q : Selection) (rows : List Row) :
    q.limited rows = rows.take (q.limit.elim rows.length (min · rows.length)) := by
  rw [limited]
  cases q.limit with
  | none => simp
  | some n => simp [List.take_eq_take_min]

/-- A limit cuts off rows at the end. -/
theorem result_prefix_unlimited (q : Selection) (m : Matcher) (db : Database) :
    q.result m db <+: q.unlimited.result m db := by
  refine List.IsPrefix.map _ ?_
  rw [limited_eq_take]
  exact List.take_prefix _ _

end Selection

variable {p : Plan} {q : Selection} {parameters : List Datum} {clock : Moment}

theorem command_of_select {count : Nat} (hCount : parameters.length = count) :
    (Plan.mk (.select q) count).command parameters clock =
      (Matcher.ofPredicate parameters clock .everything q.predicate).map (Command.select q) := by
  rw [command, if_pos hCount, Action.command]
  cases Matcher.ofPredicate parameters clock .everything q.predicate <;> rfl

/-- A query evaluates to the projection of the first of its arranged rows and leaves the database as
it is; with a limit it returns the first rows of what it returns without. -/
theorem evaluate_select (hAction : p.action = .select q)
    (hCount : parameters.length = p.parameterCount) (clock : Moment) (db : Database) :
    ((∃ m, Matcher.ofPredicate parameters clock .everything q.predicate = .ok m) ↔
      ∀ slot ∈ q.predicate.slots, slot.Fits parameters.length) ∧
    (∀ e, Matcher.ofPredicate parameters clock .everything q.predicate = .error e →
      p.evaluate parameters clock db = (.error e, db)) ∧
    ∀ m, Matcher.ofPredicate parameters clock .everything q.predicate = .ok m →
      ∃ rows matched arranged outcome unlimited,
        q.StartsFrom db rows ∧ matched = rows.filter m.accepts ∧ q.IsArranged matched arranged ∧
        p.evaluate parameters clock db = (.ok outcome, db) ∧
        outcome.rows = (arranged.take (q.limit.elim matched.length (min · matched.length))).map
          (Row.project · q.items) ∧
        outcome.stats =
          { scanned := (db.records q.table).length, returned := outcome.rows.length } ∧
        (Plan.mk (.select q.unlimited) p.parameterCount).evaluate parameters clock db =
          (.ok unlimited, db) ∧
        outcome.rows <+: unlimited.rows := by
  obtain ⟨action, count⟩ := p
  obtain rfl : action = .select q := hAction
  refine ⟨exists_matcher_iff, fun e he => ?_, fun m hm => ?_⟩
  · have hCommand : (Plan.mk (.select q) count).command parameters clock = .error e := by
      rw [command_of_select hCount, he]
      rfl
    exact evaluate_of_error hCommand db
  · have hCommand : (Plan.mk (.select q) count).command parameters clock =
        .ok (.select q m) := by
      rw [command_of_select hCount, hm]
      rfl
    have hUnlimited : (Plan.mk (.select q.unlimited) count).command parameters clock =
        .ok (.select q.unlimited m) := by
      have hPredicate : q.unlimited.predicate = q.predicate := rfl
      rw [command_of_select hCount, hPredicate, hm]
      rfl
    have hArranged := q.isArranged_arranged ((q.rows db).filter m.accepts)
    refine ⟨_, _, _, _, _, q.startsFrom_rows db, rfl, hArranged, evaluate_of_command hCommand db,
      ?_, rfl, evaluate_of_command hUnlimited db, q.result_prefix_unlimited m db⟩
    rw [← hArranged.perm.length_eq, ← Selection.limited_eq_take]
    rfl

/-- Of the sessions of a user, the two that expire last. -/
theorem evaluate_select_last_two :
    let q : Selection :=
      ⟨.sessions, some ⟨.users, "user_id", "id"⟩,
        .conjunction [.equals ⟨.joined, "name"⟩ (.parameter 0)], [.everything],
        some ⟨⟨.base, "expires_at"⟩, false⟩, some 2⟩
    let user := Record.ofList [("id", .integer 1), ("name", .text "Ann")]
    let session (expiry : Int64) :=
      Record.ofList [("user_id", .integer 1), ("expires_at", .integer expiry)]
    let db := (Database.empty.withRecords .users [user]).withRecords .sessions
      [session 5, session 7, session 6]
    (Plan.mk (.select q) 1).action = .select q ∧ [Datum.text "Ann"].length = 1 ∧
      ∃ outcome, (Plan.mk (.select q) 1).evaluate [.text "Ann"] ⟨0, 0⟩ db = (.ok outcome, db) ∧
        outcome.stats.scanned = 3 ∧ outcome.rows.length ≤ 2 := by
  intro q user session db
  obtain ⟨hBound, -, hOk⟩ := evaluate_select (p := ⟨.select q, 1⟩) rfl
    (rfl : [Datum.text "Ann"].length = 1) ⟨0, 0⟩ db
  obtain ⟨m, hm⟩ := hBound.2 (by simp [q, Predicate.slots, Clause.slots, Slot.Fits])
  obtain ⟨_, _, _, outcome, _, _, _, _, hOutcome, hRows, hStats, _⟩ := hOk m hm
  refine ⟨rfl, rfl, outcome, hOutcome, by rw [hStats]; simp [q, db], ?_⟩
  rw [hRows, List.length_map, List.length_take]
  exact Nat.le_trans (Nat.min_le_left _ _) (Nat.min_le_left 2 _)

end Plan

end RecordStore
