import RecordStore.Proofs.Binding
import RecordStore.Proofs.Expressible
import Mathlib.Data.List.Forall2

/-!
# What the parts of a plan read

A query has columns at several places: among what it returns, in the join, in the condition and in
the sort. For each of these places there is a relation between a part of the query and the part of
the plan that is made of it (`Field.Reads` up to `Selection.Reads`). They say which columns are read,
and on which side.

Nothing is said here of what the names of tables are. The relations are about any relation `names`
between qualifiers and sides that the scope of the query honors (`Scope.Honors`). An attempt to plan
a part `Yields` a part that reads what it should, or an error that is due, and there is one lemma to
say so for each part.

## Main results

- `Yields.bind`, `Yields.mapM`: attempts that are put together of attempts.
- `Scope.Honors.yields_action`: every part of a planned query reads what the query says.
-/

namespace RecordStore

/-! ## Attempts with a justified outcome -/

section Yields

variable {α β ε : Type}

/-- An attempt comes to a result as it should be, or to an error that is allowed. -/
inductive Yields (allowed : ε → Prop) (post : α → Prop) : Except ε α → Prop
  | ok {a : α} : post a → Yields allowed post (.ok a)
  | error {e : ε} : allowed e → Yields allowed post (.error e)

variable {allowed : ε → Prop} {post : α → Prop} {target : β → Prop} {x : Except ε α}

theorem Yields.bind {f : α → Except ε β} (hx : Yields allowed post x)
    (hf : ∀ a, post a → Yields allowed target (f a)) : Yields allowed target (x >>= f) := by
  cases hx with
  | ok hPost => exact hf _ hPost
  | error hAllowed => exact .error hAllowed

theorem Yields.mapM {f : α → Except ε β} {rel : α → β → Prop}
    (h : ∀ a, Yields allowed (rel a) (f a)) (as : List α) :
    Yields allowed (List.Forall₂ rel as) (as.mapM f) := by
  induction as with
  | nil => exact .ok .nil
  | cons a as ih =>
    rw [List.mapM_cons]
    exact (h a).bind fun b hHead => ih.bind fun bs hTail => .ok (.cons hHead hTail)

theorem Yields.option_mapM {f : α → Except ε β} {rel : α → β → Prop} {o : Option α}
    (h : ∀ a, o = some a → Yields allowed (rel a) (f a)) :
    Yields allowed (Option.Rel rel o) (o.mapM f) := by
  cases o with
  | none => exact .ok .none
  | some a => exact (h a rfl).bind fun b hRel => .ok (.some hRel)

theorem Yields.of_ok {a : α} (hx : Yields allowed post x) (h : x = .ok a) : post a := by
  subst h
  cases hx with
  | ok hPost => exact hPost

theorem Yields.of_error {e : ε} (hx : Yields allowed post x) (h : x = .error e) : allowed e := by
  subst h
  cases hx with
  | error hAllowed => exact hAllowed

end Yields

/-- A conjunct that no plan has a clause for. -/
def Sql.Condition.IsUnsupported (part : Condition) : Prop :=
  ∀ c, part = .compare c → c.isSupported = false

namespace Plan

/-! ## Parts of a plan and what they read -/

section Reads

variable (names : String → Side → Prop)

/-- A side that is the one that a qualifier names, if it names one. -/
def Side.Reads (qualifier : String) (side : Side) : Prop :=
  ∀ named, names qualifier named → side = named

/-- A field with the name of a column, on the side that its qualifier names. -/
structure Field.Reads (column : Sql.Column) (field : Field) : Prop where
  name : field.name = column.name
  qualified : ∀ qualifier, column.qualifier = some qualifier →
    Side.Reads names qualifier field.side
  unqualified : column.qualifier = none → field.side = .base

/-- The two keys of a join read its two columns, whichever of them is written first. -/
structure Join.Reads (join : Sql.Join) (planned : Join) : Prop where
  table : planned.table = join.source.table
  keys :
    Field.Reads names join.left ⟨.base, planned.baseKey⟩ ∧
      Field.Reads names join.right ⟨.joined, planned.joinedKey⟩ ∨
    Field.Reads names join.left ⟨.joined, planned.joinedKey⟩ ∧
      Field.Reads names join.right ⟨.base, planned.baseKey⟩

inductive Item.Reads : Sql.Item → Item → Prop
  | everything : Item.Reads .everything .everything
  | allOf {qualifier : String} {side : Side} : Side.Reads names qualifier side →
    Item.Reads (.allOf qualifier) (.allOf side)
  | column {column : Sql.Column} {field : Field} : Field.Reads names column field →
    Item.Reads (.column column) (.field field)

structure SortKey.Reads (sort : Sql.SortClause) (planned : SortKey) : Prop where
  field : Field.Reads names sort.column planned.field
  ascending : planned.ascending = sort.ascending

/-- A clause reads the column that its comparison is about. -/
inductive Clause.Reads : Sql.Condition → Clause → Prop
  | equals {column : Sql.Column} {operand : Sql.Operand} {field : Field} :
    Field.Reads names column field → operand ≠ .now →
    Clause.Reads (.compare ⟨column, .equal, operand⟩) (.equals field (.ofOperand operand))
  | time {column : Sql.Column} {relation : TimeRelation} {field : Field} :
    Field.Reads names column field →
    Clause.Reads (.compare ⟨column, relation.comparator, .now⟩) (.time field relation)

/-- A predicate has one clause for each conjunct of its condition. In the lenient dialect it reads no
column at all if there is a conjunct without a clause. -/
inductive Predicate.Reads : Dialect → Option Sql.Condition → Predicate → Prop
  | always (d : Dialect) : Predicate.Reads d none .always
  | conjunction {d : Dialect} {c : Sql.Condition} {clauses : List Clause} :
    List.Forall₂ (Clause.Reads names) c.conjuncts clauses →
    Predicate.Reads d (some c) (.conjunction clauses)
  | unsupported {c part : Sql.Condition} : part ∈ c.conjuncts → part.IsUnsupported →
    Predicate.Reads .lenient (some c) (.unsupported part)

/-- A plan for a query in which every part reads what the query says. -/
structure Selection.Reads (d : Dialect) (q : Sql.Query) (s : Selection) : Prop where
  table : s.table = q.source.table
  join : Option.Rel (Join.Reads names) q.join s.join
  items : List.Forall₂ (Item.Reads names) q.items s.items
  sort : Option.Rel (SortKey.Reads names) q.sort s.sort
  predicate : Predicate.Reads names d q.condition s.predicate
  limit : s.limit = q.limit

/-- The errors that a query is to blame for: a qualifier that names no table, a join on columns of
one table or on two that are not `id`, and in the strict dialect a condition of an unsupported
kind. -/
inductive Due (d : Dialect) (q : Sql.Query) : PlanError → Prop
  | unknownQualifier {qualifier : String} : (∀ side, ¬ names qualifier side) →
    Due d q (.unknownQualifier qualifier)
  | joinWithinTable {join : Sql.Join} {side : Side} : q.join = some join →
    (∀ column ∈ [join.left, join.right], Field.Reads names column ⟨side, column.name⟩) →
    Due d q .joinWithinTable
  | joinWithoutId {join : Sql.Join} {baseKey joinedKey : String} : q.join = some join →
    Join.Reads names join ⟨join.source.table, baseKey, joinedKey⟩ →
    baseKey ≠ "id" → joinedKey ≠ "id" → Due d q (.joinWithoutId baseKey joinedKey)
  | unsupportedPredicate {c part : Sql.Condition} : d = .strict → q.condition = some c →
    part ∈ c.conjuncts → part.IsUnsupported → Due d q (.unsupportedPredicate part)

end Reads

/-! ## Scopes that honor names -/

/-- A qualifier is on the side that it names. -/
def Scope.Honors (s : Scope) (names : String → Side → Prop) : Prop :=
  ∀ qualifier side, names qualifier side → s.side qualifier = .ok side

/-- Where nothing is a name, there is nothing to honor. -/
theorem Scope.honors_nothing (s : Scope) : s.Honors fun _ _ => False :=
  fun _ _ hNames => hNames.elim

theorem Scope.eq_of_side_error {s : Scope} {qualifier : String} {e : PlanError}
    (h : s.side qualifier = .error e) : e = .unknownQualifier qualifier := by
  rw [side] at h
  split at h
  · cases h
  · split at h
    · cases h
    · exact (Except.error.inj h).symm

theorem Scope.exists_side_of_resolve_error {s : Scope} {column : Sql.Column} {e : PlanError}
    (h : s.resolve column = .error e) : ∃ qualifier, s.side qualifier = .error e := by
  obtain ⟨qualifier, name⟩ := column
  cases qualifier with
  | none => cases h
  | some qualifier =>
    rcases bind_eq_error_iff.1 h with hSide | ⟨side, -, hPair⟩
    · exact ⟨qualifier, hSide⟩
    · cases hPair

/-- What is wrong with a conjunct is its qualifier or the conjunct itself. -/
theorem Scope.fault?_cases {s : Scope} {part : Sql.Condition} {e : PlanError}
    (h : s.fault? part = some e) :
    (∃ qualifier, e = .unknownQualifier qualifier ∧ s.knows qualifier = false) ∨
      e = .unsupportedPredicate part ∧ part.IsUnsupported := by
  cases part with
  | compare c =>
    rw [fault?] at h
    split at h
    · next qualifier hFilter =>
      obtain ⟨-, hUnknown⟩ := Option.filter_eq_some_iff.1 hFilter
      exact .inl ⟨qualifier, (Option.some.inj h).symm, by simpa using hUnknown⟩
    · split at h
      · cases h
      · next hKind =>
        refine .inr ⟨(Option.some.inj h).symm, fun comparison hSame => ?_⟩
        cases hSame
        exact Bool.eq_false_iff.2 hKind
  | and l r | or l r | not c =>
    refine .inr ⟨(Option.some.inj h).symm, fun comparison hSame => ?_⟩
    cases hSame

namespace Scope.Honors

variable {names : String → Side → Prop} {s : Scope} {d : Dialect} {q : Sql.Query}

section

variable (h : s.Honors names)

include h

theorem knows {qualifier : String} {side : Side} (hNames : names qualifier side) :
    s.knows qualifier = true := by
  by_contra hUnknown
  have hError : s.resolve ⟨some qualifier, ""⟩ = .error (.unknownQualifier qualifier) :=
    resolve_of_unknown (Bool.eq_false_iff.2 hUnknown)
  rw [resolve_of_side (h _ _ hNames)] at hError
  cases hError

theorem reads_of_side {qualifier : String} {side : Side} (hSide : s.side qualifier = .ok side) :
    Side.Reads names qualifier side := by
  intro named hNamed
  rw [h _ _ hNamed] at hSide
  exact (Except.ok.inj hSide).symm

theorem reads_of_resolve {column : Sql.Column} {field : Field}
    (hField : s.resolve column = .ok field) : Field.Reads names column field := by
  obtain ⟨qualifier, name⟩ := column
  cases qualifier with
  | none =>
    cases hField
    exact ⟨rfl, nofun, fun _ => rfl⟩
  | some qualifier =>
    obtain ⟨side, hSide, hPair⟩ := bind_eq_ok_iff.1 hField
    cases hPair
    refine ⟨rfl, fun qualifier' hSame => ?_, nofun⟩
    cases hSame
    exact h.reads_of_side hSide

theorem yields_side (qualifier : String) :
    Yields (Due names d q) (Side.Reads names qualifier) (s.side qualifier) := by
  cases hSide : s.side qualifier with
  | ok side => exact .ok (h.reads_of_side hSide)
  | error e =>
    obtain rfl := eq_of_side_error hSide
    refine .error (.unknownQualifier fun named hNamed => ?_)
    rw [h _ _ hNamed] at hSide
    cases hSide

theorem yields_resolve (column : Sql.Column) :
    Yields (Due names d q) (Field.Reads names column) (s.resolve column) := by
  cases hField : s.resolve column with
  | ok field => exact .ok (h.reads_of_resolve hField)
  | error e =>
    obtain ⟨qualifier, hSide⟩ := exists_side_of_resolve_error hField
    exact .error ((h.yields_side qualifier).of_error hSide)

theorem yields_item (item : Sql.Item) :
    Yields (Due names d q) (Item.Reads names item) (Item.ofStatement s item) := by
  cases item with
  | everything => exact .ok .everything
  | allOf qualifier => exact (h.yields_side qualifier).bind fun _ hSide => .ok (.allOf hSide)
  | column c => exact (h.yields_resolve c).bind fun _ hField => .ok (.column hField)

theorem yields_sort (sort : Sql.SortClause) :
    Yields (Due names d q) (SortKey.Reads names sort) (SortKey.ofStatement s sort) :=
  (h.yields_resolve sort.column).bind fun _ hField => .ok ⟨hField, rfl⟩

theorem yields_join {join : Sql.Join} (hJoin : q.join = some join) :
    Yields (Due names d q) (Join.Reads names join) (Join.ofStatement s join) := by
  have hKeys : ∀ keys : String × String,
      Join.Reads names join ⟨join.source.table, keys.1, keys.2⟩ →
      Yields (Due names d q) (Join.Reads names join)
        (if keys.1 = "id" ∨ keys.2 = "id" then
          (pure ⟨join.source.table, keys.1, keys.2⟩ : Except PlanError Join)
        else throw (.joinWithoutId keys.1 keys.2)) := by
    intro keys hReads
    split
    · exact .ok hReads
    · next hNoId =>
      rw [not_or] at hNoId
      exact .error (.joinWithoutId hJoin hReads hNoId.1 hNoId.2)
  -- Which of the two columns is the base key depends on their sides alone.
  refine (h.yields_resolve join.left).bind fun left hLeft =>
    (h.yields_resolve join.right).bind fun right hRight => ?_
  obtain ⟨leftSide, leftName⟩ := left
  obtain ⟨rightSide, rightName⟩ := right
  obtain rfl : leftName = join.left.name := hLeft.name
  obtain rfl : rightName = join.right.name := hRight.name
  have hWithin (hSame : leftSide = rightSide) : Due names d q .joinWithinTable := by
    have hColumns : ∀ column ∈ [join.left, join.right],
        Field.Reads names column ⟨leftSide, column.name⟩ := by
      intro column hMem
      rcases List.mem_pair.1 hMem with rfl | rfl
      · exact hLeft
      · exact hSame ▸ hRight
    exact .joinWithinTable hJoin hColumns
  cases leftSide <;> cases rightSide
  case base.base | joined.joined => exact .error (hWithin rfl)
  case base.joined => exact hKeys (join.left.name, join.right.name) ⟨rfl, .inl ⟨hLeft, hRight⟩⟩
  case joined.base => exact hKeys (join.right.name, join.left.name) ⟨rfl, .inr ⟨hLeft, hRight⟩⟩

/-- The clauses of a condition read its columns in written order. -/
theorem reads_of_clauses? {c : Sql.Condition} {clauses : List Clause}
    (hClauses : clauses? s c = .ok clauses) :
    List.Forall₂ (Clause.Reads names) c.conjuncts clauses := by
  induction c generalizing clauses with
  | compare comparison =>
    obtain ⟨clause, hClause, hSingle⟩ := bind_eq_ok_iff.1 hClauses
    cases hSingle
    refine .cons ?_ .nil
    obtain ⟨column, op, operand⟩ := comparison
    rcases ofComparison_cases hClause with
      ⟨field, hField, hOp, hOperand, rfl⟩ | ⟨field, relation, hField, hOp, hNow, rfl⟩
    · obtain rfl : op = .equal := hOp
      exact .equals (h.reads_of_resolve hField) hOperand
    · obtain rfl : op = relation.comparator := hOp
      obtain rfl : operand = .now := hNow
      exact .time (h.reads_of_resolve hField)
  | and l r ihl ihr =>
    obtain ⟨left, hLeft, hRest⟩ := bind_eq_ok_iff.1 hClauses
    obtain ⟨right, hRight, hBoth⟩ := bind_eq_ok_iff.1 hRest
    cases hBoth
    exact List.rel_append (ihl hLeft) (ihr hRight)
  | or l r | not c => cases hClauses

theorem yields_condition :
    Yields (Due names d q) (Predicate.Reads names d q.condition)
      (Predicate.ofCondition d s q.condition) := by
  cases hCondition : q.condition with
  | none => exact .ok (.always d)
  | some c =>
    cases hClauses : clauses? s c with
    | ok clauses =>
      simp only [Predicate.ofCondition, hClauses]
      exact .ok (.conjunction (h.reads_of_clauses? hClauses))
    | error e =>
      -- The error is about one conjunct. The lenient dialect keeps it unless it is the qualifier.
      obtain ⟨part, hPart, hFault⟩ :=
        List.exists_of_findSome?_eq_some (clauses?_eq_error_iff.1 hClauses)
      simp only [Predicate.ofCondition, hClauses]
      rcases fault?_cases hFault with ⟨qualifier, rfl, hUnknown⟩ | ⟨rfl, hKind⟩
      · refine .error (.unknownQualifier fun side hNames => ?_)
        rw [h.knows hNames] at hUnknown
        cases hUnknown
      · cases d with
        | strict => exact .error (.unsupportedPredicate rfl hCondition hPart hKind)
        | lenient => exact .ok (.unsupported hPart hKind)

end

/-- Every part of a plan for a query reads what the query says, and a query has a plan unless an
error is due. -/
theorem yields_ofQuery (h : (Scope.ofQuery q).Honors names) :
    Yields (Due names d q) (Selection.Reads names d q) (Selection.ofQuery d q) := by
  refine (Yields.option_mapM fun join hJoin => h.yields_join hJoin).bind fun join hJoin => ?_
  refine (Yields.mapM h.yields_item q.items).bind fun items hItems => ?_
  refine (Yields.option_mapM fun sort _ => h.yields_sort sort).bind fun sort hSort => ?_
  refine h.yields_condition.bind fun predicate hPredicate => ?_
  exact .ok ⟨rfl, hJoin, hItems, hSort, hPredicate, rfl⟩

theorem yields_action (h : (Scope.ofQuery q).Honors names) :
    Yields (Due names d q) (fun action => ∃ s, action = .select s ∧ Selection.Reads names d q s)
      (Action.ofStatement d (.select q)) :=
  h.yields_ofQuery.bind fun s hReads => .ok ⟨s, rfl, hReads⟩

theorem yields_ofStatement (h : (Scope.ofQuery q).Honors names) :
    Yields (Due names d q) (fun p => ∃ s, p.action = .select s ∧ Selection.Reads names d q s)
      (Plan.ofStatement d (.select q)) :=
  h.yields_action.bind fun _ hSelect => .ok hSelect

end Scope.Honors

end Plan

end RecordStore
