import RecordStore.Proofs.PlannedQueries

/-!
# Which table a qualified column reads

In a query with two tables each of them is seen by one name, its alias or else its own name. A
column that is qualified by such a name should read that table, wherever in the query it stands. But
a table also goes by its own name if it has an alias, and the first table is asked first. So the own
name of the first table always reads the first table, and it is the only name that can be lost: the
second table cannot be reached by an alias that is the own name of the first one
(`plan_of_alias_for_other_table`). Any other qualifier reads the table that is seen by it, also if
it is the own name of the second table or if a table is joined with itself.

## Main results

- `honors_names`: the scope of a query honors the names that its tables are seen by.
- `reads_named`: qualified columns read the table that they name.
-/

namespace RecordStore

/-! ## The names that tables are seen by -/

namespace Sql

/-- The name that a table is seen by in a query. -/
def Source.visibleName (s : Source) : String := s.knownAs.getD s.table.name

theorem Source.isNamed_iff {s : Source} {name : String} :
    s.isNamed name = true ↔
      Text.sameFolded s.visibleName name = true ∨ Text.sameFolded s.table.name name = true := by
  obtain ⟨table, knownAs⟩ := s
  cases knownAs <;> simp [isNamed, visibleName]

/-- The side of the table that a qualifier names. The own name of the first table is always one of
its names, and is therefore none of the second table. -/
def Query.Names (q : Query) (qualifier : String) : Plan.Side → Prop
  | .base => Text.sameFolded q.source.visibleName qualifier = true ∨
      Text.sameFolded q.source.table.name qualifier = true
  | .joined => Text.sameFolded q.source.table.name qualifier = false ∧
      ∃ join, q.join = some join ∧ Text.sameFolded join.source.visibleName qualifier = true

end Sql

namespace Plan

/-- The scope of a query honors the names that its tables are seen by, if they differ. -/
theorem honors_names {q : Sql.Query} {join : Sql.Join} (hJoin : q.join = some join)
    (hDiffer : Text.sameFolded q.source.visibleName join.source.visibleName = false) :
    (Scope.ofQuery q).Honors q.Names := by
  intro qualifier side hNames
  cases side with
  | base => exact Scope.side_of_base (Sql.Source.isNamed_iff.2 hNames)
  | joined =>
    obtain ⟨hOther, joined, hJoined, hVisible⟩ := hNames
    obtain rfl : joined = join := Option.some.inj (hJoined.symm.trans hJoin)
    -- It is not the own name of the first table, so it could only be its alias. That differs.
    have hBase : q.source.isNamed qualifier = false := by
      by_contra hNamed
      rw [Bool.not_eq_false, Sql.Source.isNamed_iff, hOther] at hNamed
      have hBoth := hNamed.resolve_right Bool.false_ne_true
      rw [Text.sameFolded_trans hBoth (Text.sameFolded_symm hVisible)] at hDiffer
      cases hDiffer
    have hScope : (Scope.ofQuery q).joined = some joined.source := by rw [Scope.ofQuery, hJoin]; rfl
    exact Scope.side_of_joined hBase hScope (Sql.Source.isNamed_iff.2 (.inl hVisible))

/-- In a query with two tables that are seen by different names, a qualifier that names a table
reads that table at every place, and no query is refused for such a qualifier. -/
theorem reads_named {q : Sql.Query} {join : Sql.Join} (hJoin : q.join = some join)
    (hDiffer : Text.sameFolded q.source.visibleName join.source.visibleName = false) :
    (∀ qualifier side, q.Names qualifier side → (Scope.ofQuery q).side qualifier = .ok side) ∧
    (∀ d p, Plan.ofStatement d (.select q) = .ok p →
      ∃ s, p.action = .select s ∧ Selection.Reads q.Names d q s) ∧
    ∀ d e, Plan.ofStatement d (.select q) = .error e → Due q.Names d q e := by
  have hHonors := honors_names hJoin hDiffer
  exact ⟨hHonors, fun d p hPlan => hHonors.yields_ofStatement.of_ok hPlan,
    fun d e hPlan => hHonors.yields_ofStatement.of_error hPlan⟩

/-- Users that are seen as posts, joined with posts that are seen as `p`: `posts` reads users. -/
theorem reads_named_users_as_posts :
    let join : Sql.Join := ⟨⟨.posts, some "p"⟩, ⟨some "p", "author_id"⟩, ⟨some "POSTS", "id"⟩⟩
    let q : Sql.Query :=
      { items := [.allOf "posts", .column ⟨some "P", "title"⟩]
        source := ⟨.users, some "posts"⟩
        join := some join
        condition := some (.compare ⟨⟨some "p", "open"⟩, .equal, .literal (.bool true)⟩)
        sort := some ⟨⟨some "Posts", "name"⟩, true⟩
        limit := none }
    Text.sameFolded q.source.visibleName join.source.visibleName = false ∧
      (Scope.ofQuery q).side "POSTS" = .ok .base ∧
      ∃ s, Plan.ofStatement .strict (.select q) = .ok ⟨.select s, 0⟩ ∧
        s.join = some ⟨.posts, "id", "author_id"⟩ ∧
        Selection.Reads q.Names .strict q s := by
  intro join q
  have hDiffer : Text.sameFolded q.source.visibleName join.source.visibleName = false := by
    decide +kernel
  have hNames : q.Names "POSTS" .base := .inl (by decide +kernel)
  let s : Selection :=
    { table := .users
      join := some ⟨.posts, "id", "author_id"⟩
      predicate := .conjunction [.equals ⟨.joined, "open"⟩ (.literal (.bool true))]
      items := [.allOf .base, .field ⟨.joined, "title"⟩]
      sort := some ⟨⟨.base, "name"⟩, true⟩
      limit := none }
  have hPlan : Plan.ofStatement .strict (.select q) = .ok ⟨.select s, 0⟩ :=
    ok_of_toOption (by decide +kernel)
  have hJoin : q.join = some join := rfl
  obtain ⟨hSide, hReads, -⟩ := reads_named hJoin hDiffer
  obtain ⟨s', hSame, hSelection⟩ := hReads .strict _ hPlan
  cases hSame
  exact ⟨hDiffer, hSide _ _ hNames, s, hPlan, rfl, hSelection⟩

/-- An alias that is the own name of the first table does not reach the second one: the two tables
are seen as `u` and as `users`, but `users` reads the first. -/
theorem plan_of_alias_for_other_table :
    ∃ q join s,
      Sql.Statement.ofText
        "SELECT users.title FROM users AS u JOIN posts AS users ON u.id = posts.author_id" =
          .ok (.select q) ∧
      q.join = some join ∧
      Text.sameFolded q.source.visibleName join.source.visibleName = false ∧
      q.items = [.column ⟨some join.source.visibleName, "title"⟩] ∧
      Plan.ofStatement .strict (.select q) = .ok ⟨.select s, 0⟩ ∧
      s.items = [.field ⟨.base, "title"⟩] := by
  let join : Sql.Join := ⟨⟨.posts, some "users"⟩, ⟨some "u", "id"⟩, ⟨some "posts", "author_id"⟩⟩
  let q : Sql.Query :=
    { items := [.column ⟨some "users", "title"⟩]
      source := ⟨.users, some "u"⟩
      join := some join
      condition := none
      sort := none
      limit := none }
  let s : Selection :=
    { table := .users
      join := some ⟨.posts, "id", "author_id"⟩
      predicate := .always
      items := [.field ⟨.base, "title"⟩]
      sort := none
      limit := none }
  exact ⟨q, join, s, ok_of_toOption (by decide +kernel), rfl, by decide +kernel, rfl,
    ok_of_toOption (by decide +kernel), rfl⟩

end Plan

end RecordStore
