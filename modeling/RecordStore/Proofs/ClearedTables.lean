import RecordStore.Proofs.ReadingStatements
import RecordStore.Proofs.RecordCounts
import RecordStore.Proofs.ScriptTokens

/-!
# The tables that a script clears

A script is cut into pieces before anything else is known of it, and each piece is then read for
itself. Seen from the whole script it is the tokens that matter: a table is cleared if the tokens
between two semicolons make up a deletion from it (`Deletes`). Both ways find the same tables, since
the pieces have the tokens of the groups, and tokens make up the same statement wherever they stand
(`ofTokens_of_map_eq`).

The tables are cleared one after the other, as they are named. What is left is determined by which
tables are named at all (`records_foldl_clear`), and so is what is counted, since a table that is
named again has nothing left to lose.

## Main results

- `ofTokens_of_map_eq`: places have no influence on the statement that tokens make up.
- `mem_clearedTables_iff`: a script clears the tables that a group of its tokens deletes from.
- `clearedCount_eq_heldBy`: each table is counted once.
- `exec_clears_named`: what a script does.
-/

namespace RecordStore

open Sql (Placed Token Statement)

/-! ## Statements wherever they stand -/

namespace Sql

open Grammar Reader Cursor

/-- Which statement tokens make up has nothing to do with where they stand. -/
theorem ofTokens_of_map_eq {ts us : List Placed} {s : Statement}
    (hMap : us.map Placed.token = ts.map Placed.token) (h : Statement.ofTokens ts = .ok s) :
    Statement.ofTokens us = .ok s := by
  -- Neither the words of a statement nor the semicolons behind it are read with their places.
  obtain ⟨c, hBody, hEnd⟩ := ofTokens_eq_ok_iff_run.1 h
  obtain ⟨words, hSpells, ⟨ps, hTokens, hWords⟩, hNumbered⟩ := body_sound hBody
  have hWhole : ts = ps ++ c.tokens := hTokens
  rw [hWhole, List.map_append] at hMap
  obtain ⟨front, tail, rfl, hFront, hTail⟩ := List.map_eq_append_iff.1 hMap
  have hSemicolons : ∀ t ∈ tail, t.token = .semicolon := by
    intro t hMem
    have hToken : t.token ∈ tail.map Placed.token := List.mem_map_of_mem hMem
    rw [hTail] at hToken
    obtain ⟨u, hLeft, hSame⟩ := List.mem_map.1 hToken
    rw [← hSame, hEnd u hLeft]
  have hEnds : EndsAt ⟨tail, c.placeholders⟩ [] := by
    intro t hNext
    obtain ⟨u, hHead, rfl⟩ := Option.map_eq_some_iff.1 hNext
    exact .inl (hSemicolons u (List.mem_of_mem_head? hHead))
  have hPass : Passes ⟨front ++ tail, 0⟩ words s.operands ⟨tail, c.placeholders⟩ :=
    ⟨⟨front, rfl, hFront.trans hWords⟩, hNumbered⟩
  exact ofTokens_eq_ok_iff_run.2 ⟨_, body_complete hSpells hPass hEnds, hSemicolons⟩

/-- Tokens make up a deletion from a table, wherever they stand. -/
def IsDeletion (table : Table) (us : List Token) : Prop :=
  ∃ ts : List Placed, ts.map Placed.token = us ∧
    ∃ condition, Statement.ofTokens ts = .ok (.delete table condition)

theorem isDeletion_map_iff {table : Table} {ts : List Placed} :
    IsDeletion table (ts.map Placed.token) ↔
      ∃ condition, Statement.ofTokens ts = .ok (.delete table condition) := by
  constructor
  · rintro ⟨us, hMap, condition, h⟩
    exact ⟨condition, ofTokens_of_map_eq hMap.symm h⟩
  · rintro ⟨condition, h⟩
    exact ⟨ts, rfl, condition, h⟩

theorem not_isDeletion_nil {table : Table} : ¬ IsDeletion table [] := by
  rintro ⟨ts, hMap, condition, h⟩
  rw [List.map_eq_nil_iff.1 hMap] at h
  cases h

end Sql

/-! ## Groups and pieces -/

theorem splitOnP_map {α β : Type} (f : α → β) (p : β → Bool) (xs : List α) :
    (xs.map f).splitOnP p = (xs.splitOnP fun x => p (f x)).map (·.map f) := by
  induction xs with
  | nil => simp
  | cons x xs ih =>
    rw [List.map_cons, List.splitOnP_cons_eq_if_modifyHead, List.splitOnP_cons_eq_if_modifyHead, ih]
    split
    · rfl
    · cases xs.splitOnP fun x => p (f x) <;> rfl

theorem mem_of_mapM_eq_some {α β : Type} {f : α → Option β} {xs : List α} {ys : List β}
    (h : xs.mapM f = some ys) {y : β} : y ∈ ys ↔ ∃ x ∈ xs, f x = some y := by
  induction xs generalizing ys with
  | nil =>
    cases h
    simp
  | cons x xs ih =>
    rw [List.mapM_cons] at h
    obtain ⟨z, hz, hRest⟩ := Option.bind_eq_some_iff.1 h
    obtain ⟨zs, hzs, hAll⟩ := Option.bind_eq_some_iff.1 hRest
    cases hAll
    simp [ih hzs, hz, eq_comm (a := y)]

/-! ## Clearing several tables -/

namespace Database

/-- The number of records of several tables. -/
def heldBy (db : Database) : List Table → Nat
  | [] => 0
  | table :: rest => (db.records table).length + db.heldBy rest

theorem records_foldl_clear (tables : List Table) (db : Database) (table : Table) :
    (tables.foldl clear db).records table = if table ∈ tables then [] else db.records table := by
  induction tables generalizing db with
  | nil => rfl
  | cons first tables ih =>
    rw [List.foldl_cons, ih, clear, records_withRecords]
    by_cases hRest : table ∈ tables
    · rw [if_pos hRest, if_pos (List.mem_cons_of_mem _ hRest)]
    · rw [if_neg hRest]
      by_cases hFirst : table = first
      · rw [if_pos hFirst, if_pos (hFirst ▸ List.mem_cons_self)]
      · have hNot : table ∉ first :: tables := List.not_mem_cons_of_ne_of_not_mem hFirst hRest
        rw [if_neg hFirst, if_neg hNot]

/-- Clearing a table leaves the others as many records as they had. -/
theorem heldBy_clear {tables : List Table} {table : Table} (h : table ∉ tables) (db : Database) :
    (db.clear table).heldBy tables = db.heldBy tables := by
  induction tables with
  | nil => rfl
  | cons first tables ih =>
    rw [List.mem_cons, not_or] at h
    have hFirst : (db.clear table).records first = db.records first := by
      rw [clear, records_withRecords, if_neg (Ne.symm h.1)]
    rw [heldBy, heldBy, hFirst, ih h.2]

/-- Of different tables all records are counted. -/
theorem clearedCount_of_nodup {tables : List Table} (h : tables.Nodup) (db : Database) :
    db.clearedCount tables = db.heldBy tables := by
  induction tables generalizing db with
  | nil => rfl
  | cons first tables ih =>
    rw [List.nodup_cons] at h
    rw [clearedCount, heldBy, ih h.2, heldBy_clear h.1]

/-- What is counted depends on which tables there are, and not on how often they are named or on
their order. -/
theorem clearedCount_eq_heldBy {tables named : List Table} (hNodup : named.Nodup)
    (hSame : ∀ table, table ∈ named ↔ table ∈ tables) (db : Database) :
    db.clearedCount tables = db.heldBy named := by
  have hCleared : tables.foldl clear db = named.foldl clear db := by
    refine ext fun table => ?_
    simp only [records_foldl_clear, hSame]
  -- What is counted is what the sizes before and after differ by, and both lists leave the same.
  have hTables := size_foldl_clear tables db
  have hNamed := size_foldl_clear named db
  rw [hCleared] at hTables
  rw [← clearedCount_of_nodup hNodup]
  omega

end Database

namespace Session

open Sql (lexemes pieces IsDeletion)

variable {script piece : String} {table : Table} {ts : List Placed}

/-- Some group of tokens between semicolons is a deletion from a table. -/
def Deletes (ts : List Placed) (table : Table) : Prop :=
  ∃ group ∈ ts.splitOnP (·.token == .semicolon),
    ∃ condition, Statement.ofTokens group = .ok (.delete table condition)

theorem clearedTable?_eq_some_iff :
    clearedTable? piece = some table ↔
      ∃ condition, Statement.ofText piece = .ok (.delete table condition) := by
  rw [clearedTable?]
  constructor
  · intro h
    split at h
    · next condition hText =>
      cases h
      exact ⟨condition, hText⟩
    · cases h
  · rintro ⟨condition, hText⟩
    rw [hText]

theorem clearedTable?_eq_some_iff_lexemes :
    clearedTable? piece = some table ↔
      ∃ us, lexemes piece.toList = some us ∧ IsDeletion table us := by
  rw [clearedTable?_eq_some_iff, Sql.lexemes_toList, Statement.ofText]
  cases hTokens : Sql.tokens piece with
  | error e =>
    refine iff_of_false ?_ ?_
    · rintro ⟨condition, h⟩
      cases h
    · rintro ⟨us, h, -⟩
      cases h
  | ok ts =>
    show (∃ condition, Statement.ofTokens ts = _) ↔ ∃ us, some (ts.map Placed.token) = some us ∧ _
    rw [← Sql.isDeletion_map_iff]
    simp

/-- Cutting a script into pieces and cutting its tokens at the semicolons finds the same deletions. -/
theorem mem_clearedTables_iff (hTokens : Sql.tokens script = .ok ts) :
    table ∈ clearedTables script ↔ Deletes ts table := by
  have hLexemes : lexemes script.toList = some (ts.map Placed.token) := by
    rw [Sql.lexemes_toList, hTokens]
    rfl
  have hPieces : (pieces .statement script.toList).mapM lexemes =
      some ((ts.splitOnP (·.token == .semicolon)).map (·.map Placed.token)) := by
    rw [Sql.mapM_lexemes_pieces, hLexemes, Option.map_some, splitOnP_map]
  calc table ∈ clearedTables script
    _ ↔ ∃ p ∈ Sql.splitChars script.toList, ∃ us, lexemes p = some us ∧ IsDeletion table us := by
      simp only [clearedTables, Sql.split, List.mem_filterMap, List.mem_map,
        clearedTable?_eq_some_iff_lexemes]
      constructor
      · rintro ⟨_, ⟨p, hMem, rfl⟩, h⟩
        rw [String.toList_ofList] at h
        exact ⟨p, hMem, h⟩
      · rintro ⟨p, hMem, h⟩
        rw [← String.toList_ofList (l := p)] at h
        exact ⟨_, ⟨p, hMem, rfl⟩, h⟩
    _ ↔ ∃ p ∈ pieces .statement script.toList, ∃ us, lexemes p = some us ∧ IsDeletion table us := by
      simp only [Sql.splitChars, List.mem_filter]
      constructor
      · rintro ⟨p, ⟨hMem, -⟩, h⟩
        exact ⟨p, hMem, h⟩
      · rintro ⟨p, hMem, us, hPiece, h⟩
        refine ⟨p, ⟨hMem, ?_⟩, us, hPiece, h⟩
        -- A blank piece is dropped before it is read, but it has no tokens to make up a deletion.
        cases hBlank : p.all Text.isBlank with
        | false => rfl
        | true =>
          rw [Sql.lexemes_of_all_isBlank hBlank] at hPiece
          cases hPiece
          exact absurd h Sql.not_isDeletion_nil
    _ ↔ ∃ us ∈ (ts.splitOnP (·.token == .semicolon)).map (·.map Placed.token),
        IsDeletion table us := by
      simp only [mem_of_mapM_eq_some hPieces]
      constructor
      · rintro ⟨p, hMem, us, hPiece, h⟩
        exact ⟨us, ⟨p, hMem, hPiece⟩, h⟩
      · rintro ⟨us, ⟨p, hMem, hPiece⟩, h⟩
        exact ⟨p, hMem, us, hPiece, h⟩
    _ ↔ Deletes ts table := by
      simp only [List.mem_map, Deletes, ← Sql.isDeletion_map_iff, exists_exists_and_eq_and]

open Storage (Backend)

/-- The tables that a script deletes from, each once. -/
def namedTables (script : String) : List Table :=
  Table.all.filter fun table => table ∈ clearedTables script

theorem mem_namedTables_iff : table ∈ namedTables script ↔ table ∈ clearedTables script := by
  have hAll : table ∈ Table.all := by cases table <;> decide
  rw [namedTables, List.mem_filter, decide_eq_true_eq]
  exact and_iff_right hAll

variable {σ : Type} {b : Backend (StateM σ)} {p q : Session × σ} {db : Database}

/-- A script commits the database without the records of its tables, which it counts. -/
theorem after_exec (hLoads : after (database b) p = (.ok db, q))
    (hSaves : ∀ changed, ((b.save changed).run q.2).1 = .ok ()) :
    after (exec b script) p = (.ok (db.clearedCount (clearedTables script)),
      (after (commit b ((clearedTables script).foldl Database.clear db)) q).2) := by
  have hCommit : (after (commit b ((clearedTables script).foldl Database.clear db)) q).1 =
      .ok () := by
    rw [after_commit]
    cases q.1.writeMode with
    | deferred => rfl
    | through =>
      simp only [hSaves]
      rfl
  rw [exec, after_bind, hLoads]
  simp only
  rw [after_bind]
  generalize after (commit b ((clearedTables script).foldl Database.clear db)) q = done at hCommit ⊢
  obtain ⟨answer, r⟩ := done
  obtain rfl : answer = .ok () := hCommit
  rfl

/-- **A script clears the tables that it names in deletions**, with a condition or without, and returns
how many records these had together, however often and in whatever order it names them. Nothing
else that is in the script has any effect. The session goes on with the changed database, which is
saved at once unless that is left to a flush. -/
theorem exec_clears_named (hTokens : Sql.tokens script = .ok ts)
    (hLoads : after (database b) p = (.ok db, q))
    (hSaves : ∀ changed, ((b.save changed).run q.2).1 = .ok ()) :
    ∃ named left r, named.Nodup ∧ (∀ table, table ∈ named ↔ Deletes ts table) ∧
      after (exec b script) p = (.ok (db.heldBy named), r) ∧
      after (database b) r = (.ok left, r) ∧
      (∀ table ∈ named, left.records table = []) ∧
      (∀ table, table ∉ named → left.records table = db.records table) ∧
      (q.1.writeMode = .through →
        r = ({ q.1 with cache := some left, pending := false }, ((b.save left).run q.2).2)) ∧
      (q.1.writeMode = .deferred → r = ({ q.1 with cache := some left, pending := true }, q.2)) := by
  have hNodup : (namedTables script).Nodup :=
    List.Pairwise.filter _ (by decide : Table.all.Nodup)
  have hNamed : ∀ table, table ∈ namedTables script ↔ Deletes ts table := fun table =>
    mem_namedTables_iff.trans (mem_clearedTables_iff hTokens)
  have hCount : db.clearedCount (clearedTables script) = db.heldBy (namedTables script) :=
    Database.clearedCount_eq_heldBy hNodup (fun _ => mem_namedTables_iff) db
  refine ⟨namedTables script, (clearedTables script).foldl Database.clear db, _, hNodup, hNamed,
    hCount ▸ after_exec hLoads hSaves, ?_, fun table hMem => ?_, fun table hNot => ?_,
    fun hThrough => ?_, fun hDeferred => ?_⟩
  · rw [after_database, after_commit]
    cases q.1.writeMode <;> rfl
  · rw [Database.records_foldl_clear, if_pos (mem_namedTables_iff.1 hMem)]
  · rw [Database.records_foldl_clear, if_neg fun hMem => hNot (mem_namedTables_iff.2 hMem)]
  · rw [after_commit, hThrough]
    simp only [hSaves]
    rfl
  · rw [after_commit, hDeferred]

/-- A script that deletes posts twice and sessions once. Of users it speaks in a comment and in quotes
only. -/
theorem exec_clears_named_of_memory :
    let script := "-- DELETE FROM users;\nDELETE FROM posts WHERE id = ';DELETE FROM users'; oops; " ++
      "delete from Sessions; DELETE FROM posts"
    let row (id : String) := Record.ofList [("id", .text id)]
    let db := ((Database.empty.withRecords .users [row "u1"]).withRecords .posts
      [row "p1", row "p2"]).withRecords .sessions [row "s1"]
    let p : Session × Option Database := (⟨none, false, .through, .strict⟩, some db)
    ∃ ts left r, Sql.tokens script = .ok ts ∧ Deletes ts .posts ∧ ¬ Deletes ts .users ∧
      after (exec Backend.memory script) p = (.ok 3, r) ∧ r.2 = some left ∧
      left.records .posts = [] ∧ left.records .users = db.records .users := by
  intro script row db p
  have hHas : (Sql.tokens script).toOption.isSome = true := by decide +kernel
  obtain ⟨ts, hSome⟩ := Option.isSome_iff_exists.1 hHas
  have hTokens : Sql.tokens script = .ok ts := ok_of_toOption hSome
  have hTables : clearedTables script = [.posts, .sessions, .posts] := by decide +kernel
  have hDeletes : ∀ table, Deletes ts table ↔ table ∈ [Table.posts, .sessions, .posts] := by
    intro table
    rw [← hTables, mem_clearedTables_iff hTokens]
  have hLoads : after (database Backend.memory) p =
      (.ok db, { p.1 with cache := some db }, some db) := rfl
  obtain ⟨named, left, r, hNodup, hNamed, hExec, -, hEmpty, hKept, hThrough, -⟩ :=
    exec_clears_named hTokens hLoads fun _ => rfl
  have hPosts : Deletes ts .posts := (hDeletes .posts).2 (by decide)
  have hUsers : ¬ Deletes ts .users := by
    rw [hDeletes]
    decide
  have hCount : db.clearedCount [.posts, .sessions, .posts] = db.heldBy named :=
    Database.clearedCount_eq_heldBy hNodup (fun table => (hNamed table).trans (hDeletes table)) db
  rw [← hCount] at hExec
  refine ⟨ts, left, r, hTokens, hPosts, hUsers, hExec, ?_, hEmpty .posts ((hNamed _).2 hPosts),
    hKept .users fun hMem => hUsers ((hNamed _).1 hMem)⟩
  rw [hThrough rfl]
  rfl

end Session

end RecordStore
