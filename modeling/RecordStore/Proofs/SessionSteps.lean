import RecordStore.Session.History
import RecordStore.Storage.Faithful

/-!
# What the calls of a session do

A call is followed from one point to the next. A point is a session together with the state of its
backend, and `after` is the answer of a call and the point at which it ends.

On a faithful backend there are three things that a call can do. It can look at the database, which
at most brings it into the session (`Looks`). It can take over a changed database, and in the
write-through mode save it (`Commits`). And it can save what is pending (`Flushes`). Every request
but a flush looks, or it looks and then commits (`Acts`), and only a mutation or a script commits.

What a request changes is a function of the contents that it finds (`Request.change?`). `Attempts`
says what comes of the change, and of which request; the rest follows from that.

## Main results

- `after_bind`: how a call is followed through its parts.
- `after_database`, `after_commit`, `flush_flushes`: what the parts of calls do.
- `perform_attempts`: what comes of the change of a request.
- `perform_acts`, `perform_flush`: what a request does.
-/

namespace RecordStore

open Storage (Backend StorageError)

/-- The database that a plan makes of another, if it is one that changes records and is carried
out. -/
def Plan.change? (p : Plan) (parameters : List Datum) (clock : Moment) (db : Database) :
    Option Database :=
  if p.isMutation then
    match p.evaluate parameters clock db with
    | (.ok _, changed) => some changed
    | (.error _, _) => none
  else none

theorem Plan.change?_of_not_isMutation {p : Plan} (h : p.isMutation = false)
    (parameters : List Datum) (clock : Moment) (db : Database) :
    p.change? parameters clock db = none := by
  rw [Plan.change?, h]
  rfl

theorem Plan.isMutation_of_isQuery {p : Plan} (h : p.isQuery = true) : p.isMutation = false := by
  obtain ⟨action, count⟩ := p
  cases action with
  | select s => rfl
  | insert | update | delete | unrecognized => cases h

namespace Session

variable {σ α β : Type}

/-- What a call answers, and the session and the state of its backend after it. -/
def after (call : Call (StateM σ) α) (p : Session × σ) : Except SessionError α × Session × σ :=
  let ((answer, s), w) := (call.run.run p.1).run p.2
  (answer, s, w)

section Parts

variable {b : Backend (StateM σ)} {p q : Session × σ}

theorem after_get : after (get : Call (StateM σ) Session) p = (.ok p.1, p) := rfl

theorem after_modify (f : Session → Session) :
    after (modify f : Call (StateM σ) PUnit) p = (.ok ⟨⟩, f p.1, p.2) := rfl

theorem after_bind (call : Call (StateM σ) α) (f : α → Call (StateM σ) β) :
    after (call >>= f) p =
      match after call p with
      | (.ok a, q) => after (f a) q
      | (.error e, q) => (.error e, q) := by
  simp only [after, run_bind, StateT.run_bind]
  obtain ⟨⟨_ | _, s⟩, w⟩ := (call.run.run p.1).run p.2 <;> rfl

/-- What is made of an answer makes no difference to where a call ends. -/
theorem after_map (call : Call (StateM σ) α) (f : α → β) :
    after (do return f (← call)) p = ((after call p).1.map f, (after call p).2) := by
  rw [after_bind]
  obtain ⟨_ | _, q⟩ := after call p <;> rfl

theorem after_withBackend (action : StateM σ (Except StorageError α)) :
    after (withBackend action) p =
      match action.run p.2 with
      | (.ok a, w) => (.ok a, p.1, w)
      | (.error e, w) => (.error (.storage e), p.1, w) := by
  have hLift : after (liftM action : Call (StateM σ) (Except StorageError α)) p =
      (.ok (action.run p.2).1, p.1, (action.run p.2).2) := rfl
  rw [withBackend, after_bind, hLift]
  obtain ⟨_ | _, w⟩ := action.run p.2 <;> rfl

/-- Compiling has no part in the session but its dialect. -/
theorem after_compile (text : String) :
    after (compile text : Call (StateM σ) Plan) p =
      ((Plan.ofText p.1.dialect text).mapError .compile, p) := by
  rw [compile, after_bind, after_get]
  simp only
  cases Plan.ofText p.1.dialect text <;> rfl

theorem after_pure (a : α) : after (pure a : Call (StateM σ) α) p = (.ok a, p) := rfl

theorem after_throw (e : SessionError) :
    after (throw e : Call (StateM σ) α) p = (.error e, p) := rfl

theorem after_database :
    after (database b) p =
      match p.1.cache with
      | some db => (.ok db, p)
      | none =>
        match b.load.run p.2 with
        | (.ok db, w) => (.ok db, { p.1 with cache := some db }, w)
        | (.error e, w) => (.error (.storage e), p.1, w) := by
  rw [database, after_bind, after_get]
  simp only
  cases p.1.cache with
  | some db => rfl
  | none =>
    simp only
    rw [after_bind, after_withBackend]
    obtain ⟨_ | _, w⟩ := b.load.run p.2 <;> rfl

/-- A changed database is in the session before it is saved. -/
theorem after_commit (db : Database) :
    after (commit b db) p =
      match p.1.writeMode with
      | .deferred => (.ok (), { p.1 with cache := some db, pending := true }, p.2)
      | .through =>
        let saved := (b.save db).run p.2
        (saved.1.mapError .storage, { p.1 with cache := some db, pending := !saved.1.isOk },
          saved.2) := by
  obtain ⟨⟨cache, pending, writeMode, dialect⟩, w⟩ := p
  rw [commit, after_bind, after_modify]
  simp only
  rw [after_bind, after_get]
  cases writeMode with
  | deferred => rfl
  | through =>
    simp only
    rw [flush, after_bind, after_get]
    simp only [if_true]
    rw [after_bind, after_withBackend]
    obtain ⟨_ | _, w'⟩ := (b.save db).run w <;> rfl

end Parts

/-! ## Kinds of steps -/

section Steps

variable (kept : σ → Database)

/-- A step that at most loads the database. -/
structure Looks (p q : Session × σ) : Prop where
  session : q.1 = p.1 ∨ p.1.cache = none ∧ q.1 = { p.1 with cache := some (kept p.2) }
  kept : kept q.2 = kept p.2

/-- A step that takes over a changed database; whether it succeeds depends on the save. -/
inductive Commits (p : Session × σ) : Bool → Session × σ → Prop
  | saved {w : σ} : p.1.writeMode = .through →
    Commits p true ({ p.1 with cache := some (kept w), pending := false }, w)
  | unsaved {db : Database} {w : σ} : p.1.writeMode = .through → kept w = kept p.2 →
    Commits p false ({ p.1 with cache := some db, pending := true }, w)
  | deferred {db : Database} {w : σ} : p.1.writeMode = .deferred → kept w = kept p.2 →
    Commits p true ({ p.1 with cache := some db, pending := true }, w)

/-- A step that saves what is pending. -/
inductive Flushes (p : Session × σ) : Bool → Session × σ → Prop
  | idle : p.1.pending = false → Flushes p true p
  | empty : p.1.pending = true → p.1.cache = none →
    Flushes p true ({ p.1 with pending := false }, p.2)
  | saved {w : σ} : p.1.pending = true → p.1.cache = some (kept w) →
    Flushes p true ({ p.1 with pending := false }, w)
  | unsaved {w : σ} : p.1.pending = true → kept w = kept p.2 → Flushes p false (p.1, w)

/-- A step that looks, and then commits if it is one that changes the database and does not fail
before. -/
inductive Acts (changes : Bool) (p : Session × σ) (ok : Bool) (q : Session × σ) : Prop
  | looks : Looks kept p q → (changes = true → ok = false) → Acts changes p ok q
  | commits : changes = true → Commits kept p ok q → Acts changes p ok q

variable {kept}

theorem Looks.refl (p : Session × σ) : Looks kept p p := ⟨.inl rfl, rfl⟩

end Steps

/-- The database that the next call sees, if it can be loaded. -/
def contents (kept : σ → Database) (p : Session × σ) : Database := p.1.cache.getD (kept p.2)

/-! ## What comes of a change -/

section Attempts

variable (b : Backend (StateM σ)) (kept : σ → Database)

/-- What comes of a request and of the change that it makes of the contents. There may be nothing to
change, nothing to change it in, or a changed database that is saved, or cannot be saved, or waits
for a flush. -/
inductive Attempts (changes : Bool) (change? : Option Database) (p : Session × σ) :
    Except SessionError α → Session × σ → Prop
  | passes {answer : Except SessionError α} {q : Session × σ} : change? = none →
    (changes = true → answer.isOk = false) → (∀ fault, answer ≠ .error (.storage fault)) →
    Looks kept p q → Attempts changes change? p answer q
  | unloaded {fault : StorageError} {w : σ} : p.1.cache = none → kept w = kept p.2 →
    Attempts changes change? p (.error (.storage fault)) (p.1, w)
  | saved {a : α} {w : σ} : changes = true → change? = some (kept w) → p.1.writeMode = .through →
    Attempts changes change? p (.ok a) ({ p.1 with cache := some (kept w), pending := false }, w)
  | unsaved {fault : StorageError} {db : Database} {v w : σ} : changes = true → change? = some db →
    p.1.writeMode = .through → (b.save db).run v = (.error fault, w) → kept w = kept p.2 →
    Attempts changes change? p (.error (.storage fault))
      ({ p.1 with cache := some db, pending := true }, w)
  | deferred {a : α} {db : Database} {w : σ} : changes = true → change? = some db →
    p.1.writeMode = .deferred → kept w = kept p.2 →
    Attempts changes change? p (.ok a) ({ p.1 with cache := some db, pending := true }, w)

variable {b kept} {changes : Bool} {change? : Option Database} {p q r : Session × σ}
  {answer : Except SessionError α}

/-- It looks, or it looks and then commits. -/
theorem Attempts.acts (h : Attempts b kept changes change? p answer q) :
    Acts kept changes p answer.isOk q := by
  cases h with
  | passes _ hFails _ hLooks => exact .looks hLooks hFails
  | unloaded _ hKept => exact .looks ⟨.inl rfl, hKept⟩ fun _ => rfl
  | saved hChanges _ hMode => exact .commits hChanges (.saved hMode)
  | unsaved hChanges _ hMode _ hKept => exact .commits hChanges (.unsaved hMode hKept)
  | deferred hChanges _ hMode hKept => exact .commits hChanges (.deferred hMode hKept)

theorem Attempts.of_map {call : Call (StateM σ) α} (f : α → β)
    (h : Attempts b kept changes change? p (after call p).1 (after call p).2) :
    Attempts b kept changes change? p (after (do return f (← call)) p).1
      (after (do return f (← call)) p).2 := by
  rw [after_map]
  generalize (after call p).1 = answer at h ⊢
  generalize (after call p).2 = q at h ⊢
  cases h with
  | passes hNone hFails hFault hLooks =>
    cases answer with
    | ok a => exact .passes hNone hFails (fun _ hAnswer => by cases hAnswer) hLooks
    | error e =>
      refine .passes hNone hFails (fun fault hAnswer => hFault fault ?_) hLooks
      rw [Except.error.inj hAnswer]
  | unloaded hCache hKept => exact .unloaded hCache hKept
  | saved hChanges hChange hMode => exact .saved hChanges hChange hMode
  | unsaved hChanges hChange hMode hSave hKept =>
    exact .unsaved hChanges hChange hMode hSave hKept
  | deferred hChanges hChange hMode hKept => exact .deferred hChanges hChange hMode hKept

theorem attempts_pure (hNone : change? = none) (hChanges : changes = false) (a : α) :
    Attempts b kept changes change? p (after (pure a : Call (StateM σ) α) p).1
      (after (pure a : Call (StateM σ) α) p).2 := by
  rw [after_pure]
  refine .passes hNone (fun hNot => ?_) (fun _ hFault => by cases hFault) (.refl p)
  rw [hChanges] at hNot
  cases hNot

/-- A call that fails for another reason than its backend. -/
theorem attempts_throw (hNone : change? = none) {e : SessionError}
    (he : ∀ fault, e ≠ .storage fault) :
    Attempts b kept changes change? p (after (throw e : Call (StateM σ) α) p).1
      (after (throw e : Call (StateM σ) α) p).2 := by
  rw [after_throw]
  exact .passes hNone (fun _ => rfl) (fun fault hFault => he fault (Except.error.inj hFault))
    (.refl p)

/-- Once the database is loaded, what comes of a change is the same as if it had been there. -/
theorem Attempts.of_loaded {w : σ} (hCache : p.1.cache = none) (hKept : kept w = kept p.2)
    (h : Attempts b kept changes change? ({ p.1 with cache := some (kept p.2) }, w) answer r) :
    Attempts b kept changes change? p answer r := by
  cases h with
  | passes hNone hFails hFault hLooks =>
    refine .passes hNone hFails hFault ⟨.inr ⟨hCache, ?_⟩, hLooks.kept.trans hKept⟩
    rcases hLooks.session with hSame | ⟨hNot, -⟩
    · exact hSame
    · cases hNot
  | unloaded hNot => cases hNot
  | saved hChanges hChange hMode => exact .saved hChanges hChange hMode
  | unsaved hChanges hChange hMode hSave hSame =>
    exact .unsaved hChanges hChange hMode hSave (hSame.trans hKept)
  | deferred hChanges hChange hMode hSame =>
    exact .deferred hChanges hChange hMode (hSame.trans hKept)

end Attempts

section Faithful

variable {b : Backend (StateM σ)} {kept : σ → Database} (hb : b.Faithful kept)
  {p : Session × σ}

include hb

theorem flush_flushes (p : Session × σ) :
    Flushes kept p (after (flush b) p).1.isOk (after (flush b) p).2 := by
  rw [flush, after_bind, after_get]
  simp only
  cases hPending : p.1.pending with
  | false => exact .idle hPending
  | true =>
    simp only [if_true]
    cases hCache : p.1.cache with
    | none => exact .empty hPending hCache
    | some db =>
      simp only
      rw [after_bind, after_withBackend]
      cases hSave : (b.save db).run p.2 with
      | mk result w =>
        cases result with
        | error e =>
          have hKept := hb.kept_save_of_error db p.2 e (by rw [hSave])
          rw [hSave] at hKept
          exact .unsaved hPending hKept
        | ok u =>
          have hKept := hb.kept_save db p.2 (by rw [hSave])
          rw [hSave] at hKept
          exact .saved hPending (by rw [hCache, ← hKept])

theorem commit_attempts (db : Database) (p : Session × σ) :
    Attempts b kept true (some db) p (after (commit b db) p).1 (after (commit b db) p).2 := by
  rw [after_commit]
  cases hMode : p.1.writeMode with
  | deferred => exact .deferred rfl rfl hMode rfl
  | through =>
    simp only
    cases hSave : (b.save db).run p.2 with
    | mk result w =>
      cases result with
      | ok u =>
        have hKept := hb.kept_save db p.2 (by rw [hSave])
        rw [hSave] at hKept
        cases hKept
        exact .saved rfl rfl hMode
      | error e =>
        have hKept := hb.kept_save_of_error db p.2 e (by rw [hSave])
        rw [hSave] at hKept
        exact .unsaved rfl rfl hMode hSave hKept

/-- A call that goes on with the database goes on with the contents, or stops without them. -/
theorem attempts_of_database {call : Database → Call (StateM σ) α} {changes : Bool}
    {change? : Option Database}
    (h : ∀ q, Attempts b kept changes change? q (after (call (contents kept p)) q).1
      (after (call (contents kept p)) q).2) :
    Attempts b kept changes change? p (after (do call (← database b)) p).1
      (after (do call (← database b)) p).2 := by
  rw [after_bind, after_database]
  cases hCache : p.1.cache with
  | some db =>
    have hContents : contents kept p = db := by rw [contents, hCache, Option.getD_some]
    rw [hContents] at h
    exact h p
  | none =>
    have hContents : contents kept p = kept p.2 := by rw [contents, hCache, Option.getD_none]
    have hKept := hb.kept_load p.2
    cases hLoad : b.load.run p.2 with
    | mk result w =>
      rw [hLoad] at hKept
      cases result with
      | error e => exact .unloaded hCache hKept
      | ok db =>
        obtain rfl : db = kept p.2 := hb.of_load p.2 db (by rw [hLoad])
        rw [hContents] at h
        exact .of_loaded hCache hKept (h _)

theorem evaluate_attempts (plan : Plan) (parameters : List Datum) (clock : Moment)
    (p : Session × σ) :
    Attempts b kept plan.isMutation (plan.change? parameters clock (contents kept p)) p
      (after (evaluate b plan parameters clock) p).1
      (after (evaluate b plan parameters clock) p).2 := by
  refine attempts_of_database hb fun q => ?_
  rw [Plan.change?]
  cases hEvaluate : plan.evaluate parameters clock (contents kept p) with
  | mk result changed =>
    cases result with
    | error e => exact attempts_throw (ite_self none) fun _ hFault => by cases hFault
    | ok outcome =>
      cases plan.isMutation with
      | false => exact attempts_pure rfl rfl outcome
      | true => exact (commit_attempts hb changed q).of_map fun _ => outcome

theorem run_attempts (plan : Plan) (parameters : List Datum) (clock : Moment) (p : Session × σ) :
    Attempts b kept plan.isMutation (plan.change? parameters clock (contents kept p)) p
      (after (run b plan parameters clock) p).1 (after (run b plan parameters clock) p).2 := by
  cases hMutation : plan.isMutation with
  | false =>
    rw [run_of_query b hMutation]
    exact attempts_pure (Plan.change?_of_not_isMutation hMutation _ _ _) rfl _
  | true =>
    rw [run, if_pos hMutation, ← hMutation]
    exact (evaluate_attempts hb plan parameters clock p).of_map Outcome.stats

theorem query_attempts (plan : Plan) (parameters : List Datum) (clock : Moment)
    (p : Session × σ) :
    Attempts b kept false none p (after (query b plan parameters clock) p).1
      (after (query b plan parameters clock) p).2 := by
  rw [query]
  split
  · exact attempts_pure rfl rfl _
  · split
    · next hQuery =>
      have hMutation := Plan.isMutation_of_isQuery hQuery
      have hAttempts := evaluate_attempts hb plan parameters clock p
      rw [Plan.change?_of_not_isMutation hMutation, hMutation] at hAttempts
      exact hAttempts
    · exact attempts_throw rfl fun _ hFault => by cases hFault

theorem exec_attempts (script : String) (p : Session × σ) :
    Attempts b kept true (some ((clearedTables script).foldl Database.clear (contents kept p))) p
      (after (exec b script) p).1 (after (exec b script) p).2 :=
  attempts_of_database hb fun q => (commit_attempts hb _ q).of_map fun _ => _

end Faithful

/-! ## Requests -/

namespace Request

/-- Whether a request has a mutation carried out. Asked for rows a mutation is refused. -/
def isMutation (dialect : Dialect) : Request → Bool
  | run text .. | dispatch .run text .. =>
    (Plan.ofText dialect text).toOption.any Plan.isMutation
  | runPrepared plan .. => plan.isMutation
  | _ => false

/-- Whether a request is a script. -/
def isExec : Request → Bool
  | exec _ | dispatch .exec .. => true
  | _ => false

/-- Whether a request is a flush. -/
def isFlush : Request → Bool
  | flush => true
  | _ => false

theorem eq_flush_of_isFlush {request : Request} (h : request.isFlush = true) :
    request = .flush := by
  cases request with
  | flush => rfl
  | run | get | all | dispatch | exec | explain | prepare | runPrepared | getPrepared | allPrepared
  | database => cases h

/-- Whether a request may change the database: a mutation or a script. -/
def changes (dialect : Dialect) (request : Request) : Bool :=
  request.isMutation dialect || request.isExec

theorem changes_of_not_isExec {dialect : Dialect} {request : Request}
    (h : request.isExec = false) : request.changes dialect = request.isMutation dialect := by
  rw [changes, h, Bool.or_false]

/-- The database that a request puts in the place of another, if it changes it. -/
def change? (dialect : Dialect) (db : Database) : Request → Option Database
  | run text parameters clock | dispatch .run text parameters clock =>
    (Plan.ofText dialect text).toOption.bind fun p => p.change? parameters clock db
  | runPrepared p parameters clock => p.change? parameters clock db
  | exec script | dispatch .exec script _ _ => some ((clearedTables script).foldl Database.clear db)
  | _ => none

end Request

section Compiled

variable {b : Backend (StateM σ)} {kept : σ → Database} {p : Session × σ}

/-- A text that does not compile leaves everything as it is. -/
theorem Attempts.of_compile {text : String} {call : Plan → Call (StateM σ) α}
    {changes : Plan → Bool} {change? : Plan → Option Database}
    (h : ∀ plan, Attempts b kept (changes plan) (change? plan) p (after (call plan) p).1
      (after (call plan) p).2) :
    Attempts b kept ((Plan.ofText p.1.dialect text).toOption.any changes)
      ((Plan.ofText p.1.dialect text).toOption.bind change?) p
      (after (do call (← compile text)) p).1 (after (do call (← compile text)) p).2 := by
  rw [after_bind, after_compile]
  cases Plan.ofText p.1.dialect text with
  | error e => exact .passes rfl nofun (fun _ hFault => by cases hFault) (.refl p)
  | ok plan => exact h plan

theorem Attempts.of_query {text : String} {call : Plan → Call (StateM σ) α}
    (h : ∀ plan, Attempts b kept false none p (after (call plan) p).1 (after (call plan) p).2) :
    Attempts b kept false none p (after (do call (← compile text)) p).1
      (after (do call (← compile text)) p).2 := by
  rw [after_bind, after_compile]
  cases Plan.ofText p.1.dialect text with
  | error e => exact .passes rfl nofun (fun _ hFault => by cases hFault) (.refl p)
  | ok plan => exact h plan

end Compiled

section Perform

variable {b : Backend (StateM σ)} {kept : σ → Database} (hb : b.Faithful kept)

include hb

theorem dispatch_attempts (mode : Mode) (text : String) (parameters : List Datum) (clock : Moment)
    (p : Session × σ) :
    Attempts b kept ((Request.dispatch mode text parameters clock).changes p.1.dialect)
      ((Request.dispatch mode text parameters clock).change? p.1.dialect (contents kept p)) p
      (after (dispatch b mode text parameters clock) p).1
      (after (dispatch b mode text parameters clock) p).2 := by
  cases mode with
  | exec => exact (exec_attempts hb text p).of_map _
  | run =>
    rw [Request.changes_of_not_isExec rfl]
    exact .of_compile fun plan => (run_attempts hb plan parameters clock p).of_map _
  | get => exact .of_query fun plan => (query_attempts hb plan parameters clock p).of_map _
  | all => exact .of_query fun plan => (query_attempts hb plan parameters clock p).of_map _

/-- What comes of the change of every request but a flush. -/
theorem perform_attempts {request : Request} (hFlush : request.isFlush = false)
    (p : Session × σ) :
    Attempts b kept (request.changes p.1.dialect)
      (request.change? p.1.dialect (contents kept p)) p (after (request.perform b) p).1
      (after (request.perform b) p).2 := by
  cases request with
  | run text parameters clock =>
    rw [Request.changes_of_not_isExec rfl]
    exact .of_compile fun plan => (run_attempts hb plan parameters clock p).of_map _
  | get text parameters clock =>
    exact .of_query fun plan => (query_attempts hb plan parameters clock p).of_map _
  | all text parameters clock =>
    exact .of_query fun plan => (query_attempts hb plan parameters clock p).of_map _
  | dispatch mode text parameters clock =>
    exact (dispatch_attempts hb mode text parameters clock p).of_map _
  | exec script => exact (exec_attempts hb script p).of_map _
  | explain text | prepare text =>
    exact .of_query fun plan => attempts_pure rfl rfl _
  | runPrepared plan parameters clock =>
    rw [Request.changes_of_not_isExec rfl]
    exact (run_attempts hb plan parameters clock p).of_map _
  | getPrepared plan parameters clock | allPrepared plan parameters clock =>
    exact (query_attempts hb plan parameters clock p).of_map _
  | database => exact attempts_of_database hb fun q => attempts_pure rfl rfl _
  | flush => cases hFlush

/-- Every request but a flush looks, or commits if it is a mutation or a script. -/
theorem perform_acts {request : Request} (hFlush : request.isFlush = false) (p : Session × σ) :
    Acts kept (request.changes p.1.dialect) p (after (request.perform b) p).1.isOk
      (after (request.perform b) p).2 :=
  (perform_attempts hb hFlush p).acts

theorem perform_flush (p : Session × σ) :
    Flushes kept p (after (Request.flush.perform b) p).1.isOk
      (after (Request.flush.perform b) p).2 := by
  have hFlush := flush_flushes hb p
  rw [Request.perform, after_bind]
  generalize after (flush b) p = result at hFlush ⊢
  obtain ⟨_ | _, q⟩ := result
  · exact hFlush
  · exact hFlush

end Perform

end Session

end RecordStore
