import RecordStore.Proofs.Binding
import RecordStore.Proofs.FailedCalls

/-!
# Runs on one database

What a session does is followed here with the database alone. A session works on a database if it
has it already, or if the database is what it gets as soon as a load succeeds (`Offers`). That is all
that is asked: nothing is said of what a backend makes of what it saves, so it may change it, and any
load and any save may fail.

A call is described by what may come of it (`Meets`): it answers and leaves a database as it should,
or it is refused and leaves the database that it has found, or a changed database cannot be saved and
stays in the session all the same (`Ends`). The database that a request leaves is what a command or a
script makes of the one before, or that one itself (`Carries`), and a run is a chain of such requests
(`Runs`).

## Main results

- `meets_perform`: what may come of a request.
- `runs_afterHistory`: every history is a run.
-/

namespace RecordStore

open Storage (Backend StorageError)

variable {σ α β : Type}

/-! ## The database of a session -/

namespace Storage.Backend

/-- From a state on, every load that succeeds gives a database, as long as nothing is saved. -/
def Offers (b : Backend (StateM σ)) (db : Database) (w : σ) : Prop :=
  ∃ among : σ → Prop, among w ∧ ∀ v, among v →
    among (b.load.run v).2 ∧ ∀ loaded, (b.load.run v).1 = .ok loaded → loaded = db

/-- Neither a load nor a save leads out of the states that are ready. -/
structure Keeps (b : Backend (StateM σ)) (ready : σ → Prop) : Prop where
  load : ∀ w, ready w → ready (b.load.run w).2
  save : ∀ db w, ready w → ready (b.save db |>.run w).2

variable {b : Backend (StateM σ)} {db : Database} {w : σ}

theorem Offers.next (h : b.Offers db w) : b.Offers db (b.load.run w).2 := by
  obtain ⟨among, hHere, hNext⟩ := h
  exact ⟨among, (hNext w hHere).1, hNext⟩

theorem Offers.eq_of_load (h : b.Offers db w) {loaded : Database}
    (hLoad : (b.load.run w).1 = .ok loaded) : loaded = db := by
  obtain ⟨among, hHere, hNext⟩ := h
  exact (hNext w hHere).2 loaded hLoad

/-- What can be loaded without leaving a trace is offered. -/
theorem offers_of_load (h : b.load.run w = (.ok db, w)) : b.Offers db w := by
  refine ⟨fun v => v = w, rfl, fun v hv => ?_⟩
  rw [hv, h]
  exact ⟨rfl, fun loaded hLoaded => (Except.ok.inj hLoaded).symm⟩

theorem keeps_true (b : Backend (StateM σ)) : b.Keeps fun _ => True :=
  ⟨fun _ _ => trivial, fun _ _ _ => trivial⟩

theorem Stores.keeps {γ : Type} {ready : σ → Prop} {held : σ → γ} {written : Database → γ}
    (h : b.Stores ready held written) : b.Keeps ready :=
  ⟨h.ready_load, h.ready_save⟩

end Storage.Backend

namespace Session

/-- A session that has a database, or will have it as soon as a load succeeds. -/
structure WorksOn (b : Backend (StateM σ)) (ready : σ → Prop) (dialect : Dialect) (db : Database)
    (p : Session × σ) : Prop where
  dialect_eq : p.1.dialect = dialect
  cached : ∀ loaded, p.1.cache = some loaded → loaded = db
  offers : p.1.cache = none → b.Offers db p.2
  ready : ready p.2

section Triples

variable (b : Backend (StateM σ)) (ready : σ → Prop) (dialect : Dialect)

/-- What may come of a call on a database, which should answer and leave a database as `post` says. -/
inductive Ends (post : α → Database → Prop) (db : Database) :
    Except SessionError α → Database → Prop
  | answered {a : α} {changed : Database} : post a changed → Ends post db (.ok a) changed
  | refused (e : SessionError) : Ends post db (.error e) db
  | unsaved {a : α} {changed : Database} {fault : StorageError} {w : σ} : post a changed →
    ready w → ((b.save changed).run w).1 = .error fault →
    Ends post db (.error (.storage fault)) changed

/-- What holds before a call and after all that it should do holds however the call ends. -/
theorem Ends.preserves {b : Backend (StateM σ)} {ready : σ → Prop} {post : α → Database → Prop}
    {db changed : Database} {answer : Except SessionError α} {property : Database → Prop}
    (h : Ends b ready post db answer changed) (hDb : property db)
    (hPost : ∀ a left, post a left → property left) : property changed := by
  cases h with
  | answered hDone | unsaved hDone => exact hPost _ _ hDone
  | refused e => exact hDb

/-- A call that ends as `post` says in every session that works on a database. -/
def Meets (call : Call (StateM σ) α) (db : Database) (post : α → Database → Prop) : Prop :=
  ∀ p, WorksOn b ready dialect db p →
    ∃ changed, Ends b ready post db (after call p).1 changed ∧
      WorksOn b ready dialect changed (after call p).2

variable {b ready dialect} {db : Database} {post : α → Database → Prop}

theorem meets_pure {a : α} (h : post a db) : Meets b ready dialect (pure a) db post :=
  fun _ hp => ⟨db, .answered h, hp⟩

theorem meets_throw (e : SessionError) : Meets b ready dialect (throw e) db post :=
  fun _ hp => ⟨db, .refused e, hp⟩

theorem Meets.mono {call : Call (StateM σ) α} {target : α → Database → Prop}
    (h : Meets b ready dialect call db post)
    (hPost : ∀ a changed, post a changed → target a changed) :
    Meets b ready dialect call db target := by
  intro p hp
  obtain ⟨changed, hEnds, hWorks⟩ := h p hp
  refine ⟨changed, ?_, hWorks⟩
  generalize (after call p).1 = answer at hEnds ⊢
  cases hEnds with
  | answered hDone => exact .answered (hPost _ _ hDone)
  | refused e => exact .refused e
  | unsaved hDone hReady hFault => exact .unsaved (hPost _ _ hDone) hReady hFault

theorem Ends.map {f : α → β} {target : β → Database → Prop} {answer : Except SessionError α}
    {changed : Database} (h : Ends b ready post db answer changed)
    (hf : ∀ a changed, post a changed → target (f a) changed) :
    Ends b ready target db (answer.map f) changed := by
  cases h with
  | answered hPost => exact .answered (hf _ _ hPost)
  | refused e => exact .refused e
  | unsaved hPost hReady hFault => exact .unsaved (hf _ _ hPost) hReady hFault

theorem Meets.map {call : Call (StateM σ) α} {f : α → β} {target : β → Database → Prop}
    (h : Meets b ready dialect call db post)
    (hf : ∀ a changed, post a changed → target (f a) changed) :
    Meets b ready dialect (do return f (← call)) db target := by
  intro p hp
  obtain ⟨changed, hEnds, hWorks⟩ := h p hp
  rw [after_map]
  exact ⟨changed, hEnds.map hf, hWorks⟩

theorem meets_of_compile {text : String} {call : Plan → Call (StateM σ) α}
    (h : ∀ plan, Plan.ofText dialect text = .ok plan → Meets b ready dialect (call plan) db post) :
    Meets b ready dialect (do call (← compile text)) db post := by
  intro p hp
  rw [after_bind, after_compile, hp.dialect_eq]
  cases hPlan : Plan.ofText dialect text with
  | error e => exact ⟨db, .refused _, hp⟩
  | ok plan => exact h plan hPlan p hp

variable (hb : b.Keeps ready)

include hb

theorem meets_of_database {call : Database → Call (StateM σ) α}
    (h : Meets b ready dialect (call db) db post) :
    Meets b ready dialect (do call (← database b)) db post := by
  intro p hp
  rw [after_bind, after_database]
  cases hCache : p.1.cache with
  | some cached =>
    obtain rfl : cached = db := hp.cached cached hCache
    exact h p hp
  | none =>
    have hOffers := hp.offers hCache
    have hNext := hOffers.next
    have hReady := hb.load p.2 hp.ready
    cases hLoad : b.load.run p.2 with
    | mk result w =>
      rw [hLoad] at hNext hReady
      cases result with
      | error fault => exact ⟨db, .refused _, hp.dialect_eq, hp.cached, fun _ => hNext, hReady⟩
      | ok loaded =>
        obtain rfl : loaded = db := hOffers.eq_of_load (by rw [hLoad])
        exact h _ ⟨hp.dialect_eq, fun _ hLoaded => (Option.some.inj hLoaded).symm, nofun, hReady⟩

theorem meets_commit {post : Unit → Database → Prop} {changed : Database} (h : post () changed) :
    Meets b ready dialect (commit b changed) db post := by
  intro p hp
  have hKept (loaded : Database) (hLoaded : some changed = some loaded) : loaded = changed :=
    (Option.some.inj hLoaded).symm
  rw [after_commit]
  cases p.1.writeMode with
  | deferred => exact ⟨changed, .answered h, hp.dialect_eq, hKept, nofun, hp.ready⟩
  | through =>
    have hReady := hb.save changed p.2 hp.ready
    cases hSave : (b.save changed).run p.2 with
    | mk result w =>
      rw [hSave] at hReady
      cases result with
      | ok u => exact ⟨changed, .answered h, hp.dialect_eq, hKept, nofun, hReady⟩
      | error fault =>
        exact ⟨changed, .unsaved h hp.ready (by rw [hSave]), hp.dialect_eq, hKept, nofun, hReady⟩

/-- A flush may fail, but has nothing to change in the session. -/
theorem meets_flush {post : Unit → Database → Prop} (h : post () db) :
    Meets b ready dialect (flush b) db post := by
  intro p hp
  rw [flush, after_bind, after_get]
  simp only
  cases p.1.pending with
  | false => exact ⟨db, .answered h, hp⟩
  | true =>
    simp only [if_true]
    cases hCache : p.1.cache with
    | none => exact ⟨db, .answered h, hp.dialect_eq, hp.cached, hp.offers, hp.ready⟩
    | some cached =>
      have hLoaded (hNone : p.1.cache = none) (w : σ) : b.Offers db w := by
        rw [hCache] at hNone
        cases hNone
      have hReady := hb.save cached p.2 hp.ready
      simp only
      rw [after_bind, after_withBackend]
      cases hSave : (b.save cached).run p.2 with
      | mk result w =>
        rw [hSave] at hReady
        cases result with
        | ok u =>
          exact ⟨db, .answered h, hp.dialect_eq, hp.cached, fun hNone => hLoaded hNone w, hReady⟩
        | error fault =>
          exact ⟨db, .refused _, hp.dialect_eq, hp.cached, fun hNone => hLoaded hNone w, hReady⟩

end Triples

end Session

/-! ## What is carried out -/

/-- Without a table to change a command changes nothing, and counts no change. -/
theorem Command.run_of_target? {c : Command} (h : c.target? = none) (db : Database) :
    (c.run db).1.stats.inserted = 0 ∧ (c.run db).1.stats.deleted = 0 ∧ (c.run db).2 = db := by
  cases c with
  | select | nothing => exact ⟨rfl, rfl, rfl⟩
  | insert | update | delete => cases h

/-- The command of a plan that changes no records is about no table. -/
theorem Plan.target?_of_not_isMutation {p : Plan} (h : p.isMutation = false)
    {parameters : List Datum} {clock : Moment} {c : Command}
    (hCommand : p.command parameters clock = .ok c) : c.target? = none := by
  obtain ⟨action, count⟩ := p
  cases (fills_of_command hCommand).2 with
  | insert | update | delete => cases h
  | select | unrecognized => rfl

namespace Session

/-- What a call has done with a database: nothing, or what a command does, or a script. With it stand
the numbers of the records that are new and of those that are gone. -/
inductive Carries (command? : Option Command) (db : Database) : Nat → Nat → Database → Prop
  | nothing : Carries command? db 0 0 db
  | command {c : Command} : command? = some c →
    Carries command? db (c.run db).1.stats.inserted (c.run db).1.stats.deleted (c.run db).2
  | script (tables : List Table) :
    Carries command? db 0 (db.clearedCount tables) (tables.foldl Database.clear db)

/-- The command that a request has carried out as a change, if it has one. -/
def Request.command? (dialect : Dialect) : Request → Option Command
  | run text parameters clock | dispatch .run text parameters clock =>
    (Plan.ofText dialect text).toOption.bind fun plan => (plan.command parameters clock).toOption
  | runPrepared plan parameters clock => (plan.command parameters clock).toOption
  | _ => none

/-- The number of records that an answer reports as new. -/
def Answer.insertedCount : Answer → Nat
  | ran stats | dispatched _ stats => stats.inserted
  | _ => 0

/-- The number of records that an answer reports as gone. -/
def Answer.removedCount : Answer → Nat
  | ran stats | dispatched _ stats => stats.deleted
  | removed count => count
  | _ => 0

section Calls

variable {b : Backend (StateM σ)} {ready : σ → Prop} {dialect : Dialect} (hb : b.Keeps ready)

include hb

theorem meets_evaluate (plan : Plan) (parameters : List Datum) (clock : Moment) (db : Database) :
    Meets b ready dialect (evaluate b plan parameters clock) db fun outcome changed =>
      ∃ c, plan.command parameters clock = .ok c ∧ c.run db = (outcome, changed) := by
  refine meets_of_database hb ?_
  cases hCommand : plan.command parameters clock with
  | error e =>
    rw [Plan.evaluate_of_error hCommand]
    exact meets_throw _
  | ok c =>
    rw [Plan.evaluate_of_command hCommand]
    cases hMutation : plan.isMutation with
    | false =>
      obtain ⟨-, -, hSame⟩ :=
        Command.run_of_target? (Plan.target?_of_not_isMutation hMutation hCommand) db
      exact meets_pure ⟨c, rfl, Prod.ext rfl hSame⟩
    | true =>
      have hCommit : Meets b ready dialect (commit b (c.run db).2) db fun _ left =>
          left = (c.run db).2 := meets_commit hb rfl
      exact hCommit.map fun _ left hLeft => ⟨c, rfl, Prod.ext rfl hLeft.symm⟩

theorem meets_run (plan : Plan) (parameters : List Datum) (clock : Moment) (db : Database) :
    Meets b ready dialect (run b plan parameters clock) db fun stats changed =>
      Carries (plan.command parameters clock).toOption db stats.inserted stats.deleted
        changed := by
  rw [run]
  split
  · apply (meets_evaluate hb plan parameters clock db).map
    rintro outcome changed ⟨c, hCommand, hRun⟩
    have hCarries : Carries (plan.command parameters clock).toOption db _ _ _ :=
      .command (by rw [hCommand]; rfl)
    rw [hRun] at hCarries
    exact hCarries
  · exact meets_pure .nothing

theorem meets_query (plan : Plan) (parameters : List Datum) (clock : Moment) (db : Database) :
    Meets b ready dialect (query b plan parameters clock) db fun outcome changed =>
      outcome.stats.inserted = 0 ∧ outcome.stats.deleted = 0 ∧ changed = db := by
  rw [query]
  split
  · exact meets_pure ⟨rfl, rfl, rfl⟩
  · split
    · next hQuery =>
      apply (meets_evaluate hb plan parameters clock db).mono
      rintro outcome changed ⟨c, hCommand, hRun⟩
      have hIdle := Command.run_of_target?
        (Plan.target?_of_not_isMutation (Plan.isMutation_of_isQuery hQuery) hCommand) db
      rw [hRun] at hIdle
      exact hIdle
    · exact meets_throw _

/-- A script is counted table by table, as it goes. -/
theorem meets_exec (script : String) (command? : Option Command) (db : Database) :
    Meets b ready dialect (exec b script) db fun removed changed =>
      Carries command? db 0 removed changed := by
  refine meets_of_database hb ?_
  have hCommit : Meets b ready dialect
      (commit b ((clearedTables script).foldl Database.clear db)) db fun _ left =>
        left = (clearedTables script).foldl Database.clear db := meets_commit hb rfl
  apply hCommit.map
  intro _ left hLeft
  rw [hLeft]
  exact .script _

theorem meets_dispatch (mode : Mode) (text : String) (parameters : List Datum) (clock : Moment)
    (db : Database) :
    Meets b ready dialect (dispatch b mode text parameters clock) db fun answer changed =>
      Carries ((Request.dispatch mode text parameters clock).command? dialect) db
        answer.2.inserted answer.2.deleted changed := by
  cases mode with
  | exec => exact (meets_exec hb text none db).map fun _ _ hDone => hDone
  | run =>
    refine meets_of_compile fun plan hPlan => ?_
    rw [Request.command?, hPlan]
    exact (meets_run hb plan parameters clock db).map fun _ _ hDone => hDone
  | get | all =>
    refine meets_of_compile fun plan _ => (meets_query hb plan parameters clock db).map ?_
    rintro outcome changed ⟨hInserted, hDeleted, rfl⟩
    rw [hInserted, hDeleted]
    exact .nothing

/-- What may come of a request, whatever its backend does. -/
theorem meets_perform (request : Request) (db : Database) :
    Meets b ready dialect (request.perform b) db fun answer changed =>
      Carries (request.command? dialect) db answer.insertedCount answer.removedCount changed := by
  cases request with
  | run text parameters clock =>
    refine meets_of_compile fun plan hPlan => ?_
    rw [Request.command?, hPlan]
    exact (meets_run hb plan parameters clock db).map fun _ _ hDone => hDone
  | get text parameters clock | all text parameters clock =>
    refine meets_of_compile fun plan _ => (meets_query hb plan parameters clock db).map ?_
    rintro outcome changed ⟨-, -, rfl⟩
    exact .nothing
  | dispatch mode text parameters clock =>
    exact (meets_dispatch hb mode text parameters clock db).map fun _ _ hDone => hDone
  | exec script => exact (meets_exec hb script none db).map fun _ _ hDone => hDone
  | explain text | prepare text => exact meets_of_compile fun _ _ => meets_pure .nothing
  | runPrepared plan parameters clock =>
    exact (meets_run hb plan parameters clock db).map fun _ _ hDone => hDone
  | getPrepared plan parameters clock | allPrepared plan parameters clock =>
    apply (meets_query hb plan parameters clock db).map
    rintro outcome changed ⟨-, -, rfl⟩
    exact .nothing
  | database => exact meets_of_database hb (meets_pure .nothing)
  | flush =>
    have hFlush : Meets b ready dialect (flush b) db fun _ left => left = db := meets_flush hb rfl
    apply hFlush.map
    intro _ left hLeft
    rw [hLeft]
    exact .nothing

end Calls

/-! ## Requests one after the other -/

section Runs

variable (b : Backend (StateM σ)) (ready : σ → Prop) (dialect : Dialect)

/-- A run from one database to another, with the answer to each request. -/
inductive Runs :
    Database → List Request → List (Except SessionError Answer) → Database → Prop
  | nil (db : Database) : Runs db [] [] db
  | cons {request : Request} {requests : List Request} {answer : Except SessionError Answer}
    {answers : List (Except SessionError Answer)} {db changed last : Database} :
    Ends b ready (fun answer left =>
      Carries (request.command? dialect) db answer.insertedCount answer.removedCount left) db answer
      changed →
    Runs changed requests answers last → Runs db (request :: requests) (answer :: answers) last

variable {b ready dialect}

/-- Every history is a run, and the next request finds the database at which the run ends. -/
theorem runs_afterHistory (hb : b.Keeps ready) (requests : List Request) {db : Database}
    {p : Session × σ} (hp : WorksOn b ready dialect db p) :
    ∃ last, Runs b ready dialect db requests (afterHistory b requests p).1 last ∧
      WorksOn b ready dialect last (afterHistory b requests p).2 := by
  induction requests generalizing p db with
  | nil => exact ⟨db, .nil db, hp⟩
  | cons request requests ih =>
    obtain ⟨changed, hEnds, hWorks⟩ := meets_perform hb request db p hp
    obtain ⟨last, hRuns, hLast⟩ := ih hWorks
    rw [afterHistory_cons]
    exact ⟨last, .cons hEnds hRuns, hLast⟩

end Runs

end Session

end RecordStore
