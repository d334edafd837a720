import RecordStore.CommandLine.Execution
import RecordStore.Proofs.FailedCalls
import RecordStore.Proofs.SavedFiles

/-!
# Writing through and writing later

A session that writes through saves every change at once, a deferred one leaves that to a flush. Up to
then their backends are in different states, so the two cannot be compared by what is held. What is
compared instead is what would be held after a flush (`settled`): the database in the session if it is
pending, and otherwise what the backend holds. Two sessions that agree on that, and on what they know
of the database (`Alike`), give the same answers and go on to agree, whatever their modes are.

All that is asked of the backend is that saves succeed (`Stores`); loads may fail. For a program that
carries out one statement and then saves, nothing is asked at all: in both modes it does the same
things with the backend in the same order.

## Main results

- `isBlind_perform`, `alike_afterHistory`: requests cannot tell two sessions that are alike.
- `settlesAlike_dispatch`: a statement and a flush are the same computation in both modes.
- `deferred_as_through`: a deferred session that is flushed has done what one that writes through does.
-/

namespace RecordStore

open Storage (Backend StorageError Disk FileSystem)

variable {σ γ : Type}

namespace Session

/-! ## Sessions that are alike -/

section Alike

variable (ready : σ → Prop) (held : σ → γ) (written : Database → γ)

/-- What the backend will hold when the session has saved what is pending. -/
def settled (p : Session × σ) : γ :=
  match p.1.pending, p.1.cache with
  | true, some db => written db
  | _, _ => held p.2

/-- Two sessions that no request tells apart, and that leave the same behind. They need not have the
same mode, nor have saved the same changes so far. -/
structure Alike (p q : Session × σ) : Prop where
  dialect : p.1.dialect = q.1.dialect
  cache : p.1.cache = q.1.cache
  unloaded : p.1.cache = none → p.1.pending = q.1.pending ∧ p.2 = q.2
  settled : settled held written p = settled held written q
  ready_left : ready p.2
  ready_right : ready q.2

/-- A call that answers alike sessions alike, and leaves them so. -/
def IsBlind {α : Type} (call : Call (StateM σ) α) : Prop :=
  ∀ p q, Alike ready held written p q →
    (after call p).1 = (after call q).1 ∧ Alike ready held written (after call p).2 (after call q).2

end Alike

section Parts

variable {ready : σ → Prop} {held : σ → γ} {written : Database → γ} {α β : Type}

theorem isBlind_pure (a : α) :
    IsBlind ready held written (pure a : Call (StateM σ) α) :=
  fun _ _ h => ⟨rfl, h⟩

theorem isBlind_throw (e : SessionError) :
    IsBlind ready held written (throw e : Call (StateM σ) α) :=
  fun _ _ h => ⟨rfl, h⟩

theorem IsBlind.bind {call : Call (StateM σ) α} {f : α → Call (StateM σ) β}
    (hCall : IsBlind ready held written call) (hf : ∀ a, IsBlind ready held written (f a)) :
    IsBlind ready held written (call >>= f) := by
  intro p q h
  obtain ⟨hAnswer, hAlike⟩ := hCall p q h
  rw [after_bind, after_bind]
  generalize after call p = x at hAnswer hAlike ⊢
  generalize after call q = y at hAnswer hAlike ⊢
  obtain ⟨answer, p⟩ := x
  obtain ⟨_, q⟩ := y
  obtain rfl : answer = _ := hAnswer
  cases answer with
  | ok a => exact hf a p q hAlike
  | error e => exact ⟨rfl, hAlike⟩

theorem isBlind_compile (text : String) :
    IsBlind ready held written (compile text : Call (StateM σ) Plan) := by
  intro p q h
  rw [after_compile, after_compile, h.dialect]
  exact ⟨rfl, h⟩

variable {b : Backend (StateM σ)} (hb : b.Stores ready held written)

include hb

/-- Without a database in the session the two backends are still in the same state. -/
theorem isBlind_database : IsBlind ready held written (database b) := by
  intro p q h
  rw [after_database, after_database, ← h.cache]
  cases hCache : p.1.cache with
  | some db => exact ⟨rfl, h⟩
  | none =>
    obtain ⟨hPending, hState⟩ := h.unloaded hCache
    have hReady := hb.ready_load p.2 h.ready_left
    rw [← hState]
    generalize b.load.run p.2 = loaded at hReady ⊢
    obtain ⟨_ | db, w⟩ := loaded
    · refine ⟨rfl, h.dialect, h.cache, fun _ => ⟨hPending, rfl⟩, ?_, hReady, hReady⟩
      simp only [Session.settled, ← h.cache, hCache, hPending]
    · refine ⟨rfl, h.dialect, rfl, nofun, ?_, hReady, hReady⟩
      simp only [Session.settled, hPending]

/-- A database that is taken over is what the backend will hold, if it is not what it holds. -/
theorem after_commit_of_ready (db : Database) {p : Session × σ} (hReady : ready p.2) :
    (after (commit b db) p).1 = .ok () ∧
      (after (commit b db) p).2.1.dialect = p.1.dialect ∧
      (after (commit b db) p).2.1.cache = some db ∧ ready (after (commit b db) p).2.2 ∧
      settled held written (after (commit b db) p).2 = written db := by
  rw [after_commit]
  cases p.1.writeMode with
  | deferred => exact ⟨rfl, rfl, rfl, hReady, rfl⟩
  | through =>
    have hSaved := hb.save_ok db p.2 hReady
    have hStays := hb.ready_save db p.2 hReady
    have hHeld := hb.held_save db p.2 hReady
    generalize (b.save db).run p.2 = saved at hSaved hStays hHeld ⊢
    obtain ⟨_, w⟩ := saved
    obtain rfl := hSaved
    exact ⟨rfl, rfl, rfl, hStays, hHeld⟩

theorem isBlind_commit (db : Database) : IsBlind ready held written (commit b db) := by
  intro p q h
  obtain ⟨hOk, hDialect, hCache, hReady, hSettled⟩ := after_commit_of_ready hb db h.ready_left
  obtain ⟨hOk', hDialect', hCache', hReady', hSettled'⟩ :=
    after_commit_of_ready hb db h.ready_right
  refine ⟨hOk.trans hOk'.symm, ?_, hCache.trans hCache'.symm, fun hNone => ?_,
    hSettled.trans hSettled'.symm, hReady, hReady'⟩
  · rw [hDialect, hDialect', h.dialect]
  · rw [hCache] at hNone
    cases hNone

/-- A flush makes the backend hold what it was to hold, and does nothing to one that is not used. -/
theorem after_flush_of_ready {p : Session × σ} (hReady : ready p.2) :
    (after (flush b) p).1 = .ok () ∧ (after (flush b) p).2.1 = { p.1 with pending := false } ∧
      (p.1.cache = none → (after (flush b) p).2.2 = p.2) ∧ ready (after (flush b) p).2.2 ∧
      held (after (flush b) p).2.2 = settled held written p := by
  obtain ⟨⟨cache, pending, writeMode, dialect⟩, w⟩ := p
  rw [flush, after_bind, after_get]
  cases pending with
  | false => exact ⟨rfl, rfl, fun _ => rfl, hReady, rfl⟩
  | true =>
    cases cache with
    | none => exact ⟨rfl, rfl, fun _ => rfl, hReady, rfl⟩
    | some db =>
      simp only [if_true]
      rw [after_bind, after_withBackend]
      have hSaved := hb.save_ok db w hReady
      have hStays := hb.ready_save db w hReady
      have hHeld := hb.held_save db w hReady
      generalize (b.save db).run w = saved at hSaved hStays hHeld ⊢
      obtain ⟨_, w'⟩ := saved
      obtain rfl := hSaved
      exact ⟨rfl, rfl, fun hNone => (by cases hNone), hStays, hHeld⟩

theorem isBlind_flush : IsBlind ready held written (flush b) := by
  intro p q h
  obtain ⟨hOk, hSession, hIdle, hReady, hHeld⟩ := after_flush_of_ready hb h.ready_left
  obtain ⟨hOk', hSession', hIdle', hReady', hHeld'⟩ := after_flush_of_ready hb h.ready_right
  refine ⟨hOk.trans hOk'.symm, ?_, ?_, fun hNone => ?_, ?_, hReady, hReady'⟩
  · rw [hSession, hSession']
    exact h.dialect
  · rw [hSession, hSession']
    exact h.cache
  · rw [hSession] at hNone
    rw [hSession, hSession', hIdle hNone, hIdle' (h.cache ▸ hNone)]
    exact ⟨rfl, (h.unloaded hNone).2⟩
  · have hSettled (p : Session × σ) (hClean : p.1.pending = false) :
        settled held written p = held p.2 := by simp only [settled, hClean]
    rw [hSettled _ (by rw [hSession]), hSettled _ (by rw [hSession']), hHeld, hHeld', h.settled]

end Parts

/-! ## Requests -/

section Requests

variable {ready : σ → Prop} {held : σ → γ} {written : Database → γ} {b : Backend (StateM σ)}
  (hb : b.Stores ready held written)

include hb

theorem isBlind_evaluate (plan : Plan) (parameters : List Datum) (clock : Moment) :
    IsBlind ready held written (evaluate b plan parameters clock) := by
  refine (isBlind_database hb).bind fun db => ?_
  obtain ⟨answer, changed⟩ := plan.evaluate parameters clock db
  cases answer with
  | error e => exact isBlind_throw _
  | ok outcome =>
    simp only
    split
    · exact (isBlind_commit hb changed).bind fun _ => isBlind_pure outcome
    · exact isBlind_pure outcome

theorem isBlind_run (plan : Plan) (parameters : List Datum) (clock : Moment) :
    IsBlind ready held written (run b plan parameters clock) := by
  rw [run]
  split
  · exact (isBlind_evaluate hb plan parameters clock).bind fun outcome => isBlind_pure _
  · exact isBlind_pure _

theorem isBlind_query (plan : Plan) (parameters : List Datum) (clock : Moment) :
    IsBlind ready held written (query b plan parameters clock) := by
  rw [query]
  split
  · exact isBlind_pure _
  · split
    · exact isBlind_evaluate hb plan parameters clock
    · exact isBlind_throw _

theorem isBlind_exec (script : String) : IsBlind ready held written (exec b script) :=
  (isBlind_database hb).bind fun _ => (isBlind_commit hb _).bind fun _ => isBlind_pure _

theorem isBlind_dispatch (mode : Mode) (text : String) (parameters : List Datum) (clock : Moment) :
    IsBlind ready held written (dispatch b mode text parameters clock) := by
  cases mode with
  | exec => exact (isBlind_exec hb text).bind fun _ => isBlind_pure _
  | run =>
    exact (isBlind_compile text).bind fun plan =>
      (isBlind_run hb plan parameters clock).bind fun _ => isBlind_pure _
  | get | all =>
    exact (isBlind_compile text).bind fun plan =>
      (isBlind_query hb plan parameters clock).bind fun _ => isBlind_pure _

/-- A request cannot tell two sessions that are alike. -/
theorem isBlind_perform (request : Request) :
    IsBlind ready held written (request.perform b) := by
  cases request with
  | run text parameters clock =>
    exact (isBlind_compile text).bind fun plan =>
      (isBlind_run hb plan parameters clock).bind fun _ => isBlind_pure _
  | get text parameters clock | all text parameters clock =>
    exact (isBlind_compile text).bind fun plan =>
      (isBlind_query hb plan parameters clock).bind fun _ => isBlind_pure _
  | dispatch mode text parameters clock =>
    exact (isBlind_dispatch hb mode text parameters clock).bind fun _ => isBlind_pure _
  | exec script => exact (isBlind_exec hb script).bind fun _ => isBlind_pure _
  | explain text | prepare text => exact (isBlind_compile text).bind fun _ => isBlind_pure _
  | runPrepared plan parameters clock =>
    exact (isBlind_run hb plan parameters clock).bind fun _ => isBlind_pure _
  | getPrepared plan parameters clock | allPrepared plan parameters clock =>
    exact (isBlind_query hb plan parameters clock).bind fun _ => isBlind_pure _
  | database => exact (isBlind_database hb).bind fun _ => isBlind_pure _
  | flush => exact (isBlind_flush hb).bind fun _ => isBlind_pure _

/-- Nor can any number of requests. -/
theorem alike_afterHistory (requests : List Request) {p q : Session × σ}
    (h : Alike ready held written p q) :
    (afterHistory b requests p).1 = (afterHistory b requests q).1 ∧
      Alike ready held written (afterHistory b requests p).2 (afterHistory b requests q).2 := by
  induction requests generalizing p q with
  | nil => exact ⟨rfl, h⟩
  | cons request requests ih =>
    obtain ⟨hAnswer, hNext⟩ := isBlind_perform hb request p q h
    obtain ⟨hAnswers, hEnd⟩ := ih hNext
    rw [afterHistory_cons, afterHistory_cons, hAnswer, hAnswers]
    exact ⟨rfl, hEnd⟩

end Requests

/-! ## One call and a flush -/

section Once

variable {m : Type → Type} [Monad m] {α β : Type}

/-- A call with a flush after it, whose answer is given when the flush has succeeded. -/
def flushed (b : Backend m) (call : Call m α) : Call m α := do
  let a ← call
  flush b
  return a

/-- The answer of a call, without the session that it leaves. -/
def answer (call : Call m α) (s : Session) : m (Except SessionError α) :=
  Prod.fst <$> call.run.run s

/-- With a flush after it a call is the same in both modes. Nothing is asked of the backend. -/
def SettlesAlike (b : Backend m) (call : Call m α) : Prop :=
  ∀ cache mode mode' dialect, answer (flushed b call) ⟨cache, false, mode, dialect⟩ =
    answer (flushed b call) ⟨cache, false, mode', dialect⟩

variable [LawfulMonad m]

theorem run_withBackend (action : m (Except StorageError α)) (s : Session) :
    (withBackend action : Call m α).run.run s =
      (fun result => (result.mapError .storage, s)) <$> action := by
  have hLift : (liftM action : Call m (Except StorageError α)).run.run s =
      (fun result => (.ok result, s)) <$> action := by
    show (Except.ok <$> (liftM action : StateT Session m (Except StorageError α))).run s = _
    simp
  rw [withBackend, run_bind, hLift, bind_map_left, map_eq_pure_bind]
  refine bind_congr fun result => ?_
  cases result <;> rfl

/-- A call in parts goes on in the session that the first part leaves. -/
theorem answer_bind (call : Call m α) (f : α → Call m β) (s : Session) :
    answer (call >>= f) s = call.run.run s >>= fun p =>
      match p with
      | (.ok a, s) => answer (f a) s
      | (.error e, _) => pure (.error e) := by
  rw [answer, run_bind, map_bind]
  refine bind_congr fun p => ?_
  obtain ⟨_ | a, s⟩ := p
  · exact map_pure _ _
  · rfl

theorem answer_pure (a : α) (s : Session) : answer (pure a : Call m α) s = pure (.ok a) := by
  have hPure : (pure a : Call m α).run.run s = pure (.ok a, s) := rfl
  rw [answer, hPure, map_pure]

/-- What is made of an answer makes no difference to what is done before. -/
theorem answer_map (call : Call m α) (f : α → β) (s : Session) :
    answer (do return f (← call)) s = Except.map f <$> answer call s := by
  rw [answer_bind, answer, Functor.map_map, map_eq_pure_bind]
  refine bind_congr fun p => ?_
  obtain ⟨_ | a, s⟩ := p
  · rfl
  · exact map_pure _ _

theorem flushed_bind (b : Backend m) (call : Call m α) (f : α → Call m β) :
    flushed b (call >>= f) = call >>= fun a => flushed b (f a) := by
  rw [flushed, bind_assoc]
  rfl

theorem flushed_pure (b : Backend m) (a : α) :
    flushed b (pure a) = do flush b; return a := by
  rw [flushed, pure_bind]

theorem flushed_map (b : Backend m) (call : Call m α) (f : α → β) :
    flushed b (do return f (← call)) = do return f (← flushed b call) := by
  rw [flushed_bind, flushed, bind_assoc]
  refine bind_congr fun a => ?_
  rw [flushed_pure, bind_assoc]
  simp only [pure_bind]

/-! ### Taking over a changed database -/

/-- A flush saves what is pending, which stays pending if it cannot be saved. -/
theorem run_flush_of_pending (b : Backend m) (db : Database) (mode : WriteMode)
    (dialect : Dialect) :
    (flush b).run.run ⟨some db, true, mode, dialect⟩ =
      (fun saved => (saved.mapError .storage, ⟨some db, !saved.isOk, mode, dialect⟩)) <$>
        b.save db := by
  rw [flush, run_bind, run_get, pure_bind]
  simp only [if_true]
  rw [run_bind, run_withBackend, bind_map_left, map_eq_pure_bind]
  refine bind_congr fun saved => ?_
  cases saved with
  | ok u => exact run_modify (fun s => { s with pending := false }) _
  | error e => rfl

theorem run_commit (b : Backend m) (db : Database) (cache : Option Database) (pending : Bool)
    (mode : WriteMode) (dialect : Dialect) :
    (commit b db).run.run ⟨cache, pending, mode, dialect⟩ =
      match mode with
      | .deferred => pure (.ok (), ⟨some db, true, mode, dialect⟩)
      | .through => (flush b).run.run ⟨some db, true, mode, dialect⟩ := by
  rw [commit, run_bind, run_modify, pure_bind]
  simp only
  rw [run_bind, run_get, pure_bind]
  simp only
  cases mode <;> rfl

/-- Before a flush it makes no difference whether a changed database has been saved already. -/
theorem answer_flushed_commit (b : Backend m) (db : Database) (a : α) (cache : Option Database)
    (pending : Bool) (mode : WriteMode) (dialect : Dialect) :
    answer (flushed b (do commit b db; return a)) ⟨cache, pending, mode, dialect⟩ =
      (fun saved => (saved.mapError .storage).map fun _ => a) <$> b.save db := by
  rw [flushed_bind, answer_bind, run_commit]
  simp only [flushed_pure]
  cases mode with
  | deferred =>
    simp only [pure_bind]
    rw [answer_map (flush b) fun _ => a, answer, run_flush_of_pending, Functor.map_map,
      Functor.map_map]
  | through =>
    simp only
    rw [run_flush_of_pending, bind_map_left, map_eq_pure_bind]
    refine bind_congr fun saved => ?_
    cases saved with
    | error e => rfl
    | ok u =>
      -- Nothing is pending any more, so the flush at the end does nothing.
      simp only [Except.mapError, Except.isOk]
      rw [answer_bind, flush_of_not_pending b rfl, pure_bind]
      exact answer_pure a _

variable {b : Backend m}

theorem settlesAlike_commit (db : Database) (a : α) :
    SettlesAlike b (do commit b db; return a) := by
  intro cache mode mode' dialect
  rw [answer_flushed_commit, answer_flushed_commit]

/-! ### Other parts -/

theorem settlesAlike_pure (a : α) : SettlesAlike b (pure a) := by
  intro cache mode mode' dialect
  rw [flushed_pure, answer_bind, answer_bind, flush_of_not_pending b rfl,
    flush_of_not_pending b rfl, pure_bind, pure_bind]
  exact (answer_pure a _).trans (answer_pure a _).symm

theorem settlesAlike_throw (e : SessionError) : SettlesAlike b (throw e : Call m α) := by
  intro cache mode mode' dialect
  have hThrow (s : Session) : (throw e : Call m α).run.run s = pure (.error e, s) := rfl
  rw [flushed, answer_bind, answer_bind, hThrow, hThrow, pure_bind, pure_bind]

theorem SettlesAlike.map {call : Call m α} (h : SettlesAlike b call) (f : α → β) :
    SettlesAlike b (do return f (← call)) := by
  intro cache mode mode' dialect
  rw [flushed_map, answer_map, answer_map, h cache mode mode' dialect]

theorem SettlesAlike.of_compile {text : String} {call : Plan → Call m α}
    (h : ∀ plan, SettlesAlike b (call plan)) : SettlesAlike b (do call (← compile text)) := by
  intro cache mode mode' dialect
  have hRun (mode : WriteMode) : (compile text : Call m Plan).run.run ⟨cache, false, mode, dialect⟩ =
      pure ((Plan.ofText dialect text).mapError .compile, ⟨cache, false, mode, dialect⟩) := by
    rw [compile, run_bind, run_get, pure_bind]
    simp only
    cases Plan.ofText dialect text <;> rfl
  rw [flushed_bind, answer_bind, answer_bind, hRun, hRun, pure_bind, pure_bind]
  cases Plan.ofText dialect text with
  | error e => rfl
  | ok plan => exact h plan cache mode mode' dialect

theorem run_database (cache : Option Database) (mode : WriteMode) (dialect : Dialect) :
    (database b).run.run ⟨cache, false, mode, dialect⟩ =
      match cache with
      | some db => pure (.ok db, ⟨some db, false, mode, dialect⟩)
      | none => b.load >>= fun loaded =>
        match loaded with
        | .ok db => pure (.ok db, ⟨some db, false, mode, dialect⟩)
        | .error e => pure (.error (.storage e), ⟨none, false, mode, dialect⟩) := by
  rw [database, run_bind, run_get, pure_bind]
  cases cache with
  | some db => rfl
  | none =>
    simp only
    rw [run_bind, run_withBackend, bind_map_left]
    refine bind_congr fun loaded => ?_
    cases loaded with
    | error e => rfl
    | ok db =>
      simp only [Except.mapError]
      rw [run_bind, run_modify, pure_bind]
      rfl

/-- Loading the database is the same in both modes. -/
theorem SettlesAlike.of_database {call : Database → Call m α}
    (h : ∀ db, SettlesAlike b (call db)) : SettlesAlike b (do call (← database b)) := by
  intro cache mode mode' dialect
  rw [flushed_bind, answer_bind, answer_bind, run_database, run_database]
  cases cache with
  | some db =>
    simp only [pure_bind]
    exact h db (some db) mode mode' dialect
  | none =>
    simp only
    rw [bind_assoc, bind_assoc]
    refine bind_congr fun loaded => ?_
    cases loaded with
    | error e => simp only [pure_bind]
    | ok db =>
      simp only [pure_bind]
      exact h db (some db) mode mode' dialect

/-! ### Statements and scripts -/

theorem settlesAlike_evaluate (plan : Plan) (parameters : List Datum) (clock : Moment) :
    SettlesAlike b (evaluate b plan parameters clock) := by
  refine .of_database fun db => ?_
  obtain ⟨result, changed⟩ := plan.evaluate parameters clock db
  cases result with
  | error e => exact settlesAlike_throw _
  | ok outcome =>
    simp only
    split
    · exact settlesAlike_commit changed outcome
    · exact settlesAlike_pure outcome

theorem settlesAlike_run (plan : Plan) (parameters : List Datum) (clock : Moment) :
    SettlesAlike b (run b plan parameters clock) := by
  rw [run]
  split
  · exact (settlesAlike_evaluate plan parameters clock).map _
  · exact settlesAlike_pure _

theorem settlesAlike_query (plan : Plan) (parameters : List Datum) (clock : Moment) :
    SettlesAlike b (query b plan parameters clock) := by
  rw [query]
  split
  · exact settlesAlike_pure _
  · split
    · exact settlesAlike_evaluate plan parameters clock
    · exact settlesAlike_throw _

theorem settlesAlike_exec (script : String) : SettlesAlike b (exec b script) :=
  .of_database fun _ => settlesAlike_commit _ _

theorem settlesAlike_dispatch (mode : Mode) (text : String) (parameters : List Datum)
    (clock : Moment) : SettlesAlike b (dispatch b mode text parameters clock) := by
  cases mode with
  | exec => exact (settlesAlike_exec text).map _
  | run => exact .of_compile fun plan => (settlesAlike_run plan parameters clock).map _
  | get | all => exact .of_compile fun plan => (settlesAlike_query plan parameters clock).map _

end Once

end Session

/-! ## The program -/

namespace CommandLine

open Session (SettlesAlike flushed answer)

variable {m : Type → Type} [Monad m] [LawfulMonad m] {α : Type}

/-- The program makes sure that there is a store, does its work in a new session and flushes it. -/
theorem Settings.run_inSession (disk : Disk m) (s : Settings) (work : Backend m → Session.Call m α) :
    (s.inSession disk work).run = (s.backend disk).ensureExists >>= fun made =>
      match made with
      | .ok () => answer (flushed (s.backend disk) (work (s.backend disk)))
          ⟨none, false, s.writeMode, s.dialect⟩
      | .error e => pure (.error (.storage e)) := by
  have hOpen : (s.openStore disk).run =
      (fun made => (made.mapError .storage).map fun () => ⟨none, false, s.writeMode, s.dialect⟩) <$>
        (s.backend disk).ensureExists := by
    rw [openStore, ExceptT.run_mk, Session.start, ExceptT.run_bind, ExceptT.run_mk, bind_assoc,
      map_eq_pure_bind]
    refine bind_congr fun made => ?_
    cases made <;> exact pure_bind _ _
  rw [inSession, ExceptT.run_bind, hOpen, bind_map_left]
  refine bind_congr fun made => ?_
  cases made <;> rfl

/-- Work that is alike in both modes is alike for the program. -/
theorem Settings.inSession_deferred (disk : Disk m) (s : Settings)
    {work : Backend m → Session.Call m α} (h : ∀ b, SettlesAlike b (work b)) :
    inSession disk { s with deferred := true } work =
      inSession disk { s with deferred := false } work := by
  refine ExceptT.ext ?_
  rw [run_inSession, run_inSession]
  refine bind_congr fun made => ?_
  cases made with
  | error e => rfl
  | ok u => exact h (s.backend disk) none .deferred .through s.dialect

theorem Invocation.perform_query_deferred (disk : Disk m) (clock : m Moment) (s : Settings)
    (mode : Mode) (statement : String) (parameters : List Datum) :
    (query { s with deferred := true } mode statement parameters).perform disk clock =
      (query { s with deferred := false } mode statement parameters).perform disk clock := by
  rw [perform, perform]
  refine bind_congr fun now => s.inSession_deferred disk fun b => ?_
  exact (Session.settlesAlike_dispatch mode statement parameters now).map
    fun shown => shown.1.toJson .indented ++ "\n"

theorem Invocation.perform_exec_deferred (disk : Disk m) (clock : m Moment) (s : Settings)
    (script : String) :
    (exec { s with deferred := true } script).perform disk clock =
      (exec { s with deferred := false } script).perform disk clock := by
  rw [perform, perform]
  refine s.inSession_deferred disk fun b => ?_
  exact (Session.settlesAlike_exec script).map fun removed => s!"{removed}\n"

end CommandLine

/-- Up to a flush a deferred session cannot be told from one that writes through. Whatever is asked of
the two, from the same session and the same state of the backend, the same is answered, and after a
flush the same is held. Therefore a query or a script on the command line is the same computation with
and without the flag, on any disk. -/
theorem deferred_as_through {b : Backend (StateM σ)} {ready : σ → Prop} {held : σ → γ}
    {written : Database → γ} (hb : b.Stores ready held written) (s : Session) {w : σ} (hw : ready w)
    (requests : List Session.Request) {m : Type → Type} [Monad m] [LawfulMonad m] (disk : Disk m)
    (clock : m Moment) (settings : CommandLine.Settings) :
    let through := Session.afterHistory b requests ({ s with writeMode := .through }, w)
    let deferred := Session.afterHistory b requests ({ s with writeMode := .deferred }, w)
    let saved := Session.after (Session.flush b) through.2
    let flushed := Session.after (Session.flush b) deferred.2
    deferred.1 = through.1 ∧ saved.1 = .ok () ∧ flushed.1 = .ok () ∧
      held flushed.2.2 = held saved.2.2 ∧
      (∀ mode statement parameters,
        (CommandLine.Invocation.query { settings with deferred := true } mode statement
            parameters).perform disk clock =
          (CommandLine.Invocation.query { settings with deferred := false } mode statement
            parameters).perform disk clock) ∧
      ∀ script,
        (CommandLine.Invocation.exec { settings with deferred := true } script).perform disk clock =
          (CommandLine.Invocation.exec { settings with deferred := false } script).perform disk
            clock := by
  have hAlike : Session.Alike ready held written ({ s with writeMode := .deferred }, w)
      ({ s with writeMode := .through }, w) := ⟨rfl, rfl, fun _ => ⟨rfl, rfl⟩, rfl, hw, hw⟩
  obtain ⟨hAnswers, hEnd⟩ := Session.alike_afterHistory hb requests hAlike
  obtain ⟨hSaved, -, -, -, hHeld⟩ := Session.after_flush_of_ready hb hEnd.ready_right
  obtain ⟨hFlushed, -, -, -, hHeld'⟩ := Session.after_flush_of_ready hb hEnd.ready_left
  exact ⟨hAnswers, hSaved, hFlushed, hHeld'.trans (hEnd.settled.trans hHeld.symm),
    CommandLine.Invocation.perform_query_deferred disk clock settings,
    CommandLine.Invocation.perform_exec_deferred disk clock settings⟩

/-- Two insertions, a failing statement and a query on a store file. A session that writes through
saves twice and a deferred one once, and the file is the same. -/
theorem deferred_as_through_file :
    let path : Storage.Path := ⟨"database.json"⟩
    let b := Backend.file FileSystem.disk path .indented
    let fs : FileSystem := ⟨[(["database.json"], .file "\x7b\x7d")], []⟩
    let insert (id : String) :=
      Session.Request.run "INSERT INTO users (id) VALUES (?)" [.text id] ⟨0, 0⟩
    let requests := [insert "u1", .flush, insert "u2", .run "DELETE" [] ⟨0, 0⟩,
      .all "SELECT id FROM users" [] ⟨0, 0⟩]
    let s : Session := ⟨none, false, .through, .strict⟩
    let through := Session.afterHistory b requests ({ s with writeMode := .through }, fs)
    let deferred := Session.afterHistory b requests ({ s with writeMode := .deferred }, fs)
    fs.IsClear path ∧ deferred.1 = through.1 ∧
      (Session.after (Session.flush b) deferred.2).2.2.read path =
        (Session.after (Session.flush b) through.2).2.2.read path := by
  intro path b fs insert requests s
  have hClear : fs.IsClear path := ⟨by decide +kernel, by decide +kernel⟩
  have hClear' : fs.IsClear ⟨"database.json.tmp"⟩ := ⟨by decide +kernel, by decide +kernel⟩
  have hb : b.Stores (fun fs => fs.IsClear path ∧ fs.IsClear ⟨"database.json.tmp"⟩)
      (fun fs => fs.read path) (fun db => .ok (Storage.document .indented db)) :=
    Storage.file_stores (by decide +kernel) (by decide +kernel) (by decide +kernel)
      (by decide +kernel) .indented
  obtain ⟨hAnswers, -, -, hHeld, -⟩ := deferred_as_through hb s ⟨hClear, hClear'⟩ requests
    FileSystem.disk (pure ⟨0, 0⟩) ⟨"database.json", false, false, false⟩
  exact ⟨hClear, hAnswers, hHeld⟩

end RecordStore
