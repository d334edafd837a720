import Mathlib.Logic.Function.Iterate
import RecordStore.Proofs.CacheCoherence

/-!
# Calls that fail

A call may fail before it has changed anything: its text has no plan, its parameters are too few, or
there is no database to be loaded. Then later calls see what they would have seen without it. It may
also fail after the change, when a session that writes through cannot save the changed database. The
session has taken the change over by then and keeps it, pending, so a call that is said to have
failed has been carried out all the same.

What a request changes is a function of the database (`Request.change?`), and `Attempts` says what
comes of it. One consequence holds of all histories: as soon as a session has its database, every
request is carried out once, whatever becomes of the saves (`contents_afterHistory`). A mutation that
is repeated until it succeeds is therefore applied once for every time that it was asked for, and not
just once.

## Main results

- `perform_contents_eq`: what becomes of the contents in a request.
- `contents_afterHistory`: the contents after a history, whichever saves fail.
- `failed_request`: what later calls see of a request that failed.
- `failed_insert_stays`: a record that is inserted twice because the first insertion failed.
-/

namespace RecordStore

open Storage (Backend StorageError)

namespace Session

/-- The database after a request that is carried out. -/
def Request.apply (dialect : Dialect) (request : Request) (db : Database) : Database :=
  (request.change? dialect db).getD db

variable {σ α : Type}

/-! ## What later calls see -/

section Contents

variable {b : Backend (StateM σ)} {kept : σ → Database} {changes ok : Bool}
  {change? : Option Database} {p q : Session × σ} {answer : Except SessionError α}

/-- A request without a database leaves everything as it is. With one it makes its change, in the
session at least. -/
theorem Attempts.contents_eq (h : Attempts b kept changes change? p answer q) :
    (p.1.cache = none ∧ q.1.cache = none ∧ contents kept q = contents kept p) ∨
      (q.1.cache ≠ none ∧ contents kept q = change?.getD (contents kept p)) := by
  cases h with
  | passes hNone _ _ hLooks =>
    have hContents := hLooks.contents_eq
    rw [hNone, Option.getD_none]
    rcases hLooks.session with hSame | ⟨-, hLoaded⟩
    · rw [hSame]
      cases hCache : p.1.cache with
      | none => exact .inl ⟨rfl, rfl, hContents⟩
      | some db => exact .inr ⟨Option.some_ne_none db, hContents⟩
    · exact .inr ⟨by rw [hLoaded]; exact Option.some_ne_none _, hContents⟩
  | unloaded hCache hKept => exact .inl ⟨hCache, hCache, by rw [contents, contents, hKept]⟩
  | saved _ hChange | unsaved _ hChange | deferred _ hChange =>
    exact .inr ⟨Option.some_ne_none _, by rw [hChange]; rfl⟩

theorem Flushes.contents_eq (h : Flushes kept p ok q) :
    q.1.cache = p.1.cache ∧ contents kept q = contents kept p := by
  cases h with
  | idle => exact ⟨rfl, rfl⟩
  | empty => exact ⟨rfl, rfl⟩
  | saved _ hCache => exact ⟨rfl, by simp only [contents, hCache, Option.getD_some]⟩
  | unsaved _ hKept => exact ⟨rfl, by rw [contents, contents, hKept]⟩

end Contents

section Histories

variable {b : Backend (StateM σ)} {kept : σ → Database} (hb : b.Faithful kept)

include hb

theorem perform_contents_eq (request : Request) (p : Session × σ) :
    let q := (after (request.perform b) p).2
    (p.1.cache = none ∧ q.1.cache = none ∧ contents kept q = contents kept p) ∨
      (q.1.cache ≠ none ∧ contents kept q = request.apply p.1.dialect (contents kept p)) := by
  cases hFlush : request.isFlush with
  | false => exact (perform_attempts hb hFlush p).contents_eq
  | true =>
    obtain rfl := Request.eq_flush_of_isFlush hFlush
    obtain ⟨hCache, hContents⟩ := (perform_flush hb p).contents_eq
    simp only
    rw [hCache]
    cases hNone : p.1.cache with
    | none => exact .inl ⟨rfl, rfl, hContents⟩
    | some db => exact .inr ⟨Option.some_ne_none db, hContents⟩

theorem perform_dialect (request : Request) (p : Session × σ) :
    (after (request.perform b) p).2.1.dialect = p.1.dialect := by
  cases hFlush : request.isFlush with
  | false => exact (perform_acts hb hFlush p).sameSettings.2
  | true =>
    obtain rfl := Request.eq_flush_of_isFlush hFlush
    exact (perform_flush hb p).sameSettings.2

omit hb in
theorem afterHistory_cons (request : Request) (requests : List Request) (p : Session × σ) :
    afterHistory b (request :: requests) p =
      ((after (request.perform b) p).1 ::
          (afterHistory b requests (after (request.perform b) p).2).1,
        (afterHistory b requests (after (request.perform b) p).2).2) := by
  simp only [afterHistory, history, List.mapM_cons]
  rfl

/-- In a session that has its database every request of a history is carried out once. Which of them
fail because of a save makes no difference. -/
theorem contents_afterHistory (requests : List Request) {p : Session × σ}
    (hCache : p.1.cache ≠ none) :
    contents kept (afterHistory b requests p).2 =
      requests.foldl (fun db request => request.apply p.1.dialect db) (contents kept p) := by
  induction requests generalizing p with
  | nil => rfl
  | cons request requests ih =>
    rcases perform_contents_eq hb request p with ⟨hNone, -, -⟩ | ⟨hNext, hContents⟩
    · exact absurd hNone hCache
    · rw [afterHistory_cons, List.foldl_cons, ih hNext, perform_dialect hb, hContents]

end Histories

theorem exists_error_of_isOk {answer : Except SessionError α} (h : answer.isOk = false) :
    ∃ e, answer = .error e := by
  cases answer with
  | ok a => cases h
  | error e => exact ⟨e, rfl⟩

theorem exists_ok_of_isOk {answer : Except SessionError α} (h : answer.isOk = true) :
    ∃ a, answer = .ok a := by
  cases answer with
  | ok a => exact ⟨a, rfl⟩
  | error e => cases h

theorem foldl_replicate_apply (dialect : Dialect) (request : Request) (n : Nat) (db : Database) :
    (List.replicate n request).foldl (fun db request => request.apply dialect db) db =
      (request.apply dialect)^[n] db := by
  induction n generalizing db with
  | zero => rfl
  | succ n ih => rw [List.replicate_succ, List.foldl_cons, ih, Function.iterate_succ_apply]

/-- What later calls see of a request. One that fails leaves the contents as they are, unless it is a
change in a session that writes through and the changed database could not be saved: then they see
the change, which waits for a flush. One that succeeds is carried out once. So a request that is
repeated is carried out every time, and not once, in a session that has its database. -/
theorem failed_request {b : Backend (StateM σ)} {kept : σ → Database} (hb : b.Faithful kept)
    (p : Session × σ) (request : Request) (hFlush : request.isFlush = false) :
    let answer := (after (request.perform b) p).1
    let q := (after (request.perform b) p).2
    (∀ e, answer = .error e →
      (((∀ fault, e ≠ .storage fault) ∨ p.1.cache = none) ∧ contents kept q = contents kept p ∧
        q.1.pending = p.1.pending ∧ kept q.2 = kept p.2) ∨
      (p.1.writeMode = .through ∧ ∃ db fault w,
        request.change? p.1.dialect (contents kept p) = some db ∧
        ((b.save db).run w).1 = .error fault ∧ e = .storage fault ∧ contents kept q = db ∧
        q.1.pending = true ∧ kept q.2 = kept p.2)) ∧
    (∀ a, answer = .ok a → contents kept q = request.apply p.1.dialect (contents kept p)) ∧
    ∀ db, p.1.cache = some db → ∀ n,
      contents kept (afterHistory b (List.replicate n request) p).2 =
        (request.apply p.1.dialect)^[n] db := by
  have hAttempts := perform_attempts hb hFlush p
  refine ⟨fun e hError => ?_, fun a hOk => ?_, fun db hCache n => ?_⟩
  · rw [hError] at hAttempts
    generalize (after (request.perform b) p).2 = q at hAttempts ⊢
    cases hAttempts with
    | passes _ _ hFault hLooks =>
      refine .inl ⟨.inl fun fault hStorage => hFault fault (congrArg _ hStorage), ?_⟩
      exact ⟨hLooks.contents_eq, hLooks.pending_eq, hLooks.kept⟩
    | unloaded hCache hKept =>
      exact .inl ⟨.inr hCache, by rw [contents, contents, hKept], rfl, hKept⟩
    | @unsaved fault db v w _ hChange hMode hSave hKept =>
      exact .inr ⟨hMode, db, fault, v, hChange, by rw [hSave], rfl, rfl, rfl, hKept⟩
  · rw [hOk] at hAttempts
    generalize (after (request.perform b) p).2 = q at hAttempts ⊢
    cases hAttempts with
    | passes hNone _ _ hLooks =>
      rw [Request.apply, hNone]
      exact hLooks.contents_eq
    | saved _ hChange | deferred _ hChange =>
      rw [Request.apply, hChange]
      rfl
  · have hContents : contents kept p = db := by rw [contents, hCache, Option.getD_some]
    rw [contents_afterHistory hb _ (by rw [hCache]; exact Option.some_ne_none db), hContents,
      foldl_replicate_apply]

/-- A record is inserted while no save succeeds. Every attempt fails, and every attempt inserts it. -/
theorem failed_request_of_full :
    let b : Backend (StateM (Option Database)) :=
      { Backend.memory with save := fun _ => return .error (.io ⟨"store"⟩ .busy) }
    let kept := fun saved : Option Database => saved.getD .empty
    let p : Session × Option Database := (⟨some .empty, false, .through, .strict⟩, some .empty)
    let request := Request.run "INSERT INTO users (id) VALUES ('u1')" [] ⟨0, 0⟩
    b.Faithful kept ∧ request.isFlush = false ∧
      (after (request.perform b) p).1.isOk = false ∧
      ((contents kept (afterHistory b (List.replicate 3 request) p).2).records .users).length =
        3 := by
  intro b kept p request
  have hb : b.Faithful kept := ⟨fun _ _ h => (Except.ok.inj h).symm, fun _ => rfl, nofun,
    fun _ _ _ _ => rfl⟩
  obtain ⟨-, -, hRepeated⟩ := failed_request hb p request rfl
  refine ⟨hb, rfl, by decide +kernel, ?_⟩
  rw [hRepeated .empty rfl 3]
  decide +kernel

/-- A directory stands where the temporary file of a store would be written. The insertion that fails
for it is seen by later calls, and when it is repeated after the directory is gone, the record is
there twice. -/
theorem failed_insert_stays :
    let b := Backend.file Storage.FileSystem.disk ⟨"database.json"⟩ .compact
    let kept := fun fs => ((b.load.run fs).1.toOption).getD .empty
    let insert := Request.run "INSERT INTO users (id) VALUES ('u1')" [] ⟨0, 0⟩
    let store : Storage.FileSystem := ⟨[(["database.json"], .file "\x7b\x7d\n")], []⟩
    let opened : Session × Storage.FileSystem :=
      (⟨none, false, .through, .strict⟩, store.put ["database.json.tmp"] .directory)
    let failed := after (insert.perform b) opened
    let retried := after (insert.perform b) (failed.2.1, failed.2.2.remove ["database.json.tmp"])
    (∃ e, failed.1 = .error e) ∧ contents kept failed.2 ≠ contents kept opened ∧
      (∃ a, retried.1 = .ok a) ∧
      ((contents kept opened).records .users).length = 0 ∧
      ((contents kept failed.2).records .users).length = 1 ∧
      ((contents kept retried.2).records .users).length = 2 := by
  intro b kept insert store opened failed retried
  have hBefore : ((contents kept opened).records .users).length = 0 := by decide +kernel
  have hFailed : ((contents kept failed.2).records .users).length = 1 := by decide +kernel
  have hRetried : ((contents kept retried.2).records .users).length = 2 := by decide +kernel
  refine ⟨exists_error_of_isOk (by decide +kernel), fun hSame => ?_,
    exists_ok_of_isOk (by decide +kernel), hBefore, hFailed, hRetried⟩
  rw [hSame, hBefore] at hFailed
  cases hFailed

end Session

end RecordStore
