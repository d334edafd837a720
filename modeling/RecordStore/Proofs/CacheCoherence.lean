import Mathlib.Data.List.Induction
import RecordStore.Proofs.SessionSteps

/-!
# The cache of a session and its backend

A session answers from its cache, and its backend holds what was saved last. Between calls the two
differ only while something is pending: a session with nothing pending either has no cache or has
the database that its backend keeps, and one with something pending has a cache to save it from
(`Coherent`). No pattern of loads and saves that fail breaks this.

What each request adds is said by `Accounts`: when a change is saved, that nothing but a flush saves
in the deferred mode, and that all other requests leave alone whatever a later one could see.

## Main results

- `Acts.coherent`, `Flushes.coherent`: one request keeps a session coherent.
- `afterHistory_coherent`: so do requests in any number.
- `history_accounts`: after every request of every history the cache and the backend are accounted
  for.
-/

namespace RecordStore.Session

open Storage (Backend)

variable {σ : Type}

/-- A session and its backend agree unless something is pending. -/
structure Coherent (kept : σ → Database) (p : Session × σ) : Prop where
  clean : p.1.pending = false → ∀ db, p.1.cache = some db → db = kept p.2
  dirty : p.1.pending = true → ∃ db, p.1.cache = some db

/-- What becomes of the cache, the pending flag and the backend in a request. -/
structure Accounts (kept : σ → Database) (request : Request) (p : Session × σ)
    (answer : Except SessionError Answer) (q : Session × σ) : Prop where
  through : p.1.writeMode = .through → request.changes p.1.dialect = true → answer.isOk = true →
    q.1.pending = false ∧ q.1.cache = some (kept q.2)
  deferred : p.1.writeMode = .deferred → request.isFlush = false → kept q.2 = kept p.2
  flushed : request.isFlush = true → answer.isOk = true →
    q.1.pending = false ∧ q.1.cache = p.1.cache ∧ ∀ db, q.1.cache = some db → db = kept q.2
  unchanged : request.changes p.1.dialect = false → request.isFlush = false →
    contents kept q = contents kept p ∧ q.1.pending = p.1.pending ∧ kept q.2 = kept p.2

/-! ## One request -/

section Steps

variable {kept : σ → Database} {p q : Session × σ} {changes ok : Bool}

theorem Looks.contents_eq (h : Looks kept p q) : contents kept q = contents kept p := by
  rw [contents, contents, h.kept]
  rcases h.session with hSame | ⟨hNone, hLoaded⟩
  · rw [hSame]
  · rw [hLoaded, hNone]
    rfl

theorem Looks.pending_eq (h : Looks kept p q) : q.1.pending = p.1.pending := by
  rcases h.session with hSame | ⟨-, hLoaded⟩
  · rw [hSame]
  · rw [hLoaded]

theorem Looks.coherent (h : Looks kept p q) (hp : Coherent kept p) : Coherent kept q := by
  rcases h.session with hSame | ⟨hNone, hLoaded⟩
  · refine ⟨fun hPending db hCache => ?_, fun hPending => ?_⟩
    · rw [h.kept]
      exact hp.clean (hSame ▸ hPending) db (hSame ▸ hCache)
    · obtain ⟨db, hCache⟩ := hp.dirty (hSame ▸ hPending)
      exact ⟨db, by rw [hSame, hCache]⟩
  · refine ⟨fun _ db hCache => ?_, fun _ => ⟨kept p.2, by rw [hLoaded]⟩⟩
    rw [hLoaded, Option.some.injEq] at hCache
    rw [h.kept, hCache]

theorem Commits.coherent (h : Commits kept p ok q) : Coherent kept q := by
  cases h with
  | saved => exact ⟨fun _ db hCache => (Option.some.inj hCache).symm, nofun⟩
  | unsaved => exact ⟨nofun, fun _ => ⟨_, rfl⟩⟩
  | deferred => exact ⟨nofun, fun _ => ⟨_, rfl⟩⟩

theorem Acts.coherent (h : Acts kept changes p ok q) (hp : Coherent kept p) : Coherent kept q := by
  cases h with
  | looks hLooks => exact hLooks.coherent hp
  | commits _ hCommits => exact hCommits.coherent

theorem Flushes.coherent (h : Flushes kept p ok q) (hp : Coherent kept p) : Coherent kept q := by
  cases h with
  | idle => exact hp
  | empty hPending hNone =>
    obtain ⟨db, hCache⟩ := hp.dirty hPending
    rw [hNone] at hCache
    cases hCache
  | saved _ hCache =>
    refine ⟨fun _ db hDb => ?_, nofun⟩
    rw [hCache] at hDb
    exact (Option.some.inj hDb).symm
  | unsaved hPending =>
    exact ⟨fun hNot => absurd (hPending.symm.trans hNot) (by decide), fun _ => hp.dirty hPending⟩

theorem Flushes.saved_of_ok (h : Flushes kept p ok q) (hOk : ok = true) :
    q.1.pending = false ∧ q.1.cache = p.1.cache := by
  cases h with
  | idle hIdle => exact ⟨hIdle, rfl⟩
  | empty | saved => exact ⟨rfl, rfl⟩
  | unsaved => cases hOk

theorem Commits.through (h : Commits kept p ok q) (hMode : p.1.writeMode = .through)
    (hOk : ok = true) : q.1.pending = false ∧ q.1.cache = some (kept q.2) := by
  cases h with
  | saved => exact ⟨rfl, rfl⟩
  | unsaved => cases hOk
  | deferred hDeferred => exact absurd (hMode.symm.trans hDeferred) (by decide)

theorem Commits.kept_of_deferred (h : Commits kept p ok q) (hMode : p.1.writeMode = .deferred) :
    kept q.2 = kept p.2 := by
  cases h with
  | saved hThrough => exact absurd (hThrough.symm.trans hMode) (by decide)
  | unsaved _ hKept => exact hKept
  | deferred _ hKept => exact hKept

/-- No step changes how a session writes or which dialect it reads. -/
def SameSettings (p q : Session × σ) : Prop :=
  q.1.writeMode = p.1.writeMode ∧ q.1.dialect = p.1.dialect

theorem Acts.sameSettings (h : Acts kept changes p ok q) : SameSettings p q := by
  cases h with
  | looks hLooks =>
    rcases hLooks.session with hSame | ⟨-, hLoaded⟩
    · rw [SameSettings, hSame]
      exact ⟨rfl, rfl⟩
    · rw [SameSettings, hLoaded]
      exact ⟨rfl, rfl⟩
  | commits _ hCommits => cases hCommits <;> exact ⟨rfl, rfl⟩

theorem Flushes.sameSettings (h : Flushes kept p ok q) : SameSettings p q := by
  cases h <;> exact ⟨rfl, rfl⟩

end Steps

section Faithful

variable {b : Backend (StateM σ)} {kept : σ → Database} (hb : b.Faithful kept)

include hb

theorem perform_coherent (request : Request) {p : Session × σ} (hp : Coherent kept p) :
    Coherent kept (after (request.perform b) p).2 ∧
      SameSettings p (after (request.perform b) p).2 := by
  cases hFlush : request.isFlush with
  | false =>
    have hActs := perform_acts hb hFlush p
    exact ⟨hActs.coherent hp, hActs.sameSettings⟩
  | true =>
    obtain rfl := Request.eq_flush_of_isFlush hFlush
    have hFlushes := perform_flush hb p
    exact ⟨hFlushes.coherent hp, hFlushes.sameSettings⟩

theorem perform_accounts (request : Request) {p : Session × σ} (hp : Coherent kept p) :
    Accounts kept request p (after (request.perform b) p).1 (after (request.perform b) p).2 := by
  cases hFlush : request.isFlush with
  | false =>
    rcases perform_acts hb hFlush p with ⟨hLooks, hFails⟩ | ⟨hChanges, hCommits⟩
    · refine ⟨fun _ hChanges hOk => ?_, fun _ _ => hLooks.kept, fun h => ?_, fun _ _ => ?_⟩
      · rw [hFails hChanges] at hOk
        cases hOk
      · rw [hFlush] at h
        cases h
      · exact ⟨hLooks.contents_eq, hLooks.pending_eq, hLooks.kept⟩
    · refine ⟨fun hMode _ hOk => hCommits.through hMode hOk, fun hMode _ => ?_, fun h => ?_,
        fun h _ => ?_⟩
      · exact hCommits.kept_of_deferred hMode
      · rw [hFlush] at h
        cases h
      · rw [hChanges] at h
        cases h
  | true =>
    obtain rfl := Request.eq_flush_of_isFlush hFlush
    have hFlushes := perform_flush hb p
    have hCoherent := hFlushes.coherent hp
    refine ⟨fun _ h => ?_, fun _ h => ?_, fun _ hOk => ?_, fun _ h => ?_⟩
    · cases h
    · cases h
    · obtain ⟨hClean, hCache⟩ := hFlushes.saved_of_ok hOk
      exact ⟨hClean, hCache, hCoherent.clean hClean⟩
    · cases h

end Faithful

/-! ## Histories -/

/-- What is answered to requests, and the point after the last of them. -/
def afterHistory (b : Backend (StateM σ)) (requests : List Request) (p : Session × σ) :
    List (Except SessionError Answer) × Session × σ :=
  let ((answers, s), w) := ((history b requests).run p.1).run p.2
  (answers, s, w)

/-- The last request of a history is carried out where the others end. -/
theorem afterHistory_concat (b : Backend (StateM σ)) (requests : List Request) (request : Request)
    (p : Session × σ) :
    afterHistory b (requests ++ [request]) p =
      ((afterHistory b requests p).1 ++
          [(after (request.perform b) (afterHistory b requests p).2).1],
        (after (request.perform b) (afterHistory b requests p).2).2) := by
  simp only [afterHistory, history, List.mapM_append, List.mapM_cons, List.mapM_nil]
  rfl

section Faithful

variable {b : Backend (StateM σ)} {kept : σ → Database} (hb : b.Faithful kept)

include hb

theorem afterHistory_coherent (requests : List Request) {p : Session × σ}
    (hp : Coherent kept p) :
    Coherent kept (afterHistory b requests p).2 ∧
      SameSettings p (afterHistory b requests p).2 := by
  -- Histories grow at the end: the next request starts where the others have ended.
  induction requests using List.reverseRecOn with
  | nil => exact ⟨hp, rfl, rfl⟩
  | append_singleton requests request ih =>
    obtain ⟨hCoherent, hSame⟩ := ih
    obtain ⟨hNext, hNextSame⟩ := perform_coherent hb request hCoherent
    rw [afterHistory_concat]
    exact ⟨hNext, hNextSame.1.trans hSame.1, hNextSame.2.trans hSame.2⟩

end Faithful

/-- A session that has just been opened has no cache and nothing pending. -/
theorem eq_of_start {b : Backend (StateM σ)} {writeMode : WriteMode} {dialect : Dialect}
    {s : Session} {w w' : σ} (h : (start b writeMode dialect).run.run w = (.ok s, w')) :
    s = ⟨none, false, writeMode, dialect⟩ := by
  have hRun : (start b writeMode dialect).run.run w =
      match b.ensureExists.run w with
      | (.ok _, w') => (.ok ⟨none, false, writeMode, dialect⟩, w')
      | (.error e, w') => (.error e, w') := by
    rw [start, ExceptT.run_bind, StateT.run_bind, ExceptT.run_mk]
    obtain ⟨_ | _, _⟩ := b.ensureExists.run w <;> rfl
  rw [hRun] at h
  generalize b.ensureExists.run w = made at h
  obtain ⟨_ | _, _⟩ := made
  · cases h
  · cases h
    rfl

/-- What is accounted for after every request of every history. The histories are all those of a
session that was opened on a faithful backend, and each is looked at with its last request. -/
theorem history_accounts {b : Backend (StateM σ)} {kept : σ → Database} (hb : b.Faithful kept)
    {writeMode : WriteMode} {dialect : Dialect} {w w' : σ} {s : Session}
    (hStart : (start b writeMode dialect).run.run w = (.ok s, w')) (requests : List Request)
    (request : Request) :
    let p := afterHistory b requests (s, w')
    let q := afterHistory b (requests ++ [request]) (s, w')
    Coherent kept p.2 ∧ Coherent kept q.2 ∧ p.2.1.writeMode = writeMode ∧
      p.2.1.dialect = dialect ∧
      ∃ answer, q.1 = p.1 ++ [answer] ∧ Accounts kept request p.2 answer q.2 := by
  obtain rfl : s = ⟨none, false, writeMode, dialect⟩ := eq_of_start hStart
  have hOpened : Coherent kept (⟨none, false, writeMode, dialect⟩, w') := ⟨nofun, nofun⟩
  obtain ⟨hCoherent, hMode, hDialect⟩ := afterHistory_coherent hb requests hOpened
  simp only
  rw [afterHistory_concat]
  exact ⟨hCoherent, (perform_coherent hb request hCoherent).1, hMode, hDialect, _, rfl,
    perform_accounts hb request hCoherent⟩

/-- A record is put into memory in the deferred mode, where it waits for the flush that follows. -/
theorem history_accounts_of_memory :
    Backend.memory.Faithful (fun saved => saved.getD .empty) ∧
      (start Backend.memory .deferred .strict).run.run none =
        (.ok ⟨none, false, .deferred, .strict⟩, some .empty) ∧
      let requests := [Request.run "INSERT INTO users (id) VALUES (?)" [.text "u1"] ⟨0, 0⟩]
      let p := afterHistory Backend.memory requests
        (⟨none, false, .deferred, .strict⟩, some .empty)
      let q := afterHistory Backend.memory (requests ++ [.flush])
        (⟨none, false, .deferred, .strict⟩, some .empty)
      Coherent (fun saved => saved.getD .empty) p.2 ∧
        Coherent (fun saved => saved.getD .empty) q.2 ∧ p.2.1.writeMode = .deferred ∧
        p.2.1.dialect = .strict ∧ ∃ answer, q.1 = p.1 ++ [answer] ∧
          Accounts (fun saved => saved.getD .empty) .flush p.2 answer q.2 := by
  have hStart : (start Backend.memory .deferred .strict).run.run none =
      (.ok ⟨none, false, .deferred, .strict⟩, some .empty) := rfl
  exact ⟨Backend.faithful_memory, hStart, history_accounts Backend.faithful_memory hStart _ _⟩

end RecordStore.Session
