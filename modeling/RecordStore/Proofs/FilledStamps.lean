import RecordStore.Proofs.SessionRuns
import RecordStore.Proofs.UpdatedRecords

/-!
# The times of a record

Two fields tell when a record was made and when it was changed last. An insertion fills them in where
they are missing, null or empty, after the last of its fields has been set, and an update sets the
second of them after all that it assigns. Nothing else sets a field of a record that is there. So in
all databases that are reached from an empty one every record has the second field filled, and the
first as well unless an update has assigned it.

## Main results

- `isFilled_created`, `isFilled_updated`: the fields of a record that is new or changed.
- `Filled.run`: a command leaves every record with its times.
- `history_filled`: the records of all databases that are reached.
-/

namespace RecordStore

open Storage (Backend)

variable {clock : Moment} {name : String}

/-! ## One record -/

/-- No time is written as the empty text. -/
theorem Moment.stamp_ne_empty (m : Moment) : m.stamp ≠ "" := by
  intro h
  have hChars : m.stampChars = [] := by
    have hLists := congrArg String.toList h
    rw [stamp, String.toList_ofList] at hLists
    exact hLists
  exact List.append_ne_nil_of_right_ne_nil _ (List.cons_ne_nil _ _) hChars

theorem Datum.isBlank_eq_false_iff {value? : Option Datum} :
    isBlank value? = false ↔ ∃ value, value? = some value ∧ value ≠ .null ∧ value ≠ .text "" := by
  cases value? with
  | none => simp [isBlank]
  | some value => cases value <;> simp [isBlank]

namespace Record

/-- A field is there, and its value is neither null nor the empty text. -/
def IsFilled (r : Record) (name : String) : Prop :=
  ∃ value, r.get? name = some value ∧ value ≠ .null ∧ value ≠ .text ""

variable {r : Record}

theorem isFilled_insert_stamp (r : Record) (name : String) (clock : Moment) :
    (r.insert name (.text clock.stamp)).IsFilled name := by
  refine ⟨.text clock.stamp, get?_insert_self r name _, nofun, fun hEmpty => ?_⟩
  exact clock.stamp_ne_empty (Datum.text.inj hEmpty)

/-- A time that is put into another field, or into the same one, leaves a field filled. -/
theorem IsFilled.insert_stamp (h : r.IsFilled name) (other : String) (clock : Moment) :
    (r.insert other (.text clock.stamp)).IsFilled name := by
  by_cases hName : name = other
  · rw [hName]
    exact isFilled_insert_stamp r other clock
  · rw [IsFilled, get?_insert, if_neg hName]
    exact h

theorem isFilled_stamped (r : Record) (name : String) (clock : Moment) :
    (r.stamped clock name).IsFilled name := by
  rw [stamped]
  split
  · exact isFilled_insert_stamp r name clock
  · next hBlank => exact Datum.isBlank_eq_false_iff.1 (Bool.eq_false_iff.2 hBlank)

theorem IsFilled.stamped (h : r.IsFilled name) (other : String) (clock : Moment) :
    (r.stamped clock other).IsFilled name := by
  rw [Record.stamped]
  split
  · exact h.insert_stamp other clock
  · exact h

/-- A field that is filled in stays so while others are. -/
theorem isFilled_foldl_stamped {names : List String} (h : name ∈ names ∨ r.IsFilled name) :
    (names.foldl (Record.stamped clock) r).IsFilled name := by
  induction names generalizing r with
  | nil => exact h.resolve_left List.not_mem_nil
  | cons first names ih =>
    rw [List.foldl_cons]
    apply ih
    rcases h with hMem | hFilled
    · rcases List.mem_cons.1 hMem with rfl | hRest
      · exact .inr (isFilled_stamped r name clock)
      · exact .inl hRest
    · exact .inr (hFilled.stamped first clock)

theorem isFilled_created (h : name ∈ [createdAt, updatedAt]) (fields : List (String × Datum))
    (clock : Moment) : (created fields clock).IsFilled name :=
  isFilled_foldl_stamped (.inl h)

/-- An update leaves a field filled if it is the time of the change, or is not assigned. -/
theorem isFilled_updated {fields : List (String × Datum)}
    (h : name = updatedAt ∨ name ∉ fields.map Prod.fst ∧ r.IsFilled name) (clock : Moment) :
    (r.updated fields clock).IsFilled name := by
  rcases h with rfl | ⟨hKept, hFilled⟩
  · exact isFilled_insert_stamp _ updatedAt clock
  · apply IsFilled.insert_stamp
    rw [IsFilled, get?_insertAll_of_not_mem hKept]
    exact hFilled

end Record

/-! ## One change -/

/-- A field of every record of every table is filled. -/
def Database.Filled (db : Database) (name : String) : Prop :=
  ∀ table, ∀ r ∈ db.records table, r.IsFilled name

namespace Database

variable {db : Database}

theorem filled_empty (name : String) : empty.Filled name := by
  intro table r hMem
  rw [records_empty] at hMem
  cases hMem

theorem Filled.withRecords (h : db.Filled name) (table : Table) {rs : List Record}
    (hRecords : ∀ r ∈ rs, r.IsFilled name) : (db.withRecords table rs).Filled name := by
  intro other r hMem
  rw [records_withRecords] at hMem
  split at hMem
  · exact hRecords r hMem
  · exact h other r hMem

theorem Filled.foldl_clear (h : db.Filled name) (tables : List Table) :
    (tables.foldl clear db).Filled name := by
  induction tables generalizing db with
  | nil => exact h
  | cons table tables ih => exact ih (h.withRecords table nofun)

end Database

/-- Whether a command assigns a field in records that are there. -/
def Command.assigns (name : String) : Command → Bool
  | update _ _ fields _ => name ∈ fields.map Prod.fst
  | _ => false

/-- A record that a plan inserts has its times. -/
theorem Plan.isFilled_of_command {p : Plan} {parameters : List Datum} {table : Table} {r : Record}
    (h : p.command parameters clock = .ok (.insert table r))
    (hName : name ∈ [createdAt, updatedAt]) : r.IsFilled name := by
  have hFills := (fills_of_command h).2
  generalize p.action = action at hFills
  cases hFills with
  | insert => exact Record.isFilled_created hName _ clock

theorem Database.Filled.run {db : Database} (h : db.Filled name) {c : Command}
    (hInserted : ∀ table r, c = .insert table r → r.IsFilled name)
    (hAssigns : name = updatedAt ∨ c.assigns name = false) : (c.run db).2.Filled name := by
  cases c with
  | insert table r =>
    apply h.withRecords
    intro other hMem
    rcases List.mem_append.1 hMem with hOld | hNew
    · exact h table other hOld
    · rw [List.mem_singleton.1 hNew]
      exact hInserted table r rfl
  | update table m fields clock =>
    apply h.withRecords
    intro changed hMem
    obtain ⟨r, hOld, rfl⟩ := List.mem_map.1 hMem
    split
    · apply Record.isFilled_updated
      exact hAssigns.imp_right fun hKept => ⟨of_decide_eq_false hKept, h table r hOld⟩
    · exact h table r hOld
  | delete table m =>
    apply h.withRecords
    exact fun r hMem => h table r (List.mem_of_mem_filter hMem)
  | select | nothing => exact h

namespace Session

/-! ## Runs -/

/-- Whether a request has an update carried out that assigns a field. -/
def Request.assigns (dialect : Dialect) (name : String) (request : Request) : Bool :=
  (request.command? dialect).any (Command.assigns name)

theorem Request.isFilled_of_command? {dialect : Dialect} {request : Request} {table : Table}
    {r : Record} (h : request.command? dialect = some (.insert table r))
    (hName : name ∈ [createdAt, updatedAt]) : r.IsFilled name := by
  cases request with
  | run text parameters clock =>
    obtain ⟨plan, -, hCommand⟩ := Option.bind_eq_some_iff.1 h
    exact Plan.isFilled_of_command (ok_of_toOption hCommand) hName
  | dispatch mode text parameters clock =>
    cases mode with
    | run =>
      obtain ⟨plan, -, hCommand⟩ := Option.bind_eq_some_iff.1 h
      exact Plan.isFilled_of_command (ok_of_toOption hCommand) hName
    | all | get | exec => cases h
  | runPrepared plan parameters clock => exact Plan.isFilled_of_command (ok_of_toOption h) hName
  | get | all | exec | explain | prepare | getPrepared | allPrepared | database | flush => cases h

variable {σ : Type} {b : Backend (StateM σ)} {ready : σ → Prop} {dialect : Dialect}
  {db : Database}

theorem Carries.filled {request : Request} {inserted removed : Nat} {changed : Database}
    (h : Carries (request.command? dialect) db inserted removed changed)
    (hName : name ∈ [createdAt, updatedAt])
    (hAssigns : name = updatedAt ∨ request.assigns dialect name = false)
    (hDb : db.Filled name) : changed.Filled name := by
  cases h with
  | nothing => exact hDb
  | @command c hCommand =>
    apply hDb.run
    · intro table r hInsert
      rw [hInsert] at hCommand
      exact Request.isFilled_of_command? hCommand hName
    · rw [Request.assigns, hCommand] at hAssigns
      exact hAssigns
  | script tables => exact hDb.foldl_clear tables

theorem Runs.filled {requests : List Request} {answers : List (Except SessionError Answer)}
    {last : Database} (h : Runs b ready dialect db requests answers last)
    (hName : name ∈ [createdAt, updatedAt])
    (hAssigns : name = updatedAt ∨ ∀ request ∈ requests, request.assigns dialect name = false)
    (hDb : db.Filled name) : last.Filled name := by
  induction h with
  | nil => exact hDb
  | @cons request requests answer answers db changed last hEnds _ ih =>
    apply ih (hAssigns.imp_right fun hAll other hMem => hAll other (List.mem_cons_of_mem _ hMem))
    apply hEnds.preserves hDb
    intro a left hDone
    apply hDone.filled hName _ hDb
    exact hAssigns.imp_right fun hAll => hAll request List.mem_cons_self

/-- The records of every database that is reached from an empty one, by any requests at any times. A
backend may fail in any way. Every record tells when it was changed last, and also when it was made
if no update has assigned that. -/
theorem history_filled {p : Session × σ} (hp : WorksOn b (fun _ => True) dialect .empty p)
    (requests : List Request) (hCache : (afterHistory b requests p).2.1.cache = some db) :
    db.Filled updatedAt ∧
      ((∀ request ∈ requests, request.assigns dialect createdAt = false) →
        db.Filled createdAt) := by
  obtain ⟨last, hRuns, hLast⟩ := runs_afterHistory (Backend.keeps_true b) requests hp
  obtain rfl : db = last := hLast.cached db hCache
  constructor
  · apply hRuns.filled _ (.inl rfl) (Database.filled_empty _)
    exact List.mem_cons_of_mem _ (List.mem_singleton_self _)
  · intro hAssigns
    apply hRuns.filled List.mem_cons_self (.inr hAssigns) (Database.filled_empty _)

/-- A user is inserted with an empty time, and an update takes the time of its change away. Both times
are filled all the same. -/
theorem history_filled_of_memory :
    let p : Session × Option Database := (⟨none, false, .through, .strict⟩, none)
    let requests := [
      Request.run "INSERT INTO users (id, created_at, created_at) VALUES ('u1', 'now', '')" []
        ⟨0, 0⟩,
      .run "UPDATE users SET updated_at = NULL" [] ⟨0, 0⟩]
    WorksOn Backend.memory (fun _ => True) .strict .empty p ∧
      ∃ db, (afterHistory Backend.memory requests p).2.1.cache = some db ∧
        (∀ request ∈ requests, request.assigns .strict createdAt = false) ∧
        requests.map (Request.assigns .strict updatedAt) = [false, true] ∧
        (db.records .users).length = 1 ∧ db.Filled updatedAt ∧ db.Filled createdAt := by
  intro p requests
  have hp : WorksOn Backend.memory (fun _ => True) .strict .empty p :=
    ⟨rfl, nofun, fun _ => Backend.offers_of_load rfl, trivial⟩
  have hKept : ∀ request ∈ requests, request.assigns .strict createdAt = false := by
    decide +kernel
  have hLength : (afterHistory Backend.memory requests p).2.1.cache.map (fun db =>
      (db.records .users).length) = some 1 := by
    decide +kernel
  obtain ⟨db, hCache, hUsers⟩ := Option.map_eq_some_iff.1 hLength
  obtain ⟨hUpdated, hCreated⟩ := history_filled hp requests hCache
  exact ⟨hp, db, hCache, hKept, by decide +kernel, hUsers, hUpdated, hCreated hKept⟩

end Session

end RecordStore
