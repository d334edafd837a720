import RecordStore.Storage.Backend

/-!
# Faithful backends

What may be relied on, said of a backend with a state that can be looked at: it loads what was saved
last, and a save that fails leaves that in place. Whether a load or a save fails may depend on the
state in any way, so failures may come in any pattern. A reliable backend has none.

A backend that stores what it is given asks for less: its saves succeed in the states in which it is
ready, and they show in some view of the state, which need not be a database.

## Main results

- `faithful_memory`, `reliable_memory`: memory keeps what is saved and never fails.
- `Faithful.stores`: a faithful backend that never fails stores what it is given.
-/

namespace RecordStore.Storage.Backend

variable {σ : Type}

/-- A backend loads what was saved last, which `kept` shows of its state. -/
structure Faithful (b : Backend (StateM σ)) (kept : σ → Database) : Prop where
  of_load : ∀ s db, (b.load.run s).1 = .ok db → db = kept s
  kept_load : ∀ s, kept (b.load.run s).2 = kept s
  kept_save : ∀ db s, (b.save db |>.run s).1 = .ok () → kept (b.save db |>.run s).2 = db
  kept_save_of_error : ∀ db s e, (b.save db |>.run s).1 = .error e →
    kept (b.save db |>.run s).2 = kept s

/-- A backend whose loads and saves succeed. -/
structure Reliable (b : Backend (StateM σ)) : Prop where
  load_ok : ∀ s, ∃ db, (b.load.run s).1 = .ok db
  save_ok : ∀ db s, (b.save db |>.run s).1 = .ok ()

/-- While a backend is ready, which it stays, saves succeed and what is held is what was saved last,
seen as `held` sees the state and `written` a database. -/
structure Stores {γ : Type} (b : Backend (StateM σ)) (ready : σ → Prop) (held : σ → γ)
    (written : Database → γ) : Prop where
  ready_load : ∀ s, ready s → ready (b.load.run s).2
  save_ok : ∀ db s, ready s → (b.save db |>.run s).1 = .ok ()
  ready_save : ∀ db s, ready s → ready (b.save db |>.run s).2
  held_save : ∀ db s, ready s → held (b.save db |>.run s).2 = written db

theorem Faithful.stores {b : Backend (StateM σ)} {kept : σ → Database} (hb : b.Faithful kept)
    (hReliable : b.Reliable) : b.Stores (fun _ => True) kept id where
  ready_load := fun _ _ => trivial
  save_ok := fun db s _ => hReliable.save_ok db s
  ready_save := fun _ _ _ => trivial
  held_save := fun db s _ => hb.kept_save db s (hReliable.save_ok db s)

theorem faithful_memory : memory.Faithful fun saved => saved.getD .empty where
  of_load := fun _ _ h => (Except.ok.inj h).symm
  kept_load := fun _ => rfl
  kept_save := fun _ _ _ => rfl
  kept_save_of_error := fun _ _ _ h => nomatch h

theorem reliable_memory : memory.Reliable where
  load_ok := fun s => ⟨s.getD .empty, rfl⟩
  save_ok := fun _ _ => rfl

end RecordStore.Storage.Backend
