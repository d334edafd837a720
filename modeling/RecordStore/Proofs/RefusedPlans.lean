import RecordStore.Proofs.Binding

/-!
# Plans that are refused

A plan may be put together by hand, and then its slots need not go with the number of parameters
that it asks for. It is refused for one of two reasons: it is given another number of parameters
than it asks for, or one of its slots is a parameter beyond those that are given. The second reason
names the first such slot in the order in which the plan is written, an update's assignments before
its condition.

The slots are filled before anything is changed, so a plan that is refused leaves the database as it
was, whatever it would have done.

## Main results

- `fault?_mapM`: a list is read from front to back, so its first fault counts.
- `fault?_command`: an action fails for the first of its slots that cannot be filled.
- `evaluate_refused`: which plans are refused, why, and what becomes of the database.
-/

namespace RecordStore

open Plan (Slot Clause Predicate Action)

variable {parameters : List Datum} {clock : Moment}

/-! ## Faults -/

section Faults

variable {α β ε : Type}

/-- What went wrong in an attempt, if anything did. -/
def fault? : Except ε α → Option ε
  | .ok _ => none
  | .error e => some e

theorem fault?_eq_some_iff {x : Except ε α} {e : ε} : fault? x = some e ↔ x = .error e := by
  cases x <;> simp [fault?]

/-- The second of two attempts is made only when the first has succeeded. -/
theorem fault?_bind {x : Except ε α} {f : α → Except ε β} {second : Option ε}
    (h : ∀ a, fault? (f a) = second) : fault? (x >>= f) = (fault? x).or second := by
  cases x with
  | ok a => exact h a
  | error e => rfl

theorem fault?_return {x : Except ε α} {g : α → β} : fault? (do return g (← x)) = fault? x := by
  cases x <;> rfl

theorem fault?_mapM (f : α → Except ε β) (xs : List α) :
    fault? (xs.mapM f) = xs.findSome? fun x => fault? (f x) := by
  induction xs with
  | nil => rfl
  | cons x xs ih =>
    rw [List.mapM_cons, List.findSome?_cons, ← ih]
    cases f x with
    | error e => rfl
    | ok y => exact fault?_return

end Faults

/-! ## Slots that cannot be filled -/

/-- What is wrong with a slot if it is a parameter beyond those that are given. -/
def Plan.Slot.missing? (count : Nat) : Slot → Option EvalError
  | parameter i => if i < count then none else some (.parameterCount (i + 1) count)
  | literal _ | now => none

theorem Plan.Slot.fault?_resolve (slot : Slot) :
    fault? (slot.resolve parameters clock) = slot.missing? parameters.length := by
  cases slot with
  | literal d | now => rfl
  | parameter i =>
    by_cases h : i < parameters.length
    · rw [resolve, missing?, List.getElem?_eq_getElem h, if_pos h]
      rfl
    · rw [resolve, missing?, List.getElem?_eq_none (Nat.not_lt.1 h), if_neg h]
      rfl

theorem Plan.Slot.missing?_eq_none_iff {slot : Slot} {count : Nat} :
    slot.missing? count = none ↔ slot.Fits count := by
  cases slot <;> simp [missing?, Fits]

/-- Only a parameter may be missing. -/
theorem Plan.Slot.missing?_eq_some_iff {slot : Slot} {count : Nat} {e : EvalError} :
    slot.missing? count = some e ↔
      ∃ i, slot = .parameter i ∧ count ≤ i ∧ e = .parameterCount (i + 1) count := by
  cases slot with
  | literal d | now => simp [missing?]
  | parameter i =>
    by_cases h : i < count
    · simp only [missing?, if_pos h]
      refine iff_of_false nofun fun ⟨j, hSlot, hLe, _⟩ => ?_
      cases hSlot
      omega
    · simp only [missing?, if_neg h, Option.some.injEq]
      constructor
      · rintro rfl
        exact ⟨i, rfl, Nat.not_lt.1 h, rfl⟩
      · rintro ⟨j, hSlot, -, rfl⟩
        cases hSlot
        rfl

theorem fault?_ofClause (clause : Clause) :
    fault? (Test.ofClause parameters clock clause) =
      clause.slots.findSome? (Slot.missing? parameters.length) := by
  cases clause with
  | time field relation => rfl
  | equals field value =>
    rw [Clause.slots, List.findSome?_singleton, ← Slot.fault?_resolve]
    exact fault?_return

theorem fault?_ofClauses (clauses : List Clause) :
    fault? (clauses.mapM (Test.ofClause parameters clock)) =
      (clauses.flatMap Clause.slots).findSome? (Slot.missing? parameters.length) := by
  rw [fault?_mapM]
  induction clauses with
  | nil => rfl
  | cons clause clauses ih =>
    rw [List.findSome?_cons, List.flatMap_cons, List.findSome?_append, fault?_ofClause, ih]
    cases clause.slots.findSome? (Slot.missing? parameters.length) <;> rfl

theorem fault?_ofPredicate (fallback : Fallback) (predicate : Predicate) :
    fault? (Matcher.ofPredicate parameters clock fallback predicate) =
      predicate.slots.findSome? (Slot.missing? parameters.length) := by
  cases predicate with
  | always | unsupported condition => rfl
  | conjunction clauses =>
    rw [Predicate.slots, ← fault?_ofClauses]
    exact fault?_return

theorem fault?_resolveFields (fields : List (String × Slot)) :
    fault? (Plan.resolveFields parameters clock fields) =
      (fields.map Prod.snd).findSome? (Slot.missing? parameters.length) := by
  rw [Plan.resolveFields, fault?_mapM, List.findSome?_map]
  have hField (field : String × Slot) :
      fault? (do return (field.1, ← field.2.resolve parameters clock)) =
        field.2.missing? parameters.length := by
    rw [fault?_return, Slot.fault?_resolve]
  simp only [hField]
  rfl

/-- An action fails for the first of its slots that cannot be filled. -/
theorem fault?_command (action : Action) :
    fault? (action.command parameters clock) =
      action.slots.findSome? (Slot.missing? parameters.length) := by
  cases action with
  | insert table fields =>
    rw [Action.slots, ← fault?_resolveFields]
    exact fault?_return
  | update table assignments predicate =>
    rw [Action.slots, List.findSome?_append, ← fault?_resolveFields,
      ← fault?_ofPredicate .nothing predicate]
    exact fault?_bind fun fields => fault?_return
  | delete table predicate =>
    rw [Action.slots, ← fault?_ofPredicate .nothing predicate]
    exact fault?_return
  | select s =>
    rw [Action.slots, ← fault?_ofPredicate .everything s.predicate]
    exact fault?_return
  | unrecognized reason => rfl

/-! ## Plans -/

namespace Plan

/-- Why a plan is refused when it is given a number of parameters. -/
inductive Refuses (p : Plan) (given : Nat) : EvalError → Prop
  | count : given ≠ p.parameterCount → Refuses p given (.parameterCount p.parameterCount given)
  | slot {before after : List Slot} {i : Nat} : given = p.parameterCount →
    p.action.slots = before ++ .parameter i :: after → (∀ slot ∈ before, slot.Fits given) →
    given ≤ i → Refuses p given (.parameterCount (i + 1) given)

theorem command_eq_error_iff {p : Plan} {e : EvalError} :
    p.command parameters clock = .error e ↔ p.Refuses parameters.length e := by
  by_cases hCount : parameters.length = p.parameterCount
  · rw [command, if_pos hCount, ← fault?_eq_some_iff, fault?_command, List.findSome?_eq_some_iff]
    constructor
    · rintro ⟨before, slot, after, hSlots, hMissing, hBefore⟩
      obtain ⟨i, rfl, hLe, rfl⟩ := Slot.missing?_eq_some_iff.1 hMissing
      exact .slot hCount hSlots (fun slot hSlot => Slot.missing?_eq_none_iff.1 (hBefore slot hSlot))
        hLe
    · intro h
      cases h with
      | count hNot => exact absurd hCount hNot
      | @slot before after i _ hSlots hFit hLe =>
        exact ⟨before, .parameter i, after, hSlots, Slot.missing?_eq_some_iff.2 ⟨i, rfl, hLe, rfl⟩,
          fun slot hSlot => Slot.missing?_eq_none_iff.2 (hFit slot hSlot)⟩
  · rw [command, if_neg hCount]
    constructor
    · intro h
      cases h
      exact .count hCount
    · intro h
      cases h with
      | count _ => rfl
      | slot hSame _ _ _ => exact absurd hSame hCount

/-- A plan that is refused leaves the database as it was. It is refused for the number of parameters
or else for its first slot that is a parameter beyond those given. So it is refused just when it is
given another number of parameters than it asks for or has a slot that is beyond them. -/
theorem evaluate_refused (p : Plan) (parameters : List Datum) (clock : Moment) (db : Database) :
    (∀ e changed, p.evaluate parameters clock db = (.error e, changed) ↔
      p.Refuses parameters.length e ∧ changed = db) ∧
    ((∃ e, (p.evaluate parameters clock db).1 = .error e) ↔
      parameters.length ≠ p.parameterCount ∨
        ∃ i, Slot.parameter i ∈ p.action.slots ∧ parameters.length ≤ i) := by
  have hRefused (e : EvalError) (changed : Database) :
      p.evaluate parameters clock db = (.error e, changed) ↔
        p.Refuses parameters.length e ∧ changed = db := by
    have hCommand : p.command parameters clock = .error e ↔ p.Refuses parameters.length e :=
      command_eq_error_iff
    rw [← hCommand]
    cases hCase : p.command parameters clock with
    | error e' =>
      rw [evaluate_of_error hCase, Prod.mk.injEq, Except.error.injEq, Except.error.injEq]
      exact ⟨fun h => ⟨h.1, h.2.symm⟩, fun h => ⟨h.1, h.2.symm⟩⟩
    | ok c =>
      rw [evaluate_of_command hCase]
      exact iff_of_false (fun h => nomatch (Prod.mk.inj h).1) (fun h => nomatch h.1)
  refine ⟨hRefused, ?_⟩
  constructor
  · rintro ⟨e, hError⟩
    cases ((hRefused e _).1 (Prod.ext hError rfl)).1 with
    | count hNot => exact .inl hNot
    | slot _ hSlots _ hLe =>
      refine .inr ⟨_, ?_, hLe⟩
      rw [hSlots]
      exact List.mem_append_right _ List.mem_cons_self
  · intro h
    cases hAnswer : (p.evaluate parameters clock db).1 with
    | error e => exact ⟨e, rfl⟩
    | ok outcome =>
      -- A plan that is carried out has the right count, and all of its slots are filled.
      obtain ⟨hCount, hFit⟩ := exists_evaluate_iff.1 ⟨outcome, hAnswer⟩
      rcases h with hNot | ⟨i, hSlot, hLe⟩
      · exact absurd hCount hNot
      · exact absurd (hFit _ hSlot) (Nat.not_lt.2 hLe)

/-- A deletion that asks for one parameter and takes the fourth is refused when it is given one. -/
example (db : Database) :
    let p : Plan := ⟨.delete .users (.conjunction [.equals ⟨.base, "id"⟩ (.parameter 3)]), 1⟩
    p.evaluate [.text "u1"] ⟨0, 0⟩ db = (.error (.parameterCount 4 1), db) := rfl

end Plan

end RecordStore
