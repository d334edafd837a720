import RecordStore.Evaluation

/-!
# When slots can be filled

A predicate becomes a matcher, and an action a command, unless one of its slots is a parameter beyond
those that are given. So a plan is carried out when it is given as many parameters as it asks for
and none of its slots asks for more.

## Main results

- `bind_eq_ok_iff`: what succeeds in steps succeeds in each of them.
- `exists_matcher_iff`: the predicates that become matchers.
- `exists_command_iff`, `fills_of_command`: the actions that become commands, and which.
- `exists_evaluate_iff`: the plans that are carried out.
-/

namespace RecordStore

open Plan (Slot Clause Predicate Action)

variable {parameters : List Datum} {clock : Moment}

/-! ## Steps that may fail -/

section Steps

variable {α β ε : Type} {x : Except ε α} {f : α → Except ε β}

theorem bind_eq_ok_iff {b : β} : x >>= f = .ok b ↔ ∃ a, x = .ok a ∧ f a = .ok b := by
  cases x <;> simp [bind, Except.bind]

theorem bind_eq_error_iff {e : ε} :
    x >>= f = .error e ↔ x = .error e ∨ ∃ a, x = .ok a ∧ f a = .error e := by
  cases x <;> simp [bind, Except.bind]

theorem map_eq_ok_iff {g : α → β} {b : β} : x.map g = .ok b ↔ ∃ a, x = .ok a ∧ g a = b := by
  cases x <;> simp [Except.map]

theorem exists_return_iff {g : α → β} :
    (∃ b, (do return g (← x)) = .ok b) ↔ ∃ a, x = .ok a := by
  cases x <;> simp [bind, Except.bind, pure, Except.pure]

/-- Naming a fault anew leaves successes alone. -/
theorem mapError_eq_ok_iff {δ : Type} {g : ε → δ} {a : α} : x.mapError g = .ok a ↔ x = .ok a := by
  cases x with
  | ok b => exact ⟨fun h => congrArg _ (Except.ok.inj h), fun h => congrArg _ (Except.ok.inj h)⟩
  | error e => exact ⟨fun h => (by cases h), fun h => (by cases h)⟩

theorem mapError_eq_error_iff {δ : Type} {g : ε → δ} {fault : δ} :
    x.mapError g = .error fault ↔ ∃ e, x = .error e ∧ g e = fault := by
  cases x with
  | ok b => exact ⟨fun h => (by cases h), fun ⟨e, hNot, _⟩ => (by cases hNot)⟩
  | error e =>
    constructor
    · intro h
      exact ⟨e, rfl, Except.error.inj h⟩
    · rintro ⟨e', hSame, hFault⟩
      rw [← hFault, ← Except.error.inj hSame]
      rfl

theorem ok_of_toOption {a : α} (h : x.toOption = some a) : x = .ok a := by
  cases x with
  | error e => cases h
  | ok b => rw [Option.some.inj h]

end Steps

/-- A list is read as a whole if each of its members is. -/
theorem exists_mapM_iff {α β ε : Type} {f : α → Except ε β} {xs : List α} :
    (∃ ys, xs.mapM f = .ok ys) ↔ ∀ x ∈ xs, ∃ y, f x = .ok y := by
  induction xs with
  | nil => exact ⟨fun _ _ hMem => absurd hMem List.not_mem_nil, fun _ => ⟨[], rfl⟩⟩
  | cons x xs ih =>
    rw [List.forall_mem_cons, ← ih, List.mapM_cons]
    constructor
    · rintro ⟨ys, hAll⟩
      cases hHead : f x with
      | error e => simp [hHead, bind, Except.bind] at hAll
      | ok y =>
        cases hTail : xs.mapM f with
        | error e => simp [hHead, hTail, bind, Except.bind] at hAll
        | ok tail => exact ⟨⟨y, rfl⟩, ⟨tail, rfl⟩⟩
    · rintro ⟨⟨y, hHead⟩, ⟨tail, hTail⟩⟩
      rw [hHead, hTail]
      exact ⟨y :: tail, rfl⟩

theorem exists_ofClause_iff {clause : Clause} :
    (∃ test, Test.ofClause parameters clock clause = .ok test) ↔
      ∀ slot ∈ clause.slots, slot.Fits parameters.length := by
  cases clause with
  | equals field value =>
    have hSlot : (∃ d, value.resolve parameters clock = .ok d) ↔ value.Fits parameters.length :=
      Slot.resolve_eq_ok_iff
    rw [Clause.slots, List.forall_mem_singleton, ← hSlot, Test.ofClause]
    cases value.resolve parameters clock <;> simp [bind, Except.bind, pure, Except.pure]
  | time field relation => simp [Clause.slots, Test.ofClause]

/-- A predicate becomes a matcher if all of its slots can be filled. -/
theorem exists_matcher_iff {fallback : Fallback} {predicate : Predicate} :
    (∃ m, Matcher.ofPredicate parameters clock fallback predicate = .ok m) ↔
      ∀ slot ∈ predicate.slots, slot.Fits parameters.length := by
  cases predicate with
  | always | unsupported c => simp [Matcher.ofPredicate, Predicate.slots]
  | conjunction clauses =>
    have hClauses : (∀ slot ∈ (Predicate.conjunction clauses).slots, slot.Fits parameters.length) ↔
        ∀ clause ∈ clauses, ∃ test, Test.ofClause parameters clock clause = .ok test := by
      simp only [exists_ofClause_iff, Predicate.slots, List.mem_flatMap]
      constructor
      · intro h clause hMem slot hSlot
        exact h slot ⟨clause, hMem, hSlot⟩
      · rintro h slot ⟨clause, hMem, hSlot⟩
        exact h clause hMem slot hSlot
    rw [hClauses, ← exists_mapM_iff, Matcher.ofPredicate]
    cases clauses.mapM (Test.ofClause parameters clock) <;>
      simp [bind, Except.bind, pure, Except.pure]

theorem exists_resolveFields_iff {fields : List (String × Slot)} :
    (∃ values, Plan.resolveFields parameters clock fields = .ok values) ↔
      ∀ slot ∈ fields.map Prod.snd, slot.Fits parameters.length := by
  rw [Plan.resolveFields, exists_mapM_iff, List.forall_mem_map]
  refine forall₂_congr fun field _ => ?_
  rw [exists_return_iff, Slot.resolve_eq_ok_iff]

/-- An action becomes a command if all of its slots can be filled. -/
theorem exists_command_iff {action : Action} :
    (∃ c, action.command parameters clock = .ok c) ↔
      ∀ slot ∈ action.slots, slot.Fits parameters.length := by
  cases action with
  | insert table fields =>
    rw [Action.command, exists_return_iff, exists_resolveFields_iff, Action.slots]
  | update table assignments predicate =>
    have hFields : (∃ values, Plan.resolveFields parameters clock assignments = .ok values) ↔
        ∀ slot ∈ assignments.map Prod.snd, slot.Fits parameters.length := exists_resolveFields_iff
    have hPredicate : (∃ m, Matcher.ofPredicate parameters clock .nothing predicate = .ok m) ↔
        ∀ slot ∈ predicate.slots, slot.Fits parameters.length := exists_matcher_iff
    rw [Action.slots, List.forall_mem_append, ← hFields, ← hPredicate, Action.command]
    constructor
    · rintro ⟨c, hCommand⟩
      obtain ⟨values, hValues, hRest⟩ := bind_eq_ok_iff.1 hCommand
      obtain ⟨m, hMatcher, -⟩ := bind_eq_ok_iff.1 hRest
      exact ⟨⟨values, hValues⟩, ⟨m, hMatcher⟩⟩
    · rintro ⟨⟨values, hValues⟩, ⟨m, hMatcher⟩⟩
      rw [hValues, hMatcher]
      exact ⟨_, rfl⟩
  | delete table predicate =>
    rw [Action.command, exists_return_iff, exists_matcher_iff, Action.slots]
  | select selection =>
    rw [Action.command, exists_return_iff, exists_matcher_iff, Action.slots]
  | unrecognized reason => exact ⟨fun _ _ hMem => absurd hMem List.not_mem_nil, fun _ => ⟨_, rfl⟩⟩

/-- The command that an action is made into, with what its slots are filled with. -/
inductive Plan.Action.Fills (parameters : List Datum) (clock : Moment) : Action → Command → Prop
  | insert {table : Table} {fields : List (String × Slot)} {values : List (String × Datum)} :
    resolveFields parameters clock fields = .ok values →
    Fills parameters clock (.insert table fields) (.insert table (Record.created values clock))
  | update {table : Table} {assignments : List (String × Slot)} {predicate : Predicate}
    {values : List (String × Datum)} {m : Matcher} :
    resolveFields parameters clock assignments = .ok values →
    Matcher.ofPredicate parameters clock .nothing predicate = .ok m →
    Fills parameters clock (.update table assignments predicate) (.update table m values clock)
  | delete {table : Table} {predicate : Predicate} {m : Matcher} :
    Matcher.ofPredicate parameters clock .nothing predicate = .ok m →
    Fills parameters clock (.delete table predicate) (.delete table m)
  | select {s : Plan.Selection} {m : Matcher} :
    Matcher.ofPredicate parameters clock .everything s.predicate = .ok m →
    Fills parameters clock (.select s) (.select s m)
  | unrecognized (reason : Sql.ParseError) : Fills parameters clock (.unrecognized reason) .nothing

theorem Plan.Action.fills_of_command {action : Action} {c : Command}
    (h : action.command parameters clock = .ok c) : action.Fills parameters clock c := by
  cases action with
  | insert table fields =>
    obtain ⟨values, hValues, hInsert⟩ := bind_eq_ok_iff.1 h
    cases hInsert
    exact .insert hValues
  | update table assignments predicate =>
    obtain ⟨values, hValues, hRest⟩ := bind_eq_ok_iff.1 h
    obtain ⟨m, hMatcher, hUpdate⟩ := bind_eq_ok_iff.1 hRest
    cases hUpdate
    exact .update hValues hMatcher
  | delete table predicate =>
    obtain ⟨m, hMatcher, hDelete⟩ := bind_eq_ok_iff.1 h
    cases hDelete
    exact .delete hMatcher
  | select s =>
    obtain ⟨m, hMatcher, hSelect⟩ := bind_eq_ok_iff.1 h
    cases hSelect
    exact .select hMatcher
  | unrecognized reason =>
    cases h
    exact .unrecognized reason

/-- A plan that has a command is given as many parameters as it asks for. -/
theorem Plan.fills_of_command {p : Plan} {c : Command}
    (h : p.command parameters clock = .ok c) :
    parameters.length = p.parameterCount ∧ p.action.Fills parameters clock c := by
  rw [command] at h
  split at h
  · next hCount => exact ⟨hCount, Action.fills_of_command h⟩
  · cases h

/-- A plan is carried out if it is given as many parameters as it asks for and they fill all of its
slots. -/
theorem exists_evaluate_iff {p : Plan} {db : Database} :
    (∃ outcome, (p.evaluate parameters clock db).1 = .ok outcome) ↔
      parameters.length = p.parameterCount ∧
        ∀ slot ∈ p.action.slots, slot.Fits parameters.length := by
  have hAction : (∃ c, p.action.command parameters clock = .ok c) ↔
      ∀ slot ∈ p.action.slots, slot.Fits parameters.length := exists_command_iff
  rw [← hAction]
  have hCommand : (∃ outcome, (p.evaluate parameters clock db).1 = .ok outcome) ↔
      ∃ c, p.command parameters clock = .ok c := by
    rw [Plan.evaluate]
    cases p.command parameters clock <;> simp
  rw [hCommand, Plan.command]
  split
  · next hCount => simp [hCount]
  · next hCount => simp [hCount]

end RecordStore
