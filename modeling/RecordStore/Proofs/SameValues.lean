import RecordStore.Proofs.Binding
import RecordStore.Proofs.DecimalToDouble
import RecordStore.Proofs.ValueOrder

/-!
# Values that are the same

Some values can be written in several ways: a number with more or fewer zeros behind its point, a
whole number as an integer or as a decimal, zero and one as booleans. Values are the same if they
stand for the same number, and otherwise only if they are equal (`sameValue_iff`). That is an
equivalence.

A deletion or a query uses its parameters for nothing but comparisons, so it cannot tell parameters
apart that are the same. Filling the slots of a predicate then comes to the same end on both sides
(`EndsAlike`): either to the same error, or to tests that pass the same rows.

## Main results

- `units_eq_iff`: decimals have the same units if they are the same number.
- `sameValue_iff`, `sameValue_equivalence`: when values are the same.
- `endsAlike_ofPredicate`: predicates filled with the same values pass the same rows.
- `evaluate_same_values`: a deletion or a query does the same with parameters that are the same.
-/

namespace RecordStore

open Plan (Slot Clause Predicate Action Selection)

/-! ## When values are the same -/

/-- The number that a decimal stands for. -/
def Decimal.number (d : Decimal) : Rat := if d.negative then -d.magnitude else d.magnitude

theorem Decimal.number_mul_unitsPerOne (d : Decimal) : d.number * unitsPerOne = d.units := by
  have hPlaces : tens maxScale = tens d.scale * tens (maxScale - d.scale) := by
    rw [← tens_add, Nat.add_sub_cancel' d.scale_le]
  have hMagnitude : d.magnitude * tens maxScale = (d.mantissa * tens (maxScale - d.scale) : Nat) := by
    rw [hPlaces, Nat.cast_mul, ← mul_assoc, d.magnitude_mul_tens, Nat.cast_mul]
  rw [number, units, unitsPerOne]
  split
  · rw [neg_mul, Int.cast_natCast, hMagnitude]
    push_cast
    rfl
  · rw [Int.cast_natCast, hMagnitude]
    push_cast
    rfl

theorem Decimal.unitsPerOne_ne_zero : (unitsPerOne : Rat) ≠ 0 := by
  have hPos := tens_pos maxScale
  rw [unitsPerOne, Int.cast_natCast]
  exact_mod_cast ne_of_gt hPos

/-- Counting in units tells numbers apart. -/
theorem Decimal.units_eq_iff {a b : Decimal} : a.units = b.units ↔ a.number = b.number := by
  rw [← mul_left_inj' unitsPerOne_ne_zero, number_mul_unitsPerOne, number_mul_unitsPerOne,
    Int.cast_inj]

theorem Decimal.number_ofInt64 (i : Int64) : (ofInt64 i).number = i.toInt := by
  rw [← mul_left_inj' unitsPerOne_ne_zero, number_mul_unitsPerOne, units_ofInt64, Int.cast_mul]

namespace Datum

/-- The number that a value stands for, if it stands for one. -/
def number? : Datum → Option Rat
  | bool flag => some (if flag then 1 else 0)
  | integer i => some i.toInt
  | decimal d => some d.number
  | null | text _ => none

theorem cast_amount {d : Datum} {n : Rat} (h : d.number? = some n) :
    (d.amount : Rat) = n * Decimal.unitsPerOne := by
  cases d with
  | bool flag => cases flag <;> cases h <;> simp [amount, flagUnits]
  | integer i =>
    cases h
    rw [amount, ← Decimal.number_mul_unitsPerOne, Decimal.number_ofInt64]
  | decimal d =>
    cases h
    rw [amount, ← Decimal.number_mul_unitsPerOne]
  | null | text s => cases h

theorem amount_eq_iff {a b : Datum} {m n : Rat} (ha : a.number? = some m)
    (hb : b.number? = some n) : a.amount = b.amount ↔ m = n := by
  rw [← Int.cast_inj (α := Rat), cast_amount ha, cast_amount hb,
    mul_left_inj' Decimal.unitsPerOne_ne_zero]

theorem sameValue_of_number {a b : Datum} {m n : Rat} (ha : a.number? = some m)
    (hb : b.number? = some n) : a.sameValue b = true ↔ a.amount = b.amount := by
  -- A boolean is compared with a number by the units of the number, whichever of them comes first.
  cases a <;> cases b <;>
    simp_all [number?, sameValue, units?, asDecimal?, amount, flagUnits_eq_iff] <;> exact eq_comm

theorem sameValue_of_not_number {a b : Datum} (h : a.number? = none ∨ b.number? = none) :
    a.sameValue b = true ↔ a = b := by
  cases a <;> cases b <;> simp_all [number?, sameValue, units?, asDecimal?]

/-- Values are the same if they are equal or stand for the same number. -/
theorem sameValue_iff {a b : Datum} :
    a.sameValue b = true ↔ a = b ∨ ∃ n, a.number? = some n ∧ b.number? = some n := by
  cases ha : a.number? with
  | none => simp [sameValue_of_not_number (.inl ha)]
  | some m =>
    cases hb : b.number? with
    | none => simp [sameValue_of_not_number (.inr hb)]
    | some n =>
      rw [sameValue_of_number ha hb, amount_eq_iff ha hb]
      constructor
      · rintro rfl
        exact .inr ⟨m, rfl, rfl⟩
      · rintro (rfl | ⟨k, hm, hn⟩)
        · exact Option.some.inj (ha.symm.trans hb)
        · exact (Option.some.inj hm).trans (Option.some.inj hn).symm

theorem sameValue_equivalence : Equivalence fun a b : Datum => a.sameValue b = true where
  refl := sameValue_refl
  symm h := by
    rw [sameValue_iff] at h ⊢
    rcases h with rfl | ⟨n, ha, hb⟩
    · exact .inl rfl
    · exact .inr ⟨n, hb, ha⟩
  trans hab hbc := by
    rw [sameValue_iff] at hab hbc ⊢
    rcases hab with rfl | ⟨n, ha, hb⟩
    · exact hbc
    · rcases hbc with rfl | ⟨m, hb', hc⟩
      · exact .inr ⟨n, ha, hb⟩
      · rw [hb] at hb'
        exact .inr ⟨n, ha, Option.some.inj hb' ▸ hc⟩

/-- A value is the same as another or not, however the other is written. -/
theorem sameValue_congr_right {a b : Datum} (h : a.sameValue b = true) (d : Datum) :
    d.sameValue a = d.sameValue b :=
  Bool.eq_iff_iff.2 ⟨fun hd => sameValue_equivalence.trans hd h,
    fun hd => sameValue_equivalence.trans hd (sameValue_equivalence.symm h)⟩

end Datum

/-! ## Attempts that come to the same end -/

/-- Two attempts come to the same end: to results that are alike, or to the same error. -/
inductive EndsAlike {ε α : Type} (R : α → α → Prop) : Except ε α → Except ε α → Prop
  | ok {a b : α} : R a b → EndsAlike R (.ok a) (.ok b)
  | error (e : ε) : EndsAlike R (.error e) (.error e)

section EndsAlike

variable {ε α β γ : Type} {R : α → α → Prop} {S : β → β → Prop}

theorem EndsAlike.bind {x y : Except ε α} {f g : α → Except ε β} (h : EndsAlike R x y)
    (hNext : ∀ a b, R a b → EndsAlike S (f a) (g b)) : EndsAlike S (x >>= f) (y >>= g) := by
  cases h with
  | ok hResults => exact hNext _ _ hResults
  | error e => exact .error e

theorem EndsAlike.mapM {f g : γ → Except ε α} (h : ∀ c, EndsAlike R (f c) (g c)) (cs : List γ) :
    EndsAlike (List.Forall₂ R) (cs.mapM f) (cs.mapM g) := by
  induction cs with
  | nil => exact .ok .nil
  | cons c cs ih =>
    rw [List.mapM_cons, List.mapM_cons]
    exact (h c).bind fun a b hHead => ih.bind fun as bs hTail => .ok (.cons hHead hTail)

end EndsAlike

/-! ## Predicates filled with the same values -/

/-- Two lists of parameters are the same one by one. -/
def SameParameters : List Datum → List Datum → Prop :=
  List.Forall₂ fun x y => x.sameValue y = true

section SameParameters

variable {xs ys : List Datum} {clock : Moment}

theorem SameParameters.getElem? (h : SameParameters xs ys) (i : Nat) :
    xs[i]? = none ∧ ys[i]? = none ∨
      ∃ x y, xs[i]? = some x ∧ ys[i]? = some y ∧ x.sameValue y = true := by
  induction h generalizing i with
  | nil => exact .inl ⟨rfl, rfl⟩
  | cons hHead _ ih =>
    cases i with
    | zero => exact .inr ⟨_, _, rfl, rfl, hHead⟩
    | succ i => exact ih i

theorem endsAlike_resolve (h : SameParameters xs ys) (slot : Slot) :
    EndsAlike (fun x y : Datum => x.sameValue y = true) (slot.resolve xs clock)
      (slot.resolve ys clock) := by
  cases slot with
  | parameter i =>
    rw [Slot.resolve, Slot.resolve]
    rcases h.getElem? i with ⟨hx, hy⟩ | ⟨x, y, hx, hy, hSame⟩
    · rw [hx, hy, List.Forall₂.length_eq h]
      exact .error _
    · rw [hx, hy]
      exact .ok hSame
  | literal d => exact .ok d.sameValue_refl
  | now => exact .ok (Datum.sameValue_refl _)

theorem endsAlike_ofClause (h : SameParameters xs ys) (clause : Clause) :
    EndsAlike (fun t u : Test => ∀ row, t.passes row = u.passes row) (Test.ofClause xs clock clause)
      (Test.ofClause ys clock clause) := by
  cases clause with
  | equals field value =>
    exact (endsAlike_resolve h value).bind fun x y hSame =>
      .ok fun row => Datum.sameValue_congr_right hSame _
  | time field relation => exact .ok fun row => rfl

theorem Matcher.accepts_all_congr {ts us : List Test}
    (h : List.Forall₂ (fun t u : Test => ∀ row, t.passes row = u.passes row) ts us) :
    (all ts).accepts = (all us).accepts := by
  funext row
  induction h with
  | nil => rfl
  | cons hHead _ ih => rw [accepts_all_cons, accepts_all_cons, hHead row, ih]

theorem endsAlike_ofPredicate (h : SameParameters xs ys) (fallback : Fallback)
    (predicate : Predicate) :
    EndsAlike (fun m n : Matcher => m.accepts = n.accepts)
      (Matcher.ofPredicate xs clock fallback predicate)
      (Matcher.ofPredicate ys clock fallback predicate) := by
  cases predicate with
  | always | unsupported c => exact .ok rfl
  | conjunction clauses =>
    exact (EndsAlike.mapM (endsAlike_ofClause h) clauses).bind fun ts us hTests =>
      .ok (Matcher.accepts_all_congr hTests)

end SameParameters

/-! ## Deletions and queries -/

/-- Commands with the same effect on every database. -/
def Command.Alike (c d : Command) : Prop := ∀ db, c.run db = d.run db

theorem Command.alike_delete {m n : Matcher} (h : m.accepts = n.accepts) (table : Table) :
    Alike (delete table m) (delete table n) := by
  intro db
  have hRecords : m.acceptsRecord = n.acceptsRecord := funext fun r => congrFun h (.single r)
  rw [run, run, hRecords]

theorem Command.alike_select {m n : Matcher} (h : m.accepts = n.accepts) (s : Selection) :
    Alike (select s m) (select s n) := by
  intro db
  have hResult : s.result m db = s.result n db := by rw [Selection.result, Selection.result, h]
  rw [run, run, hResult]

section Plans

variable {xs ys : List Datum} {clock : Moment}

theorem endsAlike_command_delete (h : SameParameters xs ys) (table : Table)
    (predicate : Predicate) :
    EndsAlike Command.Alike ((Action.delete table predicate).command xs clock)
      ((Action.delete table predicate).command ys clock) :=
  (endsAlike_ofPredicate h .nothing predicate).bind fun _ _ hAccepts =>
    .ok (Command.alike_delete hAccepts table)

theorem endsAlike_command_select (h : SameParameters xs ys) (s : Selection) :
    EndsAlike Command.Alike ((Action.select s).command xs clock)
      ((Action.select s).command ys clock) :=
  (endsAlike_ofPredicate h .everything s.predicate).bind fun _ _ hAccepts =>
    .ok (Command.alike_select hAccepts s)

/-- A plan does the same with two lists of parameters of one length if its commands come to the same
end with them. -/
theorem Plan.evaluate_congr {p : Plan} (hLength : xs.length = ys.length)
    (h : EndsAlike Command.Alike (p.action.command xs clock) (p.action.command ys clock))
    (db : Database) : p.evaluate xs clock db = p.evaluate ys clock db := by
  have hCommand : EndsAlike Command.Alike (p.command xs clock) (p.command ys clock) := by
    rw [command, command, hLength]
    split
    · exact h
    · exact .error _
  rw [evaluate, evaluate]
  generalize p.command xs clock = x at hCommand
  generalize p.command ys clock = y at hCommand
  cases hCommand with
  | ok hAlike => simp only [hAlike db]
  | error e => rfl

end Plans

/-- Values are the same if they are equal or stand for the same number, where a boolean stands for
zero or one; so being the same is an equivalence. With parameters that are the same one by one a
query and a deletion come to the same end: they return the same rows, count the same and leave the
same database, or they fail with the same error. -/
theorem evaluate_same_values :
    (Equivalence fun a b : Datum => a.sameValue b = true) ∧
    (∀ a b : Datum,
      a.sameValue b = true ↔ a = b ∨ ∃ n, a.number? = some n ∧ b.number? = some n) ∧
    ∀ xs ys, SameParameters xs ys → ∀ count clock db,
      (∀ s : Selection, (Plan.mk (.select s) count).evaluate xs clock db =
        (Plan.mk (.select s) count).evaluate ys clock db) ∧
      ∀ table predicate, (Plan.mk (.delete table predicate) count).evaluate xs clock db =
        (Plan.mk (.delete table predicate) count).evaluate ys clock db := by
  refine ⟨Datum.sameValue_equivalence, fun _ _ => Datum.sameValue_iff,
    fun xs ys h count clock db => ⟨fun s => ?_, fun table predicate => ?_⟩⟩
  · exact Plan.evaluate_congr h.length_eq (endsAlike_command_select h s) db
  · exact Plan.evaluate_congr h.length_eq (endsAlike_command_delete h table predicate) db

/-- One as a decimal and as an integer or as a boolean and a decimal: both delete the open post with
that number, and the post with the text for it stays. -/
theorem evaluate_same_values_posts :
    let one : Datum := .decimal ⟨false, 100, 2, by decide, by decide⟩
    let predicate : Predicate := .conjunction
      [.equals ⟨.base, "id"⟩ (.parameter 0), .equals ⟨.base, "open"⟩ (.parameter 1)]
    let post (id : Datum) := Record.ofList [("id", id), ("open", .bool true)]
    let db := Database.empty.withRecords .posts [post (.integer 1), post (.text "1")]
    let deletion : Plan := ⟨.delete .posts predicate, 2⟩
    SameParameters [one, .integer 1] [.bool true, one] ∧
      deletion.evaluate [one, .integer 1] ⟨0, 0⟩ db =
        deletion.evaluate [.bool true, one] ⟨0, 0⟩ db ∧
      (deletion.evaluate [.bool true, one] ⟨0, 0⟩ db).1.toOption.map (·.stats.deleted) = some 1 := by
  intro one predicate post db deletion
  have hSame : SameParameters [one, .integer 1] [.bool true, one] :=
    .cons (by decide +kernel) (.cons (by decide +kernel) .nil)
  obtain ⟨-, -, hRuns⟩ := evaluate_same_values
  exact ⟨hSame, (hRuns _ _ hSame 2 ⟨0, 0⟩ db).2 .posts predicate, by decide +kernel⟩

end RecordStore
