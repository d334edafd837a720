import RecordStore.Proofs.MessageForms

/-!
# Values in messages

A value is a tree, and its bytes are the form of its head and then those of the values inside it, in
their order. So the bytes of a list of values are read from the front, and a value that is met there is
replaced by the values inside it: `Holds bs vs rest` says that bytes are some values and what follows
them. It knows the forms of heads and nothing of who reads or writes them.

Of a number of values bytes hold at most one list (`Holds.unique`). Values that are not asked for are
passed over as far as they are not nested too deep (`skip_eq_ok_iff`).

## Main results

- `holds_append_iff`: values in a row, one list after the other.
- `Holds.unique`: which values bytes hold is determined by the number of the values.
- `skip_eq_ok_iff`: what is passed over.
-/

namespace RecordStore.Wire

/-- A value with the values inside it. -/
inductive Value where
  | nil
  | bool (value : Bool)
  | integer (value : Int)
  | double (value : Binary64.Pattern)
  | text (bytes : List UInt8)
  | binary (bytes : List UInt8)
  | extension
  | sequence (items : List Value)
  | map (entries : List (Value × Value))

namespace Value

def head : Value → Head
  | nil => .nil
  | bool b => .bool b
  | integer i => .integer i
  | double p => .double p
  | text bytes => .text bytes
  | binary bytes => .binary bytes
  | extension => .extension
  | sequence items => .sequence items.length
  | map entries => .map entries.length

/-- The values inside a value; a key stands before what it is the key of. -/
def inside : Value → List Value
  | sequence items => items
  | map entries => entries.flatMap fun entry => [entry.1, entry.2]
  | _ => []

/-- Values that are nested in each other no deeper than a number of levels. -/
inductive Within : Nat → Value → Prop
  | single {levels : Nat} {v : Value} : v.head.children? = none → Within levels v
  | nested {levels : Nat} {v : Value} : (∀ w ∈ v.inside, Within levels w) → Within (levels + 1) v

theorem length_pairs (entries : List (Value × Value)) :
    (entries.flatMap fun entry => [entry.1, entry.2]).length = 2 * entries.length := by
  induction entries with
  | nil => rfl
  | cons entry entries ih =>
    rw [List.flatMap_cons, List.length_append, ih, List.length_cons]
    simp only [List.length_cons, List.length_nil]
    omega

theorem length_inside (v : Value) : v.inside.length = v.head.children?.getD 0 := by
  cases v with
  | map entries => exact length_pairs entries
  | _ => rfl

theorem exists_pairs {size : Nat} {vs : List Value} (h : vs.length = 2 * size) :
    ∃ entries : List (Value × Value), entries.length = size ∧
      (entries.flatMap fun entry => [entry.1, entry.2]) = vs := by
  induction size generalizing vs with
  | zero =>
    obtain rfl : vs = [] := List.length_eq_zero_iff.1 h
    exact ⟨[], rfl, rfl⟩
  | succ size ih =>
    match vs, h with
    | key :: value :: vs, h =>
      simp only [List.length_cons] at h
      obtain ⟨entries, rfl, rfl⟩ := ih (show vs.length = 2 * size by omega)
      exact ⟨(key, value) :: entries, rfl, rfl⟩

theorem pairs_injective {xs ys : List (Value × Value)}
    (h : (xs.flatMap fun entry => [entry.1, entry.2]) = ys.flatMap fun entry => [entry.1, entry.2]) :
    xs = ys := by
  induction xs generalizing ys with
  | nil =>
    cases ys with
    | nil => rfl
    | cons y ys => cases h
  | cons x xs ih =>
    cases ys with
    | nil => cases h
    | cons y ys =>
      simp only [List.flatMap_cons, List.cons_append, List.nil_append, List.cons.injEq] at h
      rw [Prod.ext h.1 h.2.1, ih h.2.2]

/-- A head and as many values as it asks for are those of a value. -/
theorem exists_of_head {head : Head} {vs : List Value}
    (h : vs.length = head.children?.getD 0) : ∃ v : Value, v.head = head ∧ v.inside = vs := by
  cases head with
  | sequence size => exact ⟨.sequence vs, congrArg Head.sequence h, rfl⟩
  | map size =>
    obtain ⟨entries, rfl, rfl⟩ := exists_pairs h
    exact ⟨.map entries, rfl, rfl⟩
  | nil => exact ⟨.nil, rfl, (List.length_eq_zero_iff.1 h).symm⟩
  | bool b => exact ⟨.bool b, rfl, (List.length_eq_zero_iff.1 h).symm⟩
  | integer i => exact ⟨.integer i, rfl, (List.length_eq_zero_iff.1 h).symm⟩
  | double p => exact ⟨.double p, rfl, (List.length_eq_zero_iff.1 h).symm⟩
  | text bytes => exact ⟨.text bytes, rfl, (List.length_eq_zero_iff.1 h).symm⟩
  | binary bytes => exact ⟨.binary bytes, rfl, (List.length_eq_zero_iff.1 h).symm⟩
  | extension => exact ⟨.extension, rfl, (List.length_eq_zero_iff.1 h).symm⟩

theorem eq_of_head {v w : Value} (hHead : v.head = w.head) (hInside : v.inside = w.inside) :
    v = w := by
  cases v <;> cases w <;> try cases hHead
  case sequence.sequence => exact congrArg sequence hInside
  case map.map => exact congrArg map (pairs_injective hInside)
  all_goals rfl

end Value

/-! ## Bytes of values -/

/-- Bytes are values in a row and what follows them. -/
inductive Holds : List UInt8 → List Value → List UInt8 → Prop
  | nil (bs : List UInt8) : Holds bs [] bs
  | cons {form bs rest : List UInt8} {v : Value} {vs : List Value} : v.head.Form form →
    Holds bs (v.inside ++ vs) rest → Holds (form ++ bs) (v :: vs) rest

variable {bs rest rest' : List UInt8} {v : Value} {vs ws : List Value}

theorem holds_nil_iff : Holds bs [] rest ↔ bs = rest := by
  constructor
  · rintro ⟨⟩
    rfl
  · rintro rfl
    exact .nil bs

theorem holds_cons_iff :
    Holds bs (v :: vs) rest ↔
      ∃ tail, readHead bs = .ok (v.head, tail) ∧ Holds tail (v.inside ++ vs) rest := by
  constructor
  · rintro (_ | ⟨hForm, hTail⟩)
    exact ⟨_, hForm.readHead_append _, hTail⟩
  · rintro ⟨tail, hRead, hTail⟩
    obtain ⟨form, hForm, rfl⟩ := readHead_eq_ok_iff.1 hRead
    exact .cons hForm hTail

theorem Holds.append {mid : List UInt8} (h : Holds bs vs mid) (hNext : Holds mid ws rest) :
    Holds bs (vs ++ ws) rest := by
  induction h with
  | nil bs => exact hNext
  | cons hForm _ ih =>
    have hTail := ih hNext
    rw [List.append_assoc] at hTail
    exact .cons hForm hTail

theorem holds_append_iff :
    Holds bs (vs ++ ws) rest ↔ ∃ mid, Holds bs vs mid ∧ Holds mid ws rest := by
  constructor
  · intro h
    generalize hAll : vs ++ ws = all at h
    induction h generalizing vs with
    | nil bs =>
      obtain ⟨rfl, rfl⟩ := List.append_eq_nil_iff.1 hAll
      exact ⟨bs, .nil bs, .nil bs⟩
    | @cons form bs rest v tail hForm hTail ih =>
      cases vs with
      | nil =>
        obtain rfl : ws = v :: tail := hAll
        exact ⟨form ++ bs, .nil _, .cons hForm hTail⟩
      | cons first vs =>
        obtain ⟨rfl, rfl⟩ := List.cons.inj hAll
        obtain ⟨mid, hFirst, hNext⟩ := ih (List.append_assoc _ _ _)
        exact ⟨mid, .cons hForm hFirst, hNext⟩
  · rintro ⟨mid, hFirst, hNext⟩
    exact hFirst.append hNext

/-- Bytes hold one list of a number of values. -/
theorem Holds.unique (h : Holds bs vs rest) (h' : Holds bs ws rest')
    (hLength : vs.length = ws.length) : vs = ws ∧ rest = rest' := by
  induction h generalizing ws with
  | nil bs =>
    obtain rfl : ws = [] := List.length_eq_zero_iff.1 hLength.symm
    exact ⟨rfl, holds_nil_iff.1 h'⟩
  | @cons form bs rest v vs hForm hTail ih =>
    cases ws with
    | nil => cases hLength
    | cons w ws =>
      obtain ⟨tail, hRead, hTail'⟩ := holds_cons_iff.1 h'
      rw [hForm.readHead_append bs] at hRead
      obtain ⟨hHead, rfl⟩ := Prod.mk.inj (Except.ok.inj hRead)
      have hInside : v.inside.length = w.inside.length := by
        rw [v.length_inside, w.length_inside, hHead]
      obtain ⟨hAll, rfl⟩ := ih hTail' (by
        rw [List.length_append, List.length_append, hInside, Nat.succ.inj hLength])
      obtain ⟨hFirst, rfl⟩ := List.append_inj hAll hInside
      rw [Value.eq_of_head hHead hFirst]
      exact ⟨rfl, rfl⟩

/-! ## Passing over values -/

theorem Value.Within.inside_within {levels : Nat} (h : v.Within levels) {size : Nat}
    (hSize : v.head.children? = some size) :
    ∃ fewer, levels = fewer + 1 ∧ ∀ w ∈ v.inside, w.Within fewer := by
  cases h with
  | single hNone =>
    rw [hNone] at hSize
    cases hSize
  | @nested fewer _ hInside => exact ⟨fewer, rfl, hInside⟩

/-- Bytes start with a number of values that are not nested too deep. -/
def Passes (levels count : Nat) (bs rest : List UInt8) : Prop :=
  ∃ vs, vs.length = count ∧ (∀ v ∈ vs, v.Within levels) ∧ Holds bs vs rest

variable {levels count : Nat}

theorem passes_zero_iff : Passes levels 0 bs rest ↔ bs = rest := by
  constructor
  · rintro ⟨vs, hLength, -, hHolds⟩
    obtain rfl : vs = [] := List.length_eq_zero_iff.1 hLength
    exact holds_nil_iff.1 hHolds
  · rintro rfl
    exact ⟨[], rfl, nofun, .nil bs⟩

theorem passes_succ_iff :
    Passes levels (count + 1) bs rest ↔
      ∃ v mid, v.Within levels ∧ Holds bs [v] mid ∧ Passes levels count mid rest := by
  constructor
  · rintro ⟨vs, hLength, hWithin, hHolds⟩
    obtain ⟨v, vs, rfl⟩ := List.exists_cons_of_length_eq_add_one hLength
    obtain ⟨mid, hFirst, hNext⟩ := holds_append_iff.1 (show Holds bs ([v] ++ vs) rest from hHolds)
    obtain ⟨hFirstWithin, hRest⟩ := List.forall_mem_cons.1 hWithin
    exact ⟨v, mid, hFirstWithin, hFirst, vs, Nat.succ.inj hLength, hRest, hNext⟩
  · rintro ⟨v, mid, hFirstWithin, hFirst, vs, rfl, hRest, hNext⟩
    exact ⟨v :: vs, rfl, List.forall_mem_cons.2 ⟨hFirstWithin, hRest⟩, hFirst.append hNext⟩

section Skip

variable {head : Head} {tail : List UInt8} (hRead : readHead bs = .ok (head, tail))

include hRead

theorem holds_single_iff : Holds bs [v] rest ↔ v.head = head ∧ Holds tail v.inside rest := by
  rw [holds_cons_iff, hRead, List.append_nil]
  constructor
  · rintro ⟨tail', hSame, hInside⟩
    cases hSame
    exact ⟨rfl, hInside⟩
  · rintro ⟨rfl, hInside⟩
    exact ⟨tail, rfl, hInside⟩

theorem skip_single (hKids : head.children? = none) :
    skip levels (count + 1) bs = skip levels count tail := by
  rw [skip, hRead]
  simp only [bind, Except.bind, hKids]

theorem skip_too_deep {size : Nat} (hKids : head.children? = some size) :
    skip 0 (count + 1) bs = .error .tooDeep := by
  rw [skip, hRead]
  simp only [bind, Except.bind, hKids]
  rfl

theorem skip_nested {size : Nat} (hKids : head.children? = some size) :
    skip (levels + 1) (count + 1) bs = skip levels size tail >>= skip (levels + 1) count := by
  rw [skip, hRead]
  simp only [bind, Except.bind, hKids]

end Skip

/-- Passing over one value, where it is known what passing over the values inside it does. -/
theorem skip_succ_iff
    (hFewer : ∀ fewer, levels = fewer + 1 → ∀ size tail mid,
      skip fewer size tail = .ok mid ↔ Passes fewer size tail mid) :
    skip levels (count + 1) bs = .ok rest ↔
      ∃ v mid, v.Within levels ∧ Holds bs [v] mid ∧ skip levels count mid = .ok rest := by
  cases hRead : readHead bs with
  | error fault =>
    constructor
    · intro hSkip
      rw [skip, hRead] at hSkip
      cases hSkip
    · rintro ⟨v, mid, -, hHolds, -⟩
      obtain ⟨tail, hTail, -⟩ := holds_cons_iff.1 hHolds
      cases hRead.symm.trans hTail
  | ok read =>
    obtain ⟨head, tail⟩ := read
    simp only [holds_single_iff hRead]
    cases hKids : head.children? with
    | none =>
      rw [skip_single hRead hKids]
      constructor
      · intro hSkip
        obtain ⟨v, rfl, hInside⟩ :=
          Value.exists_of_head (show [].length = head.children?.getD 0 by rw [hKids]; rfl)
        exact ⟨v, tail, .single hKids, ⟨rfl, hInside ▸ .nil tail⟩, hSkip⟩
      · rintro ⟨v, mid, -, ⟨rfl, hInside⟩, hSkip⟩
        have hEmpty : v.inside = [] := by
          rw [← List.length_eq_zero_iff, v.length_inside, hKids]
          rfl
        rw [hEmpty, holds_nil_iff] at hInside
        rwa [hInside]
    | some size =>
      cases levels with
      | zero =>
        rw [skip_too_deep hRead hKids]
        constructor
        · intro hSkip
          cases hSkip
        · rintro ⟨v, mid, hWithin, ⟨rfl, -⟩, -⟩
          obtain ⟨fewer, hLevels, -⟩ := hWithin.inside_within hKids
          cases hLevels
      | succ fewer =>
        rw [skip_nested hRead hKids, bind_eq_ok_iff]
        simp only [hFewer fewer rfl]
        constructor
        · rintro ⟨mid, ⟨vs, hLength, hWithin, hHolds⟩, hSkip⟩
          obtain ⟨v, rfl, rfl⟩ :=
            Value.exists_of_head (show vs.length = head.children?.getD 0 by rw [hKids]; exact hLength)
          exact ⟨v, mid, .nested hWithin, ⟨rfl, hHolds⟩, hSkip⟩
        · rintro ⟨v, mid, hWithin, ⟨rfl, hHolds⟩, hSkip⟩
          obtain ⟨_, hLevels, hInside⟩ := hWithin.inside_within hKids
          cases hLevels
          have hLength : v.inside.length = size := by rw [v.length_inside, hKids]; rfl
          exact ⟨mid, ⟨v.inside, hLength, hInside, hHolds⟩, hSkip⟩

theorem skip_iff_of_fewer
    (hFewer : ∀ fewer, levels = fewer + 1 → ∀ size tail mid,
      skip fewer size tail = .ok mid ↔ Passes fewer size tail mid) :
    skip levels count bs = .ok rest ↔ Passes levels count bs rest := by
  induction count generalizing bs with
  | zero => rw [skip_zero, passes_zero_iff, Except.ok.injEq]
  | succ count ih =>
    rw [skip_succ_iff hFewer, passes_succ_iff]
    simp only [ih]

/-- A number of values is passed over if they are there and not nested too deep. -/
theorem skip_eq_ok_iff : skip levels count bs = .ok rest ↔ Passes levels count bs rest := by
  -- On the levels; values beside each other are counted inside `skip_iff_of_fewer`.
  induction levels generalizing count bs rest with
  | zero => exact skip_iff_of_fewer nofun
  | succ levels ih =>
    refine skip_iff_of_fewer ?_
    rintro _ ⟨⟩ size tail mid
    exact ih

end RecordStore.Wire
