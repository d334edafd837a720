import RecordStore.Proofs.WrittenReplies

/-!
# What asks for what

Which bytes ask for which request is said by `Asks`: a map whose entries give the fields in any order,
each at most once, or a sequence of the fields in theirs. What follows is not looked at. Names may be
given as texts or as bytes, and as places in the list of what can be named. `Asks` is about values and
knows nothing of how they are read.

A request is read from exactly the bytes that ask for one, and as the one that they ask for
(`ofBytes_eq_ok_iff`), so all other bytes are refused.

## Main results

- `readMode_eq_ok_iff`, `readDatum_eq_ok_iff`: what modes and parameters are read from.
- `readEntries_eq_ok_iff`: what entries are read as.
- `ofBytes_eq_ok_iff`: bytes are read as the request that they ask for.
- `ofBytes_of_holds`: a request that is written is read back.
-/

namespace RecordStore.Wire

/-! ## What values say -/

namespace Value

/-- A text, or bytes that encode it. -/
def Says (v : Value) (s : String) : Prop := v = text (bytesOf s) ∨ v = binary (bytesOf s)

def NamesField (v : Value) (f : Field) : Prop :=
  v.Says f.name ∨ ∃ n : Nat, v = integer n ∧ Field.all[n]? = some f

/-- What can stand where a name is asked for. -/
def IsName (v : Value) : Prop :=
  (∃ bytes, v = text bytes ∨ v = binary bytes) ∨ ∃ n : Nat, v = integer n

def NamesMode (v : Value) (m : Mode) : Prop :=
  v.Says m.name ∨ ∃ n : Nat, v = integer n ∧ Mode.every[n]? = some m

/-- The field value that a value is, if it is a scalar. -/
def datum? : Value → Option Datum
  | nil => some .null
  | bool b => some (.bool b)
  | integer i =>
    some (if 0 ≤ i then Json.Number.unsigned i.toNat else Json.Number.signed i).datum
  | double p => some (datumOfDouble p)
  | text bytes => (textOf? bytes).map .text
  | _ => none

end Value

/-- Values that give a mode. It may be wrapped together with nothing: as a key of it, or in a sequence
that it stands behind. -/
inductive GivesMode (m : Mode) : List Value → Prop
  | named {v : Value} : v.NamesMode m → GivesMode m [v]
  | mapped {v : Value} : v.NamesMode m → GivesMode m [.map [(v, .nil)]]
  | listed {v : Value} : v.NamesMode m → GivesMode m [.sequence [v], .nil]

namespace Fields

/-- Values that give a field which has not been given, and the fields with it. -/
inductive Takes (fs : Fields) : Field → List Value → Fields → Prop
  | statement {v : Value} {s : String} : fs.statement = none → v.Says s →
    Takes fs .statement [v] { fs with statement := some s }
  | mode {vs : List Value} {m : Mode} : fs.mode = none → GivesMode m vs →
    Takes fs .mode vs { fs with mode := some m }
  | parameters {vs : List Value} {ds : List Datum} : fs.parameters = none →
    vs.map Value.datum? = ds.map some →
    Takes fs .parameters [.sequence vs] { fs with parameters := some ds }

/-- The keys and values of a number of entries, and what they make of the fields. -/
inductive Entries : Nat → Fields → List Value → Fields → Prop
  | nil (fs : Fields) : Entries 0 fs [] fs
  | field {count : Nat} {fs mid gs : Fields} {key : Value} {f : Field} {vs ws : List Value} :
    key.NamesField f → fs.Takes f vs mid → Entries count mid ws gs →
    Entries (count + 1) fs (key :: vs ++ ws) gs
  | other {count : Nat} {fs gs : Fields} {key v : Value} {ws : List Value} : key.IsName →
    (∀ f, ¬ key.NamesField f) → v.Within maxLevels → Entries count fs ws gs →
    Entries (count + 1) fs (key :: v :: ws) gs

/-- The values of fields in a row, and what they make of the fields. -/
inductive Row : List Field → Fields → List Value → Fields → Prop
  | nil (fs : Fields) : Row [] fs [] fs
  | cons {fs mid gs : Fields} {f : Field} {fields : List Field} {vs ws : List Value} :
    fs.Takes f vs mid → Row fields mid ws gs → Row (f :: fields) fs (vs ++ ws) gs

/-- The request of fields. Only the statement has to be there. -/
structure Gives (fs : Fields) (r : Request) : Prop where
  statement : fs.statement = some r.statement
  mode : fs.mode.getD .all = r.mode
  parameters : fs.parameters.getD [] = r.parameters

end Fields

/-- Bytes ask for a request. -/
inductive Asks (r : Request) : List UInt8 → Prop
  | map {form bs rest : List UInt8} {size : Nat} {vs : List Value} {fs : Fields} :
    (Head.map size).Form form → Holds bs vs rest → Fields.Entries size {} vs fs → fs.Gives r →
    Asks r (form ++ bs)
  | sequence {form bs rest : List UInt8} {size : Nat} {vs : List Value} {fs : Fields} :
    (Head.sequence size).Form form → 0 < size → size ≤ Field.all.length → Holds bs vs rest →
    Fields.Row (Field.all.take size) {} vs fs → fs.Gives r → Asks r (form ++ bs)

/-! ## Single values -/

variable {bs rest : List UInt8} {v : Value} {vs : List Value}

/-- What is made of heads that have no values inside is made of a value. -/
theorem readSingle_eq_ok_iff {α : Type} {f : Head → Except Fault α} {a : α}
    (hSequence : ∀ size, f (.sequence size) ≠ .ok a) (hMap : ∀ size, f (.map size) ≠ .ok a) :
    readSingle f bs = .ok (a, rest) ↔ ∃ v, Holds bs [v] rest ∧ f v.head = .ok a := by
  have hSingle (head : Head) (hHead : f head = .ok a) : head.children? = none := by
    cases head with
    | sequence size => exact absurd hHead (hSequence size)
    | map size => exact absurd hHead (hMap size)
    | _ => rfl
  rw [readSingle, bind_eq_ok_iff]
  constructor
  · rintro ⟨⟨head, tail⟩, hRead, hRest⟩
    obtain ⟨a', hHead, hPair⟩ := bind_eq_ok_iff.1 hRest
    cases hPair
    obtain ⟨v, rfl, hInside⟩ :=
      Value.exists_of_head (show [].length = head.children?.getD 0 by rw [hSingle head hHead]; rfl)
    refine ⟨v, (holds_single_iff hRead).2 ⟨rfl, ?_⟩, hHead⟩
    rw [hInside]
    exact .nil _
  · rintro ⟨v, hHolds, hHead⟩
    obtain ⟨tail, hRead, hInside⟩ := holds_cons_iff.1 hHolds
    have hEmpty : v.inside = [] := by
      rw [← List.length_eq_zero_iff, v.length_inside, hSingle v.head hHead]
      rfl
    rw [hEmpty, List.append_nil, holds_nil_iff] at hInside
    refine ⟨(v.head, tail), hRead, ?_⟩
    simp only [hHead, hInside]
    rfl

theorem orFault_eq_ok_iff {α : Type} {fault : Fault} {found : Option α} {a : α} :
    orFault fault found = .ok a ↔ found = some a := by
  cases found <;> simp [orFault]

theorem statementOf_eq_ok_iff {s : String} : statementOf v.head = .ok s ↔ v.Says s := by
  cases v <;> simp [statementOf, Value.head, Value.Says, orFault_eq_ok_iff, textOf?_eq_some_iff]

theorem readStatement_eq_ok_iff {s : String} :
    readStatement bs = .ok (s, rest) ↔ ∃ v, Holds bs [v] rest ∧ v.Says s := by
  rw [readStatement, readSingle_eq_ok_iff (a := s) (fun _ h => by cases h) fun _ h => by cases h]
  simp only [statementOf_eq_ok_iff]

theorem datumOf_eq_ok_iff {d : Datum} : datumOf v.head = .ok d ↔ v.datum? = some d := by
  cases v <;> simp [datumOf, Value.head, Value.datum?, map_eq_ok_iff, orFault_eq_ok_iff]

theorem readDatum_eq_ok_iff {d : Datum} :
    readDatum bs = .ok (d, rest) ↔ ∃ v, Holds bs [v] rest ∧ v.datum? = some d := by
  rw [readDatum, readSingle_eq_ok_iff (a := d) (fun _ h => by cases h) fun _ h => by cases h]
  simp only [datumOf_eq_ok_iff]

theorem readData_eq_ok_iff {count : Nat} {ds : List Datum} :
    readData count bs = .ok (ds, rest) ↔
      ∃ vs, vs.length = count ∧ Holds bs vs rest ∧ vs.map Value.datum? = ds.map some := by
  induction count generalizing bs ds with
  | zero =>
    rw [readData]
    constructor
    · intro h
      cases h
      exact ⟨[], rfl, .nil _, rfl⟩
    · rintro ⟨vs, hLength, hHolds, hData⟩
      obtain rfl := List.length_eq_zero_iff.1 hLength
      obtain rfl := holds_nil_iff.1 hHolds
      obtain rfl := List.map_eq_nil_iff.1 hData.symm
      rfl
  | succ count ih =>
    rw [readData, bind_eq_ok_iff]
    constructor
    · rintro ⟨⟨d, mid⟩, hFirst, hRest⟩
      obtain ⟨⟨ds', last⟩, hNext, hPair⟩ := bind_eq_ok_iff.1 hRest
      cases hPair
      obtain ⟨v, hHolds, hDatum⟩ := readDatum_eq_ok_iff.1 hFirst
      obtain ⟨vs, hLength, hHoldsRest, hData⟩ := ih.1 hNext
      refine ⟨v :: vs, congrArg Nat.succ hLength, hHolds.append hHoldsRest, ?_⟩
      rw [List.map_cons, List.map_cons, hDatum, hData]
    · rintro ⟨vs, hLength, hHolds, hData⟩
      obtain ⟨v, vs, rfl⟩ := List.exists_cons_of_length_eq_add_one hLength
      obtain ⟨d, ds, rfl⟩ : ∃ d ds', ds = d :: ds' := by
        cases ds with
        | nil => cases hData
        | cons d ds => exact ⟨d, ds, rfl⟩
      obtain ⟨hDatum, hDataRest⟩ := List.cons.inj hData
      obtain ⟨mid, hFirst, hNext⟩ :=
        holds_append_iff.1 (show Holds bs ([v] ++ vs) rest from hHolds)
      refine ⟨(d, mid), readDatum_eq_ok_iff.2 ⟨v, hFirst, hDatum⟩, bind_eq_ok_iff.2 ?_⟩
      exact ⟨(ds, rest), ih.2 ⟨vs, Nat.succ.inj hLength, hNext, hDataRest⟩, rfl⟩

theorem readParameters_eq_ok_iff {ds : List Datum} :
    readParameters bs = .ok (ds, rest) ↔
      ∃ vs, Holds bs [.sequence vs] rest ∧ vs.map Value.datum? = ds.map some := by
  rw [readParameters, bind_eq_ok_iff]
  constructor
  · rintro ⟨⟨head, tail⟩, hRead, hRest⟩
    cases head with
    | sequence size =>
      obtain ⟨vs, rfl, hHolds, hData⟩ := readData_eq_ok_iff.1 hRest
      exact ⟨vs, (holds_single_iff hRead).2 ⟨rfl, hHolds⟩, hData⟩
    | _ => cases hRest
  · rintro ⟨vs, hHolds, hData⟩
    obtain ⟨tail, hRead, hInside⟩ := holds_cons_iff.1 hHolds
    rw [List.append_nil] at hInside
    exact ⟨(_, tail), hRead, readData_eq_ok_iff.2 ⟨vs, rfl, hInside, hData⟩⟩

/-! ## Modes -/

theorem ofName?_eq_some_iff {name : String} {m : Mode} :
    Mode.ofName? name = some m ↔ name = m.name := by
  constructor
  · intro h
    have hFound := List.find?_some h
    exact (eq_of_beq hFound).symm
  · rintro rfl
    exact m.ofName?_name

theorem place_iff {α : Type} {xs : List α} {i : Int} {a : α} :
    ¬ i < 0 ∧ xs[i.toNat]? = some a ↔ ∃ n : Nat, i = n ∧ xs[n]? = some a := by
  constructor
  · rintro ⟨hSign, hPlace⟩
    exact ⟨i.toNat, (Int.toNat_of_nonneg (Int.not_lt.1 hSign)).symm, hPlace⟩
  · rintro ⟨n, rfl, hPlace⟩
    exact ⟨Int.not_lt.2 (Int.natCast_nonneg n), hPlace⟩

theorem modeOf_eq_ok_iff {m : Mode} : modeOf v.head = .ok m ↔ v.NamesMode m := by
  cases v with
  | integer i =>
    simp only [Value.NamesMode, Value.Says, Value.integer.injEq, reduceCtorEq, false_or, ← place_iff]
    by_cases hSign : i < 0
    · simp [modeOf, Value.head, hSign]
    · simp [modeOf, Value.head, hSign, orFault_eq_ok_iff]
  | text bytes =>
    simp [modeOf, Value.head, Value.NamesMode, Value.Says, bind_eq_ok_iff, orFault_eq_ok_iff,
      textOf?_eq_some_iff, ofName?_eq_some_iff]
  | binary bytes =>
    have hName : (textOf? bytes).getD "\ufffd" = m.name ↔ textOf? bytes = some m.name := by
      cases textOf? bytes with
      | none => cases m <;> simp [Mode.name]
      | some name => rw [Option.getD_some, Option.some.injEq]
    simp [modeOf, Value.head, Value.NamesMode, Value.Says, orFault_eq_ok_iff, ofName?_eq_some_iff,
      hName, textOf?_eq_some_iff]
  | _ => simp [modeOf, Value.head, Value.NamesMode, Value.Says]

theorem readSingleMode_eq_ok_iff {m : Mode} :
    readSingle modeOf bs = .ok (m, rest) ↔ ∃ v, Holds bs [v] rest ∧ v.NamesMode m := by
  rw [readSingle_eq_ok_iff (a := m) (fun _ h => by cases h) fun _ h => by cases h]
  simp only [modeOf_eq_ok_iff]

theorem readNothing_eq_ok_iff :
    readSingle nothingOf bs = .ok ((), rest) ↔ Holds bs [.nil] rest := by
  have hNothing {v : Value} : nothingOf v.head = .ok () ↔ v = .nil := by
    cases v <;> simp [nothingOf, Value.head]
  rw [readSingle_eq_ok_iff (a := ()) (fun _ h => by cases h) fun _ h => by cases h]
  simp only [hNothing]
  constructor
  · rintro ⟨v, hHolds, rfl⟩
    exact hHolds
  · intro hHolds
    exact ⟨.nil, hHolds, rfl⟩

theorem readWrappedMode_eq_ok_iff {m : Mode} :
    readWrappedMode bs = .ok (m, rest) ↔ ∃ v, Holds bs [v, .nil] rest ∧ v.NamesMode m := by
  rw [readWrappedMode, bind_eq_ok_iff]
  constructor
  · rintro ⟨⟨m', mid⟩, hMode, hRest⟩
    obtain ⟨⟨_, last⟩, hNothing, hPair⟩ := bind_eq_ok_iff.1 hRest
    cases hPair
    obtain ⟨v, hHolds, hNames⟩ := readSingleMode_eq_ok_iff.1 hMode
    exact ⟨v, hHolds.append (readNothing_eq_ok_iff.1 hNothing), hNames⟩
  · rintro ⟨v, hHolds, hNames⟩
    obtain ⟨mid, hFirst, hNext⟩ :=
      holds_append_iff.1 (show Holds bs ([v] ++ [.nil]) rest from hHolds)
    refine ⟨(m, mid), readSingleMode_eq_ok_iff.2 ⟨v, hFirst, hNames⟩, bind_eq_ok_iff.2 ?_⟩
    exact ⟨((), rest), readNothing_eq_ok_iff.2 hNext, rfl⟩

theorem readMode_eq_ok_iff {m : Mode} :
    readMode bs = .ok (m, rest) ↔ ∃ vs, Holds bs vs rest ∧ GivesMode m vs := by
  rw [readMode, bind_eq_ok_iff]
  constructor
  · rintro ⟨⟨head, tail⟩, hRead, hRest⟩
    cases head with
    | sequence size =>
      simp only at hRest
      split at hRest
      · next hSize =>
        obtain ⟨v, hHolds, hNames⟩ := readWrappedMode_eq_ok_iff.1 hRest
        subst hSize
        exact ⟨[.sequence [v], .nil], holds_cons_iff.2 ⟨tail, hRead, hHolds⟩, .listed hNames⟩
      · cases hRest
    | map size =>
      simp only at hRest
      split at hRest
      · next hSize =>
        obtain ⟨v, hHolds, hNames⟩ := readWrappedMode_eq_ok_iff.1 hRest
        subst hSize
        exact ⟨[.map [(v, .nil)]], holds_cons_iff.2 ⟨tail, hRead, hHolds⟩, .mapped hNames⟩
      · cases hRest
    | _ =>
      obtain ⟨v, hHolds, hNames⟩ := readSingleMode_eq_ok_iff.1 hRest
      exact ⟨[v], hHolds, .named hNames⟩
  · rintro ⟨vs, hHolds, hGives⟩
    cases hGives with
    | @named v hNames =>
      -- What names a mode is neither a sequence nor a map, so it is not taken for a wrapping.
      obtain ⟨tail, hRead, -⟩ := holds_cons_iff.1 hHolds
      have hSingle := readSingleMode_eq_ok_iff.2 ⟨v, hHolds, hNames⟩
      refine ⟨(v.head, tail), hRead, ?_⟩
      rcases hNames with (rfl | rfl) | ⟨n, rfl, -⟩ <;> exact hSingle
    | @mapped v hNames =>
      obtain ⟨tail, hRead, hInside⟩ := holds_cons_iff.1 hHolds
      exact ⟨(_, tail), hRead, readWrappedMode_eq_ok_iff.2 ⟨v, hInside, hNames⟩⟩
    | @listed v hNames =>
      obtain ⟨tail, hRead, hInside⟩ := holds_cons_iff.1 hHolds
      exact ⟨(_, tail), hRead, readWrappedMode_eq_ok_iff.2 ⟨v, hInside, hNames⟩⟩

/-! ## Fields -/

theorem find?_field_eq_some_iff {bytes : List UInt8} {f : Field} :
    (Field.all.find? fun field => bytesOf field.name == bytes) = some f ↔
      bytes = bytesOf f.name := by
  constructor
  · intro h
    have hFound := List.find?_some h
    exact (eq_of_beq hFound).symm
  · rintro rfl
    cases f <;> decide

theorem fieldOf_eq_some_iff {f : Field} : fieldOf v.head = .ok (some f) ↔ v.NamesField f := by
  cases v with
  | integer i =>
    simp only [Value.NamesField, Value.Says, Value.integer.injEq, reduceCtorEq, false_or, ← place_iff]
    by_cases hSign : i < 0
    · simp [fieldOf, Value.head, hSign]
    · simp [fieldOf, Value.head, hSign]
  | _ => simp [fieldOf, Value.head, Value.NamesField, Value.Says, find?_field_eq_some_iff]

theorem exists_fieldOf_iff : (∃ found, fieldOf v.head = .ok found) ↔ v.IsName := by
  cases v with
  | integer i =>
    by_cases hSign : i < 0
    · simp [fieldOf, Value.head, Value.IsName, hSign]
      omega
    · simp [fieldOf, Value.head, Value.IsName, hSign]
      exact ⟨i.toNat, (Int.toNat_of_nonneg (Int.not_lt.1 hSign)).symm⟩
  | _ => simp [fieldOf, Value.head, Value.IsName]

theorem fieldOf_eq_none_iff :
    fieldOf v.head = .ok none ↔ v.IsName ∧ ∀ f, ¬ v.NamesField f := by
  simp only [← exists_fieldOf_iff, ← fieldOf_eq_some_iff]
  constructor
  · intro h
    rw [h]
    exact ⟨⟨none, rfl⟩, nofun⟩
  · rintro ⟨⟨found, hFound⟩, hNot⟩
    cases found with
    | none => exact hFound
    | some f => exact absurd hFound (hNot f)

theorem readKey_eq_ok_iff {found : Option Field} :
    readSingle fieldOf bs = .ok (found, rest) ↔
      ∃ v, Holds bs [v] rest ∧ fieldOf v.head = .ok found :=
  readSingle_eq_ok_iff nofun nofun

namespace Fields

variable {fs gs : Fields} {f : Field}

theorem Takes.not_has (h : fs.Takes f vs gs) : ¬ fs.has f := by
  cases h with
  | statement hFree _ => simp [has, hFree]
  | mode hFree _ => simp [has, hFree]
  | parameters hFree _ => simp [has, hFree]

/-- What is read for a field is put into the fields. -/
theorem set_eq_ok_iff {α : Type} {read : Except Fault (α × List UInt8)} {f : α → Fields} :
    (do let (a, left) ← read; return (f a, left)) = .ok (gs, rest) ↔
      ∃ a, read = .ok (a, rest) ∧ f a = gs := by
  cases read with
  | error fault =>
    constructor
    · intro h
      cases h
    · rintro ⟨a, hRead, -⟩
      cases hRead
  | ok found =>
    constructor
    · intro h
      cases h
      exact ⟨found.1, rfl, rfl⟩
    · rintro ⟨a, hRead, rfl⟩
      cases hRead
      rfl

theorem readValue_eq_ok_iff :
    fs.readValue f bs = .ok (gs, rest) ↔ ∃ vs, Holds bs vs rest ∧ fs.Takes f vs gs := by
  unfold readValue
  by_cases hHas : fs.has f
  · rw [if_pos hHas]
    constructor
    · nofun
    · rintro ⟨vs, -, hTakes⟩
      exact absurd hHas hTakes.not_has
  rw [if_neg hHas]
  simp only
  cases f with
  | statement =>
    have hFree : fs.statement = none := by simpa [has] using hHas
    refine (set_eq_ok_iff (f := fun s => { fs with statement := some s })).trans ?_
    simp only [readStatement_eq_ok_iff]
    constructor
    · rintro ⟨s, ⟨v, hHolds, hSays⟩, rfl⟩
      exact ⟨[v], hHolds, .statement hFree hSays⟩
    · rintro ⟨vs, hHolds, hTakes⟩
      cases hTakes with
      | @statement v s _ hSays => exact ⟨s, ⟨v, hHolds, hSays⟩, rfl⟩
  | mode =>
    have hFree : fs.mode = none := by simpa [has] using hHas
    refine (set_eq_ok_iff (f := fun m => { fs with mode := some m })).trans ?_
    simp only [readMode_eq_ok_iff]
    constructor
    · rintro ⟨m, ⟨vs, hHolds, hGives⟩, rfl⟩
      exact ⟨vs, hHolds, .mode hFree hGives⟩
    · rintro ⟨vs, hHolds, hTakes⟩
      cases hTakes with
      | @mode _ m _ hGives => exact ⟨m, ⟨vs, hHolds, hGives⟩, rfl⟩
  | parameters =>
    have hFree : fs.parameters = none := by simpa [has] using hHas
    refine (set_eq_ok_iff (f := fun ds => { fs with parameters := some ds })).trans ?_
    simp only [readParameters_eq_ok_iff]
    constructor
    · rintro ⟨ds, ⟨vs, hHolds, hData⟩, rfl⟩
      exact ⟨[.sequence vs], hHolds, .parameters hFree hData⟩
    · rintro ⟨vs, hHolds, hTakes⟩
      cases hTakes with
      | @parameters vs ds _ hData => exact ⟨ds, ⟨vs, hHolds, hData⟩, rfl⟩

theorem readEntries_eq_ok_iff {count : Nat} :
    readEntries count fs bs = .ok (gs, rest) ↔
      ∃ vs, Holds bs vs rest ∧ Entries count fs vs gs := by
  induction count generalizing fs bs with
  | zero =>
    rw [readEntries]
    constructor
    · intro h
      cases h
      exact ⟨[], .nil _, .nil _⟩
    · rintro ⟨vs, hHolds, hEntries⟩
      cases hEntries
      obtain rfl := holds_nil_iff.1 hHolds
      rfl
  | succ count ih =>
    rw [readEntries, bind_eq_ok_iff]
    constructor
    · rintro ⟨⟨found, tail⟩, hKey, hRest⟩
      obtain ⟨key, hHolds, hNamed⟩ := readKey_eq_ok_iff.1 hKey
      cases found with
      | some f =>
        obtain ⟨⟨mid, left⟩, hValue, hNext⟩ := bind_eq_ok_iff.1 hRest
        obtain ⟨vs, hHoldsValue, hTakes⟩ := readValue_eq_ok_iff.1 hValue
        obtain ⟨ws, hHoldsNext, hEntries⟩ := ih.1 hNext
        exact ⟨key :: vs ++ ws, (hHolds.append hHoldsValue).append hHoldsNext,
          .field (fieldOf_eq_some_iff.1 hNamed) hTakes hEntries⟩
      | none =>
        obtain ⟨left, hSkip, hNext⟩ := bind_eq_ok_iff.1 hRest
        obtain ⟨vs, hLength, hWithin, hHoldsValue⟩ := skip_eq_ok_iff.1 hSkip
        obtain ⟨v, rfl⟩ := List.length_eq_one_iff.1 hLength
        obtain ⟨ws, hHoldsNext, hEntries⟩ := ih.1 hNext
        obtain ⟨hName, hOther⟩ := fieldOf_eq_none_iff.1 hNamed
        exact ⟨key :: v :: ws, hHolds.append (hHoldsValue.append hHoldsNext),
          .other hName hOther (List.forall_mem_singleton.1 hWithin) hEntries⟩
    · rintro ⟨vs, hHolds, hEntries⟩
      cases hEntries with
      | @field _ _ mid _ key f vs ws hNames hTakes hNext =>
        obtain ⟨left, hFirst, hHoldsNext⟩ := holds_append_iff.1 hHolds
        obtain ⟨tail, hHoldsKey, hHoldsValue⟩ :=
          holds_append_iff.1 (show Holds bs ([key] ++ vs) left from hFirst)
        refine ⟨(some f, tail),
          readKey_eq_ok_iff.2 ⟨key, hHoldsKey, fieldOf_eq_some_iff.2 hNames⟩, ?_⟩
        exact bind_eq_ok_iff.2 ⟨(mid, left), readValue_eq_ok_iff.2 ⟨vs, hHoldsValue, hTakes⟩,
          ih.2 ⟨ws, hHoldsNext, hNext⟩⟩
      | @other _ _ _ key v ws hName hOther hWithin hNext =>
        obtain ⟨tail, hHoldsKey, hHoldsRest⟩ :=
          holds_append_iff.1 (show Holds bs ([key] ++ (v :: ws)) rest from hHolds)
        obtain ⟨left, hHoldsValue, hHoldsNext⟩ :=
          holds_append_iff.1 (show Holds tail ([v] ++ ws) rest from hHoldsRest)
        refine ⟨(none, tail),
          readKey_eq_ok_iff.2 ⟨key, hHoldsKey, fieldOf_eq_none_iff.2 ⟨hName, hOther⟩⟩, ?_⟩
        exact bind_eq_ok_iff.2 ⟨left,
          skip_eq_ok_iff.2 ⟨[v], rfl, List.forall_mem_singleton.2 hWithin, hHoldsValue⟩,
          ih.2 ⟨ws, hHoldsNext, hNext⟩⟩

theorem foldlM_readValue_eq_ok_iff {fields : List Field} :
    fields.foldlM (fun (fs, bs) field => fs.readValue field bs) (fs, bs) = .ok (gs, rest) ↔
      ∃ vs, Holds bs vs rest ∧ Row fields fs vs gs := by
  induction fields generalizing fs bs with
  | nil =>
    rw [List.foldlM_nil]
    constructor
    · intro h
      cases h
      exact ⟨[], .nil _, .nil _⟩
    · rintro ⟨vs, hHolds, hRow⟩
      cases hRow
      obtain rfl := holds_nil_iff.1 hHolds
      rfl
  | cons f fields ih =>
    rw [List.foldlM_cons, bind_eq_ok_iff]
    constructor
    · rintro ⟨⟨mid, left⟩, hValue, hNext⟩
      obtain ⟨vs, hHolds, hTakes⟩ := readValue_eq_ok_iff.1 hValue
      obtain ⟨ws, hHoldsNext, hRow⟩ := ih.1 hNext
      exact ⟨vs ++ ws, hHolds.append hHoldsNext, .cons hTakes hRow⟩
    · rintro ⟨vs, hHolds, hRow⟩
      cases hRow with
      | @cons _ mid _ _ _ vs ws hTakes hNext =>
        obtain ⟨left, hHoldsValue, hHoldsNext⟩ := holds_append_iff.1 hHolds
        exact ⟨(mid, left), readValue_eq_ok_iff.2 ⟨vs, hHoldsValue, hTakes⟩,
          ih.2 ⟨ws, hHoldsNext, hNext⟩⟩

theorem readSequence_eq_ok_iff {size : Nat} :
    fs.readSequence size bs = .ok gs ↔
      ∃ vs rest, Holds bs vs rest ∧ Row (Field.all.take size) fs vs gs := by
  rw [readSequence, bind_eq_ok_iff]
  constructor
  · rintro ⟨⟨_, rest⟩, hRead, hPair⟩
    cases hPair
    obtain ⟨vs, hHolds, hRow⟩ := foldlM_readValue_eq_ok_iff.1 hRead
    exact ⟨vs, rest, hHolds, hRow⟩
  · rintro ⟨vs, rest, hHolds, hRow⟩
    exact ⟨(gs, rest), foldlM_readValue_eq_ok_iff.2 ⟨vs, hHolds, hRow⟩, rfl⟩

theorem ofFields_eq_ok_iff {r : Request} : Request.ofFields fs = .ok r ↔ fs.Gives r := by
  obtain ⟨statement, mode, parameters⟩ := fs
  cases statement with
  | none =>
    constructor
    · nofun
    · rintro ⟨⟨⟩, -, -⟩
  | some s =>
    constructor
    · intro h
      cases h
      exact ⟨rfl, rfl, rfl⟩
    · rintro ⟨⟨⟩, hMode, hParameters⟩
      simp only [Request.ofFields]
      simp only at hMode hParameters
      rw [hMode, hParameters]

end Fields

/-- A request is read from the bytes that ask for it, and from no others. -/
theorem ofBytes_eq_ok_iff {r : Request} : Request.ofBytes bs = .ok r ↔ Asks r bs := by
  rw [Request.ofBytes, bind_eq_ok_iff]
  constructor
  · rintro ⟨⟨head, tail⟩, hRead, hRest⟩
    obtain ⟨form, hForm, rfl⟩ := readHead_eq_ok_iff.1 hRead
    cases head with
    | map size =>
      obtain ⟨⟨fs, rest⟩, hEntries, hFields⟩ := bind_eq_ok_iff.1 hRest
      obtain ⟨vs, hHolds, hMakes⟩ := Fields.readEntries_eq_ok_iff.1 hEntries
      exact .map hForm hHolds hMakes (Fields.ofFields_eq_ok_iff.1 hFields)
    | sequence size =>
      simp only at hRest
      split at hRest
      · cases hRest
      · next hSome =>
        obtain ⟨fs, hRow, hRest⟩ := bind_eq_ok_iff.1 hRest
        split at hRest
        · cases hRest
        · next hFew =>
          obtain ⟨vs, rest, hHolds, hMakes⟩ := Fields.readSequence_eq_ok_iff.1 hRow
          exact .sequence hForm (Nat.pos_of_ne_zero hSome) (Nat.not_lt.1 hFew) hHolds hMakes
            (Fields.ofFields_eq_ok_iff.1 hRest)
    | _ => cases hRest
  · intro hAsks
    cases hAsks with
    | @map form bs rest size vs fs hForm hHolds hMakes hGives =>
      refine ⟨(.map size, bs), hForm.readHead_append bs, ?_⟩
      exact bind_eq_ok_iff.2 ⟨(fs, rest), Fields.readEntries_eq_ok_iff.2 ⟨vs, hHolds, hMakes⟩,
        Fields.ofFields_eq_ok_iff.2 hGives⟩
    | @sequence form bs rest size vs fs hForm hSome hFew hHolds hMakes hGives =>
      refine ⟨(.sequence size, bs), hForm.readHead_append bs, ?_⟩
      simp only
      rw [if_neg (Nat.ne_of_gt hSome)]
      refine bind_eq_ok_iff.2
        ⟨fs, Fields.readSequence_eq_ok_iff.2 ⟨vs, rest, hHolds, hMakes⟩, ?_⟩
      rw [if_neg (show ¬ 3 < size from Nat.not_lt.2 hFew)]
      exact Fields.ofFields_eq_ok_iff.2 hGives

/-! ## Requests as values -/

/-- A request as the map of its fields. -/
def Request.value (r : Request) : Value :=
  .map [(textValue "statement", textValue r.statement), (textValue "mode", textValue r.mode.name),
    (textValue "params", .sequence (r.parameters.map datumValue))]

theorem datum?_integer (i : Int64) : (Value.integer i.toInt).datum? = some (.integer i) := by
  have hGreatest := i.toInt_lt
  have hMax : Int64.maxValue.toInt.toNat = 9223372036854775807 := by decide
  rw [Value.datum?]
  by_cases hSign : 0 ≤ i.toInt
  · have hBack : Int64.ofNat i.toInt.toNat = i := by
      rw [← Int64.ofInt_eq_ofNat, Int.toNat_of_nonneg hSign, Int64.ofInt_toInt]
    rw [if_pos hSign, Json.Number.datum, if_pos (by omega), hBack]
  · rw [if_neg hSign, Json.Number.datum, Int64.ofInt_toInt]

/-- A parameter is read as what it is, unless it is a decimal. -/
theorem datum?_datumValue {d : Datum} (hDecimal : ∀ value, d ≠ .decimal value) :
    (datumValue d).datum? = some d := by
  cases d with
  | null => rfl
  | bool b => rfl
  | integer i => exact datum?_integer i
  | decimal value => exact absurd rfl (hDecimal value)
  | text s =>
    show (textOf? (bytesOf s)).map Datum.text = some (.text s)
    rw [textOf?_eq_some_iff.2 rfl]
    rfl

/-- A request is read back in whatever forms it is written, and whatever follows it. -/
theorem ofBytes_of_holds {r : Request} (hHolds : Holds bs [r.value] rest)
    (hDecimal : ∀ d ∈ r.parameters, ∀ value, d ≠ .decimal value) : Request.ofBytes bs = .ok r := by
  obtain ⟨form, tail, hForm, rfl, hInside⟩ := exists_form_of_holds hHolds
  have hData : (r.parameters.map datumValue).map Value.datum? = r.parameters.map some := by
    rw [List.map_map]
    exact List.map_congr_left fun d hMem => datum?_datumValue (hDecimal d hMem)
  have hEntries : Fields.Entries 3 {} r.value.inside
      ⟨some r.statement, some r.mode, some r.parameters⟩ :=
    .field (.inl (.inl rfl)) (.statement rfl (.inl rfl)) <|
      .field (.inl (.inl rfl)) (.mode rfl (.named (.inl (.inl rfl)))) <|
        .field (.inl (.inl rfl)) (.parameters rfl hData) (.nil _)
  exact ofBytes_eq_ok_iff.2 (.map hForm hInside hEntries ⟨rfl, rfl, rfl⟩)

end RecordStore.Wire
