import RecordStore.Proofs.JsonReaders
import RecordStore.Proofs.SavedFiles
import RecordStore.Proofs.SessionSteps
import RecordStore.Proofs.StoreRoundTrip

/-!
# What is loaded

A text is loaded just if it is a written form of a value that holds a database, and what is loaded is
that database. The readers of field values, records and tables are readers of the values that hold
them (`ReadsAs`), each put together from the one before. A reader of brackets goes through them part
by part, and what it makes of the parts is compared with what the value is said to hold: a record
takes over its fields one by one, a map of tables gives tables by their names (`Given`), and a sequence
assigns tables in their order (`assigned`).

The document is meant to be a map. A sequence of tables is loaded too, by the positions of the tables,
and when the database is next saved a map takes its place.

## Main results

- `readsAs_record`, `readsAs_table`, `readsAs_database`: what the readers accept.
- `Database.ofJson_eq_ok_iff`: which texts hold which databases.
- `load_document`: what a session does with the document of its file.
- `load_of_sequence`: a document that is loaded and is no map.
-/

namespace RecordStore

namespace Table

theorem name_injective {t u : Table} (h : t.name = u.name) : t = u := by
  have hFound := ofExactName?_name t
  rw [h, ofExactName?_name] at hFound
  exact (Option.some.inj hFound).symm

theorem ofExactName?_eq_some_iff {key : String} {t : Table} :
    ofExactName? key = some t ↔ key = t.name := by
  constructor
  · intro h
    unfold ofExactName? at h
    have hKey := List.find?_some h
    exact (beq_iff_eq.1 hKey).symm
  · rintro rfl
    exact ofExactName?_name t

end Table

namespace Json

/-! ## Related lists -/

theorem exists_forall₂ {α β : Type} {related : α → β → Prop} {as : List α}
    (h : ∀ a ∈ as, ∃ b, related a b) : ∃ bs, List.Forall₂ related as bs := by
  induction as with
  | nil => exact ⟨[], .nil⟩
  | cons a as ih =>
    obtain ⟨b, hb⟩ := h a List.mem_cons_self
    obtain ⟨bs, hbs⟩ := ih fun c hc => h c (List.mem_cons_of_mem a hc)
    exact ⟨b :: bs, .cons hb hbs⟩

theorem exists_of_forall₂ {α β : Type} {related : α → β → Prop} {as : List α} {bs : List β}
    (h : List.Forall₂ related as bs) {a : α} (ha : a ∈ as) : ∃ b ∈ bs, related a b := by
  induction h with
  | nil => cases ha
  | @cons c b as bs hFirst _ ih =>
    rcases List.mem_cons.1 ha with rfl | ha
    · exact ⟨b, List.mem_cons_self, hFirst⟩
    · obtain ⟨d, hd, hRelated⟩ := ih ha
      exact ⟨d, List.mem_cons_of_mem b hd, hRelated⟩

/-! ## Field values -/

theorem readsAs_datum : ReadsAs (Accepts readDatum) fun v d => v.datum? = some d where
  sound := by
    intro cs rest d h
    have hRead : readDatum cs = .ok (d, rest) := h
    unfold readDatum at hRead
    split at hRead
    · cases hRead
    · next s tail hHead =>
      cases hRead
      obtain ⟨front, rfl, hFront⟩ := exists_scalar hHead
      have hAlone : readHead front = .ok (.scalar s, []) := by
        simpa using hFront [] endsNumber_nil
      obtain ⟨before, tight, rfl, hBefore, hTight⟩ := exists_spellsTight hAlone
      exact ⟨before, tight, .scalar s, by simp, hBefore, hTight, rfl⟩
    · cases hRead
  complete := by
    rintro before front rest v d hBefore hTight hDatum hRest
    cases v with
    | scalar s =>
      cases hDatum
      obtain ⟨scalar, hText, hRead⟩ := exists_scalar hTight.2
      rw [List.append_nil] at hText
      subst hText
      refine readDatum_of_readHead ?_
      rw [readHead_append hBefore, hRead rest hRest]
    | sequence | map => cases hDatum

/-! ## Records -/

theorem readMember_eq (first : Bool) (cs : List Char) :
    readMember first cs = readEntry readDatum first cs := rfl

theorem readMembers_eq_ok_iff {first : Bool} {r r' : Record} {cs rest : List Char} :
    readMembers first r cs = .ok (r', rest) ↔
      ∃ ps, Loop (readEntry readDatum) first cs ps rest ∧ r' = r.insertAll ps := by
  constructor
  · fun_induction readMembers first r cs with
    | case1 =>
      intro h
      cases h
    | case2 first r cs rest' hMember =>
      intro h
      cases h
      exact ⟨[], .done hMember, rfl⟩
    | case3 first r cs key value rest' hMember hLt ih =>
      intro h
      obtain ⟨ps, hLoop, hRecord⟩ := ih h
      exact ⟨(key, value) :: ps, .next hMember hLoop, hRecord⟩
  · rintro ⟨ps, hLoop, rfl⟩
    induction hLoop generalizing r with
    | done hMember =>
      rw [readMembers_eq, readMember_eq, hMember]
      rfl
    | next hMember _ ih =>
      rw [readMembers_eq, readMember_eq, hMember]
      exact ih

/-- An entry of a map is a field: the name is the key, and the value is as given. -/
def IsField (e : String × Value) (p : String × Datum) : Prop := e.1 = p.1 ∧ e.2.datum? = some p.2

theorem lookup_of_isField {es : List (String × Value)} {ps : List (String × Datum)}
    (h : List.Forall₂ IsField es ps) (name : String) :
    (es.lookup name).bind Value.datum? = ps.lookup name := by
  induction h with
  | nil => rfl
  | @cons e p es ps hField _ ih =>
    obtain ⟨hName, hDatum⟩ := hField
    rw [List.lookup_cons, List.lookup_cons, hName]
    cases name == p.1 with
    | true => exact hDatum
    | false => exact ih

theorem isRecord_iff {v : Value} {r : Record} :
    v.IsRecord r ↔
      ∃ es ps, v = .map es ∧ List.Forall₂ IsField es ps ∧ r = Record.ofList ps := by
  have hFields {es : List (String × Value)} {ps : List (String × Datum)}
      (h : List.Forall₂ IsField es ps) (name : String) :
      (Record.ofList ps).get? name = (es.reverse.lookup name).bind Value.datum? := by
    rw [Record.ofList, Record.get?_insertAll, Record.get?_empty, Option.or_none]
    exact (lookup_of_isField (List.rel_reverse h) name).symm
  constructor
  · rintro ⟨es, rfl, hScalar, hGet⟩
    obtain ⟨ps, hAll⟩ : ∃ ps, List.Forall₂ IsField es ps := exists_forall₂ fun e he => by
      obtain ⟨d, hDatum⟩ := hScalar e he
      exact ⟨(e.1, d), rfl, hDatum⟩
    refine ⟨es, ps, rfl, hAll, Record.ext fun name => ?_⟩
    rw [hGet, hFields hAll]
  · rintro ⟨es, ps, rfl, hAll, rfl⟩
    refine ⟨es, rfl, fun e he => ?_, hFields hAll⟩
    obtain ⟨p, -, -, hDatum⟩ := exists_of_forall₂ hAll he
    exact ⟨p.2, hDatum⟩

theorem readRecord_eq_ok_iff {cs rest : List Char} {r : Record} :
    readRecord cs = .ok (r, rest) ↔ ∃ tail ps, readHead cs = .ok (.map, tail) ∧
      Loop (readEntry readDatum) true tail ps rest ∧ r = Record.ofList ps := by
  constructor
  · intro h
    unfold readRecord at h
    split at h
    · cases h
    · next tail hHead =>
      obtain ⟨ps, hLoop, hRecord⟩ := readMembers_eq_ok_iff.1 h
      exact ⟨tail, ps, hHead, hLoop, hRecord⟩
    · cases h
  · rintro ⟨tail, ps, hHead, hLoop, hRecord⟩
    rw [readRecord, hHead]
    exact readMembers_eq_ok_iff.2 ⟨ps, hLoop, hRecord⟩

theorem readsAs_record : ReadsAs (Accepts readRecord) Value.IsRecord :=
  (readsAs_datum.map fun ps r => r = Record.ofList ps).congr readRecord_eq_ok_iff isRecord_iff

/-! ## Tables -/

theorem readElement_eq (first : Bool) (cs : List Char) :
    readElement first cs = readItem readRecord first cs := rfl

theorem readElements_eq_ok_iff {first : Bool} {rs : List Record} {cs rest : List Char} :
    readElements first cs = .ok (rs, rest) ↔ Loop (readItem readRecord) first cs rs rest := by
  constructor
  · fun_induction readElements first cs generalizing rs with
    | case1 =>
      intro h
      cases h
    | case2 first cs rest' hElement =>
      intro h
      cases h
      exact .done hElement
    | case3 first cs r rest' hElement hLt ih =>
      intro h
      obtain ⟨⟨others, _⟩, hOthers, hEq⟩ := map_eq_ok_iff.1 h
      cases hEq
      exact .next hElement (ih hOthers)
  · intro hLoop
    induction hLoop with
    | done hElement => rw [readElements_eq, readElement_eq, hElement]
    | next hElement _ ih =>
      rw [readElements_eq, readElement_eq, hElement]
      exact map_eq_ok_iff.2 ⟨_, ih, rfl⟩

theorem readRecords_eq_ok_iff {cs rest : List Char} {rs : List Record} :
    readRecords cs = .ok (rs, rest) ↔ ∃ tail bs, readHead cs = .ok (.sequence, tail) ∧
      Loop (readItem readRecord) true tail bs rest ∧ rs = bs := by
  constructor
  · intro h
    unfold readRecords at h
    split at h
    · cases h
    · next tail hHead => exact ⟨tail, rs, hHead, readElements_eq_ok_iff.1 h, rfl⟩
    · cases h
  · rintro ⟨tail, bs, hHead, hLoop, rfl⟩
    rw [readRecords, hHead]
    exact readElements_eq_ok_iff.2 hLoop

theorem readsAs_table : ReadsAs (Accepts readRecords) Value.IsTable := by
  refine (readsAs_record.sequence fun bs rs => rs = bs).congr readRecords_eq_ok_iff ?_
  intro v rs
  constructor
  · rintro ⟨items, rfl, hAll⟩
    exact ⟨items, rs, rfl, hAll, rfl⟩
  · rintro ⟨items, bs, rfl, hAll, rfl⟩
    exact ⟨items, rfl, hAll⟩

/-! ## Maps of tables -/

theorem readTableKey_eq_ok_iff {seen : List Table} {key : String} {t : Table} :
    readTableKey seen key = .ok t ↔ key = t.name ∧ t ∉ seen := by
  rw [← Table.ofExactName?_eq_some_iff]
  unfold readTableKey
  split
  · next hNone =>
    rw [hNone]
    exact ⟨nofun, nofun⟩
  · next u hSome =>
    rw [hSome]
    split
    · next hSeen =>
      refine ⟨nofun, ?_⟩
      rintro ⟨hEq, hNot⟩
      exact absurd (Option.some.inj hEq ▸ hSeen) hNot
    · next hSeen =>
      constructor
      · intro h
        cases h
        exact ⟨rfl, hSeen⟩
      · rintro ⟨hEq, -⟩
        rw [Option.some.inj hEq]

/-- Entries are read as tables as long as their keys are names of different ones. -/
theorem readTable_some_iff {first : Bool} {seen : List Table} {cs rest : List Char} {t : Table}
    {rs : List Record} :
    readTable first seen cs = .ok (some (t, rs), rest) ↔
      readEntry readRecords first cs = .ok (some (t.name, rs), rest) ∧ t ∉ seen := by
  rw [readEntry_some_iff]
  constructor
  · intro h
    unfold readTable at h
    split at h
    · cases h
    · cases h
    · next key middle hKey =>
      split at h
      · cases h
      · next u hTable =>
        split at h
        · cases h
        · next others hColon =>
          obtain ⟨⟨_, _⟩, hRead, hEq⟩ := map_eq_ok_iff.1 h
          cases hEq
          obtain ⟨rfl, hSeen⟩ := readTableKey_eq_ok_iff.1 hTable
          exact ⟨⟨middle, others, hKey, hColon, hRead⟩, hSeen⟩
  · rintro ⟨⟨middle, others, hKey, hColon, hRead⟩, hSeen⟩
    rw [readTable, hKey]
    simp only [readTableKey_eq_ok_iff.2 ⟨rfl, hSeen⟩, hColon]
    exact map_eq_ok_iff.2 ⟨_, hRead, rfl⟩

theorem readTable_none_iff {first : Bool} {seen : List Table} {cs rest : List Char} :
    readTable first seen cs = .ok (none, rest) ↔
      readEntry readRecords first cs = .ok (none, rest) := by
  rw [readEntry_none_iff]
  constructor
  · intro h
    unfold readTable at h
    split at h
    · cases h
    · next hKey =>
      cases h
      exact hKey
    · split at h
      · cases h
      · split at h
        · cases h
        · obtain ⟨_, -, hEq⟩ := map_eq_ok_iff.1 h
          cases hEq
  · intro hKey
    rw [readTable, hKey]

/-- From `db` a database `db'` is made by giving tables by their names, of which none is given twice or
is among those that were `seen` before. -/
structure Given (seen : List Table) (db : Database) (ps : List (String × List Record))
    (db' : Database) : Prop where
  nodup : (ps.map Prod.fst).Nodup
  given : ∀ p ∈ ps, ∃ t : Table, p.1 = t.name ∧ t ∉ seen ∧ db'.records t = p.2
  others : ∀ t : Table, t.name ∉ ps.map Prod.fst → db'.records t = db.records t

theorem given_nil_iff {seen : List Table} {db db' : Database} : Given seen db [] db' ↔ db' = db := by
  constructor
  · intro h
    exact Database.ext fun t => h.others t (by simp)
  · rintro rfl
    exact ⟨by simp, by simp, fun _ _ => rfl⟩

theorem given_cons_iff {seen : List Table} {db db' : Database} {key : String} {rs : List Record}
    {ps : List (String × List Record)} :
    Given seen db ((key, rs) :: ps) db' ↔ ∃ t : Table, key = t.name ∧ t ∉ seen ∧
      Given (t :: seen) (db.withRecords t rs) ps db' := by
  constructor
  · intro h
    obtain ⟨t, hKey, hSeen, hRecords⟩ := h.given (key, rs) List.mem_cons_self
    obtain ⟨hFresh, hNodup⟩ := List.nodup_cons.1 h.nodup
    refine ⟨t, hKey, hSeen, hNodup, fun p hp => ?_, fun u hu => ?_⟩
    · obtain ⟨u, hName, hNot, hHas⟩ := h.given p (List.mem_cons_of_mem _ hp)
      refine ⟨u, hName, ?_, hHas⟩
      rintro hMem
      rcases List.mem_cons.1 hMem with rfl | hOld
      · exact hFresh (List.mem_map.2 ⟨p, hp, hName.trans hKey.symm⟩)
      · exact hNot hOld
    · rw [Database.records_withRecords]
      split
      · next hSame =>
        rw [hSame]
        exact hRecords
      · next hOther =>
        refine h.others u fun hMem => ?_
        rcases List.mem_cons.1 hMem with hHead | hTail
        · exact hOther (Table.name_injective (hHead.trans hKey))
        · exact hu hTail
  · rintro ⟨t, rfl, hSeen, hNodup, hGiven, hOthers⟩
    have hFresh : t.name ∉ ps.map Prod.fst := by
      intro hMem
      obtain ⟨p, hp, hName⟩ := List.mem_map.1 hMem
      obtain ⟨u, hName', hNot, -⟩ := hGiven p hp
      obtain rfl := Table.name_injective (hName.symm.trans hName')
      exact hNot List.mem_cons_self
    refine ⟨List.nodup_cons.2 ⟨hFresh, hNodup⟩, fun p hp => ?_, fun u hu => ?_⟩
    · rcases List.mem_cons.1 hp with rfl | hp
      · refine ⟨t, rfl, hSeen, ?_⟩
        rw [hOthers t hFresh, Database.records_withRecords_self]
      · obtain ⟨u, hName, hNot, hHas⟩ := hGiven p hp
        exact ⟨u, hName, fun hOld => hNot (List.mem_cons_of_mem t hOld), hHas⟩
    · have hNot : u.name ∉ ps.map Prod.fst := fun hMem => hu (List.mem_cons_of_mem _ hMem)
      have hNe : u ≠ t := by
        rintro rfl
        exact hu List.mem_cons_self
      rw [hOthers u hNot, Database.records_withRecords, if_neg hNe]

theorem readTables_eq_ok_iff {first : Bool} {seen : List Table} {db db' : Database}
    {cs rest : List Char} :
    readTables first seen db cs = .ok (db', rest) ↔
      ∃ ps, Loop (readEntry readRecords) first cs ps rest ∧ Given seen db ps db' := by
  constructor
  · fun_induction readTables first seen db cs with
    | case1 =>
      intro h
      cases h
    | case2 first seen db cs rest' hTable =>
      intro h
      cases h
      exact ⟨[], .done (readTable_none_iff.1 hTable), given_nil_iff.2 rfl⟩
    | case3 first seen db cs t rs rest' hTable hLt ih =>
      intro h
      obtain ⟨hEntry, hSeen⟩ := readTable_some_iff.1 hTable
      obtain ⟨ps, hLoop, hGiven⟩ := ih h
      exact ⟨(t.name, rs) :: ps, .next hEntry hLoop, given_cons_iff.2 ⟨t, rfl, hSeen, hGiven⟩⟩
  · rintro ⟨ps, hLoop, hGiven⟩
    induction hLoop generalizing seen db with
    | done hStep =>
      rw [readTables_eq, readTable_none_iff.2 hStep, given_nil_iff.1 hGiven]
    | @next _ _ _ _ p ps hStep _ ih =>
      obtain ⟨t, hKey, hSeen, hRest⟩ := given_cons_iff.1 hGiven
      obtain ⟨key, rs⟩ := p
      obtain rfl : key = t.name := hKey
      rw [readTables_eq, readTable_some_iff.2 ⟨hStep, hSeen⟩]
      exact ih hRest

/-- The tables that a map gives a new database are those that it says it has. -/
theorem isTableMap_iff {v : Value} {db : Database} :
    v.IsTableMap db ↔ ∃ es ps, v = .map es ∧
      List.Forall₂ (fun e p => e.1 = p.1 ∧ e.2.IsTable p.2) es ps ∧ Given [] .empty ps db := by
  have hKeys {es : List (String × Value)} {ps : List (String × List Record)}
      (h : List.Forall₂ (fun e p => e.1 = p.1 ∧ e.2.IsTable p.2) es ps) :
      es.map Prod.fst = ps.map Prod.fst := by
    induction h with
    | nil => rfl
    | cons hEntry _ ih => rw [List.map_cons, List.map_cons, hEntry.1, ih]
  constructor
  · rintro ⟨es, rfl, hNodup, hTables, hOthers⟩
    -- The records of an entry are those that the database has for its table.
    obtain ⟨ps, hAll⟩ : ∃ ps : List (String × List Record), List.Forall₂ (fun e p =>
        (e.1 = p.1 ∧ e.2.IsTable p.2) ∧ ∃ t : Table, p.1 = t.name ∧ db.records t = p.2) es ps :=
      exists_forall₂ fun e he => by
        obtain ⟨t, hName, hTable⟩ := hTables e he
        exact ⟨(e.1, db.records t), ⟨rfl, hTable⟩, t, hName, rfl⟩
    have hEntries := hAll.imp fun _ _ h => h.1
    refine ⟨es, ps, rfl, hEntries, hKeys hEntries ▸ hNodup, fun p hp => ?_, fun t ht => ?_⟩
    · obtain ⟨e, -, -, t, hName, hRecords⟩ := exists_of_forall₂ hAll.flip hp
      exact ⟨t, hName, by simp, hRecords⟩
    · rw [hOthers t (hKeys hEntries ▸ ht), Database.records_empty]
  · rintro ⟨es, ps, rfl, hAll, hGiven⟩
    refine ⟨es, rfl, hKeys hAll ▸ hGiven.nodup, fun e he => ?_, fun t ht => ?_⟩
    · obtain ⟨p, hp, hName, hTable⟩ := exists_of_forall₂ hAll he
      obtain ⟨t, hKey, -, hRecords⟩ := hGiven.given p hp
      exact ⟨t, hName.trans hKey, hRecords ▸ hTable⟩
    · rw [hGiven.others t (hKeys hAll ▸ ht), Database.records_empty]

/-! ## Sequences of tables -/

/-- The database with the records of given tables replaced one by one. -/
def assigned (db : Database) (ps : List (Table × List Record)) : Database :=
  ps.foldl (fun db p => db.withRecords p.1 p.2) db

theorem readPositions_eq_ok_iff {first : Bool} {db db' : Database} {ts : List Table}
    {cs rest : List Char} :
    readPositions first db ts cs = .ok (db', rest) ↔ ∃ tables,
      Loop (readItem readRecords) first cs tables rest ∧ tables.length ≤ ts.length ∧
        db' = assigned db (ts.zip tables) := by
  induction ts generalizing first db cs with
  | nil =>
    -- With no table left the closing bracket is looked for directly, not as the end of the items.
    have hEnd : readPositions first db [] cs = .ok (db', rest) ↔
        nextElement first cs = .ok (false, rest) ∧ db' = db := by
      rw [nextElement_false_iff, readPositions]
      constructor
      · intro h
        split at h
        · cases h
        · next c tail hSkip =>
          split at h
          · next hc =>
            cases h
            exact ⟨exists_of_skipBlanks (hc ▸ hSkip), rfl⟩
          · cases h
      · rintro ⟨⟨blanks, rfl, hBlank⟩, rfl⟩
        rw [skipBlanks_of_areBlank hBlank rfl]
        rfl
    rw [hEnd]
    constructor
    · rintro ⟨hNext, rfl⟩
      exact ⟨[], .done (readItem_none_iff.2 hNext), Nat.le_refl 0, rfl⟩
    · rintro ⟨tables, hLoop, hLength, rfl⟩
      obtain rfl := List.length_eq_zero_iff.1 (Nat.le_zero.1 hLength)
      cases hLoop with
      | done hStep => exact ⟨readItem_none_iff.1 hStep, rfl⟩
  | cons t ts ih =>
    rw [readPositions]
    constructor
    · intro h
      split at h
      · cases h
      · next hNext =>
        cases h
        exact ⟨[], .done (readItem_none_iff.2 hNext), Nat.zero_le _, rfl⟩
      · next middle hNext =>
        split at h
        · cases h
        · next rs others hRead =>
          obtain ⟨tables, hLoop, hLength, rfl⟩ := ih.1 h
          exact ⟨rs :: tables, .next (readItem_some_iff.2 ⟨middle, hNext, hRead⟩) hLoop,
            Nat.succ_le_succ hLength, rfl⟩
    · rintro ⟨tables, hLoop, hLength, rfl⟩
      cases hLoop with
      | done hStep =>
        rw [readItem_none_iff.1 hStep]
        rfl
      | @next _ _ _ _ rs tables hStep hLoop =>
        obtain ⟨middle, hNext, hRead⟩ := readItem_some_iff.1 hStep
        rw [hNext]
        simp only [hRead]
        exact ih.2 ⟨tables, hLoop, Nat.le_of_succ_le_succ hLength, rfl⟩

theorem records_assigned_of_not_mem {db : Database} {ts : List Table} {t : Table} (h : t ∉ ts)
    (tables : List (List Record)) : (assigned db (ts.zip tables)).records t = db.records t := by
  induction ts generalizing db tables with
  | nil => rfl
  | cons u ts ih =>
    obtain ⟨hHead, hTail⟩ := not_or.1 (mt List.mem_cons.2 h)
    cases tables with
    | nil => rfl
    | cons rs tables =>
      show (assigned (db.withRecords u rs) (ts.zip tables)).records t = _
      rw [ih hTail, Database.records_withRecords, if_neg hHead]

/-- The table at a position has the records at that position. -/
theorem records_assigned {db : Database} {ts : List Table} (hNodup : ts.Nodup) {i : Nat} {t : Table}
    (ht : ts[i]? = some t) (tables : List (List Record)) :
    (assigned db (ts.zip tables)).records t = (tables[i]?).getD (db.records t) := by
  induction ts generalizing db tables i with
  | nil => cases ht
  | cons u ts ih =>
    obtain ⟨hFresh, hRest⟩ := List.nodup_cons.1 hNodup
    cases tables with
    | nil => rfl
    | cons rs tables =>
      show (assigned (db.withRecords u rs) (ts.zip tables)).records t = _
      cases i with
      | zero =>
        obtain rfl : u = t := Option.some.inj ht
        rw [records_assigned_of_not_mem hFresh, Database.records_withRecords_self]
        rfl
      | succ i =>
        have hNe : t ≠ u := by
          rintro rfl
          exact hFresh (List.mem_of_getElem? ht)
        rw [ih hRest ht, Database.records_withRecords, if_neg hNe]
        rfl

/-- The tables that a sequence gives a new database are those at their positions. -/
theorem isTableSequence_iff {v : Value} {db : Database} :
    v.IsTableSequence db ↔ ∃ items tables, v = .sequence items ∧
      List.Forall₂ Value.IsTable items tables ∧ tables.length ≤ Table.all.length ∧
        db = assigned .empty (Table.all.zip tables) := by
  have hRecords (tables : List (List Record)) (t : Table) :
      (assigned .empty (Table.all.zip tables)).records t = (tables[t.index.val]?).getD [] := by
    have ht : Table.all[t.index.val]? = some t := by cases t <;> rfl
    rw [records_assigned (by decide) ht, Database.records_empty]
  constructor
  · rintro ⟨items, tables, rfl, hAll, hLength, hHas⟩
    exact ⟨items, tables, rfl, hAll, hLength, Database.ext fun t => by rw [hHas, hRecords]⟩
  · rintro ⟨items, tables, rfl, hAll, hLength, rfl⟩
    exact ⟨items, tables, rfl, hAll, hLength, hRecords tables⟩

/-! ## Databases -/

theorem readDatabase_eq_ok_iff {cs rest : List Char} {db : Database} :
    readDatabase cs = .ok (db, rest) ↔
      (∃ tail ps, readHead cs = .ok (.map, tail) ∧ Loop (readEntry readRecords) true tail ps rest ∧
        Given [] .empty ps db) ∨
      ∃ tail tables, readHead cs = .ok (.sequence, tail) ∧
        Loop (readItem readRecords) true tail tables rest ∧
          tables.length ≤ Table.all.length ∧ db = assigned .empty (Table.all.zip tables) := by
  constructor
  · intro h
    unfold readDatabase at h
    split at h
    · cases h
    · next tail hHead =>
      obtain ⟨ps, hLoop, hGiven⟩ := readTables_eq_ok_iff.1 h
      exact .inl ⟨tail, ps, hHead, hLoop, hGiven⟩
    · next tail hHead =>
      obtain ⟨tables, hLoop, hMade⟩ := readPositions_eq_ok_iff.1 h
      exact .inr ⟨tail, tables, hHead, hLoop, hMade⟩
    · cases h
  · rintro (⟨tail, ps, hHead, hLoop, hGiven⟩ | ⟨tail, tables, hHead, hLoop, hMade⟩)
    · rw [readDatabase, hHead]
      exact readTables_eq_ok_iff.2 ⟨ps, hLoop, hGiven⟩
    · rw [readDatabase, hHead]
      exact readPositions_eq_ok_iff.2 ⟨tables, hLoop, hMade⟩

theorem readsAs_database : ReadsAs (Accepts readDatabase) Value.IsStore := by
  have hMap := readsAs_table.map fun ps db => Given [] .empty ps db
  have hSequence := readsAs_table.sequence fun tables db =>
    tables.length ≤ Table.all.length ∧ db = assigned .empty (Table.all.zip tables)
  exact (hMap.or hSequence).congr readDatabase_eq_ok_iff (or_congr isTableMap_iff isTableSequence_iff)

/-- A written form of a map starts with its bracket. -/
theorem skipBlanks_of_spells_map {cs : List Char} {es : List (String × Value)}
    (h : Spells cs (.value (.map es))) : ∃ tail, skipBlanks cs = '\x7b' :: tail := by
  obtain ⟨before, front, after, rfl, hBefore, -, inner, rfl, -⟩ := spells_value_iff.1 h
  exact ⟨_, skipBlanks_of_areBlank hBefore rfl _⟩

end Json

/-- A text is read as a database just if it is a written form of a value that holds this database. -/
theorem Database.ofJson_eq_ok_iff {s : String} {db : Database} :
    Database.ofJson s = .ok db ↔ ∃ v, Json.Spells s.toList (.value v) ∧ v.IsStore db :=
  Json.readsAs_database.whole_iff

namespace Storage

/-! ## Files -/

/-- A session without a database loads the document of its file if that is a written form of a value
that holds a database, and it loads this database. Any other document is refused, and session and file
are as before. -/
theorem load_document {fs : FileSystem} {path : Path} {text : String} (hText : fs.read path = .ok text)
    {s : Session} (hCache : s.cache = none) (layout : Json.Layout) :
    let opened := Session.after (Session.database (Backend.file FileSystem.disk path layout)) (s, fs)
    (∀ db, Database.ofJson text = .ok db ↔
      ∃ v, Json.Spells text.toList (.value v) ∧ (v.IsTableMap db ∨ v.IsTableSequence db)) ∧
    (∀ db, opened = (.ok db, { s with cache := some db }, fs) ↔
      ∃ v, Json.Spells text.toList (.value v) ∧ (v.IsTableMap db ∨ v.IsTableSequence db)) ∧
    ((¬ ∃ v db, Json.Spells text.toList (.value v) ∧ (v.IsTableMap db ∨ v.IsTableSequence db)) →
      ∃ fault, opened = (.error (.storage (.invalidDocument path fault)), s, fs)) := by
  intro opened
  have hOpened : opened = match Database.ofJson text with
      | .ok db => (.ok db, { s with cache := some db }, fs)
      | .error fault => (.error (.storage (.invalidDocument path fault)), s, fs) := by
    show Session.after _ (s, fs) = _
    rw [Session.after_database, hCache]
    simp only [run_load_file, hText]
    cases Database.ofJson text <;> rfl
  have hRead (db : Database) : Database.ofJson text = .ok db ↔
      ∃ v, Json.Spells text.toList (.value v) ∧ (v.IsTableMap db ∨ v.IsTableSequence db) :=
    Database.ofJson_eq_ok_iff
  refine ⟨hRead, fun db => ?_, fun hNone => ?_⟩
  · rw [← hRead, hOpened]
    cases Database.ofJson text with
    | ok other => simp
    | error fault => simp
  · rw [hOpened]
    cases hResult : Database.ofJson text with
    | ok db =>
      obtain ⟨v, hHolds⟩ := (hRead db).1 hResult
      exact absurd ⟨v, db, hHolds⟩ hNone
    | error fault => exact ⟨fault, rfl⟩

/-- A store with one user, whose record names a field twice, and the same store with a table that
there is not. -/
theorem load_document_of_users :
    let path : Path := ⟨"database.json"⟩
    let store (text : String) : FileSystem := ⟨[(["database.json"], .file text)], []⟩
    let session : Session := ⟨none, false, .through, .strict⟩
    let opened (text : String) := Session.after
      (Session.database (Backend.file FileSystem.disk path .indented)) (session, store text)
    let users := "\x7b\"users\": [\x7b\"id\": \"u0\", \"id\": \"u1\"\x7d]\x7d"
    let widgets := "\x7b\"users\": [], \"widgets\": []\x7d"
    let db := Database.empty.append .users (Record.ofList [("id", .text "u1")])
    (store users).read path = .ok users ∧ (store widgets).read path = .ok widgets ∧
      (∃ v, Json.Spells users.toList (.value v) ∧ (v.IsTableMap db ∨ v.IsTableSequence db)) ∧
      opened users = (.ok db, { session with cache := some db }, store users) ∧
      ¬ ∃ v db, Json.Spells widgets.toList (.value v) ∧
        (v.IsTableMap db ∨ v.IsTableSequence db) := by
  intro path store session opened users widgets db
  have hUsers : (store users).read path = .ok users := by decide +kernel
  have hWidgets : (store widgets).read path = .ok widgets := by decide +kernel
  obtain ⟨hText, hOpened, -⟩ := load_document (s := session) hUsers rfl .indented
  obtain ⟨hText', -, -⟩ := load_document (s := session) hWidgets rfl .indented
  have hHolds := (hText db).1 (ofJson_of_toOption (by decide +kernel))
  have hFault : (Database.ofJson widgets).isOk = false := by decide +kernel
  refine ⟨hUsers, hWidgets, hHolds, (hOpened db).2 hHolds, ?_⟩
  rintro ⟨v, db', hHolds'⟩
  rw [(hText' db').2 ⟨v, hHolds'⟩] at hFault
  cases hFault

/-- A sequence of tables is loaded although it is no map of them. -/
theorem load_of_sequence :
    let text := "[[\x7b\"id\":\"u1\"\x7d]]"
    Database.ofJson text =
        .ok (Database.empty.append .users (Record.ofList [("id", .text "u1")])) ∧
      ¬ ∃ v db, Json.Spells text.toList (.value v) ∧ v.IsTableMap db := by
  intro text
  refine ⟨ofJson_of_toOption (by decide +kernel), ?_⟩
  rintro ⟨v, db, hSpells, es, rfl, -⟩
  obtain ⟨tail, hMap⟩ := Json.skipBlanks_of_spells_map hSpells
  have hSequence : (Json.skipBlanks text.toList).head? = some '[' := by decide +kernel
  rw [hMap] at hSequence
  cases hSequence

end Storage

end RecordStore
