import RecordStore.Proofs.StoredValues
import RecordStore.Storage.Backend

/-!
# Store documents are read back

A store document is brackets within brackets, and both layouts put nothing but blanks between the
parts. What stands inside brackets is described by `interior`, item by item, so each reader of
a bracket is followed by one induction on the items: fields of a record, records of a table, tables
of a database. One item leaves the reader in front of the next, whatever the layout.

So both documents of a database are read as one database, of which each field is what its own value
is read as again (`ofJson_document`).

## Main results

- `readRecord_written`, `readRecords_written`, `readDatabase_written`: a written part is read back,
  and what follows it is left.
- `ofJson_document`: the document of a database is read as that database, field by field.
-/

namespace RecordStore

/-! ## Fields one by one -/

namespace Record

/-- The record with every value changed. -/
def mapValues (f : Datum → Datum) (r : Record) : Record where
  entries := r.entries.map fun entry => (entry.1, f entry.2)
  ascending := by
    unfold Ascending
    rw [List.pairwise_map]
    exact r.ascending

theorem mapValues_eq_self {f : Datum → Datum} {r : Record}
    (h : ∀ entry ∈ r.entries, f entry.2 = entry.2) : r.mapValues f = r := by
  obtain ⟨entries, hAscending⟩ := r
  simp only [mapValues, mk.injEq]
  refine (List.map_congr_left fun entry hEntry => ?_).trans (List.map_id entries)
  rw [h entry hEntry]
  rfl

end Record

namespace Database

theorem records_ofFunction (f : Table → List Record) (t : Table) :
    (ofFunction f).records t = f t := by
  cases t <;> simp [ofFunction, Table.all, records_withRecords]

/-- The database that is read from the documents of a database. -/
def reread (db : Database) : Database :=
  ofFunction fun t => (db.records t).map (Record.mapValues Datum.reread)

theorem records_reread (db : Database) (t : Table) :
    db.reread.records t = (db.records t).map (Record.mapValues Datum.reread) :=
  records_ofFunction _ t

end Database

theorem Table.ofExactName?_name (t : Table) : ofExactName? t.name = some t := by
  cases t <;> decide

namespace Json

/-! ## Inside brackets -/

variable {layout : Layout} {depth : Nat} {first : Bool}

theorem skipBlanks_cons {c : Char} (h : isBlank c = false) (cs : List Char) :
    skipBlanks (c :: cs) = c :: cs := by
  rw [skipBlanks, List.dropWhile_cons_of_neg (by simp [h])]

theorem skipBlanks_lineBreak (layout : Layout) (depth : Nat) (cs : List Char) :
    skipBlanks (layout.lineBreak depth ++ cs) = skipBlanks cs := by
  cases layout with
  | compact => rfl
  | indented =>
    have hBlanks : ∀ c ∈ Layout.indented.lineBreak depth, isBlank c = true := by
      intro c hc
      rcases List.mem_cons.1 hc with rfl | hSpace
      · rfl
      · rw [List.eq_of_mem_replicate hSpace]
        rfl
    exact List.dropWhile_append_of_pos hBlanks

/-- What stands between brackets, the closing one included. Nothing precedes the first item. -/
def interior (layout : Layout) (depth : Nat) (closing : Char) :
    Bool → List (List Char) → List Char
  | true, [] => [closing]
  | false, [] => layout.lineBreak depth ++ [closing]
  | first, item :: items =>
    (if first then [] else [',']) ++ layout.lineBreak (depth + 1) ++ item ++
      interior layout depth closing false items

theorem intercalate_cons (item : List Char) (items : List (List Char)) :
    [','].intercalate (item :: items) = item ++ items.flatMap fun next => ',' :: next := by
  induction items generalizing item with
  | nil => simp
  | cons next items ih =>
    rw [List.flatMap_cons, List.cons_append, ← ih next]
    simp [List.intercalate]

theorem interior_false (layout : Layout) (depth : Nat) (closing : Char) (items : List (List Char)) :
    interior layout depth closing false items =
      (items.map (layout.lineBreak (depth + 1) ++ ·)).flatMap (',' :: ·) ++
        (layout.lineBreak depth ++ [closing]) := by
  induction items with
  | nil => rfl
  | cons item items ih => simp [interior, ih]

theorem bracketed_eq (layout : Layout) (depth : Nat) (opening closing : Char)
    (items : List (List Char)) :
    bracketed layout depth opening closing items =
      opening :: interior layout depth closing true items := by
  cases items with
  | nil => rfl
  | cons item items =>
    simp [bracketed, interior, interior_false, intercalate_cons]

/-- The end of an interior is reached after blanks. -/
theorem skipBlanks_interior_nil {closing : Char} (hClosing : isBlank closing = false)
    (rest : List Char) :
    skipBlanks (interior layout depth closing first [] ++ rest) = closing :: rest := by
  cases first with
  | true => exact skipBlanks_cons hClosing rest
  | false =>
    show skipBlanks (layout.lineBreak depth ++ [closing] ++ rest) = _
    rw [List.append_assoc, skipBlanks_lineBreak]
    exact skipBlanks_cons hClosing rest

/-- Inside brackets a number has ended where the next item or the closing bracket is due. -/
theorem endsNumber_interior (layout : Layout) (depth : Nat) {closing : Char}
    (hClosing : closing = ']' ∨ closing = '\x7d') (items : List (List Char)) (rest : List Char) :
    EndsNumber (interior layout depth closing false items ++ rest) := by
  have hChar : ∀ c : Char, c = ',' ∨ c = '\n' ∨ c = ']' ∨ c = '\x7d' →
      c.isDigit = false ∧ c ≠ '.' ∧ c ≠ 'e' ∧ c ≠ 'E' := by
    rintro c (rfl | rfl | rfl | rfl) <;> decide
  intro c hc
  refine hChar c ?_
  cases items with
  | cons item items => exact .inl (Option.some.inj hc).symm
  | nil =>
    cases layout with
    | compact =>
      have hEq : closing = c := Option.some.inj hc
      rw [← hEq]
      exact .inr (.inr hClosing)
    | indented => exact .inr (.inl (Option.some.inj hc).symm)

/-! ## Steps inside brackets -/

theorem nextKey_interior_nil (rest : List Char) :
    nextKey first (interior layout depth '\x7d' first [] ++ rest) = .ok (none, rest) := by
  unfold nextKey
  rw [skipBlanks_interior_nil rfl]
  exact if_pos rfl

theorem nextElement_interior_nil (rest : List Char) :
    nextElement first (interior layout depth ']' first [] ++ rest) = .ok (false, rest) := by
  unfold nextElement
  rw [skipBlanks_interior_nil rfl]
  exact if_pos rfl

theorem nextKey_written (layout : Layout) (depth : Nat) (first : Bool) (key : String)
    (rest : List Char) :
    nextKey first ((if first then [] else [',']) ++ layout.lineBreak (depth + 1) ++
      writeText key ++ rest) = .ok (some key, rest) := by
  have hQuote : skipBlanks (layout.lineBreak (depth + 1) ++ writeText key ++ rest) =
      '"' :: (key.toList.flatMap writeChar ++ ['"'] ++ rest) := by
    rw [List.append_assoc, skipBlanks_lineBreak]
    exact skipBlanks_cons rfl _
  have hComma : skipBlanks (',' :: (layout.lineBreak (depth + 1) ++ writeText key ++ rest)) =
      ',' :: (layout.lineBreak (depth + 1) ++ writeText key ++ rest) := skipBlanks_cons rfl _
  have hStep : nextKey first ((if first then [] else [',']) ++ layout.lineBreak (depth + 1) ++
      writeText key ++ rest) = (readText (key.toList.flatMap writeChar ++ ['"'] ++ rest)).map
        fun p => (some (String.ofList p.1), p.2) := by
    unfold nextKey
    cases first with
    | true => simp [-List.append_assoc, hQuote]
    | false => simp [-List.append_assoc, hQuote, hComma]
  rw [hStep, List.append_assoc, List.singleton_append, readText_written]
  show Except.ok (some (String.ofList key.toList), rest) = _
  rw [String.ofList_toList]

/-- In front of an element that starts with a bracket, the reader stops at that bracket. -/
theorem nextElement_written (layout : Layout) (depth : Nat) (first : Bool) {opening : Char}
    (hBlank : isBlank opening = false) (hNot : opening ≠ ']') (cs : List Char) :
    nextElement first ((if first then [] else [',']) ++ layout.lineBreak (depth + 1) ++
      opening :: cs) = .ok (true, opening :: cs) := by
  have hOpening : skipBlanks (layout.lineBreak (depth + 1) ++ opening :: cs) = opening :: cs := by
    rw [skipBlanks_lineBreak]
    exact skipBlanks_cons hBlank cs
  have hComma : skipBlanks (',' :: (layout.lineBreak (depth + 1) ++ opening :: cs)) =
      ',' :: (layout.lineBreak (depth + 1) ++ opening :: cs) := skipBlanks_cons rfl _
  unfold nextElement
  cases first with
  | true => simp [hOpening, hNot]
  | false => simp [hOpening, hComma, hNot]

theorem readHead_space (cs : List Char) : readHead (' ' :: cs) = readHead cs := rfl

/-- The colon leaves its value to be read, after a blank or at once. -/
theorem readColon_written (layout : Layout) (cs : List Char) :
    ∃ rest, readColon (layout.colon ++ cs) = .ok rest ∧ readHead rest = readHead cs := by
  cases layout with
  | compact => exact ⟨cs, rfl, rfl⟩
  | indented => exact ⟨' ' :: cs, rfl, readHead_space cs⟩

/-! ## Records -/

theorem readMember_written (layout : Layout) (depth : Nat) (first : Bool) (key : String)
    (value : Datum) {rest : List Char} (hRest : EndsNumber rest) :
    readMember first ((if first then [] else [',']) ++ layout.lineBreak (depth + 1) ++
      (writeText key ++ layout.colon ++ writeDatum value) ++ rest) =
        .ok (some (key, value.reread), rest) := by
  obtain ⟨after, hColon, hHead⟩ := readColon_written layout (writeDatum value ++ rest)
  have hKey := nextKey_written layout depth first key
    (layout.colon ++ (writeDatum value ++ rest))
  have hValue : readDatum after = .ok (value.reread, rest) := by
    rw [← readDatum_written value hRest]
    simp only [readDatum, hHead]
  have hText : (if first then [] else [',']) ++ layout.lineBreak (depth + 1) ++
      (writeText key ++ layout.colon ++ writeDatum value) ++ rest =
        (if first then [] else [',']) ++ layout.lineBreak (depth + 1) ++ writeText key ++
          (layout.colon ++ (writeDatum value ++ rest)) := by
    simp only [List.append_assoc]
  rw [hText, readMember, hKey]
  simp only [hColon, hValue]
  rfl

theorem readMembers_eq (first : Bool) (r : Record) (cs : List Char) :
    readMembers first r cs =
      match readMember first cs with
      | .error fault => .error fault
      | .ok (none, rest) => .ok (r, rest)
      | .ok (some (key, value), rest) => readMembers false (r.insert key value) rest := by
  rw [readMembers]
  split <;> simp_all

theorem readMembers_interior (layout : Layout) (depth : Nat) (first : Bool)
    (entries : List (String × Datum)) (r : Record) (rest : List Char) :
    readMembers first r (interior layout depth '\x7d' first (entries.map fun entry =>
      writeText entry.1 ++ layout.colon ++ writeDatum entry.2) ++ rest) =
        .ok (r.insertAll (entries.map fun entry => (entry.1, entry.2.reread)), rest) := by
  induction entries generalizing first r with
  | nil =>
    have hEnd : readMember first (interior layout depth '\x7d' first [] ++ rest) =
        .ok (none, rest) := by
      rw [readMember, nextKey_interior_nil]
    rw [readMembers_eq, List.map_nil, hEnd]
    rfl
  | cons entry entries ih =>
    have hMember := readMember_written layout depth first entry.1 entry.2
      (endsNumber_interior layout depth (.inr rfl) (entries.map fun entry =>
        writeText entry.1 ++ layout.colon ++ writeDatum entry.2) rest)
    rw [readMembers_eq, List.map_cons, interior, List.append_assoc, hMember]
    exact ih false (r.insert entry.1 entry.2.reread)

theorem readRecord_written (layout : Layout) (depth : Nat) (r : Record) (rest : List Char) :
    readRecord (writeRecord layout depth r ++ rest) = .ok (r.mapValues Datum.reread, rest) := by
  have hText : writeRecord layout depth r = '\x7b' :: interior layout depth '\x7d' true
      (r.entries.map fun entry => writeText entry.1 ++ layout.colon ++ writeDatum entry.2) := by
    rw [writeRecord, writeMap, bracketed_eq, List.map_map]
    rfl
  rw [hText]
  show readMembers true .empty (interior layout depth '\x7d' true _ ++ rest) = _
  rw [readMembers_interior]
  show Except.ok (Record.empty.insertAll (r.mapValues Datum.reread).entries, rest) = _
  rw [Record.insertAll_entries]

/-! ## Tables -/

theorem readElements_eq (first : Bool) (cs : List Char) :
    readElements first cs =
      match readElement first cs with
      | .error fault => .error fault
      | .ok (none, rest) => .ok ([], rest)
      | .ok (some r, rest) => (readElements false rest).map fun p => (r :: p.1, p.2) := by
  rw [readElements]
  split <;> simp_all

theorem readElement_written (layout : Layout) (depth : Nat) (first : Bool) (r : Record)
    (rest : List Char) :
    readElement first ((if first then [] else [',']) ++ layout.lineBreak (depth + 1) ++
      writeRecord layout (depth + 1) r ++ rest) = .ok (some (r.mapValues Datum.reread), rest) := by
  have hRecord := readRecord_written layout (depth + 1) r rest
  have hOpening : writeRecord layout (depth + 1) r ++ rest =
      '\x7b' :: (writeRecord layout (depth + 1) r ++ rest).tail := by
    rw [writeRecord, writeMap, bracketed_eq]
    rfl
  rw [List.append_assoc, readElement, hOpening,
    nextElement_written layout depth first rfl (by decide), ← hOpening]
  simp only [hRecord]
  rfl

theorem readElements_interior (layout : Layout) (depth : Nat) (first : Bool) (rs : List Record)
    (rest : List Char) :
    readElements first (interior layout depth ']' first (rs.map (writeRecord layout (depth + 1))) ++
      rest) = .ok (rs.map (Record.mapValues Datum.reread), rest) := by
  induction rs generalizing first with
  | nil =>
    have hEnd : readElement first (interior layout depth ']' first [] ++ rest) =
        .ok (none, rest) := by
      rw [readElement, nextElement_interior_nil]
    rw [readElements_eq, List.map_nil, hEnd]
    rfl
  | cons r rs ih =>
    have hElement := readElement_written layout depth first r
      (interior layout depth ']' false (rs.map (writeRecord layout (depth + 1))) ++ rest)
    rw [readElements_eq, List.map_cons, interior, List.append_assoc, hElement]
    show (readElements false _).map _ = _
    rw [ih false]
    rfl

theorem readRecords_written (layout : Layout) (depth : Nat) (rs : List Record) (rest : List Char) :
    readRecords (writeRecords layout depth rs ++ rest) =
      .ok (rs.map (Record.mapValues Datum.reread), rest) := by
  rw [writeRecords, writeSequence, bracketed_eq]
  exact readElements_interior layout depth true rs rest

/-! ## Databases -/

theorem readTables_eq (first : Bool) (seen : List Table) (db : Database) (cs : List Char) :
    readTables first seen db cs =
      match readTable first seen cs with
      | .error fault => .error fault
      | .ok (none, rest) => .ok (db, rest)
      | .ok (some (t, rs), rest) => readTables false (t :: seen) (db.withRecords t rs) rest := by
  rw [readTables]
  split <;> simp_all

theorem readTable_written (layout : Layout) (depth : Nat) (first : Bool) {seen : List Table}
    {t : Table} (hSeen : t ∉ seen) (rs : List Record) (rest : List Char) :
    readTable first seen ((if first then [] else [',']) ++ layout.lineBreak (depth + 1) ++
      (writeText t.name ++ layout.colon ++ writeRecords layout (depth + 1) rs) ++ rest) =
        .ok (some (t, rs.map (Record.mapValues Datum.reread)), rest) := by
  obtain ⟨after, hColon, hHead⟩ := readColon_written layout (writeRecords layout (depth + 1) rs ++ rest)
  have hKey := nextKey_written layout depth first t.name
    (layout.colon ++ (writeRecords layout (depth + 1) rs ++ rest))
  have hTable : readTableKey seen t.name = .ok t := by
    rw [readTableKey, Table.ofExactName?_name]
    exact if_neg hSeen
  have hRecords : readRecords after = .ok (rs.map (Record.mapValues Datum.reread), rest) := by
    rw [← readRecords_written layout (depth + 1) rs rest]
    simp only [readRecords, hHead]
  have hText : (if first then [] else [',']) ++ layout.lineBreak (depth + 1) ++
      (writeText t.name ++ layout.colon ++ writeRecords layout (depth + 1) rs) ++ rest =
        (if first then [] else [',']) ++ layout.lineBreak (depth + 1) ++ writeText t.name ++
          (layout.colon ++ (writeRecords layout (depth + 1) rs ++ rest)) := by
    simp only [List.append_assoc]
  rw [hText, readTable, hKey]
  simp only [hTable, hColon, hRecords]
  rfl

theorem readTables_interior (layout : Layout) (depth : Nat) (first : Bool)
    (contents : Table → List Record) {ts seen : List Table} (hNodup : ts.Nodup)
    (hSeen : ∀ t ∈ ts, t ∉ seen) (db : Database) (rest : List Char) :
    readTables first seen db (interior layout depth '\x7d' first (ts.map fun t =>
      writeText t.name ++ layout.colon ++ writeRecords layout (depth + 1) (contents t)) ++ rest) =
        .ok (ts.foldl (fun db t =>
          db.withRecords t ((contents t).map (Record.mapValues Datum.reread))) db, rest) := by
  induction ts generalizing first seen db with
  | nil =>
    have hEnd : readTable first seen (interior layout depth '\x7d' first [] ++ rest) =
        .ok (none, rest) := by
      rw [readTable, nextKey_interior_nil]
    rw [readTables_eq, List.map_nil, hEnd]
    rfl
  | cons t ts ih =>
    obtain ⟨hNotMem, hRest⟩ := List.nodup_cons.1 hNodup
    have hFresh : ∀ u ∈ ts, u ∉ t :: seen := by
      intro u hu hMem
      rcases List.mem_cons.1 hMem with rfl | hOld
      · exact hNotMem hu
      · exact hSeen u (List.mem_cons_of_mem t hu) hOld
    have hTable := readTable_written layout depth first (hSeen t List.mem_cons_self) (contents t)
      (interior layout depth '\x7d' false (ts.map fun t =>
        writeText t.name ++ layout.colon ++ writeRecords layout (depth + 1) (contents t)) ++ rest)
    rw [readTables_eq, List.map_cons, interior, List.append_assoc, hTable]
    exact ih false hRest hFresh _

theorem readDatabase_written (layout : Layout) (db : Database) (rest : List Char) :
    readDatabase (writeDatabase layout db ++ rest) = .ok (db.reread, rest) := by
  rw [writeDatabase, writeMap, bracketed_eq, List.map_map]
  exact readTables_interior layout 0 true db.records (by decide) (by simp) .empty rest

end Json

/-! ## Documents -/

namespace Storage

theorem ofJson_document (layout : Json.Layout) (db : Database) :
    Database.ofJson (document layout db) = .ok db.reread := by
  have hText : (document layout db).toList = Json.writeDatabase layout db ++ ['\n'] := by
    rw [document, Database.toJson, String.toList_append, String.toList_ofList]
    rfl
  rw [Database.ofJson, hText, Json.readDatabase_written]
  rfl

end Storage

end RecordStore
