import Mathlib.Data.List.DropRight
import RecordStore.Storage.Path

/-!
# The names of a path

Only the names of a path tell where it leads, and whether it starts at the root. They are compared
here with those of the directory that has to be there for the file, and with those of the temporary
file. A path with a file name has the names of the directory, then perhaps single dots, the name of
the file, and perhaps dots again; the temporary file has the same names up to its own one.

## Main results

- `namesOf_append_slash`: the names of two texts with a slash between them.
- `exists_hasNames`: the names of a path and of its temporary file.
- `Under.exists_names_eq`, `Under.isAbsolute_eq`: a directory above has a front of the names.
-/

namespace RecordStore.Storage.Path

/-! ## Names of texts -/

/-- The names in a text with slashes between them. -/
def namesOf (text : List Char) : List String :=
  ((text.splitOn '/').filter fun piece => !piece.isEmpty).map String.ofList

theorem names_eq (p : Path) : p.names = namesOf p.text.toList := rfl

theorem namesOf_append_slash (front back : List Char) :
    namesOf (front ++ '/' :: back) = namesOf front ++ namesOf back := by
  rw [namesOf, List.splitOn_append_cons_self, List.filter_append, List.map_append]
  rfl

theorem namesOf_nil : namesOf [] = [] := rfl

theorem namesOf_of_not_mem {piece : List Char} (h : '/' ∉ piece) (hSome : piece ≠ []) :
    namesOf piece = [String.ofList piece] := by
  rw [namesOf, List.splitOn_eq_singleton h]
  simp [hSome]

theorem namesOf_intercalate (pieces : List (List Char)) :
    namesOf (['/'].intercalate pieces) = pieces.flatMap namesOf := by
  induction pieces with
  | nil => rfl
  | cons piece pieces ih =>
    cases pieces with
    | nil => rw [List.intercalate_singleton, List.flatMap_singleton]
    | cons next pieces =>
      rw [List.intercalate_cons_cons, List.append_assoc, List.flatMap_cons, ← ih]
      exact namesOf_append_slash _ _

/-- A piece that names nothing is at most a dot. -/
theorem eq_dot_of_isIdle {piece : List Char} (h : isIdle piece = true) {name : String}
    (hName : name ∈ namesOf piece) : name = "." := by
  rw [isIdle, Bool.or_eq_true, List.isEmpty_iff, beq_iff_eq] at h
  rcases h with rfl | rfl
  · cases hName
  · exact List.mem_singleton.1 hName

theorem eq_dot_of_mem_flatMap {pieces : List (List Char)}
    (h : ∀ piece ∈ pieces, isIdle piece = true) :
    ∀ name ∈ pieces.flatMap namesOf, name = "." := by
  intro name hName
  obtain ⟨piece, hPiece, hMem⟩ := List.mem_flatMap.1 hName
  exact eq_dot_of_isIdle (h piece hPiece) hMem

/-! ## Pieces -/

/-- There is no slash in a piece. -/
theorem not_mem_of_mem_splitOn {text piece : List Char} (h : piece ∈ text.splitOn '/') :
    '/' ∉ piece := by
  induction text generalizing piece with
  | nil =>
    rw [List.splitOn_nil, List.mem_singleton] at h
    rw [h]
    exact List.not_mem_nil
  | cons c text ih =>
    rw [List.splitOn_cons_eq_if_modifyHead] at h
    split at h
    · rcases List.mem_cons.1 h with rfl | hRest
      · exact List.not_mem_nil
      · exact ih hRest
    · next hOther =>
      cases hPieces : text.splitOn '/' with
      | nil => exact absurd hPieces (List.splitOn_ne_nil _ _)
      | cons first rest =>
        rw [hPieces] at h ih
        rcases List.mem_cons.1 h with rfl | hRest
        · rw [List.mem_cons, not_or]
          exact ⟨fun hSlash => hOther (by rw [← hSlash]; rfl), ih List.mem_cons_self⟩
        · exact ih (List.mem_cons_of_mem _ hRest)

theorem names_eq_flatMap (p : Path) : p.names = p.pieces.flatMap namesOf := by
  rw [names_eq, ← namesOf_intercalate, intercalate_pieces]

theorem names_ofPieces (pieces : List (List Char)) :
    (ofPieces pieces).names = pieces.flatMap namesOf := by
  rw [ofPieces]
  split
  · next h => rw [h]; rfl
  · rw [names_eq, String.toList_ofList, namesOf_intercalate]

/-- What is cut off at the end names nothing. -/
theorem exists_eq_trimmed (pieces : List (List Char)) :
    ∃ idle, pieces = trimmed pieces ++ idle ∧ ∀ piece ∈ idle, isIdle piece = true := by
  cases pieces with
  | nil => exact ⟨[], rfl, fun _ h => absurd h List.not_mem_nil⟩
  | cons first rest =>
    refine ⟨rest.rtakeWhile isIdle, ?_, fun piece h => List.mem_rtakeWhile_imp h⟩
    exact congrArg (first :: ·) List.rdropWhile_append_rtakeWhile.symm

/-- A path whose first piece is empty starts at the root. -/
theorem isAbsolute_ofPieces {first : List Char} (h : '/' ∉ first) (rest : List (List Char)) :
    (ofPieces (first :: rest)).isAbsolute = first.isEmpty := by
  rw [ofPieces]
  split
  · next hRoot =>
    cases hRoot
    rfl
  · next hOther =>
    rw [isAbsolute, String.toList_ofList]
    cases first with
    | nil =>
      cases rest with
      | nil => exact absurd rfl hOther
      | cons next rest => rfl
    | cons c cs =>
      have hHead : (['/'].intercalate ((c :: cs) :: rest)).head? = some c := by
        cases rest with
        | nil => rfl
        | cons next rest => rw [List.intercalate_cons_cons]; rfl
      rw [hHead]
      have hSlash : c ≠ '/' := fun hEq => h (hEq ▸ List.mem_cons_self)
      simpa using hSlash

theorem ofPieces_pieces {p : Path} (h : p.pieces ≠ [[]]) : ofPieces p.pieces = p := by
  rw [ofPieces, if_neg h, intercalate_pieces, String.ofList_toList]

theorem isAbsolute_eq {p : Path} {first : List Char} {rest : List (List Char)}
    (h : p.pieces = first :: rest) (hSome : first :: rest ≠ [[]]) :
    p.isAbsolute = first.isEmpty := by
  have hFirst : first ∈ p.pieces := by
    rw [h]
    exact List.mem_cons_self
  have hWhole : ofPieces p.pieces = p := ofPieces_pieces (h ▸ hSome)
  rw [← hWhole, h]
  exact isAbsolute_ofPieces (not_mem_of_mem_splitOn hFirst) rest

/-- A path without names is that of the root, unless it is empty. -/
theorem isAbsolute_of_names_eq_nil {p : Path} (hText : p.text ≠ "") (h : p.names = []) :
    p.isAbsolute = true := by
  obtain ⟨first, rest, hPieces⟩ := List.exists_cons_of_ne_nil p.pieces_ne_nil
  have hFirst : first = [] := by
    rw [names, List.map_eq_nil_iff, List.filter_eq_nil_iff] at h
    have hMem : first ∈ p.pieces := by
      rw [hPieces]
      exact List.mem_cons_self
    simpa using h first hMem
  have hNotEmpty : first :: rest ≠ [[]] := by
    intro hEmpty
    have hChars := p.intercalate_pieces
    rw [hPieces, hEmpty] at hChars
    exact hText (String.toList_eq_nil_iff.1 hChars.symm)
  rw [isAbsolute_eq hPieces hNotEmpty, hFirst]
  rfl

/-- The path of pieces is not empty; the root is not either. -/
theorem text_ofPieces_ne (first : List Char) (rest : List (List Char)) :
    (ofPieces (first :: rest)).text ≠ "" := by
  rw [ofPieces]
  split
  · decide
  · next hOther =>
    show String.ofList _ ≠ ""
    rw [Ne, String.ofList_eq_empty_iff]
    cases rest with
    | nil =>
      rw [List.intercalate_singleton]
      exact fun hNil => hOther (by rw [hNil])
    | cons next rest =>
      rw [List.intercalate_cons_cons]
      simp

/-! ## The path above -/

/-- The last piece that is not cut off. -/
theorem exists_pieces_eq (p : Path) : ∃ front last idle, trimmed p.pieces = front ++ [last] ∧
    p.pieces = front ++ last :: idle ∧ ∀ piece ∈ idle, isIdle piece = true := by
  obtain ⟨idle, hPieces, hIdle⟩ := exists_eq_trimmed p.pieces
  have hSome : trimmed p.pieces ≠ [] := by
    intro hNone
    cases h : p.pieces with
    | nil => exact p.pieces_ne_nil h
    | cons first rest =>
      rw [h] at hNone
      cases hNone
  refine ⟨_, (trimmed p.pieces).getLast hSome, idle, (List.dropLast_append_getLast hSome).symm, ?_,
    hIdle⟩
  rw [List.append_cons, List.dropLast_append_getLast hSome]
  exact hPieces

theorem parent?_of_trimmed {p parent : Path} {front : List (List Char)} {last : List Char}
    (hTrimmed : trimmed p.pieces = front ++ [last]) (h : p.parent? = some parent) :
    parent = ofPieces (trimmed front) := by
  rw [parent?] at h
  simp only [hTrimmed, List.dropLast_concat] at h
  split at h
  · cases h
  · exact (Option.some.inj h).symm

/-- The path above has a front of the names. -/
theorem exists_names_of_parent? {p parent : Path} (h : p.parent? = some parent) :
    ∃ rest, p.names = parent.names ++ rest := by
  obtain ⟨front, last, idle, hTrimmed, hPieces, -⟩ := p.exists_pieces_eq
  obtain ⟨dots, hFront, -⟩ := exists_eq_trimmed front
  refine ⟨dots.flatMap namesOf ++ (last :: idle).flatMap namesOf, ?_⟩
  calc p.names
      = front.flatMap namesOf ++ (last :: idle).flatMap namesOf := by
        rw [names_eq_flatMap, hPieces, List.flatMap_append]
    _ = (trimmed front ++ dots).flatMap namesOf ++ (last :: idle).flatMap namesOf := by
        rw [← hFront]
    _ = parent.names ++ (dots.flatMap namesOf ++ (last :: idle).flatMap namesOf) := by
        rw [parent?_of_trimmed hTrimmed h, names_ofPieces, List.flatMap_append, List.append_assoc]

/-- It starts at the root if the path does, unless nothing is left of it. -/
theorem isAbsolute_ofPieces_trimmed {p : Path} {first last : List Char}
    {front idle : List (List Char)} (h : p.pieces = (first :: front) ++ last :: idle) :
    (ofPieces (trimmed (first :: front))).isAbsolute = p.isAbsolute := by
  have hFirst : first ∈ p.pieces := by
    rw [h]
    exact List.mem_cons_self
  rw [isAbsolute_eq h (by simp)]
  exact isAbsolute_ofPieces (not_mem_of_mem_splitOn hFirst) _

theorem isAbsolute_of_directory? {p directory : Path} (h : p.directory? = some directory) :
    directory.isAbsolute = p.isAbsolute := by
  obtain ⟨hParent, hText⟩ := Option.filter_eq_some_iff.1 h
  obtain ⟨front, last, idle, hTrimmed, hPieces, -⟩ := p.exists_pieces_eq
  obtain rfl := parent?_of_trimmed hTrimmed hParent
  cases front with
  | nil => exact absurd hText (by decide)
  | cons first front => exact isAbsolute_ofPieces_trimmed hPieces

/-- A directory that has to be there for another one: that one itself or one above it. -/
inductive Under : Path → Path → Prop
  | self (p : Path) : Under p p
  | above {p q e : Path} : p.directory? = some q → Under e q → Under e p

theorem Under.exists_names_eq {e p : Path} (h : Under e p) : ∃ rest, p.names = e.names ++ rest := by
  induction h with
  | self p => exact ⟨[], (List.append_nil _).symm⟩
  | above hDirectory _ ih =>
    obtain ⟨rest, hNames⟩ := ih
    obtain ⟨more, hMore⟩ := exists_names_of_parent? (Option.filter_eq_some_iff.1 hDirectory).1
    exact ⟨rest ++ more, by rw [hMore, hNames, List.append_assoc]⟩

theorem Under.isAbsolute_eq {e p : Path} (h : Under e p) : e.isAbsolute = p.isAbsolute := by
  induction h with
  | self p => rfl
  | above hDirectory _ ih => rw [ih, isAbsolute_of_directory? hDirectory]

/-! ## The temporary file -/

/-- A name is put behind a slash, unless one is there or nothing is before it. -/
theorem toList_text_child (p : Path) (name : String) :
    (p.child name).text.toList =
      if p.text = "" ∨ p.text.toList.getLast? = some '/' then p.text.toList ++ name.toList
      else p.text.toList ++ '/' :: name.toList := by
  by_cases h : p.text = "" ∨ p.text.toList.getLast? = some '/'
  · rw [child, if_pos h, if_pos (by simpa using h), String.toList_append]
  · rw [child, if_neg h, if_neg (by simpa using h)]
    show (p.text ++ "/" ++ name).toList = _
    rw [String.toList_append, String.toList_append, List.append_assoc]
    rfl

theorem names_child (p : Path) (name : String) :
    (p.child name).names = p.names ++ namesOf name.toList := by
  rw [names_eq, names_eq, toList_text_child]
  split
  · next h =>
    rcases h with hEmpty | hSlash
    · rw [hEmpty]
      rfl
    · obtain ⟨front, hFront⟩ := List.getLast?_eq_some_iff.1 hSlash
      rw [hFront, List.append_assoc, namesOf_append_slash, namesOf_nil, List.append_nil]
      exact namesOf_append_slash _ _
  · exact namesOf_append_slash _ _

theorem isAbsolute_child {p : Path} (h : p.text ≠ "") (name : String) :
    (p.child name).isAbsolute = p.isAbsolute := by
  obtain ⟨c, cs, hText⟩ :=
    List.exists_cons_of_ne_nil fun hNil => h (String.toList_eq_nil_iff.1 hNil)
  rw [isAbsolute, isAbsolute, toList_text_child, hText]
  split <;> rfl

/-- The pieces of a path with a file name: those before the name, the name, and those behind it,
which name nothing. -/
structure EndsIn (p : Path) (front : List (List Char)) (last : List Char)
    (idle : List (List Char)) : Prop where
  trimmed_eq : trimmed p.pieces = front ++ [last]
  pieces_eq : p.pieces = front ++ last :: idle
  idle_behind : ∀ piece ∈ idle, isIdle piece = true
  not_idle : isIdle last = false
  not_above : last ≠ ['.', '.']

theorem exists_endsIn {p : Path} {name : String} (h : p.fileName? = some name) :
    ∃ front last idle, EndsIn p front last idle ∧ name = String.ofList last := by
  obtain ⟨front, last, idle, hTrimmed, hPieces, hIdle⟩ := p.exists_pieces_eq
  rw [fileName?, hTrimmed, List.getLast?_concat] at h
  simp only [Option.ite_none_left_eq_some, Bool.or_eq_true, beq_iff_eq, not_or] at h
  obtain ⟨⟨hName, hDots⟩, hLast⟩ := h
  exact ⟨front, last, idle, ⟨hTrimmed, hPieces, hIdle, Bool.eq_false_iff.2 hName, hDots⟩,
    (Option.some.inj hLast).symm⟩

namespace EndsIn

variable {p : Path} {front idle : List (List Char)} {last : List Char}

theorem last_ne_nil (h : EndsIn p front last idle) : last ≠ [] := by
  intro hNil
  have hIdle := h.not_idle
  rw [hNil] at hIdle
  cases hIdle

theorem not_mem_last (h : EndsIn p front last idle) : '/' ∉ last := by
  have hMem : last ∈ p.pieces := by
    rw [h.pieces_eq]
    exact List.mem_append_right _ List.mem_cons_self
  exact not_mem_of_mem_splitOn hMem

theorem namesOf_last (h : EndsIn p front last idle) : namesOf last = [String.ofList last] :=
  namesOf_of_not_mem h.not_mem_last h.last_ne_nil

theorem ofList_ne_dot (h : EndsIn p front last idle) : String.ofList last ≠ "." := by
  intro hDot
  have hLast : last = ['.'] := by
    rw [← String.toList_ofList (l := last), hDot]
    rfl
  have hIdle := h.not_idle
  rw [hLast] at hIdle
  cases hIdle

theorem ofList_ne_above (h : EndsIn p front last idle) : String.ofList last ≠ ".." := by
  intro hAbove
  refine h.not_above ?_
  rw [← String.toList_ofList (l := last), hAbove]
  rfl

theorem parent? (h : EndsIn p front last idle) : p.parent? = some (ofPieces (trimmed front)) := by
  have hNotRoot : front ++ [last] ≠ [[]] := by
    cases front with
    | nil => exact fun hRoot => h.last_ne_nil (List.cons.inj hRoot).1
    | cons first front => simp
  rw [Path.parent?]
  simp only [h.trimmed_eq]
  rw [if_neg hNotRoot, List.dropLast_concat]

theorem temporary (h : EndsIn p front last idle) (hName : p.fileName? = some (String.ofList last)) :
    p.temporary = (ofPieces (trimmed front)).child (String.ofList last ++ ".tmp") := by
  rw [Path.temporary, withFileName, h.parent?, hName]
  rfl

theorem isAbsolute_temporary (h : EndsIn p front last idle)
    (hName : p.fileName? = some (String.ofList last)) :
    p.temporary.isAbsolute = p.isAbsolute := by
  rw [h.temporary hName]
  cases front with
  | nil =>
    -- Without a directory both paths start with the name of the file.
    have hPath : p.isAbsolute = last.isEmpty :=
      isAbsolute_eq h.pieces_eq fun hRoot => h.last_ne_nil (List.cons.inj hRoot).1
    have hNone : (ofPieces (trimmed [])).text = "" := rfl
    rw [hPath, isAbsolute, toList_text_child, if_pos (.inl hNone), hNone]
    cases last with
    | nil => exact absurd rfl h.last_ne_nil
    | cons c cs =>
      have hSlash : c ≠ '/' := fun hEq => h.not_mem_last (hEq ▸ List.mem_cons_self)
      simpa using hSlash
  | cons first front =>
    have hText : (ofPieces (trimmed (first :: front))).text ≠ "" := text_ofPieces_ne first _
    rw [isAbsolute_child hText]
    exact isAbsolute_ofPieces_trimmed h.pieces_eq

end EndsIn

/-- The names of a path with a file name: those of its directory, and its own. Between them a path
may have dots, and behind them too. Its temporary file has the same directory and a longer name. -/
structure HasNames (p : Path) (above dots : List String) (name : String) (idle : List String) :
    Prop where
  names_eq : p.names = above ++ dots ++ name :: idle
  names_temporary : p.temporary.names = above ++ [name ++ ".tmp"]
  isAbsolute_temporary : p.temporary.isAbsolute = p.isAbsolute
  names_directory : ∀ directory, p.directory? = some directory → directory.names = above
  dots_between : ∀ dot ∈ dots, dot = "."
  dots_behind : ∀ dot ∈ idle, dot = "."
  ne_dot : name ≠ "."
  ne_above : name ≠ ".."

theorem exists_hasNames {p : Path} {name : String} (h : p.fileName? = some name) :
    ∃ above dots idle, HasNames p above dots name idle := by
  obtain ⟨front, last, idle, hEnds, rfl⟩ := exists_endsIn h
  obtain ⟨dots, hFront, hBetween⟩ := exists_eq_trimmed front
  have hTmp : namesOf (String.ofList last ++ ".tmp").toList = [String.ofList last ++ ".tmp"] := by
    rw [namesOf_of_not_mem, String.ofList_toList]
    · simp [hEnds.not_mem_last]
    · simp [hEnds.last_ne_nil]
  refine ⟨(ofPieces (trimmed front)).names, dots.flatMap namesOf, idle.flatMap namesOf, ?_, ?_,
    hEnds.isAbsolute_temporary h, fun directory hDirectory => ?_, eq_dot_of_mem_flatMap hBetween,
    eq_dot_of_mem_flatMap hEnds.idle_behind, hEnds.ofList_ne_dot, hEnds.ofList_ne_above⟩
  · rw [names_ofPieces, ← List.flatMap_append, ← hFront, names_eq_flatMap, hEnds.pieces_eq,
      List.flatMap_append, List.flatMap_cons, hEnds.namesOf_last]
    rfl
  · rw [hEnds.temporary h, names_child, hTmp]
  · rw [parent?_of_trimmed hEnds.trimmed_eq (Option.filter_eq_some_iff.1 hDirectory).1]

theorem length_tmp (name : String) : (name ++ ".tmp").length = name.length + 4 :=
  String.length_append name ".tmp"

/-- The name of a temporary file is no dots. -/
theorem tmp_ne_of_short (name : String) {other : String} (h : other.length < 4) :
    name ++ ".tmp" ≠ other := by
  intro hEq
  have hLength := length_tmp name
  rw [hEq] at hLength
  omega

/-- Nor is it the name of the file. -/
theorem tmp_ne_self (name : String) : name ++ ".tmp" ≠ name := by
  intro hEq
  have hLength := length_tmp name
  rw [hEq] at hLength
  omega

/-- The names of a directory that has to be there for a file come before the name of the file. -/
theorem exists_names_of_under {p directory e : Path} {name : String}
    (h : p.fileName? = some name) (hDirectory : p.directory? = some directory)
    (hUnder : Under e directory) :
    ∃ between idle, p.names = e.names ++ (between ++ name :: idle) ∧ name ≠ "." ∧
      e.isAbsolute = p.isAbsolute := by
  obtain ⟨above, dots, idle, hNames⟩ := exists_hasNames h
  obtain ⟨rest, hRest⟩ := hUnder.exists_names_eq
  refine ⟨rest ++ dots, idle, ?_, hNames.ne_dot, ?_⟩
  · rw [hNames.names_eq, ← hNames.names_directory directory hDirectory, hRest]
    simp only [List.append_assoc]
  · rw [hUnder.isAbsolute_eq, isAbsolute_of_directory? hDirectory]

/-- A path with a file name is not empty. -/
theorem text_ne_of_fileName? {p : Path} {name : String} (h : p.fileName? = some name) :
    p.text ≠ "" := by
  intro hText
  rw [fileName?, pieces, hText] at h
  cases h

end RecordStore.Storage.Path
