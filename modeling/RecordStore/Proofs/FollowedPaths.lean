import RecordStore.Proofs.Binding
import RecordStore.Proofs.PathNames
import RecordStore.Storage.FileSystem

/-!
# Where paths lead when files come and go

A path leads where it led before as long as directories stay directories: new files and directories
are in nobody's way. A path that led nowhere because something on its way is missing may lead
somewhere when that is made, and only then.

Where a path leads can be read off its names unless it climbs with two dots, since then each of its
names but a single dot is the next step down. In a tree nothing is below a missing directory. So
what a path without two dots leads to when a missing directory has been made was not there before.

## Main results

- `walk_append`: names are followed one after the other.
- `locate_of_keeps`, `locate_error_of_keeps`: what becomes of a path when directories stay.
- `locate_ne_of_temporary`: a file and its temporary file are in different places.
- `isDirectory_of_under`: a path that leads somewhere does so by directories.
- `IsTree.put`, `IsTree.remove`: a tree stays one.
- `node?_eq_none_of_missing`: below a missing directory there is nothing.
-/

namespace RecordStore.Storage

namespace FileSystem

variable {fs fs' : FileSystem} {here there : Location} {p : Path}

/-- What is at the end of a path, if anything can be seen there. -/
def held? (fs : FileSystem) (p : Path) : Option Node := (fs.status p).toOption

/-- Where the names of a path are followed from. -/
def start (fs : FileSystem) (p : Path) : Location := if p.isAbsolute then [] else fs.current

/-- The way down that names describe: a single dot stays. -/
def steps (names : List String) : List String := names.filter (· ≠ ".")

theorem steps_append (front back : List String) :
    steps (front ++ back) = steps front ++ steps back := List.filter_append ..

/-! ## Following names -/

/-- Where a name leads from a directory. -/
def next (here : Location) (name : String) : Location :=
  if name = "." then here else if name = ".." then here.dropLast else here ++ [name]

/-- Without two dots a name is a step down or none. -/
theorem next_append_steps (here : Location) {name : String} (hClimb : name ≠ "..")
    (names : List String) : next here name ++ steps names = here ++ steps (name :: names) := by
  rw [next, steps, steps]
  by_cases hDot : name = "."
  · rw [if_pos hDot, List.filter_cons_of_neg (by simpa using hDot)]
  · rw [if_neg hDot, if_neg hClimb, List.filter_cons_of_pos (by simpa using hDot),
      List.append_assoc]
    rfl

theorem walk_of_directory (h : fs.node? here = some .directory) (name : String)
    (names : List String) :
    fs.walk here (name :: names) =
      if maxName < name.utf8ByteSize then .error .nameTooLong
      else fs.walk (next here name) names := by
  rw [walk, h, next]
  simp only
  by_cases hDot : name = "."
  · simp only [if_pos hDot]
  · by_cases hAbove : name = ".."
    · simp only [if_neg hDot, if_pos hAbove]
    · simp only [if_neg hDot, if_neg hAbove]

/-- Every name but the first is behind that of a directory. -/
theorem walk_cons_eq_ok_iff {name : String} {names : List String} :
    fs.walk here (name :: names) = .ok there ↔
      fs.node? here = some .directory ∧ ¬ maxName < name.utf8ByteSize ∧
        fs.walk (next here name) names = .ok there := by
  cases hHere : fs.node? here with
  | none => simp [walk, hHere]
  | some node =>
    cases node with
    | file content => simp [walk, hHere]
    | directory =>
      rw [walk_of_directory hHere]
      by_cases hLong : maxName < name.utf8ByteSize
      · simp [hLong]
      · simp [hLong]

theorem walk_append (fs : FileSystem) (here : Location) (front back : List String) :
    fs.walk here (front ++ back) = fs.walk here front >>= fun there => fs.walk there back := by
  induction front generalizing here with
  | nil => rfl
  | cons name front ih =>
    cases hHere : fs.node? here with
    | none => simp [walk, hHere, bind, Except.bind]
    | some node =>
      cases node with
      | file content => simp [walk, hHere, bind, Except.bind]
      | directory =>
        rw [List.cons_append, walk_of_directory hHere, walk_of_directory hHere, ih]
        split
        · rfl
        · rfl

/-- Dots stay where they are. -/
theorem eq_of_walk_dots {dots : List String} (hDots : ∀ dot ∈ dots, dot = ".")
    (h : fs.walk here dots = .ok there) : there = here := by
  induction dots with
  | nil => exact (Except.ok.inj h).symm
  | cons dot dots ih =>
    have hDot : dot = "." := hDots dot List.mem_cons_self
    obtain ⟨-, -, hRest⟩ := walk_cons_eq_ok_iff.1 h
    rw [next, if_pos hDot] at hRest
    exact ih (fun other hOther => hDots other (List.mem_cons_of_mem _ hOther)) hRest

/-- Without two dots every other name is a step down. -/
theorem eq_of_walk {names : List String} (hClimb : ".." ∉ names)
    (h : fs.walk here names = .ok there) : there = here ++ steps names := by
  induction names generalizing here with
  | nil =>
    rw [← Except.ok.inj h]
    exact (List.append_nil here).symm
  | cons name names ih =>
    rw [List.mem_cons, not_or] at hClimb
    obtain ⟨-, -, hRest⟩ := walk_cons_eq_ok_iff.1 h
    rw [ih hClimb.2 hRest]
    exact next_append_steps here (Ne.symm hClimb.1) names

/-- If names lead nowhere, and not for another reason, something on the way down is missing. -/
theorem exists_missing_of_walk {names : List String} (hClimb : ".." ∉ names)
    (h : fs.walk here names = .error .notFound) :
    ∃ missing rest, here ++ steps names = missing ++ rest ∧ fs.node? missing = none := by
  induction names generalizing here with
  | nil => cases h
  | cons name names ih =>
    rw [List.mem_cons, not_or] at hClimb
    cases hHere : fs.node? here with
    | none => exact ⟨here, _, rfl, hHere⟩
    | some node =>
      cases node with
      | file content =>
        rw [walk, hHere] at h
        cases h
      | directory =>
        rw [walk_of_directory hHere] at h
        split at h
        · cases h
        · rw [← next_append_steps here (Ne.symm hClimb.1)]
          exact ih hClimb.2 h

/-! ## Directories that stay -/

/-- Directories stay directories, also the one where relative paths start. -/
structure Keeps (fs fs' : FileSystem) : Prop where
  current : fs'.current = fs.current
  directories : ∀ l, fs.node? l = some .directory → fs'.node? l = some .directory

theorem Keeps.refl (fs : FileSystem) : fs.Keeps fs := ⟨rfl, fun _ h => h⟩

theorem Keeps.trans {fs'' : FileSystem} (h : fs.Keeps fs') (h' : fs'.Keeps fs'') : fs.Keeps fs'' :=
  ⟨h'.current.trans h.current, fun l hl => h'.directories l (h.directories l hl)⟩

theorem Keeps.start_eq (h : fs.Keeps fs') (p : Path) : fs'.start p = fs.start p := by
  rw [start, start, h.current]

theorem walk_of_keeps (h : fs.Keeps fs') {names : List String}
    (hWalk : fs.walk here names = .ok there) : fs'.walk here names = .ok there := by
  induction names generalizing here with
  | nil => exact hWalk
  | cons name names ih =>
    obtain ⟨hHere, hShort, hRest⟩ := walk_cons_eq_ok_iff.1 hWalk
    exact walk_cons_eq_ok_iff.2 ⟨h.directories here hHere, hShort, ih hRest⟩

/-- Files stay files, whatever is in them. -/
def KeepsFiles (fs fs' : FileSystem) : Prop :=
  ∀ l content, fs.node? l = some (.file content) → ∃ content', fs'.node? l = some (.file content')

/-- What is wrong with names otherwise than that something is missing stays wrong. -/
theorem walk_error_of_keeps (h : fs.Keeps fs') (hFiles : fs.KeepsFiles fs') {names : List String}
    {e : OsError} (hOther : e ≠ .notFound) (hWalk : fs.walk here names = .error e) :
    fs'.walk here names = .error e := by
  induction names generalizing here with
  | nil => cases hWalk
  | cons name names ih =>
    cases hHere : fs.node? here with
    | none =>
      rw [walk, hHere] at hWalk
      exact absurd (Except.error.inj hWalk).symm hOther
    | some node =>
      cases node with
      | file content =>
        obtain ⟨content', hThere⟩ := hFiles here content hHere
        rw [walk, hHere] at hWalk
        rw [walk, hThere]
        exact hWalk
      | directory =>
        rw [walk_of_directory hHere] at hWalk
        rw [walk_of_directory (h.directories here hHere)]
        by_cases hLong : maxName < name.utf8ByteSize
        · rw [if_pos hLong] at hWalk ⊢
          exact hWalk
        · rw [if_neg hLong] at hWalk ⊢
          exact ih hWalk

/-! ## Following paths -/

/-- A path is followed or else refused for its text, whatever the files are. -/
theorem locate_cases (h : p.text ≠ "") :
    (∃ e, e ≠ .notFound ∧ ∀ fs : FileSystem, fs.locate p = .error e) ∨
      ∀ fs : FileSystem, fs.locate p = fs.walk (fs.start p) p.names := by
  have hSome : ¬ p.text.isEmpty = true := fun hEmpty => h (String.isEmpty_iff.1 hEmpty)
  by_cases hNul : p.text.toList.contains '\x00' = true
  · exact .inl ⟨.invalidName, by decide, fun fs => by rw [locate, if_pos hNul]⟩
  · by_cases hLong : maxPath < p.text.utf8ByteSize
    · refine .inl ⟨.nameTooLong, by decide, fun fs => ?_⟩
      rw [locate, if_neg hNul, if_neg hSome, if_pos hLong]
    · refine .inr fun fs => ?_
      rw [locate, if_neg hNul, if_neg hSome, if_neg hLong]
      rfl

/-- A path that leads somewhere is followed. -/
theorem locate_eq_walk (h : fs.locate p = .ok there) (fs' : FileSystem) :
    fs'.locate p = fs'.walk (fs'.start p) p.names := by
  have hText : p.text ≠ "" := by
    intro hEmpty
    simp [locate, hEmpty] at h
  rcases locate_cases hText with ⟨e, -, hRefused⟩ | hFollowed
  · rw [hRefused] at h
    cases h
  · exact hFollowed fs'

theorem walk_of_locate (h : fs.locate p = .ok there) :
    fs.walk (fs.start p) p.names = .ok there := by
  rw [← locate_eq_walk h fs, h]

theorem locate_of_keeps (hKeeps : fs.Keeps fs') (h : fs.locate p = .ok there) :
    fs'.locate p = .ok there := by
  rw [locate_eq_walk h, hKeeps.start_eq]
  exact walk_of_keeps hKeeps (walk_of_locate h)

theorem locate_error_of_keeps (hKeeps : fs.Keeps fs') (hFiles : fs.KeepsFiles fs')
    (hText : p.text ≠ "") {e : OsError} (hOther : e ≠ .notFound) (h : fs.locate p = .error e) :
    fs'.locate p = .error e := by
  rcases locate_cases hText with ⟨e', -, hRefused⟩ | hFollowed
  · rw [hRefused] at h ⊢
    exact h
  · rw [hFollowed] at h ⊢
    rw [hKeeps.start_eq]
    exact walk_error_of_keeps hKeeps hFiles hOther h

theorem start_congr {q : Path} (h : q.isAbsolute = p.isAbsolute) : fs.start q = fs.start p := by
  rw [start, start, h]

/-! ## Files beside and below -/

theorem next_of_name {name : String} (hDot : name ≠ ".") (hAbove : name ≠ "..") :
    next here name = here ++ [name] := by
  rw [next, if_neg hDot, if_neg hAbove]

/-- A path with a file name leads to that name in its directory. -/
theorem exists_directory_of_locate {above dots idle : List String} {name : String}
    (hNames : Path.HasNames p above dots name idle) (h : fs.locate p = .ok here) :
    ∃ directory, fs.walk (fs.start p) above = .ok directory ∧ here = directory ++ [name] := by
  have hWalk := walk_of_locate h
  rw [hNames.names_eq, walk_append, walk_append] at hWalk
  obtain ⟨middle, hFront, hBack⟩ := bind_eq_ok_iff.1 hWalk
  obtain ⟨directory, hDirectory, hMiddle⟩ := bind_eq_ok_iff.1 hFront
  obtain ⟨-, -, hRest⟩ := walk_cons_eq_ok_iff.1 hBack
  refine ⟨directory, hDirectory, ?_⟩
  rw [eq_of_walk_dots hNames.dots_behind hRest, eq_of_walk_dots hNames.dots_between hMiddle,
    next_of_name hNames.ne_dot hNames.ne_above]

/-- A file and its temporary file are different files of one directory. -/
theorem locate_ne_of_temporary {name : String} (hName : p.fileName? = some name)
    (h : fs.locate p = .ok here) (hTemporary : fs.locate p.temporary = .ok there) :
    here ≠ there := by
  obtain ⟨above, dots, idle, hNames⟩ := Path.exists_hasNames hName
  obtain ⟨directory, hDirectory, hHere⟩ := exists_directory_of_locate hNames h
  have hWalk := walk_of_locate hTemporary
  rw [hNames.names_temporary, walk_append, start_congr hNames.isAbsolute_temporary,
    hDirectory] at hWalk
  obtain ⟨-, -, hRest⟩ := walk_cons_eq_ok_iff.1 hWalk
  have hThere : there = directory ++ [name ++ ".tmp"] := by
    rw [← Except.ok.inj hRest]
    exact next_of_name (Path.tmp_ne_of_short name (by decide))
      (Path.tmp_ne_of_short name (by decide))
  rw [hHere, hThere]
  intro hSame
  exact Path.tmp_ne_self name (List.cons.inj (List.append_cancel_left hSame)).1.symm

section Under

variable {directory e : Path} {name : String} (hName : p.fileName? = some name)
  (hDirectory : p.directory? = some directory) (hUnder : Path.Under e directory)

include hName hDirectory hUnder

/-- A path that leads somewhere does so by the directories that have to be there for it, so they are
not made later. -/
theorem isDirectory_of_under (h : fs.locate p = .ok here) (hKeeps : fs.Keeps fs')
    (hAbove : fs'.locate e = .ok there) : fs.node? there = some .directory := by
  obtain ⟨between, idle, hNames, -, hStart⟩ :=
    Path.exists_names_of_under hName hDirectory hUnder
  have hWalk := walk_of_locate h
  rw [hNames, walk_append, ← start_congr hStart] at hWalk
  obtain ⟨above, hFront, hBack⟩ := bind_eq_ok_iff.1 hWalk
  have hLater : fs'.walk (fs'.start e) e.names = .ok above := by
    rw [hKeeps.start_eq]
    exact walk_of_keeps hKeeps hFront
  rw [walk_of_locate hAbove] at hLater
  rw [Except.ok.inj hLater]
  cases between with
  | nil => exact (walk_cons_eq_ok_iff.1 hBack).1
  | cons first between => exact (walk_cons_eq_ok_iff.1 hBack).1

/-- Unless the path climbs, the file is below these directories. -/
theorem locate_ne_of_under (hClimb : ".." ∉ p.names) (h : fs.locate p = .ok here)
    (hAbove : fs.locate e = .ok there) : here ≠ there := by
  obtain ⟨between, idle, hNames, hDot, hStart⟩ :=
    Path.exists_names_of_under hName hDirectory hUnder
  have hHere : here = fs.start p ++ steps p.names := eq_of_walk hClimb (walk_of_locate h)
  have hThere : there = fs.start p ++ steps e.names := by
    rw [← start_congr hStart]
    refine eq_of_walk (fun hMem => hClimb ?_) (walk_of_locate hAbove)
    rw [hNames]
    exact List.mem_append_left _ hMem
  rw [hHere, hThere, hNames, steps_append, ← List.append_assoc]
  intro hSame
  have hNone : steps (between ++ name :: idle) = [] :=
    List.append_cancel_left (hSame.trans (List.append_nil _).symm)
  have hMem : name ∈ steps (between ++ name :: idle) :=
    List.mem_filter.2 ⟨List.mem_append_right _ List.mem_cons_self, by simpa using hDot⟩
  rw [hNone] at hMem
  cases hMem

end Under

/-! ## Trees -/

/-- Everything is in a directory. -/
def IsTree (fs : FileSystem) : Prop :=
  ∀ l name, fs.node? (l ++ [name]) ≠ none → fs.node? l = some .directory

theorem isTree_empty : empty.IsTree := by
  intro l name h
  refine absurd ?_ h
  rw [node?, if_neg (by simp)]
  rfl

theorem IsTree.node?_ne_none (hTree : fs.IsTree) {rest : List String}
    (h : fs.node? (here ++ rest) ≠ none) : fs.node? here ≠ none := by
  induction rest using List.reverseRecOn with
  | nil => rwa [List.append_nil] at h
  | append_singleton rest name ih =>
    rw [← List.append_assoc] at h
    refine ih ?_
    rw [hTree _ name h]
    nofun

/-- Everything but the root is in a directory. -/
theorem IsTree.above (hTree : fs.IsTree) (h : fs.node? here ≠ none) :
    here = [] ∨ fs.node? here.dropLast = some .directory := by
  induction here using List.reverseRecOn with
  | nil => exact .inl rfl
  | append_singleton front name _ =>
    rw [List.dropLast_concat]
    exact .inr (hTree front name h)

/-- Names lead to a place in a directory. -/
theorem IsTree.walk_above (hTree : fs.IsTree) {names : List String} (hSome : names ≠ [])
    (h : fs.walk here names = .ok there) :
    there = [] ∨ fs.node? there.dropLast = some .directory := by
  induction names generalizing here with
  | nil => exact absurd rfl hSome
  | cons name names ih =>
    obtain ⟨hHere, -, hRest⟩ := walk_cons_eq_ok_iff.1 h
    by_cases hLast : names = []
    · rw [hLast] at hRest
      rw [← Except.ok.inj hRest, next]
      have hSelf : here = [] ∨ fs.node? here.dropLast = some .directory :=
        hTree.above (by rw [hHere]; nofun)
      by_cases hDot : name = "."
      · rw [if_pos hDot]
        exact hSelf
      · rw [if_neg hDot]
        by_cases hAbove : name = ".."
        · rw [if_pos hAbove]
          rcases hSelf with hRoot | hParent
          · exact .inl (by rw [hRoot]; rfl)
          · exact hTree.above (by rw [hParent]; nofun)
        · rw [if_neg hAbove, List.dropLast_concat]
          exact .inr hHere
    · exact ih hLast hRest

/-- A path leads to a place in a directory, if not to a directory. -/
theorem IsTree.locate_above (hTree : fs.IsTree) (h : fs.locate p = .ok here)
    (hFree : fs.node? here ≠ some .directory) : fs.node? here.dropLast = some .directory := by
  have hNotRoot : here ≠ [] := by
    rintro rfl
    exact hFree fs.node?_root
  have hNames : p.names ≠ [] := by
    intro hNone
    have hText : p.text ≠ "" := by
      intro hEmpty
      simp [locate, hEmpty] at h
    have hWalk := walk_of_locate h
    rw [hNone, start, if_pos (Path.isAbsolute_of_names_eq_nil hText hNone)] at hWalk
    exact hNotRoot (Except.ok.inj hWalk).symm
  exact (hTree.walk_above hNames (walk_of_locate h)).resolve_left hNotRoot

/-- Something that is put in a directory, and not in place of one, leaves a tree. -/
theorem IsTree.put (hTree : fs.IsTree) (hFree : fs.node? here ≠ some .directory)
    (hAbove : fs.node? here.dropLast = some .directory) (node : Node) :
    (fs.put here node).IsTree := by
  have hNotRoot : here ≠ [] := by
    rintro rfl
    exact hFree fs.node?_root
  intro l name h
  have hDirectory : fs.node? l = some .directory := by
    rw [node?_put fs hNotRoot] at h
    by_cases hHere : l ++ [name] = here
    · rwa [← hHere, List.dropLast_concat] at hAbove
    · rw [if_neg hHere] at h
      exact hTree l name h
  have hOther : l ≠ here := fun hEq => hFree (hEq ▸ hDirectory)
  rw [node?_put fs hNotRoot, if_neg hOther, hDirectory]

/-- Without one of its files a tree is one. -/
theorem IsTree.remove (hTree : fs.IsTree) {content : String}
    (hFile : fs.node? here = some (.file content)) : (fs.remove here).IsTree := by
  have hNotRoot : here ≠ [] := by
    rintro rfl
    cases hFile
  intro l name h
  rw [node?_remove fs hNotRoot] at h
  by_cases hHere : l ++ [name] = here
  · exact absurd (if_pos hHere) h
  · rw [if_neg hHere] at h
    have hDirectory := hTree l name h
    have hOther : l ≠ here := by
      rintro rfl
      rw [hFile] at hDirectory
      cases hDirectory
    rw [node?_remove fs hNotRoot, if_neg hOther, hDirectory]

/-- A path that does not climb and leads nowhere because something is missing has nothing at the
place where it leads when that is there. -/
theorem node?_eq_none_of_missing (hTree : fs.IsTree) (hClimb : ".." ∉ p.names)
    (h : fs.locate p = .error .notFound) (hCurrent : fs'.current = fs.current)
    (hLater : fs'.locate p = .ok there) : fs.node? there = none := by
  have hStart : fs'.start p = fs.start p := by rw [start, start, hCurrent]
  have hThere : there = fs.start p ++ steps p.names := by
    rw [← hStart]
    exact eq_of_walk hClimb (walk_of_locate hLater)
  rw [locate_eq_walk hLater fs] at h
  obtain ⟨missing, rest, hSplit, hMissing⟩ := exists_missing_of_walk hClimb h
  rw [hThere, hSplit]
  by_contra hSome
  exact hTree.node?_ne_none hSome hMissing

end FileSystem

end RecordStore.Storage
