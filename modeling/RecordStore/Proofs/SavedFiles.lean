import RecordStore.Proofs.Binding
import RecordStore.Storage.Faithful

/-!
# Saving to a file of the working directory

For a path that is a single name, the steps of a save are followed one by one in the pure file system.
As long as no directory has that name or the name of the temporary file, each step succeeds and leaves
it so, and in the end the file has its new content.

## Main results

- `IsClear.put`, `IsClear.remove`: a file that comes or goes is in nobody's way.
- `writeFile_of_isClear`, `moveFile_of_isClear`, `read_of_isClear`: what the operations do there.
- `performAll_saveSteps`: a save succeeds and puts the content in place.
- `Backend.file_stores`: such a file stores what it is given.
-/

namespace RecordStore.Storage

/-- Whether a path is nothing but the name of a file. -/
def Path.isName (p : Path) : Bool :=
  p.names == [p.text] && p.endsInName && !p.isAbsolute && !p.saysDirectory &&
    !p.text.toList.contains '\x00' && !p.text.isEmpty && p.text.utf8ByteSize ≤ FileSystem.maxName

namespace FileSystem

variable {fs : FileSystem} {p : Path}

/-- Where the file of a name is. -/
def beside (fs : FileSystem) (p : Path) : Location := fs.current ++ [p.text]

theorem locate_of_isName (hp : p.isName = true) (hHere : fs.node? fs.current = some .directory) :
    fs.locate p = .ok (fs.beside p) := by
  simp only [Path.isName, Bool.and_eq_true, beq_iff_eq, Bool.not_eq_true', decide_eq_true_eq] at hp
  obtain ⟨⟨⟨⟨⟨⟨hNames, hEnds⟩, hRelative⟩, -⟩, hText⟩, hSome⟩, hSize⟩ := hp
  have hPath : ¬ maxPath < p.text.utf8ByteSize := by
    unfold maxPath
    unfold maxName at hSize
    omega
  have hName : ¬ maxName < p.text.utf8ByteSize := by omega
  have hDots : p.text ≠ "." ∧ p.text ≠ ".." := by
    simpa [Path.endsInName, hNames] using hEnds
  rw [locate, hText, hSome, hRelative, hNames]
  simp only [Bool.false_eq_true, if_false, if_neg hPath, walk, hHere, if_neg hName, if_neg hDots.1,
    if_neg hDots.2]
  rfl

theorem beside_ne_nil (fs : FileSystem) (p : Path) : fs.beside p ≠ [] := by
  rw [beside]
  exact List.append_ne_nil_of_right_ne_nil _ (List.cons_ne_nil _ _)

theorem beside_ne_current (fs : FileSystem) (p : Path) : fs.current ≠ fs.beside p := by
  intro h
  have hLength := congrArg List.length h
  rw [beside, List.length_append, List.length_singleton] at hLength
  omega

/-- The working directory is there, and no directory has the name of the file. -/
structure IsClear (fs : FileSystem) (p : Path) : Prop where
  here : fs.node? fs.current = some .directory
  free : fs.node? (fs.beside p) ≠ some .directory

/-- A file system with other files in the same directories is as clear. -/
theorem IsClear.congr {fs' : FileSystem} (h : fs.IsClear p) (hCurrent : fs'.current = fs.current)
    (hNode : ∀ other, other ≠ fs.current → fs'.node? other = some .directory →
      fs.node? other = some .directory)
    (hHere : fs'.node? fs.current = fs.node? fs.current) : fs'.IsClear p where
  here := by rw [hCurrent, hHere, h.here]
  free := by
    rw [beside, hCurrent]
    exact fun hNot => h.free (hNode _ (fs.beside_ne_current p).symm hNot)

theorem IsClear.put {p' : Path} (h : fs.IsClear p') (p : Path) (content : String) :
    (fs.put (fs.beside p) (.file content)).IsClear p' := by
  refine h.congr rfl (fun other _ hOther => ?_) ?_
  · rw [node?_put fs (fs.beside_ne_nil p)] at hOther
    split at hOther
    · cases hOther
    · exact hOther
  · rw [node?_put fs (fs.beside_ne_nil p), if_neg (fs.beside_ne_current p)]

theorem IsClear.remove {p' : Path} (h : fs.IsClear p') (p : Path) :
    (fs.remove (fs.beside p)).IsClear p' := by
  refine h.congr rfl (fun other _ hOther => ?_) ?_
  · rw [node?_remove fs (fs.beside_ne_nil p)] at hOther
    split at hOther
    · cases hOther
    · exact hOther
  · rw [node?_remove fs (fs.beside_ne_nil p), if_neg (fs.beside_ne_current p)]

theorem writeFile_of_isClear (hp : p.isName = true) (h : fs.IsClear p) (content : String) :
    fs.writeFile p content = .ok (fs.put (fs.beside p) (.file content)) := by
  have hFile : p.saysDirectory = false := by
    simp only [Path.isName, Bool.and_eq_true, Bool.not_eq_true'] at hp
    exact hp.1.1.1.2
  rw [writeFile, locate_of_isName hp h.here]
  show (if (p.saysDirectory || fs.node? (fs.beside p) == some .directory) = true then _ else _) = _
  rw [hFile, Bool.false_or, if_neg (by simpa using h.free)]
  rfl

theorem moveFile_of_isClear {q : Path} {content : String} (hp : p.isName = true)
    (hq : q.isName = true) (h : fs.IsClear p)
    (hContent : fs.node? (fs.beside q) = some (.file content)) :
    fs.moveFile q p = .ok ((fs.remove (fs.beside q)).put (fs.beside p) (.file content)) := by
  rw [moveFile, locate_of_isName hq h.here, locate_of_isName hp h.here]
  simp only [Path.isName, Bool.and_eq_true, Bool.not_eq_true'] at hp hq
  have hFree : (fs.node? (fs.beside p) == some .directory) = false := by simpa using h.free
  show (if (!q.endsInName || !p.endsInName) = true then _ else _) = _
  rw [hp.1.1.1.1.1.2, hq.1.1.1.1.1.2, hContent, hp.1.1.1.2, hq.1.1.1.2, hFree]
  rfl

theorem read_of_isClear {content : String} (hp : p.isName = true) (h : fs.IsClear p)
    (hContent : fs.node? (fs.beside p) = some (.file content)) : fs.read p = .ok content := by
  have hLocated := locate_of_isName hp h.here
  simp only [Path.isName, Bool.and_eq_true, Bool.not_eq_true'] at hp
  have hStatus : fs.status p = .ok (.file content) := by
    rw [status]
    refine bind_eq_ok_iff.2 ⟨fs.beside p, hLocated, ?_⟩
    rw [hContent, hp.1.1.1.2]
    rfl
  rw [read, hStatus]
  rfl

theorem run_attempt_of_ok (change : FileSystem → Except OsError FileSystem) {fs' : FileSystem}
    (h : change fs = .ok fs') : (attempt change).run fs = (.ok (), fs') := by
  show attempt change fs = _
  rw [attempt, h]

theorem run_performAll_cons (step : SaveStep) (steps : List SaveStep) (fs : FileSystem) :
    (performAll disk (step :: steps)).run fs =
      match (perform step).run fs with
      | (.ok (), mid) => (performAll disk steps).run mid
      | (.error e, mid) => (.error (.io step.subject e), mid) := by
  rw [performAll_cons, StateT.run_bind]
  show (perform step).run fs >>= _ = _
  cases (perform step).run fs with
  | mk answer mid => cases answer <;> rfl

theorem performAll_of_ok {step : SaveStep} {steps : List SaveStep} {fs' : FileSystem}
    (h : (FileSystem.perform step).run fs = (.ok (), fs')) :
    (performAll disk (step :: steps)).run fs = (performAll disk steps).run fs' := by
  rw [run_performAll_cons, h]

end FileSystem

/-- Loading changes nothing. -/
theorem run_load_file (p : Path) (layout : Json.Layout) (fs : FileSystem) :
    (Backend.file FileSystem.disk p layout).load.run fs =
      (match fs.read p with
        | .error e => .error (.io p e)
        | .ok content => (Database.ofJson content).mapError (.invalidDocument p), fs) := by
  have hRead : (FileSystem.disk.read p).run fs = (fs.read p, fs) := rfl
  rw [Backend.file, StateT.run_bind, hRead]
  show StateT.run _ fs = _
  cases fs.read p <;> rfl

section

variable {p q : Path} (hp : p.isName = true) (hq : q.isName = true) (hTemporary : p.temporary = q)
  (hAlone : p.directory? = none)

include hp hq hTemporary hAlone

/-- After a save a file has its new content. -/
theorem performAll_saveSteps {fs : FileSystem} (h : fs.IsClear p) (h' : fs.IsClear q)
    (content : String) :
    ∃ fs' : FileSystem, (performAll FileSystem.disk (saveSteps p content)).run fs = (.ok (), fs') ∧
      fs'.IsClear p ∧ fs'.IsClear q ∧ fs'.read p = .ok content := by
  let written := (fs.put (fs.beside q) (.file "")).put (fs.beside q) (.file content)
  let moved := (written.remove (fs.beside q)).put (fs.beside p) (.file content)
  have hCreate : (FileSystem.perform (.create q)).run fs =
      (.ok (), fs.put (fs.beside q) (.file "")) :=
    FileSystem.run_attempt_of_ok (fun fs => fs.writeFile q "")
      (FileSystem.writeFile_of_isClear hq h' "")
  have hWrite : (FileSystem.perform (.write q content)).run (fs.put (fs.beside q) (.file "")) =
      (.ok (), written) :=
    FileSystem.run_attempt_of_ok (fun fs => fs.writeFile q content)
      (FileSystem.writeFile_of_isClear hq (h'.put q "") content)
  have hThere : written.node? (fs.beside q) = some (.file content) := by
    rw [FileSystem.node?_put _ (FileSystem.beside_ne_nil fs q), if_pos rfl]
  have hMove : (FileSystem.perform (.move q p)).run written = (.ok (), moved) :=
    FileSystem.run_attempt_of_ok (fun fs => fs.moveFile q p)
      (FileSystem.moveFile_of_isClear hp hq ((h.put q "").put q content) hThere)
  have hClear : moved.IsClear p := (((h.put q "").put q content).remove q).put p content
  have hClear' : moved.IsClear q := (((h'.put q "").put q content).remove q).put p content
  refine ⟨moved, ?_, hClear, hClear', FileSystem.read_of_isClear hp hClear ?_⟩
  · rw [saveSteps, hAlone, hTemporary]
    show (performAll FileSystem.disk [.create q, .write q content, .sync q, .move q p]).run fs = _
    rw [FileSystem.performAll_of_ok hCreate, FileSystem.performAll_of_ok hWrite,
      FileSystem.performAll_of_ok rfl, FileSystem.performAll_of_ok hMove]
    rfl
  · show moved.node? (fs.beside p) = _
    rw [FileSystem.node?_put _ (FileSystem.beside_ne_nil fs p), if_pos rfl]

/-- A file of the working directory stores what it is given, as long as no directory has its name or
that of its temporary file. -/
theorem file_stores (layout : Json.Layout) :
    (Backend.file FileSystem.disk p layout).Stores (fun fs => fs.IsClear p ∧ fs.IsClear q)
      (fun fs => fs.read p) (fun db => .ok (document layout db)) := by
  have hSave (db : Database) (fs : FileSystem) (h : fs.IsClear p ∧ fs.IsClear q) :=
    performAll_saveSteps hp hq hTemporary hAlone h.1 h.2 (document layout db)
  refine ⟨fun fs h => ?_, fun db fs h => ?_, fun db fs h => ?_, fun db fs h => ?_⟩
  · rw [run_load_file]
    exact h
  all_goals
    obtain ⟨fs', hSaved, hClear, hClear', hRead⟩ := hSave db fs h
    replace hSaved : ((Backend.file FileSystem.disk p layout).save db).run fs = (.ok (), fs') :=
      hSaved
    rw [hSaved]
  · exact ⟨hClear, hClear'⟩
  · exact hRead

end

end RecordStore.Storage
