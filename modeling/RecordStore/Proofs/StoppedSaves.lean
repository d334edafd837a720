import RecordStore.Proofs.PreparedSaves
import RecordStore.Proofs.SavedFiles

/-!
# Saves that stop

A save may stop at any of its steps, because the step fails or because nothing more is done at all.
What a step leaves behind then is described with room to spare (`SaveStep.Leaves`): some of the
directories that it was to make, or any content of the temporary file. Only moving the temporary
file into place is done in one go or not at all. Every other step is a preparation, so a save that
stops has only made preparations, and a save that succeeds has made them all and the move.

The files are those of a file system without links. Where the temporary file were a link to the store,
the preparations would reach the store.

## Main results

- `stops_of_error`: a save that fails stops in one of the states considered.
- `Prepared.stops`: in each of them only preparations have been made.
- `exists_prepared_of_save`, `Prepared.moved`: a save that succeeds, and what it leaves.
- `save_atomic`: what saves leave behind that stop, and those that succeed.
-/

namespace RecordStore.Storage

variable {fs mid fs' : FileSystem} {p : Path}

/-! ## Where a save may stop -/

/-- Some of the directories are made that have to be there for one. -/
inductive FileSystem.Opened (directory : Path) : FileSystem → FileSystem → Prop
  | none (fs : FileSystem) : Opened directory fs fs
  | more {fs mid fs' : FileSystem} {e : Path} : Opened directory fs mid → Path.Under e directory →
    mid.makeDirectory e = .ok fs' → Opened directory fs fs'

theorem FileSystem.Opened.above {directory parent : Path} (h : Opened parent fs fs')
    (hParent : directory.directory? = some parent) : Opened directory fs fs' := by
  induction h with
  | none => exact .none _
  | more _ hUnder hMade ih => exact .more ih (.above hParent hUnder) hMade

/-- Also when it fails, making directories makes only such. -/
theorem FileSystem.opened_makeDirectories (levels : Nat) (fs : FileSystem) (directory : Path) :
    Opened directory fs (fs.makeDirectories levels directory).2 := by
  fun_induction makeDirectories levels fs directory with
  | case1 levels fs directory fs' hMade => exact .more (.none fs) (.self directory) hMade
  | case2 fs directory levels parent hParent hMissing e mid hAbove ih =>
    rw [hAbove] at ih
    exact ih.above hParent
  | case3 fs directory levels parent hParent hMissing mid hAbove fs' hMade ih =>
    rw [hAbove] at ih
    exact .more (ih.above hParent) (.self directory) hMade
  | case4 fs directory levels parent hParent hMissing mid hAbove e hFailed ih =>
    rw [hAbove] at ih
    exact ih.above hParent
  | case5 levels fs directory e hFailed hOther => exact .none fs

/-- The file that a step writes to. -/
def SaveStep.written? : SaveStep → Option Path
  | create path | write path _ | sync path => some path
  | makeDirectories _ | move _ _ => none

/-- What a step may leave behind that is not carried out to its end. The file that it writes to may
have any content then. -/
inductive SaveStep.Leaves : SaveStep → FileSystem → FileSystem → Prop
  | nothing (step : SaveStep) (fs : FileSystem) : Leaves step fs fs
  | directories {directory : Path} {fs fs' : FileSystem} : fs.Opened directory fs' →
    Leaves (.makeDirectories directory) fs fs'
  | content {step : SaveStep} {path : Path} {fs fs' : FileSystem} {part : String} :
    step.written? = some path → fs.writeFile path part = .ok fs' → Leaves step fs fs'

/-- The states in which steps may stop, which are carried out one after the other. -/
inductive Stops : List SaveStep → FileSystem → FileSystem → Prop
  | here {step : SaveStep} {steps : List SaveStep} {fs fs' : FileSystem} : step.Leaves fs fs' →
    Stops (step :: steps) fs fs'
  | later {step : SaveStep} {steps : List SaveStep} {fs mid fs' : FileSystem} :
    (FileSystem.perform step).run fs = (.ok (), mid) → Stops steps mid fs' →
    Stops (step :: steps) fs fs'

namespace FileSystem

/-- An attempt makes a change, or it fails and changes nothing. -/
theorem attempt_cases {change : FileSystem → Except OsError FileSystem}
    {answer : Except OsError Unit} (h : (attempt change).run fs = (answer, fs')) :
    answer = .ok () ∧ change fs = .ok fs' ∨ (∃ e, answer = .error e) ∧ fs' = fs := by
  replace h : attempt change fs = (answer, fs') := h
  rw [attempt] at h
  cases hChange : change fs with
  | ok changed =>
    rw [hChange] at h
    cases h
    exact .inl ⟨rfl, rfl⟩
  | error e =>
    rw [hChange] at h
    cases h
    exact .inr ⟨⟨e, rfl⟩, rfl⟩

/-- A step that fails leaves something behind, and so does every step that is not a move. -/
theorem leaves_of_perform {step : SaveStep} {answer : Except OsError Unit}
    (h : (perform step).run fs = (answer, fs'))
    (hMove : ∀ source target, step = .move source target → ∃ e, answer = .error e) :
    step.Leaves fs fs' := by
  cases step with
  | makeDirectories directory =>
    have hOpened := opened_makeDirectories directory.text.length fs directory
    replace h : fs.makeDirectories directory.text.length directory = (answer, fs') := h
    rw [h] at hOpened
    exact .directories hOpened
  | create path | write path content =>
    rcases attempt_cases h with ⟨-, hWritten⟩ | ⟨-, rfl⟩
    · exact .content rfl hWritten
    · exact .nothing _ _
  | sync path =>
    cases h
    exact .nothing _ fs
  | move source target =>
    rcases attempt_cases h with ⟨rfl, -⟩ | ⟨-, rfl⟩
    · obtain ⟨e, hError⟩ := hMove source target rfl
      cases hError
    · exact .nothing _ _

/-! ## Steps in a row -/

/-- Steps that fail stop in one of the states considered. -/
theorem stops_of_error {steps : List SaveStep} {e : StorageError}
    (h : (performAll disk steps).run fs = (.error e, fs')) : Stops steps fs fs' := by
  induction steps generalizing fs with
  | nil => cases h
  | cons step steps ih =>
    rw [run_performAll_cons] at h
    cases hStep : (perform step).run fs with
    | mk answer mid =>
      rw [hStep] at h
      cases answer with
      | ok done => exact .later hStep (ih h)
      | error e =>
        cases h
        exact .here (leaves_of_perform hStep fun _ _ _ => ⟨e, rfl⟩)

/-- Steps that succeed are two halves that succeed. -/
theorem exists_performAll_append {first second : List SaveStep}
    (h : (performAll disk (first ++ second)).run fs = (.ok (), fs')) :
    ∃ mid, (performAll disk first).run fs = (.ok (), mid) ∧
      (performAll disk second).run mid = (.ok (), fs') := by
  induction first generalizing fs with
  | nil => exact ⟨fs, rfl, h⟩
  | cons step first ih =>
    rw [List.cons_append, run_performAll_cons] at h
    rw [run_performAll_cons]
    cases hStep : (perform step).run fs with
    | mk answer mid =>
      rw [hStep] at h
      cases answer with
      | ok done => exact ih h
      | error e => cases h

theorem performAll_singleton {step : SaveStep}
    (h : (performAll disk [step]).run fs = (.ok (), fs')) :
    (perform step).run fs = (.ok (), fs') := by
  rw [run_performAll_cons] at h
  cases hStep : (perform step).run fs with
  | mk answer mid =>
    rw [hStep] at h
    cases answer with
    | ok done =>
      cases h
      rfl
    | error e => cases h

end FileSystem

/-! ## Preparations of a save -/

/-- What a save does before the temporary file is moved. -/
def preparations (path : Path) (content : String) : List SaveStep :=
  (path.directory?.map SaveStep.makeDirectories).toList ++
    [.create path.temporary, .write path.temporary content, .sync path.temporary]

theorem saveSteps_eq_append (path : Path) (content : String) :
    saveSteps path content = preparations path content ++ [.move path.temporary path] := by
  rw [saveSteps, preparations, List.append_assoc]
  rfl

/-- A step that makes the directory of a file or writes to its temporary file. -/
def SaveStep.Prepares (p : Path) : SaveStep → Prop
  | makeDirectories directory => p.directory? = some directory
  | create path | write path _ | sync path => path = p.temporary
  | move _ _ => False

theorem prepares_of_mem {content : String} {step : SaveStep}
    (h : step ∈ preparations p content) : step.Prepares p := by
  rw [preparations, List.mem_append] at h
  rcases h with hDirectory | hFile
  · rw [Option.mem_toList, Option.map_eq_some_iff] at hDirectory
    obtain ⟨directory, hSome, rfl⟩ := hDirectory
    exact hSome
  · simp only [List.mem_cons, List.not_mem_nil, or_false] at hFile
    rcases hFile with rfl | rfl | rfl <;> rfl

theorem SaveStep.Prepares.eq_temporary {step : SaveStep} {path : Path} (h : step.Prepares p)
    (hWritten : step.written? = some path) : path = p.temporary := by
  cases step with
  | create other | write other content | sync other =>
    cases hWritten
    exact h
  | makeDirectories directory | move source target => cases hWritten

namespace FileSystem.Prepared

/-- Whatever a preparation leaves behind is one. -/
theorem leaves {step : SaveStep} (h : Prepared p fs mid) (hStep : step.Prepares p)
    (hLeaves : step.Leaves mid fs') : Prepared p fs fs' := by
  cases hLeaves with
  | nothing => exact h
  | directories hOpened =>
    induction hOpened with
    | none => exact h
    | more _ hUnder hMade ih => exact ih.makeDirectory hStep hUnder hMade
  | content hWritten hFile =>
    rw [hStep.eq_temporary hWritten] at hFile
    exact h.writeFile hFile

theorem perform {step : SaveStep} {answer : Except OsError Unit} (h : Prepared p fs mid)
    (hStep : step.Prepares p) (hRun : (FileSystem.perform step).run mid = (answer, fs')) :
    Prepared p fs fs' := by
  refine h.leaves hStep (leaves_of_perform hRun fun source target hMove => ?_)
  rw [hMove] at hStep
  exact hStep.elim

/-- Preparations that are carried out. -/
theorem performAll {steps : List SaveStep} {answer : Except StorageError Unit}
    (hSteps : ∀ step ∈ steps, step.Prepares p) (h : Prepared p fs mid)
    (hRun : (Storage.performAll disk steps).run mid = (answer, fs')) : Prepared p fs fs' := by
  induction steps generalizing mid with
  | nil =>
    cases hRun
    exact h
  | cons step steps ih =>
    rw [run_performAll_cons] at hRun
    cases hStep : (FileSystem.perform step).run mid with
    | mk done next =>
      rw [hStep] at hRun
      have hNext : Prepared p fs next := h.perform (hSteps step List.mem_cons_self) hStep
      cases done with
      | ok _ =>
        exact ih (fun other hOther => hSteps other (List.mem_cons_of_mem _ hOther)) hNext hRun
      | error e =>
        cases hRun
        exact hNext

/-- Preparations and a move that stop before the move is done. -/
theorem stops {steps : List SaveStep} {source target : Path}
    (hSteps : ∀ step ∈ steps, step.Prepares p) (h : Prepared p fs mid)
    (hStops : Stops (steps ++ [.move source target]) mid fs') : Prepared p fs fs' := by
  induction steps generalizing mid with
  | nil =>
    cases hStops with
    | here hLeaves =>
      cases hLeaves with
      | nothing => exact h
      | content hWritten _ => cases hWritten
    | later _ hRest => cases hRest
  | cons step steps ih =>
    have hStep : step.Prepares p := hSteps step List.mem_cons_self
    cases hStops with
    | here hLeaves => exact h.leaves hStep hLeaves
    | later hRun hRest =>
      exact ih (fun other hOther => hSteps other (List.mem_cons_of_mem _ hOther))
        (h.perform hStep hRun) hRest

end FileSystem.Prepared

/-! ## Saves -/

namespace FileSystem

/-- A save that succeeds has made preparations, and then it has moved the temporary file with the
new content. -/
theorem exists_prepared_of_save {content : String}
    (h : (performAll disk (saveSteps p content)).run fs = (.ok (), fs')) :
    ∃ mid l, Prepared p fs mid ∧ mid.locate p.temporary = .ok l ∧
      mid.node? l = some (.file content) ∧ mid.moveFile p.temporary p = .ok fs' := by
  rw [saveSteps_eq_append] at h
  obtain ⟨mid, hPrepared, hMove⟩ := exists_performAll_append h
  have hMoved : mid.moveFile p.temporary p = .ok fs' := by
    rcases attempt_cases (performAll_singleton hMove) with ⟨-, hMoved⟩ | ⟨⟨e, hError⟩, -⟩
    · exact hMoved
    · cases hError
  -- The last content that was written is the new one, and bringing it to the disk changes nothing.
  have hParts : preparations p content =
      ((p.directory?.map SaveStep.makeDirectories).toList ++ [.create p.temporary]) ++
        ([.write p.temporary content] ++ [.sync p.temporary]) := by
    rw [preparations, List.append_assoc]
    rfl
  have hLast := hPrepared
  rw [hParts] at hLast
  obtain ⟨created, -, hBoth⟩ := exists_performAll_append hLast
  obtain ⟨written, hWrite, hSync⟩ := exists_performAll_append hBoth
  cases performAll_singleton hSync
  rcases attempt_cases (performAll_singleton hWrite) with ⟨-, hWritten⟩ | ⟨⟨e, hError⟩, -⟩
  · have hKeeps : created.Keeps mid := ((Prepared.refl p created).writeFile hWritten).keeps
    obtain ⟨l, hLocate, hFree, rfl⟩ := writeFile_eq_ok hWritten
    refine ⟨_, l, (Prepared.refl p fs).performAll (fun _ => prepares_of_mem) hPrepared,
      locate_of_keeps hKeeps hLocate, ?_, hMoved⟩
    rw [node?_put created (ne_root hFree), if_pos rfl]
  · cases hError

/-- After the move the store has the content of the temporary file, which is gone, and nothing else
has changed since the preparations. -/
theorem Prepared.moved {name content : String} {l : Location} (h : Prepared p fs mid)
    (hName : p.fileName? = some name) (hTemporary : mid.locate p.temporary = .ok l)
    (hContent : mid.node? l = some (.file content))
    (hMove : mid.moveFile p.temporary p = .ok fs') :
    fs'.held? p = some (.file content) ∧ fs'.held? p.temporary = none ∧
      (∀ other, fs'.node? other = fs.node? other ∨ Touched p fs fs' other ∨
        fs'.locate p = .ok other) ∧
      (fs.IsTree → fs'.IsTree) := by
  obtain ⟨source, target, _, hSource, hTarget, hFile, hFree, hSays, rfl⟩ := moveFile_eq_ok hMove
  obtain rfl : l = source := Except.ok.inj (hTemporary.symm.trans hSource)
  obtain rfl := Node.file.inj (Option.some.inj (hContent.symm.trans hFile))
  have hNe : target ≠ l := locate_ne_of_temporary hName hTarget hTemporary
  have hNode (other : Location) := node?_moved hFile hFree other
  have hKeeps : mid.Keeps (mid.moved l target content) := keeps_moved hFile hFree
  have hGone : (mid.moved l target content).node? l = none := by
    rw [hNode, if_neg (Ne.symm hNe), if_pos rfl]
  refine ⟨?_, ?_, fun other => ?_, fun hTree => ?_⟩
  · rw [held?_of_locate (locate_of_keeps hKeeps hTarget), hNode, if_pos rfl, hSays]
    rfl
  · rw [held?_of_locate (locate_of_keeps hKeeps hTemporary), hGone]
    rfl
  · by_cases hIsTarget : other = target
    · rw [hIsTarget]
      exact .inr (.inr (locate_of_keeps hKeeps hTarget))
    · by_cases hIsSource : other = l
      · rw [hIsSource]
        have hBefore : fs.node? l ≠ some .directory := by
          intro hDirectory
          rw [h.keeps.directories l hDirectory] at hContent
          cases hContent
        refine .inr (.inl (.temporary (locate_of_keeps hKeeps hTemporary) hBefore ?_))
        rw [hGone]
        nofun
      · have hSame : (mid.moved l target content).node? other = mid.node? other := by
          rw [hNode, if_neg hIsTarget, if_neg hIsSource]
        rw [hSame]
        exact (h.frame other).imp id fun hTouched => .inl (hTouched.later hKeeps hSame)
  · have hBefore := h.tree hTree
    exact hBefore.moved hFile hFree hNe (hBefore.locate_above hTarget hFree)

end FileSystem

/-- Saving to a file, whatever the files are, as long as none is linked to another. A save that fails
stops in one of the states considered, as does one that is cut off before the move. There the path of
the store holds what it held, unless it could not be followed and a directory that was made opens the
way; and only the temporary file and directories above are touched. A save that succeeds leaves the
document and a line break at the path of the store and nothing at that of the temporary file, and
touches nothing else either. -/
theorem save_atomic {name : String} (hName : p.fileName? = some name) (layout : Json.Layout)
    (db : Database) (fs : FileSystem) :
    let save := (Backend.file FileSystem.disk p layout).save db
    let content := db.toJson layout ++ "\n"
    (∀ e stopped, save.run fs = (.error e, stopped) → Stops (saveSteps p content) fs stopped) ∧
      (∀ stopped, Stops (saveSteps p content) fs stopped →
        (stopped.held? p = fs.held? p ∨ FileSystem.ReachedAnew p fs stopped) ∧
          (∀ l, stopped.node? l = fs.node? l ∨ FileSystem.Touched p fs stopped l) ∧
          (fs.IsTree → stopped.IsTree)) ∧
      ∀ saved, save.run fs = (.ok (), saved) →
        saved.held? p = some (.file content) ∧ saved.held? p.temporary = none ∧
          (∀ l, saved.node? l = fs.node? l ∨ FileSystem.Touched p fs saved l ∨
            saved.locate p = .ok l) ∧
          (fs.IsTree → saved.IsTree) := by
  intro save content
  refine ⟨fun e stopped hRun => ?_, fun stopped hStops => ?_, fun saved hRun => ?_⟩
  · exact FileSystem.stops_of_error hRun
  · rw [saveSteps_eq_append] at hStops
    have hPrepared : FileSystem.Prepared p fs stopped :=
      (FileSystem.Prepared.refl p fs).stops (fun _ => prepares_of_mem) hStops
    exact ⟨hPrepared.held?_eq_or hName, hPrepared.frame, hPrepared.tree⟩
  · obtain ⟨mid, l, hPrepared, hTemporary, hContent, hMove⟩ :=
      FileSystem.exists_prepared_of_save hRun
    exact hPrepared.moved hName hTemporary hContent hMove

/-- Beside a store there is the temporary file of a save that was cut off. If the next save is cut
off too, when it has written some of the document, the store is as it was; if it comes to its end,
the store has the document and the temporary file is gone. -/
theorem save_atomic_cut_off :
    let p : Path := ⟨"store.json"⟩
    let fs : FileSystem :=
      ⟨[(["store.json"], .file "{}"), (["store.json.tmp"], .file "half")], []⟩
    let save := (Backend.file FileSystem.disk p .compact).save .empty
    let content := Database.empty.toJson .compact ++ "\n"
    let cutOff := (fs.put ["store.json.tmp"] (.file "")).put ["store.json.tmp"] (.file "[")
    p.fileName? = some "store.json" ∧
      (Stops (saveSteps p content) fs cutOff ∧ cutOff.held? p = some (.file "{}")) ∧
      ∃ saved, save.run fs = (.ok (), saved) ∧ saved.held? p = some (.file content) ∧
        saved.held? p.temporary = none := by
  intro p fs save content cutOff
  let q : Path := ⟨"store.json.tmp"⟩
  have hName : p.fileName? = some "store.json" := by decide +kernel
  have hp : p.isName = true := by decide +kernel
  have hq : q.isName = true := by decide +kernel
  have hTemporary : p.temporary = q := by decide +kernel
  have hAlone : p.directory? = none := by decide +kernel
  have hClear : fs.IsClear p := ⟨rfl, by decide +kernel⟩
  have hClear' : fs.IsClear q := ⟨rfl, by decide +kernel⟩
  obtain ⟨-, hStopped, hSaved⟩ := save_atomic hName .compact .empty fs
  have hCutOff : Stops (saveSteps p content) fs cutOff := by
    have hSteps : saveSteps p content =
        [.create q, .write q content, .sync q, .move q p] := by
      rw [saveSteps, hAlone, hTemporary]
      rfl
    have hCreated := FileSystem.writeFile_of_isClear hq hClear' ""
    have hPart := FileSystem.writeFile_of_isClear hq (hClear'.put q "") "["
    rw [hSteps]
    refine .later (FileSystem.run_attempt_of_ok (fun fs => fs.writeFile q "") hCreated) (.here ?_)
    exact .content rfl hPart
  obtain ⟨saved, hRun, -⟩ := performAll_saveSteps hp hq hTemporary hAlone hClear hClear' content
  obtain ⟨hHeld, hGone, -⟩ := hSaved saved hRun
  refine ⟨hName, ⟨hCutOff, ?_⟩, saved, hRun, hHeld, hGone⟩
  rcases (hStopped cutOff hCutOff).1 with hSame | hAnew
  · rw [hSame]
    decide +kernel
  · have hMissing := hAnew.missing
    rw [FileSystem.locate_of_isName hp hClear.here] at hMissing
    cases hMissing

/-- A store is reached by a way that leads into a directory and out again, and the directory is
missing: nothing is seen at the path. A save makes the directory and fails, since the temporary
file cannot be written. Now the path shows the store that was there all along. -/
theorem save_reaches_anew :
    let p : Path := ⟨"a/../database.json"⟩
    let fs : FileSystem :=
      ⟨[(["database.json"], .file "{}"), (["database.json.tmp"], .directory)], []⟩
    let save := (Backend.file FileSystem.disk p .compact).save .empty
    fs.IsTree ∧ p.fileName? = some "database.json" ∧
      ∃ e stopped, save.run fs = (.error e, stopped) ∧ fs.held? p = none ∧
        stopped.held? p = some (.file "{}") := by
  intro p fs save
  have hTree : fs.IsTree := by
    have hOne : (FileSystem.empty.put ["database.json.tmp"] .directory).IsTree :=
      FileSystem.isTree_empty.put (by decide +kernel) (by decide +kernel) _
    have hBoth : ((FileSystem.empty.put ["database.json.tmp"] .directory).put ["database.json"]
        (.file "{}")).IsTree := hOne.put (by decide +kernel) (by decide +kernel) _
    exact hBoth
  have hFails : (save.run fs).1.toOption = none := by decide +kernel
  refine ⟨hTree, by decide +kernel, ?_⟩
  cases hRun : save.run fs with
  | mk answer stopped =>
    have hStopped : stopped = (save.run fs).2 := by rw [hRun]
    rw [hRun] at hFails
    cases answer with
    | ok done => cases hFails
    | error e =>
      refine ⟨e, stopped, rfl, by decide +kernel, ?_⟩
      rw [hStopped]
      decide +kernel

end RecordStore.Storage
