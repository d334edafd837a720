import RecordStore.Proofs.FollowedPaths

/-!
# Preparations of a save

Before a save moves the temporary file into place it prepares the move. This changes two kinds of
places: those of directories that have to be there for the file, where nothing was before, and that
of the temporary file (`FileSystem.Touched`). The store is neither, so its path holds what it held.

There is one exception, for a path that could not be followed. If a directory on its way was
missing and the path leads out of it again by two dots, then making the directory opens the way,
and the path shows what was there all along behind it, or a directory that has been made
(`FileSystem.ReachedAnew`).

## Main results

- `makeDirectory_eq_ok`, `writeFile_eq_ok`, `moveFile_eq_ok`: what operations do that succeed.
- `Prepared.makeDirectory`, `Prepared.writeFile`: each preparation changes such places only.
- `Prepared.held?_eq_or`: preparations do not change what the path of the store holds.
-/

namespace RecordStore.Storage

variable {fs mid fs' : FileSystem} {p : Path}

/-! ## Successful operations -/

namespace FileSystem

variable {l : Location}

theorem ne_root (h : fs.node? l ≠ some .directory) : l ≠ [] := by
  rintro rfl
  exact h fs.node?_root

theorem makeDirectory_eq_ok (h : fs.makeDirectory p = .ok fs') :
    ∃ l, fs.locate p = .ok l ∧ fs.node? l = none ∧ fs' = fs.put l .directory := by
  obtain ⟨l, hLocate, hMake⟩ := bind_eq_ok_iff.1 h
  split at hMake
  · cases hMake
  · next hFree =>
    cases hMake
    exact ⟨l, hLocate, by simpa using hFree, rfl⟩

theorem writeFile_eq_ok {content : String} (h : fs.writeFile p content = .ok fs') :
    ∃ l, fs.locate p = .ok l ∧ fs.node? l ≠ some .directory ∧ fs' = fs.put l (.file content) := by
  obtain ⟨l, hLocate, hWrite⟩ := bind_eq_ok_iff.1 h
  split at hWrite
  · cases hWrite
  · next hFree =>
    cases hWrite
    simp only [Bool.or_eq_true, beq_iff_eq, not_or] at hFree
    exact ⟨l, hLocate, hFree.2, rfl⟩

/-- The file system after a file with some content has been moved. -/
def moved (fs : FileSystem) (source target : Location) (content : String) : FileSystem :=
  (fs.remove source).put target (.file content)

theorem moveFile_eq_ok {q : Path} (h : fs.moveFile q p = .ok fs') :
    ∃ source target content, fs.locate q = .ok source ∧ fs.locate p = .ok target ∧
      fs.node? source = some (.file content) ∧ fs.node? target ≠ some .directory ∧
      p.saysDirectory = false ∧ fs' = fs.moved source target content := by
  obtain ⟨source, hSource, hRest⟩ := bind_eq_ok_iff.1 h
  obtain ⟨target, hTarget, hMove⟩ := bind_eq_ok_iff.1 hRest
  split at hMove
  · cases hMove
  · cases hNode : fs.node? source with
    | none =>
      rw [hNode] at hMove
      cases hMove
    | some node =>
      rw [hNode] at hMove
      cases node with
      | directory => cases hMove
      | file content =>
        simp only at hMove
        split at hMove
        · cases hMove
        · next hSays =>
          split at hMove
          · cases hMove
          · next hFree =>
            cases hMove
            refine ⟨source, target, content, hSource, hTarget, hNode, by simpa using hFree, ?_, rfl⟩
            simp only [Bool.or_eq_true, not_or] at hSays
            exact Bool.eq_false_iff.2 hSays.2

section Moved

variable {source target : Location} {content : String}
  (hFile : fs.node? source = some (.file content)) (hFree : fs.node? target ≠ some .directory)

include hFile hFree

theorem node?_moved (l : Location) :
    (fs.moved source target content).node? l =
      if l = target then some (.file content) else if l = source then none else fs.node? l := by
  have hSource : source ≠ [] := ne_root (by rw [hFile]; nofun)
  rw [moved, node?_put _ (ne_root hFree), node?_remove _ hSource]

theorem keeps_moved : fs.Keeps (fs.moved source target content) := by
  refine ⟨rfl, fun l hDirectory => ?_⟩
  have hTarget : l ≠ target := fun hEq => hFree (hEq ▸ hDirectory)
  have hSource : l ≠ source := by
    rintro rfl
    rw [hFile] at hDirectory
    cases hDirectory
  rw [node?_moved hFile hFree, if_neg hTarget, if_neg hSource, hDirectory]

theorem IsTree.moved (hTree : fs.IsTree) (hNe : target ≠ source)
    (hAbove : fs.node? target.dropLast = some .directory) :
    (fs.moved source target content).IsTree := by
  have hSource : source ≠ [] := ne_root (by rw [hFile]; nofun)
  have hOther : target.dropLast ≠ source := by
    intro hEq
    rw [hEq, hFile] at hAbove
    cases hAbove
  refine (hTree.remove hFile).put ?_ ?_ _
  · rw [node?_remove _ hSource, if_neg hNe]
    exact hFree
  · rw [node?_remove _ hSource, if_neg hOther, hAbove]

end Moved

/-- What a path holds that leads somewhere. -/
theorem held?_of_locate (h : fs.locate p = .ok l) :
    fs.held? p = (fs.node? l).filter fun node => node = .directory || !p.saysDirectory := by
  rw [held?, status, h]
  simp only [bind, Except.bind]
  cases fs.node? l with
  | none => rfl
  | some node =>
    cases node with
    | directory => rfl
    | file content => cases hSays : p.saysDirectory <;> rfl

theorem held?_of_locate_error {e : OsError} (h : fs.locate p = .error e) : fs.held? p = none := by
  rw [held?, status, h]
  rfl

/-! ## Preparations -/

/-- A place that a save may change other than that of the store: a directory that has to be there
for the file, where nothing was, or the temporary file. -/
inductive Touched (p : Path) (fs fs' : FileSystem) (l : Location) : Prop
  | directory {directory e : Path} : p.directory? = some directory → Path.Under e directory →
    fs'.locate e = .ok l → fs.node? l = none → fs'.node? l = some .directory → Touched p fs fs' l
  | temporary : fs'.locate p.temporary = .ok l → fs.node? l ≠ some .directory →
    fs'.node? l ≠ some .directory → Touched p fs fs' l

/-- It stays one as long as it is not changed again. -/
theorem Touched.later (h : Touched p fs mid l) (hKeeps : mid.Keeps fs')
    (hSame : fs'.node? l = mid.node? l) : Touched p fs fs' l := by
  cases h with
  | directory hDirectory hUnder hLocate hNone hMade =>
    exact .directory hDirectory hUnder (locate_of_keeps hKeeps hLocate) hNone (hSame.trans hMade)
  | temporary hLocate hBefore hAfter =>
    exact .temporary (locate_of_keeps hKeeps hLocate) hBefore (hSame ▸ hAfter)

/-- What a save may have changed before the temporary file is moved. -/
structure Prepared (p : Path) (fs fs' : FileSystem) : Prop where
  keeps : fs.Keeps fs'
  files : fs.KeepsFiles fs'
  frame : ∀ l, fs'.node? l = fs.node? l ∨ Touched p fs fs' l
  tree : fs.IsTree → fs'.IsTree

namespace Prepared

theorem refl (p : Path) (fs : FileSystem) : Prepared p fs fs :=
  ⟨.refl fs, fun _ content h => ⟨content, h⟩, fun _ => .inl rfl, id⟩

/-- Where nothing is, nothing was. -/
theorem node?_eq_none (h : Prepared p fs mid) (hNone : mid.node? l = none) : fs.node? l = none := by
  cases hNode : fs.node? l with
  | none => rfl
  | some node =>
    cases node with
    | directory =>
      rw [h.keeps.directories l hNode] at hNone
      cases hNone
    | file content =>
      obtain ⟨content', hLater⟩ := h.files l content hNode
      rw [hLater] at hNone
      cases hNone

/-- Something is put where a path leads to, but not to a directory. -/
theorem put {node : Node} {q : Path} (h : Prepared p fs mid) (hLocate : mid.locate q = .ok l)
    (hFree : mid.node? l ≠ some .directory) (hFiles : mid.KeepsFiles (mid.put l node))
    (hTouched : mid.Keeps (mid.put l node) → Touched p fs (mid.put l node) l) :
    Prepared p fs (mid.put l node) := by
  have hNode (other : Location) (hOther : other ≠ l) :
      (mid.put l node).node? other = mid.node? other := by
    rw [node?_put mid (ne_root hFree), if_neg hOther]
  have hKeeps : mid.Keeps (mid.put l node) := by
    refine ⟨rfl, fun other hOther => ?_⟩
    have hNe : other ≠ l := fun hEq => hFree (hEq ▸ hOther)
    rw [hNode other hNe, hOther]
  refine ⟨h.keeps.trans hKeeps, fun other content hContent => ?_, fun other => ?_, fun hTree => ?_⟩
  · obtain ⟨content', hLater⟩ := h.files other content hContent
    exact hFiles other content' hLater
  · by_cases hOther : other = l
    · rw [hOther]
      exact .inr (hTouched hKeeps)
    · rw [hNode other hOther]
      exact (h.frame other).imp id fun hBefore => hBefore.later hKeeps (hNode other hOther)
  · exact (h.tree hTree).put hFree ((h.tree hTree).locate_above hLocate hFree) node

theorem makeDirectory {directory e : Path} (h : Prepared p fs mid)
    (hDirectory : p.directory? = some directory) (hUnder : Path.Under e directory)
    (hMade : mid.makeDirectory e = .ok fs') : Prepared p fs fs' := by
  obtain ⟨l, hLocate, hNone, rfl⟩ := makeDirectory_eq_ok hMade
  have hFree : mid.node? l ≠ some .directory := by simp [hNone]
  refine h.put hLocate hFree (fun other content hContent => ⟨content, ?_⟩) fun hKeeps => ?_
  · have hOther : other ≠ l := by
      rintro rfl
      rw [hNone] at hContent
      cases hContent
    rw [node?_put mid (ne_root hFree), if_neg hOther, hContent]
  · refine .directory hDirectory hUnder (locate_of_keeps hKeeps hLocate) (h.node?_eq_none hNone) ?_
    rw [node?_put mid (ne_root hFree), if_pos rfl]

theorem writeFile {content : String} (h : Prepared p fs mid)
    (hWritten : mid.writeFile p.temporary content = .ok fs') : Prepared p fs fs' := by
  obtain ⟨l, hLocate, hFree, rfl⟩ := writeFile_eq_ok hWritten
  refine h.put hLocate hFree (fun other old hOld => ?_) fun hKeeps => ?_
  · rw [node?_put mid (ne_root hFree)]
    split
    · exact ⟨content, rfl⟩
    · exact ⟨old, hOld⟩
  · refine .temporary (locate_of_keeps hKeeps hLocate) (fun hBefore => ?_) ?_
    · exact hFree (h.keeps.directories l hBefore)
    · rw [node?_put mid (ne_root hFree), if_pos rfl]
      nofun

/-! ## The path of the store -/

/-- The store is not the temporary file, so its place is changed only if a directory is made there.
-/
theorem node?_of_locate {name : String} (h : Prepared p fs fs') (hName : p.fileName? = some name)
    (hLocate : fs'.locate p = .ok l) :
    fs'.node? l = fs.node? l ∨
      fs.node? l = none ∧ fs'.node? l = some .directory ∧
        ∃ directory e, p.directory? = some directory ∧ Path.Under e directory ∧
          fs'.locate e = .ok l := by
  rcases h.frame l with hSame | hTouched
  · exact .inl hSame
  · cases hTouched with
    | directory hDirectory hUnder hAbove hNone hMade =>
      exact .inr ⟨hNone, hMade, _, _, hDirectory, hUnder, hAbove⟩
    | temporary hTemporary _ _ => exact absurd rfl (locate_ne_of_temporary hName hLocate hTemporary)

end Prepared

/-- A path can be followed that could not be followed before, since a directory was missing on its
way. It climbs out of that directory, and there was something at its end, or a directory is made. -/
structure ReachedAnew (p : Path) (fs fs' : FileSystem) : Prop where
  missing : fs.locate p = .error .notFound
  climbs : fs.IsTree → ".." ∈ p.names
  found : ∃ l node, fs'.locate p = .ok l ∧ fs'.node? l = some node ∧
    (fs.node? l = some node ∨ fs.node? l = none ∧ node = .directory)

/-- What the path of the store holds is not changed, unless it could not be followed. -/
theorem Prepared.held?_eq_or {name : String} (h : Prepared p fs fs')
    (hName : p.fileName? = some name) :
    fs'.held? p = fs.held? p ∨ ReachedAnew p fs fs' := by
  cases hBefore : fs.locate p with
  | ok l =>
    have hAfter : fs'.locate p = .ok l := locate_of_keeps h.keeps hBefore
    rw [held?_of_locate hBefore, held?_of_locate hAfter]
    rcases h.node?_of_locate hName hAfter with hSame | ⟨hNone, -, _, _, hDirectory, hUnder, hAbove⟩
    · exact .inl (by rw [hSame])
    · -- The directories above were there, so none of them was made.
      rw [isDirectory_of_under hName hDirectory hUnder hBefore h.keeps hAbove] at hNone
      cases hNone
  | error e =>
    rw [held?_of_locate_error hBefore]
    by_cases hMissing : e = .notFound
    · rw [hMissing] at hBefore
      cases hAfter : fs'.locate p with
      | error e' => exact .inl (held?_of_locate_error hAfter)
      | ok l =>
        rw [held?_of_locate hAfter]
        cases hNode : fs'.node? l with
        | none => exact .inl rfl
        | some node =>
          have hPlace := h.node?_of_locate hName hAfter
          rw [hNode] at hPlace
          refine .inr ⟨hBefore, fun hTree => ?_, l, node, hAfter, hNode, ?_⟩
          · by_contra hClimb
            have hNone : fs.node? l = none :=
              node?_eq_none_of_missing hTree hClimb hBefore h.keeps.current hAfter
            rcases hPlace with hSame | ⟨-, -, _, _, hDirectory, hUnder, hAbove⟩
            · rw [hNone] at hSame
              cases hSame
            · exact locate_ne_of_under hName hDirectory hUnder hClimb hAfter hAbove rfl
          · rcases hPlace with hSame | ⟨hNone, hMade, -⟩
            · exact .inl hSame.symm
            · exact .inr ⟨hNone, Option.some.inj hMade⟩
    · have hText := Path.text_ne_of_fileName? hName
      have hAfter := locate_error_of_keeps h.keeps h.files hText hMissing hBefore
      exact .inl (held?_of_locate_error hAfter)

end FileSystem

end RecordStore.Storage
