import SyntaxCatalog.Proofs.Generation.Outputs

/-! A write when nothing but the tree decides. What it does is a function of the tree: a new file is filled and then
moved. It succeeds where a directory takes the new file and the path names an entry of its own, other than a
directory; then the whole run is known. -/
namespace SyntaxCatalog
open FileTree Program

def FileTree.replace (t : FileTree) (base : Location) (path : Path) (contents : ByteArray) : Except FileFault FileTree :=
  match t.create base path.directory plainMode with
  | .error e => .error e
  | .ok made =>
      (t.put made.1 (.file contents ((t.modeOf base path).getD (t.masked plainMode)))).rename base made.1 path

structure FileTree.Offers (t : FileTree) (base : Location) (path : Path) (loc : Location) : Prop where
  room : ∃ made, t.create base path.directory plainMode = .ok made
  target : t.target base path = .ok loc
  plain : ∀ mode, t.get? loc ≠ some (.directory mode)

section
variable {base file loc : Location} {t after : FileTree} {path : Path} {contents written : ByteArray} {mode : Nat}
  {cause : FileFault}

theorem setModePut (inside : file ≠ []) (nothing : t.get? file = none) (new : Nat) :
    (t.put file (.file written mode)).setMode file new = .ok (t.put file (.file written new)) := by
  rw [setMode,getPut t inside]
  simp only [putPut inside nothing]

theorem appendPut (inside : file ≠ []) (nothing : t.get? file = none) :
    (t.put file (.file written mode)).append file contents = .ok (t.put file (.file (written ++ contents) mode)) := by
  rw [append,getPut t inside]
  simp only [putPut inside nothing]

theorem renamePut (inside : file ≠ []) (nothing : t.get? file = none) (target : t.target base path = .ok loc)
    (plain : ∀ mode, t.get? loc ≠ some (.directory mode)) :
    (t.put file (.file written mode)).rename base file path = .ok (t.put loc (.file written mode)) := by
  have same := passagesFresh inside nothing written mode
  have other : ∀ found, (t.put file (.file written mode)).get? loc ≠ some (.directory found) := by
    intro found directory
    obtain ⟨_,stood⟩ := passageDirectory same.symm directory
    exact plain _ stood
  rw [rename,targetSame same target]
  simp only [getPut t inside]
  rw [erasePut inside nothing]

theorem keepModeRun (inside : file ≠ []) (nothing : t.get? file = none) :
    (keepMode file path).run base (t.put file (.file written (t.masked plainMode))) =
      ⟨.ok (),[],t.put file (.file written ((t.modeOf base path).getD (t.masked plainMode)))⟩ := by
  rw [← modePutFresh inside nothing written,keepMode,runBind,runModeOf]
  cases (t.put file (.file written (t.masked plainMode))).modeOf base path with
  | none => rfl
  | some mode =>
      have set : (t.put file (.file written (t.masked plainMode))).setMode file mode = .ok (t.put file (.file written mode)) :=
        setModePut inside nothing mode
      simp only [runSetMode base _ set]
      rfl

theorem completeFilled (inside : file ≠ []) (nothing : t.get? file = none) {result : Except FileFault Unit}
    (renamed : @run (Except FileFault Unit) base (request (.rename file path))
      (t.put file (.file contents ((t.modeOf base path).getD (t.masked plainMode)))) = ⟨result,[],after⟩) :
    (complete file path contents).run base (t.put file (.file ByteArray.empty (t.masked plainMode))) = ⟨result,[],after⟩ := by
  refine runOnward (keepModeRun inside nothing) ?_
  generalize (t.modeOf base path).getD (t.masked plainMode) = mode at renamed ⊢
  have filled : (t.put file (.file ByteArray.empty mode)).append file contents =
      .ok (t.put file (.file (ByteArray.empty ++ contents) mode)) := appendPut inside nothing
  rw [ByteArray.empty_append] at filled
  exact runOnward (runAppend base _ filled) renamed

theorem replaceFileRun : (replaceFile path contents).run base t =
    ⟨(t.after (t.replace base path contents)).1,[],(t.after (t.replace base path contents)).2⟩ := by
  unfold replace
  cases created : t.create base path.directory plainMode with
  | error e => exact runFailed (runUncreated base t created)
  | ok made =>
      obtain ⟨inside,free,left⟩ := createFree created
      refine runOnward (runCreate base t created) ?_
      rw [left,runBind]
      dsimp only
      cases moved :
          (t.put made.1 (.file contents ((t.modeOf base path).getD (t.masked plainMode)))).rename base made.1 path with
      | ok after =>
          rw [completeFilled inside free (runRename base _ moved)]
          rfl
      | error e =>
          have gone := erasePut inside free (.file contents ((t.modeOf base path).getD (t.masked plainMode)))
          rw [completeFilled inside free (runUnmoved base _ moved)]
          show (⟨_,[],FileTree.erase _ made.1⟩ : Outcome (Except FileFault Unit)) = _
          rw [gone]
          rfl

theorem writeFileReplace : (writeFile path contents).run base t =
    ⟨(t.after (t.replace base path contents)).1.mapError (.fileAccess path .write),[.writing contents.size path],
      (t.after (t.replace base path contents)).2⟩ := by
  rw [writeFile,runBind,runReport]
  simp only [runBind,replaceFileRun]
  cases t.replace base path contents <;> rfl

theorem writeFileReplaced (one : t.replace base path contents = .ok after) :
    (writeFile path contents).run base t = ⟨.ok (),[.writing contents.size path],after⟩ := by
  rw [writeFileReplace,one]
  rfl

theorem writeFileRefused (one : t.replace base path contents = .error cause) :
    (writeFile path contents).run base t = ⟨.error (.fileAccess path .write cause),[.writing contents.size path],t⟩ := by
  rw [writeFileReplace,one]
  rfl

theorem writeFileRun (offers : t.Offers base path loc) : (writeFile path contents).run base t =
    ⟨.ok (),[.writing contents.size path],t.put loc (.file contents ((t.modeOf base path).getD (t.masked plainMode)))⟩ := by
  obtain ⟨made,created⟩ := offers.room
  obtain ⟨inside,free,_⟩ := createFree created
  refine writeFileReplaced ?_
  unfold replace
  rw [created]
  exact renamePut inside free offers.target offers.plain

theorem writeFileOffers (done : ((writeFile path contents).run base t).value = .ok ()) : ∃ loc, t.Offers base path loc := by
  obtain ⟨dir,name,_,_,replaced⟩ := writeFileDone (runsRun .none base _ t) done
  refine ⟨dir ++ [name],?_,namesTarget replaced.named,replaced.plain⟩
  cases created : t.create base path.directory plainMode with
  | ok made => exact ⟨made,rfl⟩
  | error e =>
      have refused : t.replace base path contents = .error e := by
        unfold replace
        rw [created]
      rw [writeFileRefused refused] at done
      cases done

end
end SyntaxCatalog
