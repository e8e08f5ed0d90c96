import SyntaxCatalog.Proofs.FileTree.Naming
import SyntaxCatalog.Proofs.Program.Runs

/-! Replacing a file. From its creation to its end the new file is all that sets the tree apart from the
old one, so it can be taken away again; once it is complete it takes the place that the path names. -/
namespace SyntaxCatalog
open FileTree Program

variable {deniable : Request.Deniable}

theorem comesCreate {base : Location} {t after : FileTree} {dir : Path} {mode : Nat} {answer : Except FileFault Location}
    (h : Request.Comes deniable base t (.create dir mode) answer after) :
    (∃ e, answer = .error e ∧ after = t) ∨
      ∃ file, file ≠ [] ∧ t.get? file = none ∧ answer = .ok file ∧
        after = t.put file (.file ByteArray.empty (t.masked mode)) := by
  cases h with
  | performed =>
      rw [Request.performCreate]
      cases made : t.create base dir mode with
      | error e => exact .inl ⟨e,rfl,rfl⟩
      | ok new =>
          obtain ⟨inside,free,left⟩ := createFree made
          exact .inr ⟨new.1,inside,free,rfl,left⟩
  | created there free => exact .inr ⟨_,by simp,free,rfl,rfl⟩
  | uncreated e => exact .inl ⟨e,rfl,rfl⟩

theorem comesModeOf {base : Location} {t after : FileTree} {path : Path} {answer : Option Nat}
    (h : Request.Comes deniable base t (.modeOf path) answer after) :
    (answer = t.modeOf base path ∨ deniable (.modeOf path) ∧ answer = none) ∧ after = t := by
  cases h with
  | performed => exact ⟨.inl rfl,rfl⟩
  | untold may => exact ⟨.inr ⟨may,rfl⟩,rfl⟩

section
variable {base file : Location} {t after : FileTree} {written : ByteArray} {mode : Nat} {answer : Except FileFault Unit}

theorem comesMoveFile {path : Path} (h : Request.Comes deniable base t (.rename file path) answer after) :
    (∃ e, answer = .error e ∧ after = t) ∨ answer = .ok () ∧ t.rename base file path = .ok after := by
  cases h with
  | performed =>
      rw [Request.performRename]
      cases t.rename base file path with
      | error e => exact .inl ⟨e,rfl,rfl⟩
      | ok after => exact .inr ⟨rfl,rfl⟩
  | unmoved e => exact .inl ⟨e,rfl,rfl⟩

theorem comesSetFile {new : Nat} (there : t.get? file = some (.file written mode))
    (h : Request.Comes deniable base t (.setMode file new) answer after) :
    (∃ e, answer = .error e ∧ after = t) ∨ answer = .ok () ∧ after = t.put file (.file written new) := by
  cases h with
  | performed =>
      rw [Request.performSetMode,setMode,there]
      exact .inr ⟨rfl,rfl⟩
  | unset e => exact .inl ⟨e,rfl,rfl⟩

theorem comesAppendFile {contents : ByteArray} (there : t.get? file = some (.file written mode))
    (h : Request.Comes deniable base t (.append file contents) answer after) :
    (∃ e, answer = .error e ∧ (after = t ∨ ∃ part, after = t.put file (.file part mode))) ∨
      answer = .ok () ∧ after = t.put file (.file (written ++ contents) mode) := by
  cases h with
  | performed =>
      rw [Request.performAppend,append,there]
      exact .inr ⟨rfl,rfl⟩
  | cutShort stands e =>
      cases there.symm.trans stands
      exact .inl ⟨e,rfl,.inr ⟨_,rfl⟩⟩
  | unwritten e => exact .inl ⟨e,rfl,.inl rfl⟩

end

structure Replaced (t : FileTree) (base : Location) (path : Path) (dir : Location) (name : String)
    (entry : FileEntry) (after : FileTree) : Prop where
  named : Names t base path dir name
  plain : ∀ mode, t.get? (dir ++ [name]) ≠ some (.directory mode)
  left : after = t.put (dir ++ [name]) entry

/- The mode of a file that takes the place of another: the one that the path led to, if it led anywhere and this
was told, and otherwise the mode of any new file. -/
def Lends (deniable : Request.Deniable) (base : Location) (t : FileTree) (path : Path) (mode : Nat) : Prop :=
  mode = (t.modeOf base path).getD (t.masked plainMode) ∨ deniable (.modeOf path) ∧ mode = t.masked plainMode

theorem lendsTold {base : Location} {t : FileTree} {path : Path} {mode : Nat} (told : ¬deniable (.modeOf path))
    (h : Lends deniable base t path mode) : mode = (t.modeOf base path).getD (t.masked plainMode) :=
  h.resolve_right (fun untold => told untold.1)

section
variable {base file : Location} {t after : FileTree} {path : Path} {written : ByteArray} {mode : Nat}
  {answer : Except FileFault Unit} (inside : file ≠ []) (nothing : t.get? file = none)
include inside nothing

theorem comesSetMode {new : Nat}
    (h : Request.Comes deniable base (t.put file (.file written mode)) (.setMode file new) answer after) :
    (∃ e, answer = .error e ∧ after = t.put file (.file written mode)) ∨
      answer = .ok () ∧ after = t.put file (.file written new) := by
  have set := comesSetFile (getPut t inside _) h
  rwa [putPut inside nothing] at set

theorem comesAppend {contents : ByteArray}
    (h : Request.Comes deniable base (t.put file (.file written mode)) (.append file contents) answer after) :
    (∃ e part, answer = .error e ∧ after = t.put file (.file part mode)) ∨
      answer = .ok () ∧ after = t.put file (.file (written ++ contents) mode) := by
  have again := fun part => putPut inside nothing (.file written mode) (.file part mode)
  rcases comesAppendFile (getPut t inside _) h with ⟨e,failed,same | ⟨part,left⟩⟩ | ⟨done,left⟩
  · exact .inl ⟨e,written,failed,same⟩
  · exact .inl ⟨e,part,failed,left.trans (again part)⟩
  · exact .inr ⟨done,left.trans (again _)⟩

theorem renameReplaced (h : (t.put file (.file written mode)).rename base file path = .ok after) :
    ∃ dir name, Replaced t base path dir name (.file written mode) after := by
  obtain ⟨found,target,plain,rfl⟩ := renameMoves (getPut t inside _) h
  have same := passagesFresh inside nothing written mode
  obtain ⟨dir,name,named,rfl⟩ := targetNames (targetSame same.symm target)
  rw [erasePut inside nothing]
  refine ⟨dir,name,named,?_,rfl⟩
  intro mode' directory
  obtain ⟨mode',directory⟩ := passageDirectory same directory
  exact plain mode' directory

theorem comesRename
    (h : Request.Comes deniable base (t.put file (.file written mode)) (.rename file path) answer after) :
    (∃ e, answer = .error e ∧ after = t.put file (.file written mode)) ∨
      answer = .ok () ∧ ∃ dir name, Replaced t base path dir name (.file written mode) after := by
  rcases comesMoveFile h with failed | ⟨done,moved⟩
  · exact .inl failed
  · exact .inr ⟨done,renameReplaced inside nothing moved⟩

theorem keepModeRuns {o : Outcome (Except FileFault Unit)}
    (h : (keepMode file path).Runs deniable base (t.put file (.file written (t.masked plainMode))) o) :
    ∃ mode, o.tree = t.put file (.file written mode) ∧ (o.value = .ok () → Lends deniable base t path mode) := by
  have kept := modePutFresh inside nothing written (t.masked plainMode) base path
  obtain ⟨first,second,asked,later,rfl⟩ := runsBind h
  obtain ⟨found,same⟩ := comesModeOf (runsRequest asked)
  rw [same] at later
  rcases found with found | ⟨may,untold⟩
  · rw [← found] at kept
    cases there : first.value with
    | none =>
        rw [there] at kept later
        cases later
        exact ⟨_,rfl,fun _ => .inl kept⟩
    | some mode =>
        rw [there] at kept later
        rcases comesSetMode inside nothing (runsRequest later) with ⟨e,failed,left⟩ | ⟨done,left⟩
        · exact ⟨_,left,fun ok => by rw [failed] at ok; cases ok⟩
        · exact ⟨mode,left,fun _ => .inl kept⟩
  · rw [untold] at later
    cases later
    exact ⟨_,rfl,fun _ => .inr ⟨may,rfl⟩⟩

theorem completeRuns {contents : ByteArray} {o : Outcome (Except FileFault Unit)}
    (h : (complete file path contents).Runs deniable base
      (t.put file (.file ByteArray.empty (t.masked plainMode))) o) :
    (∃ e part mode, o.value = .error e ∧ o.tree = t.put file (.file part mode)) ∨
      o.value = .ok () ∧ ∃ dir name mode, Lends deniable base t path mode ∧
        Replaced t base path dir name (.file contents mode) o.tree := by
  obtain ⟨kept,keeping,goes⟩ := runsAndThen h
  obtain ⟨mode,there,known⟩ := keepModeRuns inside nothing keeping
  rw [there] at goes
  cases ok : kept.value with
  | error e =>
      rw [ok] at goes
      exact .inl ⟨e,_,mode,goes⟩
  | ok =>
      rw [ok] at goes
      obtain ⟨later,filling,value,tree⟩ := goes
      rw [value,tree]
      obtain ⟨filled,filling,goes⟩ := runsAndThen filling
      rcases comesAppend inside nothing (runsRequest filling) with ⟨e,part,failed,left⟩ | ⟨done,left⟩
      · rw [failed,left] at goes
        exact .inl ⟨e,part,mode,goes⟩
      · rw [done,left] at goes
        obtain ⟨last,moving,value,tree⟩ := goes
        rw [value,tree]
        rcases comesRename inside nothing (runsRequest moving) with ⟨e,failed,left⟩ | ⟨done,dir,name,replaced⟩
        · exact .inl ⟨e,_,mode,failed,left⟩
        · rw [ByteArray.empty_append] at replaced
          exact .inr ⟨done,dir,name,mode,known ok,replaced⟩

end

section
variable {base : Location} {t : FileTree} {path : Path} {contents : ByteArray}

theorem discardRuns {file : Location} {after : FileTree} {answer : Unit}
    (h : Request.Comes deniable base t (.discard file) answer after) : after = t.erase file := by
  cases h
  rfl

theorem replaceFileRuns {o : Outcome (Except FileFault Unit)} (h : (replaceFile path contents).Runs deniable base t o) :
    (∃ e, o.value = .error e ∧ o.tree = t) ∨
      o.value = .ok () ∧ ∃ dir name mode, Lends deniable base t path mode ∧
        Replaced t base path dir name (.file contents mode) o.tree := by
  obtain ⟨made,making,goes⟩ := runsAndThen h
  rcases comesCreate (runsRequest making) with ⟨e,failed,left⟩ | ⟨file,inside,nothing,done,left⟩
  · rw [failed,left] at goes
    exact .inl ⟨e,goes⟩
  · rw [done,left] at goes
    obtain ⟨rest,goes,value,tree⟩ := goes
    rw [value,tree]
    obtain ⟨completed,last,completing,closing,rfl⟩ := runsBind goes
    rcases completeRuns inside nothing completing with ⟨e,part,mode,failed,left⟩ | ⟨done,there⟩
    · rw [failed,left] at closing
      obtain ⟨discarded,_,discarding,ending,rfl⟩ := runsBind closing
      cases ending
      have gone := discardRuns (runsRequest discarding)
      rw [erasePut inside nothing] at gone
      exact .inl ⟨e,rfl,gone⟩
    · rw [done] at closing
      cases closing
      exact .inr ⟨rfl,there⟩

theorem writeFileRuns {o : Outcome (Except Fault Unit)} (h : (writeFile path contents).Runs deniable base t o) :
    (∃ e, o.value = .error (.fileAccess path .write e) ∧ o.tree = t) ∨
      o.value = .ok () ∧ ∃ dir name mode, Lends deniable base t path mode ∧
        Replaced t base path dir name (.file contents mode) o.tree := by
  obtain ⟨told,rest,telling,goes,rfl⟩ := runsBind h
  rw [runsReport telling] at goes
  obtain ⟨replaced,last,replacing,closing,rfl⟩ := runsBind goes
  rcases replaceFileRuns replacing with ⟨e,failed,left⟩ | ⟨done,there⟩
  · rw [failed] at closing
    cases closing
    exact .inl ⟨e,rfl,left⟩
  · rw [done] at closing
    cases closing
    exact .inr ⟨rfl,there⟩

theorem writeFileDone {o : Outcome (Except Fault Unit)} (h : (writeFile path contents).Runs deniable base t o)
    (done : o.value = .ok ()) : ∃ dir name mode, Lends deniable base t path mode ∧
      Replaced t base path dir name (.file contents mode) o.tree := by
  rcases writeFileRuns h with ⟨e,failed,_⟩ | ⟨_,replaced⟩
  · rw [failed] at done
    cases done
  · exact replaced

theorem replacedGet {after : FileTree} {dir : Location} {name : String} {entry : FileEntry}
    (h : Replaced t base path dir name entry after) (other : Location) :
    after.get? other = if other = dir ++ [name] then some entry else t.get? other := by
  rw [h.left]
  split
  · rename_i here
    rw [here,getPut t (by simp)]
  · rename_i elsewhere
    rw [getPutOther t entry elsewhere]

/- A write that fails leaves the tree as it was. One that does not fail changes a single location, by a rename: a link
there is replaced itself, and what it led to stands as before. The new file has the mode of what the path led to, if
there was any; on a system that may deny this mode it may also be that of any new file. -/
theorem writeFileAllOrNothing {o : Outcome (Except Fault Unit)} (h : (writeFile path contents).Runs deniable base t o) :
    match o.value with
    | .error fault => (∃ cause, fault = .fileAccess path .write cause) ∧ o.tree = t
    | .ok () => ∃ dir name mode, let new := .file contents mode
        (mode = (t.modeOf base path).getD (t.masked 0o666) ∨ deniable (.modeOf path) ∧ mode = t.masked 0o666) ∧
        Replaced t base path dir name new o.tree ∧
        (∀ other, o.tree.get? other = if other = dir ++ [name] then some new else t.get? other) ∧
        ∀ target, t.get? (dir ++ [name]) = some (.link target) →
          ∀ old there, t.locate base path = .ok old → t.get? old = some there → (∀ next, there ≠ .link next) →
            o.tree.get? old = some there := by
  rcases writeFileRuns h with ⟨e,failed,left⟩ | ⟨done,dir,name,mode,lends,replaced⟩
  · rw [failed]
    exact ⟨⟨e,rfl⟩,left⟩
  · rw [done]
    have changed := replacedGet replaced
    refine ⟨dir,name,mode,lends,replaced,changed,?_⟩
    intro target linked old there _ stands plain
    have elsewhere : old ≠ dir ++ [name] := by
      intro same
      rw [same,linked] at stands
      cases stands
      exact plain target rfl
    rw [changed,if_neg elsewhere,stands]

end

def linkedTree : FileTree := ⟨[(["real"],.file "old".toUTF8 0o640),(["out"],.link ⟨"real"⟩)],0o077,0o755⟩

theorem linkReplaced :
    let o := (writeFile ⟨"out"⟩ "new".toUTF8).run [] linkedTree
    let fresh := (writeFile ⟨"fresh"⟩ "new".toUTF8).run [] linkedTree
    o.value = .ok () ∧ o.tree.get? ["out"] = some (.file "new".toUTF8 0o640) ∧
      o.tree.get? ["real"] = some (.file "old".toUTF8 0o640) ∧
      fresh.value = .ok () ∧ fresh.tree.get? ["fresh"] = some (.file "new".toUTF8 0o600) := by
  have done : ((writeFile ⟨"out"⟩ "new".toUTF8).run [] linkedTree).value = .ok () := rfl
  have made : ((writeFile ⟨"fresh"⟩ "new".toUTF8).run [] linkedTree).value = .ok () := rfl
  have one := writeFileAllOrNothing (runsRun .none [] (writeFile ⟨"out"⟩ "new".toUTF8) linkedTree)
  have two := writeFileAllOrNothing (runsRun .none [] (writeFile ⟨"fresh"⟩ "new".toUTF8) linkedTree)
  rw [done] at one
  rw [made] at two
  obtain ⟨dir,name,mode,kept | ⟨never,_⟩,replaced,changed,_⟩ := one
  · obtain ⟨dir',name',mode',plain | ⟨never,_⟩,replaced',changed',_⟩ := two
    · have target : linkedTree.target [] ⟨"out"⟩ = .ok ["out"] := rfl
      have target' : linkedTree.target [] ⟨"fresh"⟩ = .ok ["fresh"] := rfl
      have here : dir ++ [name] = ["out"] := Except.ok.inj ((namesTarget replaced.named).symm.trans target)
      have here' : dir' ++ [name'] = ["fresh"] := Except.ok.inj ((namesTarget replaced'.named).symm.trans target')
      rw [here,kept] at changed
      rw [here',plain] at changed'
      exact ⟨done,changed ["out"],changed ["real"],made,changed' ["fresh"]⟩
    · exact never.elim
  · exact never.elim

end SyntaxCatalog
