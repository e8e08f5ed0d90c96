import SyntaxCatalog.Proofs.FileTree.Naming

/-! Trees that differ in what their files contain, and in nothing else. Every path leads to the same place in
both and names the same there, or is refused for the same reason; and the same edit of both keeps them so. -/
namespace SyntaxCatalog.FileTree

/- The same entries stand in both trees, but the files may contain other bytes. -/
structure Alike (t other : FileTree) : Prop where
  mask : t.mask = other.mask
  entries : ∀ loc, t.get? loc = other.get? loc ∨
    ∃ old new mode, t.get? loc = some (.file old mode) ∧ other.get? loc = some (.file new mode)

section
variable {t other : FileTree} (alike : t.Alike other)
include alike

theorem alikeNone {loc : Location} (nothing : t.get? loc = none) : other.get? loc = none := by
  rcases alike.entries loc with same | ⟨_,_,_,there,_⟩
  · rw [← same,nothing]
  · cases nothing.symm.trans there

theorem alikeStands (loc : Location) : t.get? loc = none ↔ other.get? loc = none := by
  refine ⟨alikeNone alike,fun nothing => ?_⟩
  rcases alike.entries loc with same | ⟨_,_,_,_,there⟩
  · rw [same,nothing]
  · cases nothing.symm.trans there

theorem maskedAlike (mode : Nat) : t.masked mode = other.masked mode := by rw [masked,masked,alike.mask]

theorem stepsAlike {follow again : Location → List String → Except FileFault Location}
    (same : ∀ here parts, follow here parts = again here parts) (here : Location) (parts : List String) :
    steps t follow here parts = steps other again here parts := by
  induction parts generalizing here with
  | nil => rfl
  | cons part rest ih =>
      simp only [steps,ih,same]
      rcases alike.entries here with inside | ⟨_,_,_,one,two⟩
      · rw [inside]
        rcases alike.entries (here ++ [part]) with stands | ⟨_,_,_,one,two⟩
        · rw [stands]
        · simp only [one,two]
      · simp only [one,two]

theorem walkAlike (links : Nat) (here : Location) (parts : List String) :
    walk t links here parts = walk other links here parts := by
  induction links generalizing here parts with
  | zero => exact stepsAlike alike (fun _ _ => rfl) here parts
  | succ links ih => exact stepsAlike alike ih here parts

theorem locateAlike (base : Location) (p : Path) : t.locate base p = other.locate base p := by
  simp only [locate,walkAlike alike]

theorem directoryAlike (base : Location) (p : Path) : t.directoryAt base p = other.directoryAt base p := by
  simp only [directoryAt,walkAlike alike]

theorem targetAlike (base : Location) (p : Path) : t.target base p = other.target base p := by
  simp only [target,walkAlike alike]

theorem modeAlike (base : Location) (p : Path) : t.modeOf base p = other.modeOf base p := by
  simp only [modeOf,locateAlike alike]
  cases other.locate base p with
  | error e => rfl
  | ok found =>
      rcases alike.entries found with same | ⟨_,_,_,one,two⟩
      · simp only [same]
      · simp only [one,two]
        rfl

theorem readAlike {base : Location} {p : Path} (same : ∀ loc, t.locate base p = .ok loc → t.get? loc = other.get? loc) :
    t.read base p = other.read base p := by
  simp only [read,← locateAlike alike]
  cases located : t.locate base p with
  | error e => rfl
  | ok found => simp only [same found located]

end

theorem foldlMaxLe {lengths : List Nat} {start bound : Nat} (least : start ≤ bound) (each : ∀ n ∈ lengths, n ≤ bound) :
    lengths.foldl max start ≤ bound := by
  induction lengths generalizing start with
  | nil => exact least
  | cons length rest ih =>
      have head := each length List.mem_cons_self
      exact ih (Nat.max_le.2 ⟨least,head⟩) (fun n member => each n (List.mem_cons_of_mem _ member))

theorem foldlMaxSame {lengths others : List Nat} (same : ∀ n, n ∈ lengths ↔ n ∈ others) :
    lengths.foldl max 0 = others.foldl max 0 :=
  Nat.le_antisymm
    (foldlMaxLe (Nat.zero_le _) (fun n member => (leFoldlMax others 0).2 n ((same n).1 member)))
    (foldlMaxLe (Nat.zero_le _) (fun n member => (leFoldlMax lengths 0).2 n ((same n).2 member)))

def givenLengths (t : FileTree) (dir : Location) : List Nat :=
  t.entries.filterMap (fun entry => if entry.1.dropLast == dir then entry.1.getLast?.map String.length else none)

theorem lookupStands {t : FileTree} {loc : Location} (inside : loc ≠ []) :
    t.get? loc ≠ none ↔ ∃ entry ∈ t.entries, entry.1 = loc := by
  rw [getLookup t inside,← Option.isSome_iff_ne_none,List.lookup_isSome_iff]
  exact exists_congr (fun entry => and_congr_right (fun _ => beq_iff_eq.trans eq_comm))

theorem givenStands (t : FileTree) (dir : Location) (n : Nat) : n ∈ t.givenLengths dir ↔
    ∃ loc, t.get? loc ≠ none ∧ loc.dropLast = dir ∧ loc.getLast?.map String.length = some n := by
  rw [givenLengths,List.mem_filterMap]
  constructor
  · rintro ⟨entry,member,used⟩
    split at used
    · rename_i here
      have inside : entry.1 ≠ [] := by
        intro empty
        simp [empty] at used
      exact ⟨entry.1,(lookupStands inside).2 ⟨entry,member,rfl⟩,beq_iff_eq.1 here,used⟩
    · cases used
  · rintro ⟨loc,stands,here,used⟩
    have inside : loc ≠ [] := by
      rintro rfl
      cases used
    obtain ⟨entry,member,rfl⟩ := (lookupStands inside).1 stands
    exact ⟨entry,member,by rw [if_pos (beq_iff_eq.2 here),used]⟩

theorem freshNameAlike {t other : FileTree} (alike : t.Alike other) (dir : Location) :
    t.freshName dir = other.freshName dir := by
  have same : (t.givenLengths dir).foldl max 0 = (other.givenLengths dir).foldl max 0 := by
    refine foldlMaxSame (fun n => ?_)
    simp only [givenStands,Ne,alikeStands alike]
  unfold givenLengths at same
  rw [freshName,freshName,same]

/- One step in both trees. They stay alike, and where they were the same they stay the same. -/
structure Kept (t other after next : FileTree) : Prop where
  alike : after.Alike next
  same : ∀ loc, t.get? loc = other.get? loc → after.get? loc = next.get? loc

theorem Kept.trans {t other after next last final : FileTree} (first : Kept t other after next)
    (second : Kept after next last final) : Kept t other last final :=
  ⟨second.alike,fun loc same => second.same loc (first.same loc same)⟩

inductive Together (t other : FileTree) : Except FileFault FileTree → Except FileFault FileTree → Prop where
  | refused (e : FileFault) : Together t other (.error e) (.error e)
  | done {after next : FileTree} (kept : Kept t other after next) : Together t other (.ok after) (.ok next)

section
variable {t other : FileTree} (alike : t.Alike other)
include alike

theorem keptStill : Kept t other t other := ⟨alike,fun _ same => same⟩

theorem keptElsewhere {after next : FileTree} {loc : Location} (mask : after.mask = next.mask)
    (here : after.get? loc = next.get? loc)
    (one : ∀ place, place ≠ loc → after.get? place = t.get? place)
    (two : ∀ place, place ≠ loc → next.get? place = other.get? place) : Kept t other after next := by
  refine ⟨⟨mask,?_⟩,?_⟩
  · intro place
    by_cases edited : place = loc
    · exact .inl (edited ▸ here)
    · rw [one place edited,two place edited]
      exact alike.entries place
  · intro place same
    by_cases edited : place = loc
    · exact edited ▸ here
    · rw [one place edited,two place edited,same]

theorem rootAlike : t.get? [] = other.get? [] := by
  rcases alike.entries [] with same | ⟨_,_,_,file,_⟩
  · exact same
  · cases file

theorem keptPut (loc : Location) (entry : FileEntry) : Kept t other (t.put loc entry) (other.put loc entry) := by
  have mask : (t.put loc entry).mask = (other.put loc entry).mask := by rw [maskPut,maskPut,alike.mask]
  have here : (t.put loc entry).get? loc = (other.put loc entry).get? loc := by
    cases loc with
    | nil => rw [getPutRoot,getPutRoot,rootAlike alike]
    | cons name loc => rw [getPut t (by simp),getPut other (by simp)]
  exact keptElsewhere alike mask here (fun _ apart => getPutOther t entry apart) (fun _ apart => getPutOther other entry apart)

theorem keptErase (loc : Location) : Kept t other (t.erase loc) (other.erase loc) := by
  have here : (t.erase loc).get? loc = (other.erase loc).get? loc := by
    cases loc with
    | nil =>
        have root := rootAlike alike
        exact root
    | cons name loc => rw [getErase t (by simp),getErase other (by simp)]
  exact keptElsewhere alike alike.mask here (fun _ apart => getEraseOther t apart) (fun _ apart => getEraseOther other apart)

theorem createAlike (base : Location) (dir : Path) (mode : Nat) :
    (∃ e, t.create base dir mode = .error e ∧ other.create base dir mode = .error e) ∨
      ∃ file, t.create base dir mode = .ok (file,t.put file (.file ByteArray.empty (t.masked mode))) ∧
        other.create base dir mode = .ok (file,other.put file (.file ByteArray.empty (t.masked mode))) := by
  unfold create
  rw [← directoryAlike alike,← maskedAlike alike]
  cases refusal .embeddedNul (temporaryPath base dir) with
  | some e => exact .inl ⟨e,rfl,rfl⟩
  | none =>
      cases t.directoryAt base dir with
      | error e => exact .inl ⟨e,rfl,rfl⟩
      | ok found =>
          dsimp only
          rw [← freshNameAlike alike]
          exact .inr ⟨_,rfl,rfl⟩

variable {file : Location} (own : t.get? file = other.get? file)
include own

theorem setModeTogether (mode : Nat) : Together t other (t.setMode file mode) (other.setMode file mode) := by
  simp only [setMode,← own]
  split
  · exact .done (keptPut alike file _)
  · exact .done (keptPut alike file _)
  · exact .refused .notFound

theorem appendTogether (contents : ByteArray) :
    Together t other (t.append file contents) (other.append file contents) := by
  simp only [append,← own]
  split
  · exact .done (keptPut alike file _)
  · exact .refused .isADirectory
  · exact .refused .notFound

theorem renameTogether (base : Location) (p : Path) :
    Together t other (t.rename base file p) (other.rename base file p) := by
  simp only [rename,← own,← targetAlike alike]
  cases t.target base p with
  | error e => exact .refused e
  | ok found =>
      have moved : ∀ entry, Kept t other ((t.erase file).put found entry) ((other.erase file).put found entry) :=
        fun entry => (keptErase alike file).trans (keptPut (keptErase alike file).alike found entry)
      rcases alike.entries found with same | ⟨_,_,_,one,two⟩
      · simp only [← same]
        split
        · exact .refused .notFound
        · exact .refused .isADirectory
        · exact .done (moved _)
      · simp only [one,two]
        cases t.get? file with
        | none => exact .refused .notFound
        | some entry => exact .done (moved entry)

end
end SyntaxCatalog.FileTree
