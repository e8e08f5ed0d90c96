import SyntaxCatalog.Proofs.FileTree.Ways

/-! What a path names and what it leads to, while files come and go. A new file where nothing stood
takes no way elsewhere, and a path that names a file can be read there. -/
namespace SyntaxCatalog.FileTree

def names (p : Path) : List String := (p.cut.map String.ofList).filter (· ≠ "")

/- The last part of a path names `dir ++ [name]`, whether or not anything stands there. -/
structure Names (t : FileTree) (base : Location) (p : Path) (dir : Location) (name : String) : Prop where
  fits : refusal .invalidArgument p = none
  last : (names p).getLast? = some name
  way : Leads t mostLinks (origin base p) ((names p).dropLast ++ ["."]) dir
  named : name ≠ "." ∧ name ≠ ".."
  short : ¬longestName < name.utf8ByteSize
  unclosed : p.text.toList.getLast? ≠ some '/'

theorem targetNames {t : FileTree} {base loc : Location} {p : Path} (h : t.target base p = .ok loc) :
    ∃ dir name, Names t base p dir name ∧ loc = dir ++ [name] := by
  unfold target at h
  split at h
  · cases h
  · rename_i fits
    dsimp only at h
    split at h
    · cases h
    · rename_i name last
      split at h
      · cases h
      · rename_i dir walked
        split at h
        · cases h
        · rename_i named
          split at h
          · cases h
          · rename_i short
            split at h
            · cases h
            · rename_i unclosed
              cases h
              exact ⟨dir,name,⟨fits,last,walkLeads walked,not_or.1 named,short,by simpa using unclosed⟩,rfl⟩

theorem namesTarget {t : FileTree} {base dir : Location} {p : Path} {name : String} (h : Names t base p dir name) :
    t.target base p = .ok (dir ++ [name]) := by
  have last := h.last
  have walked := leadsWalk h.way
  have own := not_or.2 h.named
  have closed : (p.text.toList.getLast? == some '/') = false := by simpa using h.unclosed
  simp only [names] at last walked
  simp only [target,h.fits,last,walked,if_neg own,if_neg h.short,closed,Bool.false_eq_true,if_false]

theorem targetInside {t : FileTree} {base loc : Location} {p : Path} (h : t.target base p = .ok loc) : loc ≠ [] := by
  obtain ⟨dir,name,_,rfl⟩ := targetNames h
  simp

theorem targetSame {t other : FileTree} (same : SamePassages t other) {base loc : Location} {p : Path}
    (h : t.target base p = .ok loc) : other.target base p = .ok loc := by
  obtain ⟨dir,name,named,rfl⟩ := targetNames h
  have way := leadsSame same named.way (by simp)
  exact namesTarget ⟨named.fits,named.last,way,named.named,named.short,named.unclosed⟩

theorem passagesPut {t : FileTree} {loc : Location} (inside : loc ≠ []) {entry : FileEntry}
    (new : passage (some entry) = none) (old : passage (t.get? loc) = none) : SamePassages t (t.put loc entry) := by
  intro other
  by_cases here : other = loc
  · subst here
    rw [getPut t inside,new,old]
  · rw [getPutOther t entry here]

theorem passagesFresh {t : FileTree} {loc : Location} (inside : loc ≠ []) (nothing : t.get? loc = none)
    (contents : ByteArray) (mode : Nat) : SamePassages t (t.put loc (.file contents mode)) :=
  passagesPut inside rfl (by rw [nothing]; rfl)

theorem leadsPut {t : FileTree} {loc : Location} (nothing : t.get? loc = none) (entry : FileEntry) {n : Nat}
    {here found : Location} {parts : List String} (h : Leads t n here parts found) :
    Leads (t.put loc entry) n here parts found := by
  have kept : ∀ other there, t.get? other = some there → (t.put loc entry).get? other = some there := by
    intro other there stands
    have different : other ≠ loc := by
      intro same
      rw [same,nothing] at stands
      cases stands
    rwa [getPutOther t entry different]
  induction h with
  | here n loc => exact .here n loc
  | dot inside _ ih => exact .dot (kept _ _ inside) ih
  | up inside _ ih => exact .up (kept _ _ inside) ih
  | into inside named short stands plain _ ih => exact .into (kept _ _ inside) named short (kept _ _ stands) plain ih
  | link inside named short stands _ ih => exact .link (kept _ _ inside) named short (kept _ _ stands) ih

theorem putLeads {t : FileTree} {loc : Location} (inside : loc ≠ []) {contents : ByteArray} {mode n : Nat}
    {here found : Location} {parts : List String} (h : Leads (t.put loc (.file contents mode)) n here parts found) :
    Leads t n here parts found ∨ found = loc := by
  -- Whatever stands in the new tree but the file itself stood in the old one.
  have old : ∀ other there, (t.put loc (.file contents mode)).get? other = some there →
      other = loc ∧ there = .file contents mode ∨ t.get? other = some there := by
    intro other there stands
    by_cases same : other = loc
    · subst same
      rw [getPut t inside] at stands
      cases stands
      exact .inl ⟨rfl,rfl⟩
    · rw [getPutOther t _ same] at stands
      exact .inr stands
  have directory : ∀ other mode', (t.put loc (.file contents mode)).get? other = some (.directory mode') →
      t.get? other = some (.directory mode') := by
    intro other mode' stands
    rcases old other _ stands with ⟨_,isFile⟩ | stood
    · cases isFile
    · exact stood
  induction h with
  | here n loc => exact .inl (.here n loc)
  | dot here _ ih => exact ih.imp_left (.dot (directory _ _ here))
  | up here _ ih => exact ih.imp_left (.up (directory _ _ here))
  | @into n mode' here found part rest entry there named short stands plain others ih =>
      rcases old _ _ stands with ⟨same,isFile⟩ | stood
      · cases rest with
        | nil => cases others; exact .inr same
        | cons next rest =>
            obtain ⟨_,isDirectory⟩ := leadsInside others
            rw [stands,isFile] at isDirectory
            cases isDirectory
      · exact ih.imp_left (.into (directory _ _ there) named short stood plain)
  | link there named short stands _ ih =>
      rcases old _ _ stands with ⟨_,isFile⟩ | stood
      · cases isFile
      · exact ih.imp_left (.link (directory _ _ there) named short stood)

theorem locateLeads {t : FileTree} {base found : Location} {p : Path} :
    t.locate base p = .ok found ↔
      refusal .embeddedNul p = none ∧ Leads t mostLinks (origin base p) (parts p) found := by
  unfold locate
  cases refusal .embeddedNul p with
  | some e => simp
  | none => simpa using ⟨walkLeads,leadsWalk⟩

theorem directoryLeads {t : FileTree} {base found : Location} {dir : Path} :
    t.directoryAt base dir = .ok found ↔
      refusal .embeddedNul dir = none ∧ Leads t mostLinks (origin base dir) (parts dir ++ ["."]) found := by
  unfold directoryAt
  cases refusal .embeddedNul dir with
  | some e => simp
  | none => simpa using ⟨walkLeads,leadsWalk⟩

theorem createDirectory {t : FileTree} {base : Location} {dir : Path} {mode : Nat}
    {made : Location × FileTree} :
    t.create base dir mode = .ok made ↔ refusal .embeddedNul (temporaryPath base dir) = none ∧
      ∃ found, t.directoryAt base dir = .ok found ∧ made = (found ++ [t.freshName found],
        t.put (found ++ [t.freshName found]) (.file ByteArray.empty (t.masked mode))) := by
  unfold create
  cases refusal .embeddedNul (temporaryPath base dir) with
  | some e => simp
  | none =>
      cases t.directoryAt base dir with
      | error e => simp
      | ok found => simp [eq_comm]

theorem createSame {t other : FileTree} (same : SamePassages t other) {base : Location} {dir : Path}
    {mode : Nat} (h : ∃ made, t.create base dir mode = .ok made) : ∃ made, other.create base dir mode = .ok made := by
  obtain ⟨made,created⟩ := h
  obtain ⟨fits,found,there,_⟩ := createDirectory.1 created
  obtain ⟨known,way⟩ := directoryLeads.1 there
  have again := directoryLeads.2 ⟨known,leadsSame same way (by simp)⟩
  exact ⟨_,createDirectory.2 ⟨fits,found,again,rfl⟩⟩

theorem createLong {t : FileTree} {base : Location} {dir : Path} {mode : Nat} {made : Location × FileTree}
    (h : t.create base dir mode = .ok made) : ∃ found name, made.1 = found ++ [name] ∧ 16 < name.length := by
  obtain ⟨_,found,_,rfl⟩ := createDirectory.1 h
  exact ⟨found,t.freshName found,rfl,by rw [freshNameLength]; omega⟩

theorem createFree {t : FileTree} {base : Location} {dir : Path} {mode : Nat} {made : Location × FileTree}
    (h : t.create base dir mode = .ok made) :
    made.1 ≠ [] ∧ t.get? made.1 = none ∧ made.2 = t.put made.1 (.file ByteArray.empty (t.masked mode)) := by
  obtain ⟨_,found,_,rfl⟩ := createDirectory.1 h
  exact ⟨by simp,freshNameAbsent t found,rfl⟩

theorem renameMoves {t after : FileTree} {base file : Location} {p : Path} {entry : FileEntry}
    (there : t.get? file = some entry) (h : t.rename base file p = .ok after) :
    ∃ found, t.target base p = .ok found ∧ (∀ mode, t.get? found ≠ some (.directory mode)) ∧
      after = (t.erase file).put found entry := by
  unfold rename at h
  split at h
  · cases h
  · rename_i found target
    rw [there] at h
    split at h
    · cases h
    · cases h
    · rename_i stands plain
      cases stands
      cases h
      exact ⟨found,target,plain,rfl⟩

theorem modePutFresh {t : FileTree} {loc : Location} (inside : loc ≠ []) (nothing : t.get? loc = none)
    (contents : ByteArray) (new : Nat) (base : Location) (p : Path) :
    ((t.put loc (.file contents new)).modeOf base p).getD new = (t.modeOf base p).getD new := by
  cases before : t.locate base p with
  | ok found =>
      obtain ⟨fits,way⟩ := locateLeads.1 before
      have after := locateLeads.2 ⟨fits,leadsPut nothing (.file contents new) way⟩
      simp only [modeOf,before,after]
      by_cases same : found = loc
      · subst same
        rw [getPut t inside,nothing]
        rfl
      · rw [getPutOther t _ same]
  | error e =>
      cases after : (t.put loc (.file contents new)).locate base p with
      | error e => simp [modeOf,before,after]
      | ok found =>
          obtain ⟨fits,way⟩ := locateLeads.1 after
          rcases putLeads inside way with old | same
          · rw [locateLeads.2 ⟨fits,old⟩] at before
            cases before
          · subst same
            simp only [modeOf,before,after,getPut t inside]
            rfl

theorem lastPiece {separator : Char} {cs : List Char} (h : (Text.pieces separator cs).getLast? = some []) :
    cs = [] ∨ cs.getLast? = some separator := by
  induction cs with
  | nil => exact .inl rfl
  | cons c cs ih =>
      cases cutHere : Text.pieces separator cs with
      | nil => exact absurd cutHere (Text.piecesNonempty separator cs)
      | cons piece more =>
          simp only [Text.pieces,cutHere] at h
          split at h
          · rename_i same
            rw [List.getLast?_cons_cons,← cutHere] at h
            rcases ih h with rfl | closed
            · exact .inr (by rw [same]; rfl)
            · exact .inr (by rw [List.getLast?_cons,closed]; rfl)
          · cases more with
            | nil => cases h
            | cons next more =>
                rw [List.getLast?_cons_cons,← List.getLast?_cons_cons (a := piece),← cutHere] at h
                rcases ih h with rfl | closed
                · cases cutHere
                · exact .inr (by rw [List.getLast?_cons,closed]; rfl)

theorem partsSolid {p : Path} (last : p.cut.getLast? ≠ some []) : parts p = names p := by
  unfold parts
  dsimp only
  split
  · rename_i empty
    rw [List.getLast?_map,Option.map_eq_some_iff] at empty
    obtain ⟨piece,ends,nothing⟩ := empty
    have blank : piece = [] := by simpa using congrArg String.toList nothing
    rw [blank] at ends
    exact absurd ends last
  · rfl

theorem partsNames {p : Path} (some : p.text.toList ≠ []) (unclosed : p.text.toList.getLast? ≠ Option.some '/') :
    parts p = names p :=
  partsSolid (fun last => (lastPiece last).elim some unclosed)

theorem refusalLater {p : Path} {early late : FileFault} (h : refusal early p = none) : refusal late p = none := by
  unfold refusal at h ⊢
  split at h
  · cases h
  · rename_i fits
    rw [if_neg fits]
    exact h

theorem refusalText {p : Path} {nul : FileFault} (h : refusal nul p = none) : p.text.toList ≠ [] := by
  intro empty
  have blank : p.text = "" := by simpa using empty
  simp [refusal,blank] at h

theorem locateNamed {t : FileTree} {base loc : Location} {p : Path} {contents : ByteArray} {mode : Nat}
    (target : t.target base p = .ok loc) (there : t.get? loc = some (.file contents mode)) :
    t.locate base p = .ok loc := by
  obtain ⟨dir,name,named,rfl⟩ := targetNames target
  obtain ⟨_,inside⟩ := leadsDirectory named.way (by simp)
  have onward : ∀ m, Leads t m dir [name] (dir ++ [name]) :=
    fun m => .into inside named.named named.short there (fun _ isLink => by cases isLink) (.here m _)
  have way := leadsAppend named.way (by simp) onward
  have whole : (names p).dropLast ++ [name] = parts p := by
    obtain ⟨front,split⟩ := List.getLast?_eq_some_iff.1 named.last
    rw [partsNames (refusalText named.fits) named.unclosed,split,List.dropLast_concat]
  rw [List.dropLast_concat,whole] at way
  exact locateLeads.2 ⟨refusalLater named.fits,way⟩

theorem readNamed {t : FileTree} {base loc : Location} {p : Path} {contents : ByteArray} {mode : Nat}
    (target : t.target base p = .ok loc) (there : t.get? loc = some (.file contents mode)) :
    t.read base p = .ok contents := by
  simp only [read,locateNamed target there,there]

/- A file takes ways away and gives none, so what is named beside it was named before. -/
theorem putTarget {t : FileTree} {loc found base : Location} (inside : loc ≠ []) {contents : ByteArray} {mode : Nat}
    {p : Path} (h : (t.put loc (.file contents mode)).target base p = .ok found) : t.target base p = .ok found := by
  obtain ⟨dir,name,named,rfl⟩ := targetNames h
  rcases putLeads inside named.way with way | same
  · exact namesTarget ⟨named.fits,named.last,way,named.named,named.short,named.unclosed⟩
  · obtain ⟨_,directory⟩ := leadsDirectory named.way (by simp)
    rw [same,getPut t inside] at directory
    cases directory

theorem passagesErase (t : FileTree) {loc : Location} (inside : loc ≠ []) (contents : ByteArray) (mode : Nat) :
    SamePassages (t.erase loc) (t.put loc (.file contents mode)) := by
  intro other
  by_cases here : other = loc
  · subst here
    rw [getErase t inside,getPut t inside]
    rfl
  · rw [getEraseOther t here,getPutOther t _ here]

theorem locateNames {t : FileTree} {base dir found : Location} {p : Path} {name : String} {other : FileTree}
    (named : Names other base p dir name) (h : t.locate base p = .ok found) : ∃ dir, Names t base p dir name := by
  obtain ⟨_,way⟩ := locateLeads.1 h
  obtain ⟨front,split⟩ := List.getLast?_eq_some_iff.1 named.last
  rw [partsNames (refusalText named.fits) named.unclosed,split] at way
  obtain ⟨dir,way⟩ := leadsCut way named.named
  refine ⟨dir,named.fits,named.last,?_,named.named,named.short,named.unclosed⟩
  rwa [split,List.dropLast_concat]

/- A file that was just put where a path named is read there, unless the path leads through what the file
has taken the place of. -/
theorem readPut {t : FileTree} {base loc : Location} {p : Path} (target : t.target base p = .ok loc)
    (contents : ByteArray) (mode : Nat) :
    (t.put loc (.file contents mode)).read base p = .ok contents ↔ (t.erase loc).target base p = .ok loc := by
  obtain ⟨dir,name,named,rfl⟩ := targetNames target
  have inside : dir ++ [name] ≠ [] := by simp
  have same := passagesErase t inside contents mode
  constructor
  · intro read
    unfold FileTree.read at read
    split at read
    · cases read
    · rename_i found located
      obtain ⟨there,again⟩ := locateNames named located
      have here : there ++ [name] = dir ++ [name] :=
        Except.ok.inj ((putTarget inside (namesTarget again)).symm.trans target)
      have kept := targetSame same.symm (namesTarget again)
      rwa [here] at kept
  · intro kept
    exact readNamed (targetSame same kept) (getPut t inside _)

end SyntaxCatalog.FileTree
