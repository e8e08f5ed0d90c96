import SyntaxCatalog.Proofs.FileTree.Onward
import SyntaxCatalog.Proofs.Path.Directory

/-! The directory of a path holds what the path names. The directory is found just in case the parts before the last
name lead to one, and then this name is looked up there. -/
namespace SyntaxCatalog.FileTree
open SyntaxCatalog.Path

def namesOf (parts : List (List Char)) : List String := (parts.map String.ofList).filter (· ≠ "")

theorem namesOfAppend (front back : List (List Char)) : namesOf (front ++ back) = namesOf front ++ namesOf back := by
  simp [namesOf]

theorem namesOfFillers {fillers : List (List Char)} (all : ∀ part ∈ fillers, isFiller part = true) :
    ∀ name ∈ namesOf fillers, name = "." := by
  intro name member
  obtain ⟨listed,some⟩ := List.mem_filter.1 member
  obtain ⟨part,among,rfl⟩ := List.mem_map.1 listed
  have filler := all part among
  rw [isFiller,Bool.or_eq_true,beq_iff_eq,beq_iff_eq] at filler
  rcases filler with rfl | rfl
  · simp at some
  · rfl

theorem namesOfName {own : List Char} (solid : isFiller own = false) (behind : List (List Char)) :
    namesOf (own :: behind) = String.ofList own :: namesOf behind := by
  simp [namesOf,(solidOwn.1 solid).1]

theorem partsClosed {p : Path} (last : p.cut.getLast? = some []) : parts p = names p ++ ["."] := by
  have empty : (p.cut.map String.ofList).getLast? = some "" := by rw [List.getLast?_map,last]; rfl
  simp only [parts,empty]
  rfl

theorem refusalNone {p : Path} {nul : FileFault} : refusal nul p = none ↔
    '\x00' ∉ p.text.toList ∧ p.text ≠ "" ∧ p.text.utf8ByteSize ≤ longestPath := by
  unfold refusal
  split
  · simp_all
  · split
    · simp_all
    · split <;> simp_all

theorem refusalBegins {p d : Path} {nul late : FileFault} {more : List Char}
    (begins : p.text.toList = d.text.toList ++ more) (filled : d.text ≠ "") (fits : refusal nul p = none) :
    refusal late d = none := by
  obtain ⟨clean,_,short⟩ := refusalNone.1 fits
  have whole : p.text = d.text ++ String.ofList more := by
    rw [← String.toList_inj,String.toList_append,String.toList_ofList,begins]
  rw [whole,String.utf8ByteSize_append] at short
  rw [begins,List.mem_append,not_or] at clean
  exact refusalNone.2 ⟨clean.1,filled,by omega⟩

theorem absoluteCut {p : Path} : p.isAbsolute = true ↔ ∃ more, more ≠ [] ∧ p.cut = [] :: more := by
  rw [isAbsolute,cut,beq_iff_eq]
  cases p.text.toList with
  | nil => simp [Text.pieces]
  | cons c cs =>
      by_cases here : c = '/'
      · simp [Text.pieces,here,Text.piecesNonempty]
      · cases cutHere : Text.pieces '/' cs with
        | nil => exact absurd cutHere (Text.piecesNonempty '/' cs)
        | cons piece more => simp [Text.pieces,here,cutHere]

theorem closedCut {p : Path} (closed : p.text.toList.getLast? = some '/') : p.cut.getLast? = some [] := by
  obtain ⟨front,split⟩ := List.getLast?_eq_some_iff.1 closed
  rw [Path.cut,split,Text.piecesAppend]
  simp [Text.pieces]

section
variable {p : Path} {front behind : List (List Char)} {own : List Char} (h : p.Ends front own behind)
include h

theorem endsWhole : ∀ part ∈ front, '/' ∉ part := by
  intro part member
  refine Text.piecesInside p.text.toList part ?_
  have listed : part ∈ p.cut := by simp [h.cut,member]
  exact listed

theorem directoryFilled : p.directory.text ≠ "" := by
  have heads := directoryHeads h
  generalize p.directory = d at heads ⊢
  cases heads with
  | bare => decide
  | root => decide
  | kept _ _ filled last => simpa using glueFilled filled last

theorem keptCut {parts fillers : List (List Char)} (cut : front = parts ++ fillers) (filled : parts ≠ []) :
    (Path.mk (String.ofList (Text.glue '/' parts))).cut = parts := by
  rw [Path.cut,String.toList_ofList]
  exact Text.piecesGlue filled (fun part member => endsWhole h part (by simp [cut,member]))

theorem directoryParts : ∃ core dots others, (∀ part ∈ dots, part = ".") ∧ (∀ part ∈ others, part = ".") ∧
    namesOf front = core ++ dots ∧ parts p.directory = core ++ others := by
  have heads := directoryHeads h
  generalize p.directory = d at heads ⊢
  cases heads with
  | bare none =>
      subst none
      exact ⟨[],[],["."],by simp,by simp,rfl,by decide⟩
  | @root fillers cut all =>
      have empty : namesOf front = namesOf fillers := by rw [cut]; rfl
      exact ⟨[],namesOf fillers,["."],namesOfFillers all,by simp,empty,by decide⟩
  | @kept kept fillers cut all filled last =>
      have same := keptCut h cut filled
      have solid : parts (Path.mk (String.ofList (Text.glue '/' kept))) = namesOf kept := by
        rw [partsSolid (by rw [same]; exact last),names,same]
        rfl
      exact ⟨namesOf kept,namesOf fillers,[],namesOfFillers all,by simp,by rw [cut,namesOfAppend],by simp [solid]⟩

theorem directoryAbsolute : p.directory.isAbsolute = p.isAbsolute := by
  rw [Bool.eq_iff_iff,absoluteCut,absoluteCut,h.cut]
  have heads := directoryHeads h
  generalize p.directory = d at heads ⊢
  cases heads with
  | bare none =>
      have dot : (Path.mk ".").cut = [['.']] := by decide
      simp [dot,none,(solidOwn.1 h.solid).1]
  | root cut all =>
      have slash : (Path.mk "/").cut = [[],[]] := by decide
      simp [slash,cut]
  | @kept kept fillers cut all filled last =>
      rw [keptCut h cut filled,cut]
      cases kept with
      | nil => exact absurd rfl filled
      | cons head kept =>
          have more : head = [] → kept ≠ [] := by
            intro empty none
            rw [empty,none] at last
            exact last rfl
          simpa using more

theorem directoryOrigin (base : Location) : origin base p.directory = origin base p := by
  rw [origin,origin,directoryAbsolute h]

theorem directoryBegins : p.directory = ⟨"."⟩ ∨ p.directory = ⟨"/"⟩ ∨
    ∃ more, p.text.toList = p.directory.text.toList ++ '/' :: more := by
  have heads := directoryHeads h
  generalize p.directory = d at heads ⊢
  cases heads with
  | bare => exact .inl rfl
  | root => exact .inr (.inl rfl)
  | @kept kept fillers cut all filled last =>
      refine .inr (.inr ⟨Text.glue '/' (fillers ++ own :: behind),?_⟩)
      calc p.text.toList
          = Text.glue '/' p.cut := (Text.gluePieces '/' p.text.toList).symm
        _ = Text.glue '/' (kept ++ (fillers ++ own :: behind)) := by rw [h.cut,cut,List.append_assoc]
        _ = Text.glue '/' kept ++ '/' :: Text.glue '/' (fillers ++ own :: behind) := Text.glueAppend filled (by simp)
        _ = (String.ofList (Text.glue '/' kept)).toList ++ _ := by rw [String.toList_ofList]

theorem directoryFits {nul late : FileFault} (fits : refusal nul p = none) : refusal late p.directory = none := by
  have filled := directoryFilled h
  have ways := directoryBegins h
  generalize p.directory = d at filled ways ⊢
  rcases ways with bare | root | ⟨more,begins⟩
  · rw [bare]
    rfl
  · rw [root]
    rfl
  · exact refusalBegins begins filled fits

theorem directoryWalk (t : FileTree) (n : Nat) (base : Location) :
    walk t n (origin base p.directory) (parts p.directory ++ ["."]) = walk t n (origin base p) (namesOf front ++ ["."]) := by
  obtain ⟨core,dots,others,all,allToo,before,own⟩ := directoryParts h
  rw [directoryOrigin h,before,own,List.append_assoc,List.append_assoc,walkDots t n _ core all,walkDots t n _ core allToo]

theorem directoryFound {t : FileTree} {base : Location} {nul : FileFault} (fits : refusal nul p = none) :
    t.directoryAt base p.directory = walk t mostLinks (origin base p) (namesOf front ++ ["."]) := by
  rw [directoryAt,directoryFits h fits]
  exact directoryWalk h t mostLinks base

theorem endsNames : names p = namesOf front ++ String.ofList own :: namesOf behind := by
  rw [← namesOfName h.solid,← namesOfAppend,← h.cut]
  rfl

theorem endsBare : p.cut.getLast? = some own ↔ behind = [] := by
  rw [h.cut]
  rcases List.eq_nil_or_concat' behind with rfl | ⟨others,part,rfl⟩
  · simp
  · have filler := h.fillers part (by simp)
    have different : part ≠ own := by
      intro same
      rw [same,h.solid] at filler
      cases filler
    rw [← List.cons_append,← List.append_assoc,List.getLast?_concat]
    simp [different]

theorem endsParts : ∃ dots, (∀ part ∈ dots, part = ".") ∧ parts p = namesOf front ++ String.ofList own :: dots := by
  have only := namesOfFillers h.fillers
  by_cases closed : p.cut.getLast? = some []
  · refine ⟨namesOf behind ++ ["."],?_,by simp [partsClosed closed,endsNames h]⟩
    exact List.forall_mem_append.2 ⟨only,by simp⟩
  · exact ⟨namesOf behind,only,by rw [partsSolid closed,endsNames h]⟩

theorem locateHeld {t : FileTree} {base dir : Location} {dots : List String} (fits : refusal .embeddedNul p = none)
    (whole : parts p = namesOf front ++ String.ofList own :: dots) (found : t.directoryAt base p.directory = .ok dir) :
    ∃ left, left ≤ mostLinks ∧ t.locate base p = walk t left dir (String.ofList own :: dots) := by
  rw [directoryFound h fits] at found
  obtain ⟨used,few,onward⟩ := leadsThrough (walkLeads found)
  obtain ⟨left,many⟩ := Nat.exists_eq_add_of_le few
  refine ⟨left,by omega,?_⟩
  rw [locate,fits,whole,many]
  exact onward left _

theorem locateStuck {t : FileTree} {base : Location} {e : FileFault} (fits : refusal .embeddedNul p = none)
    (stuck : t.directoryAt base p.directory = .error e) : t.locate base p = .error e := by
  obtain ⟨dots,_,whole⟩ := endsParts h
  rw [directoryFound h fits] at stuck
  rw [locate,fits,whole]
  rcases walkStuck t mostLinks (origin base p) (namesOf front) (List.cons_ne_nil (String.ofList own) dots) with
    ⟨dir,there⟩ | same
  · cases stuck.symm.trans there
  · exact same.trans stuck

theorem targetBare {t : FileTree} {base dir : Location} {name : String} (named : Names t base p dir name) : behind = [] := by
  rcases List.eq_nil_or_concat' behind with none | ⟨others,part,rfl⟩
  · exact none
  · have filler := h.fillers part (by simp)
    have cut : p.cut = (front ++ own :: others) ++ [part] := by simp [h.cut]
    rw [isFiller,Bool.or_eq_true,beq_iff_eq,beq_iff_eq] at filler
    rcases filler with rfl | rfl
    · have closed : p.text.toList.getLast? = some '/' := by
        rcases lastPiece (by rw [← Path.cut,cut,List.getLast?_concat]) with empty | closed
        · exact absurd empty (refusalText named.fits)
        · exact closed
      exact absurd closed named.unclosed
    · have last := named.last
      rw [names,cut,List.map_append,List.filter_append] at last
      have dot : name = "." := by simpa using last.symm
      exact absurd dot named.named.1

theorem targetHeld {t : FileTree} {base dir loc : Location} (fits : refusal .embeddedNul p = none)
    (found : t.directoryAt base p.directory = .ok dir) : t.target base p = .ok loc ↔
      p.cut.getLast? = some own ∧ (String.ofList own).utf8ByteSize ≤ longestName ∧ loc = dir ++ [String.ofList own] := by
  rw [directoryFound h fits] at found
  have spelled := endsNames h
  rw [endsBare h]
  constructor
  · intro target
    obtain ⟨other,name,named,rfl⟩ := targetNames target
    have bare := targetBare h named
    subst bare
    have last := named.last
    have way := leadsWalk named.way
    have short := named.short
    rw [spelled] at last way
    simp only [namesOf,List.map_nil,List.filter_nil,List.getLast?_concat,List.dropLast_concat,Option.some.injEq] at last way
    subst last
    have same : other = dir := Except.ok.inj (way.symm.trans found)
    exact ⟨rfl,by omega,by rw [same]⟩
  · intro ⟨bare,short,here⟩
    subst bare here
    obtain ⟨filled,undotted⟩ := solidOwn.1 h.solid
    refine namesTarget ⟨refusalLater fits,?_,?_,⟨?_,?_⟩,by omega,?_⟩
    · simp [spelled,namesOf]
    · rw [spelled]
      simpa [namesOf] using walkLeads found
    · intro dot
      exact undotted (by simpa [← String.toList_inj] using dot)
    · intro up
      exact h.onward (by simpa [← String.toList_inj] using up)
    · intro closed
      have last := closedCut closed
      rw [h.cut,List.getLast?_concat,Option.some.injEq] at last
      exact filled last

end
end SyntaxCatalog.FileTree
