import SyntaxCatalog.Proofs.FileTree.Holding

/-! Paths joined to the path of a directory. They lead to and name what they do from the directory itself, as long as
one lookup may be so long and follow so many links. -/
namespace SyntaxCatalog.FileTree
open SyntaxCatalog.Path

/- An answer that is the one to compare with, unless the lookup was over a limit. -/
def UpToLimits {α : Type} (answer own : Except FileFault α) (loops long : Prop) : Prop :=
  answer = own ∨ answer = .error .linkLoop ∧ loops ∨ answer = .error .nameTooLong ∧ long

theorem UpToLimits.found {α : Type} {answer own : Except FileFault α} {loops long : Prop} {a : α}
    (h : UpToLimits answer own loops long) (ok : answer = .ok a) : own = .ok a := by
  rcases h with same | ⟨looped,_⟩ | ⟨refused,_⟩
  · exact same.symm.trans ok
  · cases looped.symm.trans ok
  · cases refused.symm.trans ok

theorem walkBehind {t : FileTree} {n used : Nat} {here dir : Location} {front : List String}
    (way : walk t used here (front ++ ["."]) = .ok dir) (few : used ≤ n) (rest : List String) :
    walk t n here (front ++ rest) = walk t n dir rest ∨
      walk t n here (front ++ rest) = .error .linkLoop ∧ walk t (n - used) dir rest = .error .linkLoop := by
  obtain ⟨least,fewer,onward⟩ := leadsThrough (walkLeads way)
  obtain ⟨left,rfl⟩ := Nat.exists_eq_add_of_le (Nat.le_trans fewer few)
  rw [onward]
  -- The way may take fewer links than were allowed for it, so the rest has at least what these leave.
  rcases walkFewer (Nat.le_add_left left least) dir rest with loops | same
  · refine .inr ⟨loops,?_⟩
    have still : least + left - used ≤ left := by omega
    rcases walkFewer still dir rest with beyond | again
    · exact beyond
    · exact again.trans loops
  · exact .inl same

theorem walkNames (t : FileTree) (n : Nat) (here : Location) (d : Path) :
    walk t n here (parts d ++ ["."]) = walk t n here (names d ++ ["."]) := by
  by_cases closed : d.cut.getLast? = some []
  · rw [partsClosed closed,List.append_assoc]
    exact walkDots t n here (names d) (by simp)
  · rw [partsSolid closed]

section
variable {d r : Path} (relative : r.isAbsolute = false) (filled : d.text ≠ "")
include relative filled

theorem joinText : ∃ lead, (d.join r).text.toList = lead ++ '/' :: r.text.toList ∧
    (d.text.toList = lead ∨ d.text.toList = lead ++ ['/']) := by
  have inside : d.text.isEmpty = false := by simpa using filled
  unfold join
  rw [relative,inside,Bool.false_or,if_neg Bool.false_ne_true]
  split
  · rename_i closed
    obtain ⟨lead,split⟩ := List.getLast?_eq_some_iff.1 (beq_iff_eq.1 closed)
    exact ⟨lead,by simp [split],.inr split⟩
  · exact ⟨d.text.toList,by simp,.inl rfl⟩

theorem joinCut : ∃ lead, (d.join r).cut = lead ++ r.cut ∧ names d = namesOf lead := by
  obtain ⟨lead,joined,own | own⟩ := joinText relative filled
  · refine ⟨d.cut,?_,rfl⟩
    rw [Path.cut,joined,Text.piecesAppend,Path.cut,own]
    rfl
  · refine ⟨Text.pieces '/' lead,?_,?_⟩
    · rw [Path.cut,joined,Text.piecesAppend]
      rfl
    · rw [names,Path.cut,own,Text.piecesAppend]
      simp [Text.pieces,namesOf]

theorem joinNames : names (d.join r) = names d ++ names r := by
  obtain ⟨lead,cut,own⟩ := joinCut relative filled
  rw [own,names,cut]
  exact namesOfAppend lead r.cut

theorem joinParts : parts (d.join r) = names d ++ parts r := by
  obtain ⟨lead,cut,_⟩ := joinCut relative filled
  have some : r.cut ≠ [] := Text.piecesNonempty '/' r.text.toList
  have last : (d.join r).cut.getLast? = r.cut.getLast? := by
    rw [cut,List.getLast?_append_of_ne_nil lead some]
  by_cases closed : r.cut.getLast? = Option.some []
  · rw [partsClosed closed,partsClosed (last.trans closed),joinNames relative filled,List.append_assoc]
  · rw [partsSolid closed,partsSolid (by rw [last]; exact closed),joinNames relative filled]

theorem joinAbsolute : (d.join r).isAbsolute = d.isAbsolute := by
  obtain ⟨lead,joined,own⟩ := joinText relative filled
  rw [isAbsolute,isAbsolute,joined]
  cases lead with
  | nil =>
      rcases own with empty | slash
      · exact absurd (String.toList_eq_nil_iff.1 empty) filled
      · rw [slash]
        rfl
  | cons c lead =>
      rcases own with same | closed
      · rw [same]
        rfl
      · rw [closed]
        rfl

theorem joinOrigin (base : Location) : origin base (d.join r) = origin base d := by
  rw [origin,origin,joinAbsolute relative filled]

theorem joinLonger : r.text.utf8ByteSize < (d.join r).text.utf8ByteSize := by
  obtain ⟨lead,joined,_⟩ := joinText relative filled
  have whole : (d.join r).text = String.ofList lead ++ "/" ++ r.text := by
    rw [← String.toList_inj,String.toList_append,String.toList_append,String.toList_ofList,joined]
    simp
  have slash : "/".utf8ByteSize = 1 := by decide
  rw [whole,String.utf8ByteSize_append,String.utf8ByteSize_append,slash]
  omega

theorem joinRefused (clean : '\x00' ∉ d.text.toList) (some : r.text ≠ "") (nul : FileFault) :
    refusal nul (d.join r) = refusal nul r ∨
      refusal nul (d.join r) = Option.some .nameTooLong ∧ longestPath < (d.join r).text.utf8ByteSize := by
  obtain ⟨lead,joined,own⟩ := joinText relative filled
  have before : '\x00' ∉ lead := by
    rcases own with same | closed
    · rwa [← same]
    · rw [closed,List.mem_append,not_or] at clean
      exact clean.1
  have marks : '\x00' ∈ (d.join r).text.toList ↔ '\x00' ∈ r.text.toList := by
    simp [joined,before]
  have longer : r.text.utf8ByteSize < (d.join r).text.utf8ByteSize := joinLonger relative filled
  have nonempty : (d.join r).text ≠ "" := by
    intro empty
    rw [empty] at joined
    simp at joined
  by_cases nulled : '\x00' ∈ r.text.toList
  · simp [refusal,marks,nulled]
  · by_cases long : longestPath < (d.join r).text.utf8ByteSize
    · refine .inr ⟨?_,long⟩
      simp [refusal,marks,nulled,nonempty,long]
    · have fits : refusal nul (d.join r) = none := refusalNone.2 ⟨by rwa [marks],nonempty,by omega⟩
      have own : refusal nul r = none := refusalNone.2 ⟨nulled,some,by omega⟩
      exact .inl (fits.trans own.symm)

end

theorem namesSome {r : Path} (relative : r.isAbsolute = false) (some : r.text ≠ "") : names r ≠ [] := by
  cases text : r.text.toList with
  | nil => exact absurd (String.toList_eq_nil_iff.1 text) some
  | cons c cs =>
      have solid : c ≠ '/' := by simpa [isAbsolute,text] using relative
      cases cutHere : Text.pieces '/' cs with
      | nil => exact absurd cutHere (Text.piecesNonempty '/' cs)
      | cons piece more => simp [names,Path.cut,text,Text.pieces,solid,cutHere]

def named (last : Option String) (way : Except FileFault Location) (closed : Bool) : Except FileFault Location :=
  match last with
  | none => .error .busy
  | some name =>
      match way with
      | .error e => .error e
      | .ok dir =>
          if name = "." ∨ name = ".." then .error .busy
          else if longestName < name.utf8ByteSize then .error .nameTooLong
          else if closed then .error .notADirectory
          else .ok (dir ++ [name])

theorem targetNamed {t : FileTree} {base : Location} {p : Path} (fits : refusal .invalidArgument p = none) :
    t.target base p = named (names p).getLast? (walk t mostLinks (origin base p) ((names p).dropLast ++ ["."]))
      (p.text.toList.getLast? == some '/') := by
  rw [target,fits]
  rfl

theorem targetRefused {t : FileTree} {base : Location} {p : Path} {e : FileFault}
    (refused : refusal .invalidArgument p = some e) : t.target base p = .error e := by
  rw [target,refused]

theorem directoryText {t : FileTree} {base dir : Location} {d : Path} (found : t.directoryAt base d = .ok dir) :
    '\x00' ∉ d.text.toList ∧ d.text ≠ "" := by
  obtain ⟨fits,_⟩ := directoryLeads.1 found
  obtain ⟨clean,filled,_⟩ := refusalNone.1 fits
  exact ⟨clean,filled⟩

section
variable {t : FileTree} {base dir : Location} {d : Path} {used : Nat} (found : t.directoryAt base d = .ok dir)
  (few : used ≤ mostLinks) (way : walk t used (origin base d) (parts d ++ ["."]) = .ok dir)
  {r : Path} (relative : r.isAbsolute = false)
include found few way relative

theorem locateJoined (some : r.text ≠ "") : UpToLimits (t.locate base (d.join r)) (t.locate dir r)
    (walk t (mostLinks - used) dir (parts r) = .error .linkLoop) (longestPath < (d.join r).text.utf8ByteSize) := by
  obtain ⟨clean,filled⟩ := directoryText found
  have here : origin dir r = dir := by rw [origin,relative]; rfl
  rw [walkNames] at way
  rcases joinRefused relative filled clean some .embeddedNul with same | ⟨refused,long⟩
  · rw [locate,locate,same,joinParts relative filled,joinOrigin relative filled,here]
    cases refusal .embeddedNul r with
    | some e => exact .inl rfl
    | none => exact (walkBehind way few (parts r)).imp_right .inl
  · exact .inr (.inr ⟨by rw [locate,refused],long⟩)

theorem targetJoined (some : r.text ≠ "") : UpToLimits (t.target base (d.join r)) (t.target dir r)
    (walk t (mostLinks - used) dir ((names r).dropLast ++ ["."]) = .error .linkLoop)
    (longestPath < (d.join r).text.utf8ByteSize) := by
  obtain ⟨clean,filled⟩ := directoryText found
  have here : origin dir r = dir := by rw [origin,relative]; rfl
  have own : names r ≠ [] := namesSome relative some
  have all := joinNames relative filled
  have last : (names (d.join r)).getLast? = (names r).getLast? := by
    rw [all,List.getLast?_append_of_ne_nil _ own]
  have before : (names (d.join r)).dropLast = names d ++ (names r).dropLast := by
    rw [all,List.dropLast_append_of_ne_nil own]
  have closed : (d.join r).text.toList.getLast? = r.text.toList.getLast? := by
    obtain ⟨lead,joined,_⟩ := joinText relative filled
    have inside : r.text.toList ≠ [] := fun empty => some (String.toList_eq_nil_iff.1 empty)
    rw [joined,List.getLast?_append_of_ne_nil _ (List.cons_ne_nil _ _),List.getLast?_cons_of_ne_nil inside]
  rw [walkNames] at way
  rcases joinRefused relative filled clean some .invalidArgument with same | ⟨refused,long⟩
  · cases refused : refusal .invalidArgument r with
    | some e => exact .inl ((targetRefused (same.trans refused)).trans (targetRefused refused).symm)
    | none =>
        obtain ⟨name,listed⟩ := Option.ne_none_iff_exists'.1 (mt List.getLast?_eq_none_iff.1 own)
        rw [targetNamed (same.trans refused),targetNamed refused,last,before,closed,joinOrigin relative filled,here,listed,
          List.append_assoc]
        rcases walkBehind way few ((names r).dropLast ++ ["."]) with equal | ⟨loops,beyond⟩
        · exact .inl (by rw [equal])
        · exact .inr (.inl ⟨by rw [loops]; rfl,beyond⟩)
  · exact .inr (.inr ⟨targetRefused refused,long⟩)

end

theorem emptyFits {p : Path} {front behind : List (List Char)} {own : List Char} (h : p.Ends front own behind)
    {nul late : FileFault} (fits : refusal nul p = none) : refusal late (p.directory.join ⟨""⟩) = none := by
  have filled := directoryFilled h
  have ways := directoryBegins h
  generalize p.directory = d at filled ways ⊢
  obtain ⟨lead,joined,own⟩ := joinText (r := ⟨""⟩) rfl filled
  have slash : (d.join ⟨""⟩).text ≠ "" := by
    intro empty
    rw [empty] at joined
    simp at joined
  rcases ways with bare | root | ⟨more,begins⟩
  · rw [bare]
    rfl
  · rw [root]
    rfl
  · rcases own with same | closed
    · have start : p.text.toList = (d.join ⟨""⟩).text.toList ++ more := by rw [begins,same,joined]; simp
      exact refusalBegins start slash fits
    · have start : p.text.toList = (d.join ⟨""⟩).text.toList ++ '/' :: more := by rw [begins,closed,joined]; simp
      exact refusalBegins start slash fits

theorem emptyJoined {p : Path} {front behind : List (List Char)} {own : List Char} (h : p.Ends front own behind)
    {t : FileTree} {base dir : Location} (fits : refusal .embeddedNul p = none)
    (found : t.directoryAt base p.directory = .ok dir) : t.locate base (p.directory.join ⟨""⟩) = .ok dir := by
  have filled := directoryFilled h
  rw [directoryAt,directoryFits h fits] at found
  have here : parts ⟨""⟩ = ["."] := by decide
  rw [locate,emptyFits h fits,joinOrigin rfl filled,joinParts rfl filled,here]
  exact (walkNames t mostLinks _ p.directory).symm.trans found

end SyntaxCatalog.FileTree
