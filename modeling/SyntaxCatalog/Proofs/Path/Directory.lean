import Mathlib.Data.List.DropRight
import SyntaxCatalog.Proofs.FileTree.Naming
import SyntaxCatalog.Proofs.Text.Lines

/-! The directory of a path. It is spelled by the parts before the last name, but for slashes and dots that lead
nowhere, and it is looked up from the same place as the path itself. -/
namespace SyntaxCatalog

namespace Text
variable {separator : Char}

theorem glueCons (piece : List Char) {more : List (List Char)} (some : more ≠ []) :
    glue separator (piece :: more) = piece ++ separator :: glue separator more := by
  obtain ⟨next,more,rfl⟩ := List.exists_cons_of_ne_nil some
  rfl

theorem glueAppend {front back : List (List Char)} (some : front ≠ []) (more : back ≠ []) :
    glue separator (front ++ back) = glue separator front ++ separator :: glue separator back := by
  induction front with
  | nil => exact absurd rfl some
  | cons piece front ih =>
      cases front with
      | nil => exact glueCons piece more
      | cons next front =>
          rw [List.cons_append,glueCons piece (by simp),ih (by simp),glueCons piece (by simp),List.append_assoc,
            List.cons_append]

theorem piecesInside (cs : List Char) : ∀ piece ∈ pieces separator cs, separator ∉ piece := by
  induction cs with
  | nil => simp [pieces]
  | cons c cs ih =>
      by_cases here : c = separator
      · simpa [pieces,here] using ih
      · cases cutHere : pieces separator cs with
        | nil => exact absurd cutHere (piecesNonempty separator cs)
        | cons piece more =>
            rw [cutHere] at ih
            obtain ⟨first,others⟩ := List.forall_mem_cons.1 ih
            simp only [pieces,here,if_false,cutHere]
            exact List.forall_mem_cons.2 ⟨by simp [Ne.symm here,first],others⟩

theorem piecesGlue {parts : List (List Char)} (some : parts ≠ []) (whole : ∀ part ∈ parts, separator ∉ part) :
    pieces separator (glue separator parts) = parts := by
  induction parts with
  | nil => exact absurd rfl some
  | cons part parts ih =>
      obtain ⟨first,others⟩ := List.forall_mem_cons.1 whole
      by_cases last : parts = []
      · subst last
        exact piecesWhole first
      · rw [glueCons part last,piecesAppend,piecesWhole first,ih last others]
        rfl

end Text

namespace Path

def lastName (p : Path) : Option String :=
  match (dropFillers p.cut).getLast? with
  | some part => if part = ['.','.'] then none else some (String.ofList part)
  | none => none

structure Ends (p : Path) (front : List (List Char)) (own : List Char) (behind : List (List Char)) : Prop where
  cut : p.cut = front ++ own :: behind
  solid : isFiller own = false
  onward : own ≠ ['.','.']
  fillers : ∀ part ∈ behind, isFiller part = true

theorem solidOwn {part : List Char} : isFiller part = false ↔ part ≠ [] ∧ part ≠ ['.'] := by
  simp [isFiller]

theorem dropFillersSplit (parts : List (List Char)) :
    ∃ fillers, (∀ part ∈ fillers, isFiller part = true) ∧ parts = dropFillers parts ++ fillers :=
  ⟨parts.rtakeWhile isFiller,fun _ => List.mem_rtakeWhile_imp,(List.rdropWhile_append_rtakeWhile).symm⟩

theorem dropFillersNone {parts : List (List Char)} (fillers : ∀ part ∈ parts, isFiller part = true) :
    dropFillers parts = [] :=
  List.rdropWhile_eq_nil_iff.2 fillers

theorem dropFillersLast {parts : List (List Char)} {part : List Char} (last : (dropFillers parts).getLast? = some part) :
    isFiller part = false := by
  have solid := List.head?_dropWhile_not isFiller parts.reverse
  rw [dropFillers,List.getLast?_reverse] at last
  rwa [last] at solid

theorem dropFillersName {own : List Char} {behind : List (List Char)} (solid : isFiller own = false)
    (fillers : ∀ part ∈ behind, isFiller part = true) (front : List (List Char)) :
    dropFillers (front ++ own :: behind) = front ++ [own] := by
  have reversed : (front ++ own :: behind).reverse = behind.reverse ++ own :: front.reverse := by simp
  rw [dropFillers,reversed,List.dropWhile_append_of_pos (fun part member => fillers part (List.mem_reverse.1 member)),
    List.dropWhile_cons_of_neg (by simp [solid])]
  simp

theorem lastNameEnds {p : Path} {name : String} (h : p.lastName = some name) :
    ∃ front behind, p.Ends front name.toList behind := by
  unfold lastName at h
  split at h
  · rename_i own last
    split at h
    · cases h
    · rename_i onward
      cases h
      obtain ⟨fillers,all,split⟩ := dropFillersSplit p.cut
      obtain ⟨front,named⟩ := List.getLast?_eq_some_iff.1 last
      rw [named,List.append_assoc] at split
      rw [String.toList_ofList]
      exact ⟨front,fillers,split,dropFillersLast last,onward,all⟩
  · cases h

/- How the directory is spelled when these parts stand before the name. -/
inductive Heads (front : List (List Char)) : Path → Prop where
  | bare (none : front = []) : Heads front ⟨"."⟩
  | root {fillers : List (List Char)} (cut : front = [] :: fillers) (all : ∀ part ∈ fillers, isFiller part = true) :
      Heads front ⟨"/"⟩
  | kept {parts fillers : List (List Char)} (cut : front = parts ++ fillers)
      (all : ∀ part ∈ fillers, isFiller part = true) (filled : parts ≠ []) (last : parts.getLast? ≠ some []) :
      Heads front ⟨String.ofList (Text.glue '/' parts)⟩

theorem glueFilled {parts : List (List Char)} (filled : parts ≠ []) (last : parts.getLast? ≠ some []) :
    Text.glue '/' parts ≠ [] := by
  cases parts with
  | nil => exact absurd rfl filled
  | cons part parts =>
      by_cases more : parts = []
      · subst more
        simpa [Text.glue] using last
      · simp [Text.glueCons part more]

theorem directoryHeads {p : Path} {front behind : List (List Char)} {own : List Char} (h : p.Ends front own behind) :
    Heads front p.directory := by
  cases front with
  | nil =>
      have named : own.isEmpty = false := List.isEmpty_eq_false_iff.2 (solidOwn.1 h.solid).1
      have parent : p.parent = some ⟨""⟩ := by
        rw [Path.parent,h.cut]
        simp [dropFillersNone h.fillers,named]
      have bare : p.directory = ⟨"."⟩ := by simp [directory,parent]
      rw [bare]
      exact .bare rfl
  | cons head front =>
      obtain ⟨fillers,all,split⟩ := dropFillersSplit front
      have parent : p.parent = if (dropFillers front).isEmpty && head.isEmpty then some ⟨"/"⟩
          else some ⟨String.ofList (Text.glue '/' (head :: dropFillers front))⟩ := by
        rw [Path.parent,h.cut]
        simp [dropFillersName h.solid h.fillers front]
      by_cases rooted : (dropFillers front).isEmpty && head.isEmpty
      · rw [if_pos rooted] at parent
        rw [Bool.and_eq_true,List.isEmpty_iff,List.isEmpty_iff] at rooted
        rw [rooted.1] at split
        have root : p.directory = ⟨"/"⟩ := by simp [directory,parent]
        rw [root]
        exact .root (by rw [rooted.2,split]; rfl) all
      · rw [if_neg rooted] at parent
        have last : (head :: dropFillers front).getLast? ≠ some [] := by
          cases solid : (dropFillers front).getLast? with
          | none =>
              rw [List.getLast?_eq_none_iff] at solid
              simpa [solid] using rooted
          | some part =>
              have name := dropFillersLast solid
              rw [List.getLast?_cons,solid]
              intro empty
              cases empty
              cases name
        have filled := glueFilled (List.cons_ne_nil head _) last
        have kept : p.directory = ⟨String.ofList (Text.glue '/' (head :: dropFillers front))⟩ := by
          simp [directory,parent,filled]
        rw [kept]
        exact .kept (by rw [List.cons_append,← split]) all (List.cons_ne_nil head _) last

end Path
end SyntaxCatalog
