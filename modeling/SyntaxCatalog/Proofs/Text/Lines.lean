import SyntaxCatalog.Text.Pieces

/-! Texts cut into lines. Texts that were put one under another, with a line feed after each, are cut at these line
feeds again and at those inside them, and so they come back as they were just in case none of them holds one. -/
namespace SyntaxCatalog.Text

def lines (cs : List Char) : List (List Char) :=
  if (pieces '\n' cs).getLast? = some [] then (pieces '\n' cs).dropLast else pieces '\n' cs

section
variable {separator : Char}

theorem piecesAppend (front back : List Char) :
    pieces separator (front ++ separator :: back) = pieces separator front ++ pieces separator back := by
  induction front with
  | nil => simp [pieces]
  | cons c front ih =>
      by_cases here : c = separator
      · simp [pieces,here,ih]
      · cases cutHere : pieces separator front with
        | nil => exact absurd cutHere (piecesNonempty separator front)
        | cons piece more => simp [pieces,here,ih,cutHere]

theorem piecesCount (cs : List Char) : (pieces separator cs).length = cs.count separator + 1 := by
  induction cs with
  | nil => rfl
  | cons c cs ih =>
      by_cases here : c = separator
      · simp [pieces,here,ih]
      · cases cutHere : pieces separator cs with
        | nil => exact absurd cutHere (piecesNonempty separator cs)
        | cons piece more =>
            rw [cutHere] at ih
            simpa [pieces,here,cutHere] using ih

theorem piecesWhole {cs : List Char} (whole : separator ∉ cs) : pieces separator cs = [cs] := by
  obtain ⟨piece,single⟩ := List.length_eq_one_iff.1 ((piecesCount cs).trans (by rw [List.count_eq_zero.2 whole]))
  have same := gluePieces separator cs
  rw [single] at same ⊢
  exact congrArg (fun text => [text]) same

end

def stacked (texts : List (List Char)) : List Char := texts.flatMap (fun text => text ++ ['\n'])

theorem piecesStacked (texts : List (List Char)) :
    pieces '\n' (stacked texts) = texts.flatMap (pieces '\n') ++ [[]] := by
  induction texts with
  | nil => rfl
  | cons text texts ih =>
      have first : stacked (text :: texts) = text ++ '\n' :: stacked texts := by simp [stacked]
      rw [first,piecesAppend,ih,List.flatMap_cons,List.append_assoc]

theorem linesStacked (texts : List (List Char)) : lines (stacked texts) = texts.flatMap (pieces '\n') := by
  simp [lines,piecesStacked]

theorem linesMany (texts : List (List Char)) : texts.length ≤ (lines (stacked texts)).length := by
  rw [linesStacked]
  induction texts with
  | nil => simp
  | cons text texts ih =>
      simp only [List.flatMap_cons,List.length_append,List.length_cons,piecesCount]
      omega

theorem linesWhole {texts : List (List Char)} (whole : ∀ text ∈ texts, '\n' ∉ text) : lines (stacked texts) = texts := by
  rw [linesStacked]
  induction texts with
  | nil => rfl
  | cons text texts ih =>
      obtain ⟨first,others⟩ := List.forall_mem_cons.1 whole
      rw [List.flatMap_cons,piecesWhole first,ih others,List.singleton_append]

theorem wholeOfCount {texts : List (List Char)} (count : (lines (stacked texts)).length = texts.length) :
    ∀ text ∈ texts, '\n' ∉ text := by
  induction texts with
  | nil => simp
  | cons text texts ih =>
      have many := linesMany texts
      rw [linesStacked] at count many ih
      simp only [List.flatMap_cons,List.length_append,List.length_cons,piecesCount] at count
      have none : text.count '\n' = 0 := by omega
      exact List.forall_mem_cons.2 ⟨List.count_eq_zero.1 none,ih (by omega)⟩

theorem linesIff {texts : List (List Char)} : lines (stacked texts) = texts ↔ ∀ text ∈ texts, '\n' ∉ text :=
  ⟨fun same => wholeOfCount (congrArg List.length same),linesWhole⟩

end SyntaxCatalog.Text
