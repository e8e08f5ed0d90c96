/-! Texts that are cut at a separator. There is always one piece more than there are separators. -/
namespace SyntaxCatalog.Text

def pieces (separator : Char) : List Char → List (List Char)
  | [] => [[]]
  | c :: cs =>
      if c = separator then [] :: pieces separator cs
      else match pieces separator cs with
        | piece :: more => (c :: piece) :: more
        | [] => [[c]]

def glue (separator : Char) : List (List Char) → List Char
  | [] => []
  | [piece] => piece
  | piece :: more => piece ++ separator :: glue separator more

theorem piecesNonempty (separator : Char) (cs : List Char) : pieces separator cs ≠ [] := by
  cases cs with
  | nil => simp [pieces]
  | cons c cs =>
      simp only [pieces]
      split
      · simp
      · split <;> simp

theorem gluePieces (separator : Char) (cs : List Char) : glue separator (pieces separator cs) = cs := by
  induction cs with
  | nil => rfl
  | cons c cs ih =>
      simp only [pieces]
      cases cutHere : pieces separator cs with
      | nil => exact absurd cutHere (piecesNonempty separator cs)
      | cons piece more =>
          rw [cutHere] at ih
          split
          · rename_i same
            simp [glue,ih,same]
          · cases more with
            | nil => simpa [glue] using ih
            | cons => simpa [glue] using ih

end SyntaxCatalog.Text
