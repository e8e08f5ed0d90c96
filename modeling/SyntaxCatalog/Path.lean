import SyntaxCatalog.Text.Pieces

/-! Paths as text. Nothing is looked up here: a path is cut at its slashes, joined to another, or
reduced to the directory that holds its last part. -/
namespace SyntaxCatalog

structure Path where
  text : String
  deriving DecidableEq, Repr

namespace Path

def isAbsolute (p : Path) : Bool := p.text.toList.head? == some '/'

/-- An absolute path stands for itself; any other is put after the base, with one slash between
them unless the base is empty or ends in a slash. -/
def join (base p : Path) : Path :=
  if p.isAbsolute || base.text.isEmpty then p
  else if base.text.toList.getLast? == some '/' then ⟨base.text ++ p.text⟩
  else ⟨base.text ++ "/" ++ p.text⟩

def cut (p : Path) : List (List Char) := Text.pieces '/' p.text.toList

def isFiller (part : List Char) : Bool := part == [] || part == ['.']

def dropFillers (parts : List (List Char)) : List (List Char) :=
  (parts.reverse.dropWhile isFiller).reverse

def parent (p : Path) : Option Path :=
  match p.cut with
  | [] => none
  | head :: tail =>
      let body := dropFillers tail
      if body.isEmpty then
        if head.isEmpty then none else some ⟨""⟩
      else
        let kept := dropFillers body.dropLast
        if kept.isEmpty && head.isEmpty then some ⟨"/"⟩
        else some ⟨String.ofList (Text.glue '/' (head :: kept))⟩

def directory (p : Path) : Path :=
  match p.parent with
  | some dir => if dir.text.isEmpty then ⟨"."⟩ else dir
  | none => ⟨"."⟩

end Path
end SyntaxCatalog
