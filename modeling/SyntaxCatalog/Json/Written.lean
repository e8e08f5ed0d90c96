/-! Writing strings, lists and objects, on one line or indented by two spaces for each level. -/
namespace SyntaxCatalog.Json

def escaped (c : Char) : List Char :=
  match c with
  | '"' => ['\\','"']
  | '\\' => ['\\','\\']
  | '\x08' => ['\\','b']
  | '\x0c' => ['\\','f']
  | '\n' => ['\\','n']
  | '\r' => ['\\','r']
  | '\t' => ['\\','t']
  | _ => if c.toNat < 0x20 then ['\\','u','0','0',(c.toNat / 16).digitChar,(c.toNat % 16).digitChar] else [c]

def writtenString (s : String) : List Char := '"' :: s.toList.flatMap escaped ++ ['"']

inductive Layout where
  | compact
  | pretty
  deriving DecidableEq, Repr

def Layout.gap : Layout → Nat → List Char
  | .compact, _ => []
  | .pretty, depth => '\n' :: List.replicate (2 * depth) ' '

def Layout.colon : Layout → List Char
  | .compact => [':']
  | .pretty => [':',' ']

def Layout.enclosed (layout : Layout) (depth : Nat) (opener closer : Char) :
    List (List Char) → List Char
  | [] => [opener,closer]
  | item :: items =>
      opener :: layout.gap (depth + 1) ++ item ++
        items.flatMap (fun item => ',' :: layout.gap (depth + 1) ++ item) ++ layout.gap depth ++ [closer]

def Layout.strings (layout : Layout) (depth : Nat) (names : List String) : List Char :=
  layout.enclosed depth '[' ']' (names.map writtenString)

def Layout.member (layout : Layout) (key : String) (value : List Char) : List Char :=
  writtenString key ++ layout.colon ++ value

def Layout.object (layout : Layout) (depth : Nat) (members : List (List Char)) : List Char :=
  layout.enclosed depth '{' '}' members

end SyntaxCatalog.Json
