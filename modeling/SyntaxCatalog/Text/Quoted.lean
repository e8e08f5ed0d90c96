import SyntaxCatalog.Text.Unseen

/-! Text between double quotes, with everything a reader could not see spelled out. -/
namespace SyntaxCatalog.Text

def hexDigits (n : Nat) : List Char := Nat.toDigits 16 n

def spelled (c : Char) : List Char :=
  match c with
  | '\x00' => ['\\','0']
  | '\t' => ['\\','t']
  | '\r' => ['\\','r']
  | '\n' => ['\\','n']
  | '"' => ['\\','"']
  | '\\' => ['\\','\\']
  | _ => if unseen c then ['\\','u','{'] ++ hexDigits c.toNat ++ ['}'] else [c]

def quoted (s : String) : String :=
  String.ofList (('"' :: s.toList.flatMap spelled) ++ ['"'])

end SyntaxCatalog.Text
