import SyntaxCatalog.Text.Quoted

/-! Text for a terminal. The characters that a terminal obeys are spelled out; tabs and the ends of
lines are kept. -/
namespace SyntaxCatalog.Text

def obeyed (c : Char) : Bool :=
  c = '\x07' || c = '\x08' || c = '\x0c' || c = '\x1b' || c = '\x7f'

def disarmed (c : Char) : List Char :=
  if obeyed c then
    ['\\','x'] ++ List.replicate (2 - (hexDigits c.toNat).length) '0' ++ hexDigits c.toNat
  else if 0x80 ≤ c.toNat && c.toNat ≤ 0x9F then ['\\','u','{'] ++ hexDigits c.toNat ++ ['}']
  else [c]

def forTerminal (s : String) : String := String.ofList (s.toList.flatMap disarmed)

end SyntaxCatalog.Text
