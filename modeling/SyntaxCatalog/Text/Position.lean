/-! Places in a text. A place is known by the number of bytes after it; lines count from one and
columns count the bytes since the last line feed. -/
namespace SyntaxCatalog.Text

structure Position where
  line : Nat
  column : Nat
  deriving DecidableEq, Repr

def bytes (cs : List Char) : Nat := cs.foldr (fun c n => c.utf8Size + n) 0

def Position.start : Position := ⟨1,0⟩

def Position.walk : Nat → List Char → Position → Position
  | _, [], p => p
  | n, c :: cs, p =>
      if n = 0 then p
      else if c = '\n' then walk (n - 1) cs ⟨p.line + 1,0⟩
      else walk (n - c.utf8Size) cs ⟨p.line,p.column + min n c.utf8Size⟩

def takeBytes : Nat → List Char → List Char
  | _, [] => []
  | n, c :: cs => if n < c.utf8Size then [] else c :: takeBytes (n - c.utf8Size) cs

def dropBytes (n : Nat) (cs : List Char) : List Char := cs.drop (takeBytes n cs).length

def Position.before (unread : Nat) (text : List Char) : Position :=
  Position.walk (bytes text - unread) text Position.start

end SyntaxCatalog.Text
