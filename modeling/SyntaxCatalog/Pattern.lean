/-! Patterns: regular expressions over characters. The text of a pattern is read in `Pattern.Reader`;
which patterns can be carried out is said in `Pattern.Check`. -/
namespace SyntaxCatalog
namespace Pattern

inductive Flag where
  | caseless
  | manyLines
  | dotAll
  | lazy
  | unicode
  | carriageReturns
  | spaced
  deriving DecidableEq, Repr

def Flag.ofChar? : Char → Option Flag
  | 'i' => some .caseless
  | 'm' => some .manyLines
  | 's' => some .dotAll
  | 'U' => some .lazy
  | 'u' => some .unicode
  | 'R' => some .carriageReturns
  | 'x' => some .spaced
  | _ => none

abbrev Flags := List (Flag × Bool)

structure Literal where
  char : Char
  byte : Bool
  deriving DecidableEq, Repr

inductive CharSet where
  | empty
  | literal (l : Literal)
  | range (first last : Literal)
  | named (negated : Bool)
  | shorthand (negated : Bool)
  | bracketed (negated : Bool) (inside : CharSet)
  | union (sets : List CharSet)
  | combined (left right : CharSet)

def CharSet.ofItems : List CharSet → CharSet
  | [] => .empty
  | [s] => s
  | sets => .union sets

mutual

def CharSet.depth : CharSet → Nat
  | .bracketed _ inside => inside.depth + 1
  | .union sets => CharSet.depths sets + 1
  | .combined left right => max left.depth right.depth + 1
  | _ => 0

def CharSet.depths : List CharSet → Nat
  | [] => 0
  | s :: sets => max s.depth (CharSet.depths sets)

end

end Pattern

inductive Pattern where
  | empty
  | setting (flags : Pattern.Flags)
  | literal (l : Pattern.Literal)
  | dot
  | place (word : Bool)
  | charSet (s : Pattern.CharSet)
  | repeated (p : Pattern)
  | group (flags : Pattern.Flags) (p : Pattern)
  | sequence (ps : List Pattern)
  | choice (ps : List Pattern)

namespace Pattern

def ofItems : List Pattern → Pattern
  | [] => .empty
  | [p] => p
  | ps => .sequence ps

mutual

def depth : Pattern → Nat
  | .charSet s => s.depth
  | .repeated p | .group _ p => p.depth + 1
  | .sequence ps | .choice ps => depths ps + 1
  | _ => 0

def depths : List Pattern → Nat
  | [] => 0
  | p :: ps => max p.depth (depths ps)

end

end Pattern
end SyntaxCatalog
