import SyntaxCatalog.Pattern.Grouping

/-! Which patterns can be carried out. Matching goes character by character, and no tables of letters
are at hand: with Unicode on there are no shorthand sets and no caseless characters, and no word
ends. With Unicode off nothing may match part of a character. -/
namespace SyntaxCatalog.Pattern

inductive Fault where
  | unbuildable
  | wordBoundary
  deriving DecidableEq, Repr

def Fault.describe : Fault → String
  | .unbuildable => "error building NFA"
  | .wordBoundary => "unsupported regex feature for DFAs: cannot build DFAs for regexes with Unicode word " ++
      "boundaries; switch to ASCII word boundaries, or heuristically enable Unicode word boundaries or use " ++
      "a different regex engine"

structure Mode where
  unicode : Bool
  caseless : Bool
  wordBoundary : Bool
  deriving DecidableEq, Repr

def Mode.start : Mode := ⟨true,false,false⟩

def Mode.set (m : Mode) (flags : Flags) : Mode :=
  ⟨(flags.lookup .unicode).getD m.unicode,(flags.lookup .caseless).getD m.caseless,m.wordBoundary⟩

def Literal.inSet (l : Literal) (m : Mode) : Bool := if m.unicode then !m.caseless else l.char.toNat < 0x80

def Literal.alone (l : Literal) (m : Mode) : Bool :=
  if m.unicode then !m.caseless else !l.byte || l.char.toNat < 0x80

mutual

def CharSet.possible (m : Mode) : CharSet → Bool
  | .empty => true
  | .literal l => l.inSet m
  | .range first last => first.inSet m && last.inSet m
  | .named negated => if m.unicode then !m.caseless else !negated
  | .shorthand negated => !m.unicode && !negated
  | .bracketed negated inside => (m.unicode || !negated) && inside.possible m
  | .union sets => CharSet.allPossible m sets
  | .combined left right => left.possible m && right.possible m

def CharSet.allPossible (m : Mode) : List CharSet → Bool
  | [] => true
  | s :: sets => s.possible m && CharSet.allPossible m sets

end

mutual

def after (m : Mode) : Pattern → Option Mode
  | .empty => some m
  | .setting flags => some (m.set flags)
  | .literal l => if l.alone m then some m else none
  | .dot => if m.unicode then some m else none
  | .place word => some {m with wordBoundary := m.wordBoundary || (word && m.unicode)}
  | .charSet s => if s.possible m then some m else none
  | .repeated p => after m p
  | .group flags p => (after (m.set flags) p).map (fun last => {m with wordBoundary := last.wordBoundary})
  | .sequence ps | .choice ps => afterAll m ps

def afterAll (m : Mode) : List Pattern → Option Mode
  | [] => some m
  | p :: ps =>
      match after m p with
      | none => none
      | some m => afterAll m ps

end

def deepest : Nat := 250

def fault? (cs : List Char) : Option Fault :=
  match ofText? cs with
  | none => some .unbuildable
  | some p =>
      if deepest < p.depth then some .unbuildable
      else
        match after .start p with
        | none => some .unbuildable
        | some m => if m.wordBoundary then some .wordBoundary else none

end SyntaxCatalog.Pattern
