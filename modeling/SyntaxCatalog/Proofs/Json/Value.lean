import SyntaxCatalog.Json.Pass
import SyntaxCatalog.Proofs.Json.Grammar

/-! The texts that stand for values of any kind, nested as deep as they may be. Such a value is passed
over and has no meaning here, so an escape by four hexadecimal digits needs no partner and a number may
be of any size. -/
namespace SyntaxCatalog.Json

def AllDigits (cs : List Char) : Prop := ∀ c ∈ cs, c.isDigit = true

inductive Whole : List Char → Prop where
  | zero : Whole ['0']
  | leading {c : Char} {digits : List Char} (first : c.isDigit = true) (positive : c ≠ '0') (others : AllDigits digits) :
      Whole (c :: digits)

inductive Fraction : List Char → Prop where
  | absent : Fraction []
  | decimals {digits : List Char} (some : digits ≠ []) (all : AllDigits digits) : Fraction ('.' :: digits)

inductive Sign : List Char → Prop where
  | absent : Sign []
  | plus : Sign ['+']
  | minus : Sign ['-']

inductive Exponent : List Char → Prop where
  | absent : Exponent []
  | power {mark : Char} {sign digits : List Char} (letter : mark = 'e' ∨ mark = 'E') (signed : Sign sign)
      (some : digits ≠ []) (all : AllDigits digits) : Exponent (mark :: sign ++ digits)

inductive Unsigned : List Char → Prop where
  | parts {whole fraction exponent : List Char} (first : Whole whole) (second : Fraction fraction)
      (third : Exponent exponent) : Unsigned (whole ++ fraction ++ exponent)

inductive Mark : List Char → Prop where
  | plain {c : Char} (quote : c ≠ '"') (escape : c ≠ '\\') (visible : 0x20 ≤ c.toNat) : Mark [c]
  | short {c letter : Char} (named : shortEscape letter = some c) : Mark ['\\',letter]
  | number {n : Nat} {digits : List Char} (four : Quad n digits) : Mark ('\\' :: 'u' :: digits)

inductive Marks : List Char → Prop where
  | nil : Marks []
  | cons {text rest : List Char} (head : Mark text) (tail : Marks rest) : Marks (text ++ rest)

inductive Scalar : List Char → Prop where
  | null : Scalar ['n','u','l','l']
  | yes : Scalar ['t','r','u','e']
  | no : Scalar ['f','a','l','s','e']
  | number {text : List Char} (size : Unsigned text) : Scalar text
  | negative {text : List Char} (size : Unsigned text) : Scalar ('-' :: text)
  | string {body : List Char} (marks : Marks body) : Scalar ('"' :: body ++ ['"'])

def Bracket.opener : Bracket → Char
  | .list => '['
  | .object => '{'

inductive Heading : Bracket → List Char → Prop where
  | list : Heading .list []
  | object {before body after : List Char} (left : Blanks before) (key : Marks body) (right : Blanks after) :
      Heading .object (before ++ '"' :: body ++ '"' :: after ++ [':'])

mutual
inductive Value : List Char → Prop where
  | scalar {text : List Char} (here : Scalar text) : Value text
  | empty {b : Bracket} {blank : List Char} (only : Blanks blank) : Value (b.opener :: blank ++ [b.closer])
  | filled {b : Bracket} {body : List Char} (inside : Inside b body) : Value (b.opener :: body ++ [b.closer])
inductive Inside : Bracket → List Char → Prop where
  | one {b : Bracket} {lead before text after : List Char} (heading : Heading b lead) (left : Blanks before)
      (here : Value text) (right : Blanks after) : Inside b (lead ++ before ++ text ++ after)
  | more {b : Bracket} {lead before text after rest : List Char} (heading : Heading b lead) (left : Blanks before)
      (here : Value text) (right : Blanks after) (others : Inside b rest) :
      Inside b (lead ++ before ++ text ++ after ++ ',' :: rest)
end

end SyntaxCatalog.Json
