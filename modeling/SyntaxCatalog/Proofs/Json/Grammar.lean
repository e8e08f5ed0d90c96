import SyntaxCatalog.Json.Lexeme

/-! The texts that stand for strings, lists and objects, apart from any reader. A string may be spelled
in many ways: a character as itself, by a short escape, by four hexadecimal digits or by two surrogates
of four each. Blanks may stand around every value, comma, colon and bracket. -/
namespace SyntaxCatalog.Json
open Text (hexValue)

def Blanks (cs : List Char) : Prop := ∀ c ∈ cs, isBlank c = true

theorem blanksNil : Blanks [] := fun _ member => by cases member

inductive Quad : Nat → List Char → Prop where
  | digits {a b c d : Char} {w x y z : Nat} (first : hexValue a = some w) (second : hexValue b = some x)
      (third : hexValue c = some y) (fourth : hexValue d = some z) :
      Quad (((w * 16 + x) * 16 + y) * 16 + z) [a,b,c,d]

inductive Spelling : Char → List Char → Prop where
  | plain {c : Char} (quote : c ≠ '"') (escape : c ≠ '\\') (visible : 0x20 ≤ c.toNat) : Spelling c [c]
  | short {c letter : Char} (named : shortEscape letter = some c) : Spelling c ['\\',letter]
  | number {n : Nat} {digits : List Char} (four : Quad n digits) (leading : isLeading n = false)
      (trailing : isTrailing n = false) : Spelling (Char.ofNat n) ('\\' :: 'u' :: digits)
  | pair {n m : Nat} {first second : List Char} (left : Quad n first) (leading : isLeading n = true)
      (right : Quad m second) (trailing : isTrailing m = true) :
      Spelling (paired n m) ('\\' :: 'u' :: first ++ '\\' :: 'u' :: second)

inductive Spelled : List Char → List Char → Prop where
  | nil : Spelled [] []
  | cons {c : Char} {cs text rest : List Char} (head : Spelling c text) (tail : Spelled cs rest) :
      Spelled (c :: cs) (text ++ rest)

inductive Literal : String → List Char → Prop where
  | quoted {s : String} {body : List Char} (spelled : Spelled s.toList body) :
      Literal s ('"' :: body ++ ['"'])

inductive Series {α : Type} (item : α → List Char → Prop) : List α → List Char → Prop where
  | one {a : α} {before text after : List Char} (left : Blanks before) (here : item a text) (right : Blanks after) :
      Series item [a] (before ++ text ++ after)
  | more {a : α} {as : List α} {before text after rest : List Char} (left : Blanks before) (here : item a text)
      (right : Blanks after) (others : Series item as rest) :
      Series item (a :: as) (before ++ text ++ after ++ ',' :: rest)

inductive Bracketed {α : Type} (opener closer : Char) (item : α → List Char → Prop) : List α → List Char → Prop where
  | empty {blank : List Char} (only : Blanks blank) : Bracketed opener closer item [] (opener :: blank ++ [closer])
  | filled {as : List α} {body : List Char} (series : Series item as body) :
      Bracketed opener closer item as (opener :: body ++ [closer])

def ListText {α : Type} (item : α → List Char → Prop) : List α → List Char → Prop := Bracketed '[' ']' item

inductive Member {α : Type} (value : α → List Char → Prop) : String × α → List Char → Prop where
  | pair {key : String} {a : α} {name before after text : List Char} (literal : Literal key name)
      (left : Blanks before) (right : Blanks after) (here : value a text) :
      Member value (key,a) (name ++ before ++ ':' :: after ++ text)

def ObjectText {α : Type} (value : α → List Char → Prop) : List (String × α) → List Char → Prop :=
  Bracketed '{' '}' (Member value)

theorem seriesImp {α : Type} {item other : α → List Char → Prop} (imp : ∀ a text, item a text → other a text)
    {as : List α} {body : List Char} (h : Series item as body) : Series other as body := by
  induction h with
  | one left here right => exact .one left (imp _ _ here) right
  | more left here right _ ih => exact .more left (imp _ _ here) right ih

theorem bracketedImp {α : Type} {opener closer : Char} {item other : α → List Char → Prop}
    (imp : ∀ a text, item a text → other a text) {as : List α} {text : List Char}
    (h : Bracketed opener closer item as text) : Bracketed opener closer other as text := by
  cases h with
  | empty only => exact .empty only
  | filled series => exact .filled (seriesImp imp series)

end SyntaxCatalog.Json
