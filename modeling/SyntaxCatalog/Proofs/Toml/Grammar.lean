import SyntaxCatalog.Toml.Document

/-! Texts of strings, keys, arrays of one line each and lines, apart from any reader. A string between double quotes
may spell a character as itself, by a short escape or by its number; a key may be bare or stand between quotes. -/
namespace SyntaxCatalog.Toml
open Text (hexValue)

def Blanks (cs : List Char) : Prop := ∀ c ∈ cs, isBlank c = true

def Gap (cs : List Char) : Prop := ∀ c ∈ cs, isBlank c = true ∨ c = '\n'

theorem blanksNil : Blanks [] := nofun

theorem gapNil : Gap [] := nofun

def Visible (c : Char) : Prop := c = '\t' ∨ 0x20 ≤ c.toNat ∧ c.toNat ≠ 0x7F

inductive Digits : Nat → List Char → Nat → Prop where
  | nil (n : Nat) : Digits n [] n
  | cons {n d m : Nat} {c : Char} {cs : List Char} (digit : hexValue c = some d) (others : Digits (n * 16 + d) cs m) :
      Digits n (c :: cs) m

inductive Spelling : Char → List Char → Prop where
  | plain {c : Char} (visible : Visible c) (quote : c ≠ '"') (escape : c ≠ '\\') : Spelling c [c]
  | short {c letter : Char} (named : shortEscape letter = some c) : Spelling c ['\\',letter]
  | four {c : Char} {digits : List Char} (number : Digits 0 digits c.toNat) (length : digits.length = 4) :
      Spelling c ('\\' :: 'u' :: digits)
  | eight {c : Char} {digits : List Char} (number : Digits 0 digits c.toNat) (length : digits.length = 8) :
      Spelling c ('\\' :: 'U' :: digits)

inductive Spelled : List Char → List Char → Prop where
  | nil : Spelled [] []
  | cons {c : Char} {cs text rest : List Char} (head : Spelling c text) (tail : Spelled cs rest) :
      Spelled (c :: cs) (text ++ rest)

inductive Literal : String → List Char → Prop where
  | quoted {s : String} {body : List Char} (spelled : Spelled s.toList body) : Literal s ('"' :: body ++ ['"'])

inductive KeyText : String → List Char → Prop where
  | bare {name : String} (some : name.toList ≠ []) (all : ∀ c ∈ name.toList, isBare c = true) : KeyText name name.toList
  | basic {name : String} {text : List Char} (literal : Literal name text) : KeyText name text
  | verbatim {name : String} (visible : ∀ c ∈ name.toList, Visible c ∧ c ≠ '\'') :
      KeyText name ('\'' :: name.toList ++ ['\''])

inductive Items {α : Type} (item : α → List Char → Prop) : List α → List Char → Prop where
  | closed {gap : List Char} (only : Gap gap) : Items item [] (gap ++ [']'])
  | last {a : α} {before text after : List Char} (left : Gap before) (here : item a text) (right : Gap after) :
      Items item [a] (before ++ text ++ after ++ [']'])
  | more {a : α} {as : List α} {before text after rest : List Char} (left : Gap before) (here : item a text)
      (right : Gap after) (others : Items item as rest) : Items item (a :: as) (before ++ text ++ after ++ ',' :: rest)

def ArrayText {α : Type} (item : α → List Char → Prop) (as : List α) (text : List Char) : Prop :=
  ∃ body, Items item as body ∧ text = '[' :: body

inductive LineText {α : Type} (value : α → List Char → Prop) : String × α → List Char → Prop where
  | pair {name : String} {a : α} {before key left right text after : List Char} (indent : Blanks before)
      (named : KeyText name key) (behind : Blanks left) (ahead : Blanks right) (here : value a text) (trailing : Blanks after) :
      LineText value (name,a) (before ++ key ++ left ++ '=' :: right ++ text ++ after ++ ['\n'])

inductive LinesText {α : Type} (value : α → List Char → Prop) : List (String × α) → List Char → Prop where
  | nil : LinesText value [] []
  | cons {pair : String × α} {pairs : List (String × α)} {text rest : List Char} (line : LineText value pair text)
      (others : LinesText value pairs rest) : LinesText value (pair :: pairs) (text ++ rest)

section
variable {α β : Type} {item : α → List Char → Prop} {other : β → List Char → Prop} {f : α → β}

theorem itemsMap (imp : ∀ a text, item a text → other (f a) text) {as : List α} {body : List Char} (h : Items item as body) :
    Items other (as.map f) body := by
  induction h with
  | closed only => exact .closed only
  | last left here right => exact .last left (imp _ _ here) right
  | more left here right _ ih => exact .more left (imp _ _ here) right ih

theorem arrayMap (imp : ∀ a text, item a text → other (f a) text) {as : List α} {text : List Char}
    (h : ArrayText item as text) : ArrayText other (as.map f) text := by
  obtain ⟨body,items,rfl⟩ := h
  exact ⟨body,itemsMap imp items,rfl⟩

theorem linesMap (imp : ∀ a text, item a text → other (f a) text) {pairs : List (String × α)} {text : List Char}
    (h : LinesText item pairs text) : LinesText other (pairs.map (fun pair => (pair.1,f pair.2))) text := by
  induction h with
  | nil => exact .nil
  | cons line _ ih =>
      cases line with
      | pair indent named behind ahead here trailing =>
          exact .cons (.pair indent named behind ahead (imp _ _ here) trailing) ih

end
end SyntaxCatalog.Toml
