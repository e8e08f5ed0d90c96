import SyntaxCatalog.Proofs.Json.Writing
import SyntaxCatalog.Proofs.Toml.Grammar

/-! One way to write strings, arrays and lines, within the grammar. What has a short escape takes it, any other
character that cannot stand for itself is written by its number, and a line is a bare key and its value. -/
namespace SyntaxCatalog.Toml
open Text (hexValue)

def escaped (c : Char) : List Char := if c = '\x7f' then ['\\','u','0','0','7','F'] else Json.escaped c

def writtenString (s : String) : List Char := '"' :: s.toList.flatMap escaped ++ ['"']

def writtenItems : List (List Char) → List Char
  | [] => [']']
  | [item] => item ++ [']']
  | item :: more => item ++ ',' :: writtenItems more

def writtenArray (items : List (List Char)) : List Char := '[' :: writtenItems items

def writtenLine (key : String) (value : List Char) : List Char := key.toList ++ ' ' :: '=' :: ' ' :: value ++ ['\n']

theorem spellingControl {c : Char} (low : c.toNat < 0x20) :
    Spelling c ['\\','u','0','0',(c.toNat / 16).digitChar,(c.toNat % 16).digitChar] := by
  have zero := Json.hexValueDigit 0 (by decide)
  have high := Json.hexValueDigit (c.toNat / 16) (by omega)
  have rest := Json.hexValueDigit (c.toNat % 16) (by omega)
  have number : Digits 0 _ ((((0 * 16 + 0) * 16 + 0) * 16 + c.toNat / 16) * 16 + c.toNat % 16) :=
    .cons zero (.cons zero (.cons high (.cons rest (.nil _))))
  have same : (((0 * 16 + 0) * 16 + 0) * 16 + c.toNat / 16) * 16 + c.toNat % 16 = c.toNat := by omega
  rw [same] at number
  exact .four number rfl

theorem spellingEscaped (c : Char) : Spelling c (escaped c) := by
  unfold escaped
  split
  · rename_i delete
    subst delete
    have number : Digits 0 ['0','0','7','F'] '\x7f'.toNat := .cons rfl (.cons rfl (.cons rfl (.cons rfl (.nil _))))
    exact .four number rfl
  · rename_i other
    unfold Json.escaped
    split
    case h_8 quote escape _ _ _ _ _ =>
      split
      · rename_i low
        exact spellingControl low
      · rename_i high
        have delete : c.toNat ≠ 0x7F := fun same => other (Char.toNat_inj.1 same)
        exact .plain (.inr ⟨by omega,delete⟩) quote escape
    all_goals exact .short rfl

theorem spelledEscaped (cs : List Char) : Spelled cs (cs.flatMap escaped) := by
  induction cs with
  | nil => exact .nil
  | cons c cs ih => exact .cons (spellingEscaped c) ih

theorem literalWritten (s : String) : Literal s (writtenString s) := .quoted (spelledEscaped s.toList)

section
variable {α : Type} {item : α → List Char → Prop} {write : α → List Char}

theorem arrayWritten (as : List α) (written : ∀ a ∈ as, item a (write a)) :
    ArrayText item as (writtenArray (as.map write)) := by
  refine ⟨_,?_,rfl⟩
  induction as with
  | nil => exact .closed gapNil
  | cons a more ih =>
      have here := written a List.mem_cons_self
      have others := ih (fun b member => written b (List.mem_cons_of_mem a member))
      cases more with
      | nil => simpa [writtenItems] using Items.last gapNil here gapNil
      | cons b more => simpa [writtenItems] using Items.more gapNil here gapNil others

theorem linesWritten (pairs : List (String × α)) (named : ∀ pair ∈ pairs, KeyText pair.1 pair.1.toList)
    (written : ∀ pair ∈ pairs, item pair.2 (write pair.2)) :
    LinesText item pairs (pairs.flatMap (fun pair => writtenLine pair.1 (write pair.2))) := by
  have space : Blanks [' '] := by
    intro c member
    rw [List.mem_singleton.1 member]
    rfl
  induction pairs with
  | nil => exact .nil
  | cons pair more ih =>
      have others := ih (fun b member => named b (List.mem_cons_of_mem _ member))
        (fun b member => written b (List.mem_cons_of_mem _ member))
      have key := named pair List.mem_cons_self
      have here := written pair List.mem_cons_self
      have line := LineText.pair blanksNil key space space here blanksNil
      simpa [writtenLine] using LinesText.cons line others

end
end SyntaxCatalog.Toml
