import SyntaxCatalog.Json.Written
import SyntaxCatalog.Proofs.Json.Grammar

/-! What is written stays within the grammar, in both layouts: every escape is a spelling of its
character, and the gaps of the indented layout are blanks. -/
namespace SyntaxCatalog.Json
open Text (hexValue)

theorem hexValueDigit : ∀ n < 16, hexValue n.digitChar = some n := by decide

theorem spellingControl {c : Char} (low : c.toNat < 0x20) :
    Spelling c ['\\','u','0','0',(c.toNat / 16).digitChar,(c.toNat % 16).digitChar] := by
  have four := Quad.digits (hexValueDigit 0 (by decide)) (hexValueDigit 0 (by decide))
    (hexValueDigit (c.toNat / 16) (by omega)) (hexValueDigit (c.toNat % 16) (by omega))
  have number : ((0 * 16 + 0) * 16 + c.toNat / 16) * 16 + c.toNat % 16 = c.toNat := by omega
  rw [number] at four
  have leading : isLeading c.toNat = false := by
    simp only [isLeading,Bool.and_eq_false_iff,decide_eq_false_iff_not]
    omega
  have trailing : isTrailing c.toNat = false := by
    simp only [isTrailing,Bool.and_eq_false_iff,decide_eq_false_iff_not]
    omega
  have spelling := Spelling.number four leading trailing
  rwa [Char.ofNat_toNat] at spelling

theorem spellingEscaped (c : Char) : Spelling c (escaped c) := by
  unfold escaped
  split
  case h_8 quote escape _ _ _ _ _ =>
    split
    · rename_i low
      exact spellingControl low
    · rename_i high
      exact .plain quote escape (by omega)
  all_goals exact .short rfl

theorem spelledEscaped (cs : List Char) : Spelled cs (cs.flatMap escaped) := by
  induction cs with
  | nil => exact .nil
  | cons c cs ih => exact .cons (spellingEscaped c) ih

theorem literalWritten (s : String) : Literal s (writtenString s) := .quoted (spelledEscaped s.toList)

theorem gapBlanks (layout : Layout) (depth : Nat) : Blanks (layout.gap depth) := by
  intro c member
  cases layout with
  | compact => cases member
  | pretty =>
      rcases List.mem_cons.1 member with rfl | space
      · decide
      · rw [List.eq_of_mem_replicate space]
        decide

theorem seriesWritten {α : Type} {item : α → List Char → Prop} {write : α → List Char} (layout : Layout) (depth : Nat)
    (a : α) (as : List α) (written : ∀ b ∈ a :: as, item b (write b)) :
    Series item (a :: as) (layout.gap (depth + 1) ++ write a ++
      (as.map write).flatMap (fun text => ',' :: layout.gap (depth + 1) ++ text) ++ layout.gap depth) := by
  have here := written a List.mem_cons_self
  induction as generalizing a with
  | nil => simpa using Series.one (gapBlanks layout (depth + 1)) here (gapBlanks layout depth)
  | cons b bs ih =>
      have later : ∀ c ∈ b :: bs, item c (write c) := fun c member => written c (List.mem_cons_of_mem a member)
      have others := ih b later (later b List.mem_cons_self)
      have series := Series.more (gapBlanks layout (depth + 1)) here blanksNil others
      simpa only [List.map_cons,List.flatMap_cons,List.append_assoc,List.cons_append,List.nil_append] using series

theorem enclosedWritten {α : Type} {item : α → List Char → Prop} {write : α → List Char} (layout : Layout) (depth : Nat)
    (opener closer : Char) (as : List α) (written : ∀ a ∈ as, item a (write a)) :
    Bracketed opener closer item as (layout.enclosed depth opener closer (as.map write)) := by
  cases as with
  | nil => exact .empty blanksNil
  | cons a as =>
      have filled : Bracketed opener closer item (a :: as) _ := .filled (seriesWritten layout depth a as written)
      simpa only [Layout.enclosed,List.map_cons,List.append_assoc,List.cons_append] using filled

theorem stringsWritten (layout : Layout) (depth : Nat) (names : List String) :
    ListText Literal names (layout.strings depth names) :=
  enclosedWritten layout depth '[' ']' names (fun name _ => literalWritten name)

theorem memberWritten {α : Type} {value : α → List Char → Prop} (layout : Layout) (key : String) {a : α}
    {text : List Char} (here : value a text) : Member value (key,a) (layout.member key text) := by
  cases layout with
  | compact => simpa [Layout.member,Layout.colon] using Member.pair (literalWritten key) blanksNil blanksNil here
  | pretty =>
      have space : Blanks [' '] := by
        intro c member
        rw [List.mem_singleton.1 member]
        decide
      simpa [Layout.member,Layout.colon] using Member.pair (literalWritten key) blanksNil space here

theorem objectWritten {α : Type} {value : α → List Char → Prop} {write : α → List Char} (layout : Layout) (depth : Nat)
    (pairs : List (String × α)) (written : ∀ pair ∈ pairs, value pair.2 (write pair.2)) :
    ObjectText value pairs (layout.object depth (pairs.map (fun pair => layout.member pair.1 (write pair.2)))) :=
  enclosedWritten layout depth '{' '}' pairs (fun pair member => memberWritten layout pair.1 (written pair member))

end SyntaxCatalog.Json
