import Mathlib.Data.List.Forall2
import SyntaxCatalog.Proofs.Json.Passing

/-! A text can be taken apart in one way only. Every form that a reader accepts is a value of some kind, and
where such a value ends is settled by the text itself. So the items of a list and the members of an object
are the same for all who look at them. -/
namespace SyntaxCatalog.Json

theorem spelledMarks {cs text : List Char} (h : Spelled cs text) : Marks text := by
  induction h with
  | nil => exact .nil
  | cons head tail ih =>
      cases head with
      | plain quote escape visible => exact .cons (.plain quote escape visible) ih
      | short named => exact .cons (.short named) ih
      | number four => exact .cons (.number four) ih
      | pair left _ right =>
          rw [List.append_assoc]
          exact .cons (.number left) (.cons (.number right) ih)

theorem literalValue {s : String} {text : List Char} (h : Literal s text) : Value text := by
  cases h with
  | quoted spelled => exact .scalar (.string (spelledMarks spelled))

section
variable {α : Type} {item value : α → List Char → Prop}

theorem seriesInside (values : ∀ a text, item a text → Value text) {as : List α} {body : List Char}
    (h : Series item as body) : Inside .list body := by
  induction h with
  | one left here right => exact .one .list left (values _ _ here) right
  | more left here right _ ih => exact .more .list left (values _ _ here) right ih

theorem listValue (values : ∀ a text, item a text → Value text) {as : List α} {text : List Char}
    (h : ListText item as text) : Value text := by
  cases h with
  | empty only => exact @Value.empty .list _ only
  | filled series => exact @Value.filled .list _ (seriesInside values series)

theorem membersInside (values : ∀ a text, value a text → Value text) {pairs : List (String × α)} {body : List Char}
    (h : Series (Member value) pairs body) : Inside .object body := by
  induction h with
  | one left here right =>
      cases here with
      | pair literal between after here =>
          cases literal with
          | quoted spelled =>
              have inside := Inside.one (.object left (spelledMarks spelled) between) after (values _ _ here) right
              simpa only [List.append_assoc,List.cons_append,List.nil_append] using inside
  | more left here right _ ih =>
      cases here with
      | pair literal between after here =>
          cases literal with
          | quoted spelled =>
              have inside := Inside.more (.object left (spelledMarks spelled) between) after (values _ _ here) right ih
              simpa only [List.append_assoc,List.cons_append,List.nil_append] using inside

theorem objectValue (values : ∀ a text, value a text → Value text) {pairs : List (String × α)} {text : List Char}
    (h : ObjectText value pairs text) : Value text := by
  cases h with
  | empty only => exact @Value.empty .object _ only
  | filled series => exact @Value.filled .object _ (membersInside values series)

end

def Solid (cs : List Char) : Prop := ∃ c more, cs = c :: more ∧ isBlank c = false

theorem blanksSplit {blank other rest behind : List Char} (left : Blanks blank) (left' : Blanks other) (solid : Solid rest)
    (solid' : Solid behind) (same : blank ++ rest = other ++ behind) : rest = behind := by
  obtain ⟨c,more,rfl,first⟩ := solid
  obtain ⟨d,others,rfl,second⟩ := solid'
  have skipped := congrArg skipBlank same
  rwa [skipBlankBlanks left,skipBlankBlanks left',skipBlankSolid first,skipBlankSolid second] at skipped

theorem valueSplit {text other rest behind : List Char} (here : Value text) (there : Value other) (right : Ends rest)
    (right' : Ends behind) (same : text ++ rest = other ++ behind) : text = other ∧ rest = behind := by
  have read := (passReads here).run blanksNil right
  have read' := (passReads there).run blanksNil right'
  rw [List.nil_append,same] at read
  rw [List.nil_append,read] at read'
  cases read'
  exact ⟨List.append_cancel_right same,rfl⟩

theorem literalSplit {s t : String} {text other rest behind : List Char} (here : Literal s text) (there : Literal t other)
    (same : text ++ rest = other ++ behind) : s = t ∧ rest = behind := by
  have read := readStringRead "a string" here blanksNil rest
  have read' := readStringRead "a string" there blanksNil behind
  rw [List.nil_append,same] at read
  rw [List.nil_append,read] at read'
  cases read'
  exact ⟨rfl,rfl⟩

theorem valueSolid {text : List Char} (h : Value text) (rest : List Char) : Solid (text ++ rest) := by
  obtain ⟨c,more,rfl,solid,_⟩ := valueStart h
  exact ⟨c,more ++ rest,rfl,solid⟩

theorem leadSplit {first : Bool} {lead other rest behind : List Char} (left : Lead first lead) (left' : Lead first other)
    (same : lead ++ rest = other ++ behind) : rest = behind := by
  cases left with
  | start =>
      cases left'
      exact same
  | comma blank =>
      cases left' with
      | comma blank' =>
          simp only [List.append_assoc] at same
          exact (List.cons.inj (blanksSplit blank blank' ⟨',',_,rfl,rfl⟩ ⟨',',_,rfl,rfl⟩ same)).2

section
variable {α β : Type} {opener closer : Char} {item : α → List Char → Prop} {other : β → List Char → Prop}
  {fits : α → β → Prop}

theorem remainderStart (starts : ∀ a text, item a text → ∃ c more, text = c :: more ∧ isBlank c = false ∧ c ≠ closer)
    (mark : isBlank closer = false ∧ closer ≠ ',') {first : Bool} {a : α} {as : List α} {blank text : List Char}
    (only : Blanks blank) (h : Remainder closer item first (a :: as) text) : text ≠ blank ++ [closer] := by
  intro same
  obtain ⟨lead,before,here,tail,leads,left,written,_,rfl⟩ := remainderCons h
  cases leads with
  | start =>
      obtain ⟨c,more,rfl,solid,differs⟩ := starts a here written
      simp only [List.nil_append,List.append_assoc,List.cons_append] at same
      exact differs (List.cons.inj (blanksSplit left only ⟨c,_,rfl,solid⟩ ⟨closer,[],rfl,mark.1⟩ same)).1
  | comma around =>
      simp only [List.append_assoc,List.cons_append,List.nil_append] at same
      exact mark.2 (List.cons.inj (blanksSplit around only ⟨',',_,rfl,rfl⟩ ⟨closer,[],rfl,mark.1⟩ same)).1.symm

variable (starts : ∀ a text, item a text → ∃ c more, text = c :: more ∧ isBlank c = false ∧ c ≠ closer)
  (starts' : ∀ b text, other b text → ∃ c more, text = c :: more ∧ isBlank c = false ∧ c ≠ closer)
  (splits : ∀ a b text text' rest behind, item a text → other b text' → Ends rest → Ends behind →
    text ++ rest = text' ++ behind → fits a b ∧ rest = behind)
  (closes : closer = ']' ∨ closer = '}')
include starts starts' splits closes

theorem remainderSplit {first : Bool} {as : List α} {bs : List β} {text : List Char} (h : Remainder closer item first as text)
    (h' : Remainder closer other first bs text) : List.Forall₂ fits as bs := by
  have mark : isBlank closer = false ∧ closer ≠ ',' := by rcases closes with rfl | rfl <;> decide
  induction as generalizing first bs text with
  | nil =>
      obtain ⟨blank,only,rfl⟩ := remainderNil h
      cases bs with
      | nil => exact .nil
      | cons b bs => exact absurd rfl (remainderStart starts' mark only h')
  | cons a as ih =>
      cases bs with
      | nil =>
          obtain ⟨blank,only,rfl⟩ := remainderNil h'
          exact absurd rfl (remainderStart starts mark only h)
      | cons b bs =>
          obtain ⟨lead,before,here,tail,leads,left,written,others,rfl⟩ := remainderCons h
          obtain ⟨lead',before',here',tail',leads',left',written',others',same⟩ := remainderCons h'
          obtain ⟨c,more,begins,solid,_⟩ := starts a here written
          obtain ⟨d,more',begins',solid',_⟩ := starts' b here' written'
          simp only [List.append_assoc] at same
          have inside := blanksSplit left left' ⟨c,more ++ tail,by rw [begins]; rfl,solid⟩
            ⟨d,more' ++ tail',by rw [begins']; rfl,solid'⟩ (leadSplit leads leads' same)
          have right := remainderEnds closes others []
          have right' := remainderEnds closes others' []
          rw [List.append_nil] at right right'
          obtain ⟨fit,rfl⟩ := splits a b here here' tail tail' written written' right right' inside
          exact .cons fit (ih others others')

theorem bracketedSplit {as : List α} {bs : List β} {text : List Char} (h : Bracketed opener closer item as text)
    (h' : Bracketed opener closer other bs text) : List.Forall₂ fits as bs := by
  obtain ⟨inside,rfl,remains⟩ := bracketedRemainder h
  obtain ⟨inside',same,remains'⟩ := bracketedRemainder h'
  cases same
  exact remainderSplit starts starts' splits closes remains remains'

end

end SyntaxCatalog.Json
