import SyntaxCatalog.Proofs.Json.Scalars

/-! Passing over a value takes exactly a value. The brackets that are open around it are kept as a stack,
so both directions say what a stack still asks of the text: its closing brackets, with further values
before them. -/
namespace SyntaxCatalog.Json

theorem passKeyTakes {cs rest : List Char} (h : passKey cs = .ok rest) : ∃ lead, Heading .object lead ∧ cs = lead ++ rest := by
  unfold passKey at h
  split at h
  · cases h
  · rename_i start
    obtain ⟨before,left,rfl⟩ := skipBlankTakes start
    split at h
    · rename_i quote
      split at h
      · cases h
      · rename_i read
        obtain ⟨body,marks,rfl⟩ := passStringTakes read
        split at h
        · cases h
        · rename_i next
          obtain ⟨after,right,rfl⟩ := skipBlankTakes next
          split at h
          · rename_i colon
            cases h
            exact ⟨_,.object left marks right,by rw [quote,colon]; simp⟩
          · cases h
    · cases h

theorem enterTakes {b : Bracket} {cs rest : List Char} (h : b.enter cs = .ok rest) :
    ∃ lead, Heading b lead ∧ cs = lead ++ rest := by
  cases b with
  | list => cases h; exact ⟨[],.list,rfl⟩
  | object => exact passKeyTakes h

theorem enterRead {b : Bracket} {lead : List Char} (h : Heading b lead) (rest : List Char) :
    b.enter (lead ++ rest) = .ok rest := by
  cases h with
  | list => rfl
  | object left key right =>
      have quote : isBlank '"' = false := rfl
      have colon : isBlank ':' = false := rfl
      simp [Bracket.enter,passKey,skipBlankBlanks left,skipBlankSolid quote,passStringRead key,
        skipBlankBlanks right,skipBlankSolid colon]

theorem headingBlanks {b : Bracket} {blank lead : List Char} (only : Blanks blank) (h : Heading b lead) :
    ∃ heading after, Heading b heading ∧ Blanks after ∧ blank ++ lead = heading ++ after := by
  cases h with
  | list => exact ⟨[],blank,.list,only,by simp⟩
  | object left key right => exact ⟨_,[],.object (blanksAppend only left) key right,blanksNil,by simp⟩

/- What follows a value up to the end of the brackets that are open around it. -/
inductive Closing : List Bracket → List Char → Prop where
  | outermost : Closing [] []
  | close {b : Bracket} {stack : List Bracket} {after rest : List Char} (right : Blanks after) (others : Closing stack rest) :
      Closing (b :: stack) (after ++ b.closer :: rest)
  | more {b : Bracket} {stack : List Bracket} {after lead before text rest : List Char} (right : Blanks after)
      (heading : Heading b lead) (left : Blanks before) (here : Value text) (others : Closing (b :: stack) rest) :
      Closing (b :: stack) (after ++ ',' :: lead ++ before ++ text ++ rest)

/- The part of it that stands between two values: some brackets close, and then the next value is to
come, unless nothing is open any longer. -/
inductive Gap : List Bracket → List Bracket → List Char → Prop where
  | outermost : Gap [] [] []
  | comma {b : Bracket} {stack : List Bracket} {after lead : List Char} (right : Blanks after) (heading : Heading b lead) :
      Gap (b :: stack) (b :: stack) (after ++ ',' :: lead)
  | close {b : Bracket} {stack left : List Bracket} {after rest : List Char} (right : Blanks after) (others : Gap stack left rest) :
      Gap (b :: stack) left (after ++ b.closer :: rest)

theorem resumeTakes {stack left : List Bracket} {cs rest : List Char} (h : resume stack cs = .ok (left,rest)) :
    ∃ gap, Gap stack left gap ∧ cs = gap ++ rest := by
  induction stack generalizing cs with
  | nil => cases h; exact ⟨[],.outermost,rfl⟩
  | cons b stack ih =>
      simp only [resume] at h
      split at h
      · cases h
      · rename_i tail start
        obtain ⟨after,blank,rfl⟩ := skipBlankTakes start
        split at h
        · rename_i comma
          cases entered : b.enter tail with
          | error e => simp [entered,Except.map] at h
          | ok more =>
              simp only [entered,Except.map] at h
              cases h
              obtain ⟨lead,heading,rfl⟩ := enterTakes entered
              exact ⟨_,.comma blank heading,by rw [comma]; simp⟩
        · split at h
          · rename_i closer
            obtain ⟨gap,others,rfl⟩ := ih h
            exact ⟨_,.close blank others,by rw [closer]; simp⟩
          · cases h

theorem gapClosing {stack : List Bracket} {gap : List Char} (h : Gap stack [] gap) : Closing stack gap := by
  generalize nothing : ([] : List Bracket) = left at h
  induction h with
  | outermost => exact .outermost
  | comma => cases nothing
  | close right _ ih => exact .close right (ih nothing)

theorem gapOnward {stack outer : List Bracket} {b : Bracket} {gap before text tail : List Char}
    (h : Gap stack (b :: outer) gap) (left : Blanks before) (here : Value text) (others : Closing (b :: outer) tail) :
    Closing stack (gap ++ before ++ text ++ tail) := by
  generalize same : b :: outer = open_ at h
  induction h with
  | outermost => cases same
  | comma right heading =>
      cases same
      have closing := Closing.more right heading left here others
      simpa only [List.append_assoc,List.cons_append] using closing
  | @close outermost _ _ _ _ right _ ih =>
      have closing : Closing (outermost :: _) _ := .close right (ih same)
      simpa only [List.append_assoc,List.cons_append] using closing

theorem closingInside {b : Bracket} {stack : List Bracket} {lead before text tail : List Char} (heading : Heading b lead)
    (left : Blanks before) (here : Value text) (h : Closing (b :: stack) tail) :
    ∃ body rest, Inside b body ∧ Closing stack rest ∧ lead ++ before ++ text ++ tail = body ++ b.closer :: rest := by
  generalize same : b :: stack = open_ at h
  induction h generalizing lead before text with
  | outermost => cases same
  | close right others =>
      cases same
      exact ⟨_,_,.one heading left here right,others,by simp only [List.append_assoc]⟩
  | more right heading' left' here' _ ih =>
      cases same
      obtain ⟨body,rest,inside,others,split⟩ := ih heading' left' here' rfl
      refine ⟨_,rest,.more heading left here right inside,others,?_⟩
      simp only [List.append_assoc,List.cons_append] at split ⊢
      rw [split]

inductive Step (stack : List Bracket) : List Bracket → Bool → List Char → Prop where
  | value {left : List Bracket} {before text gap : List Char} (blank : Blanks before) (here : Value text)
      (others : Gap stack left gap) : Step stack left left.isEmpty (before ++ text ++ gap)
  | opening {b : Bracket} {front lead before : List Char} (blank : Blanks front) (heading : Heading b lead)
      (left : Blanks before) : Step stack (b :: stack) false (front ++ b.opener :: lead ++ before)

theorem openedTakes {b : Bracket} {stack left : List Bracket} {front cs rest : List Char} {done : Bool}
    (blank : Blanks front) (h : b.opened stack cs = .ok (left,rest,done)) :
    ∃ text, Step stack left done text ∧ front ++ b.opener :: cs = text ++ rest := by
  unfold Bracket.opened at h
  split at h
  · cases h
  · rename_i c tail start
    obtain ⟨inside,only,rfl⟩ := skipBlankTakes start
    split at h
    · rename_i closer
      cases resumed : resume stack tail with
      | error e => simp [resumed,Except.map] at h
      | ok found =>
          simp only [resumed,Except.map] at h
          cases h
          obtain ⟨gap,others,rfl⟩ := resumeTakes resumed
          exact ⟨_,.value blank (.empty (b := b) only) others,by rw [closer]; simp⟩
    · cases entered : b.enter (c :: tail) with
      | error e => simp [entered,Except.map] at h
      | ok more =>
          simp only [entered,Except.map] at h
          cases h
          obtain ⟨lead,heading,split⟩ := enterTakes entered
          obtain ⟨lead',before,heading',left,moved⟩ := headingBlanks only heading
          refine ⟨_,.opening blank heading' left,?_⟩
          rw [split,← List.append_assoc,moved]
          simp

theorem passStepTakes {stack left : List Bracket} {cs rest : List Char} {done : Bool}
    (h : passStep stack cs = .ok (left,rest,done)) : ∃ text, Step stack left done text ∧ cs = text ++ rest := by
  unfold passStep at h
  split at h
  · cases h
  · rename_i c tail start
    obtain ⟨front,blank,rfl⟩ := skipBlankTakes start
    split at h
    · rename_i list
      rw [list]
      exact openedTakes blank h
    · split at h
      · rename_i object
        rw [object]
        exact openedTakes blank h
      · split at h
        · cases h
        · rename_i more read
          obtain ⟨text,scalar,taken⟩ := passScalarTakes read
          cases resumed : resume stack more with
          | error e => simp [resumed,Except.map] at h
          | ok found =>
              simp only [resumed,Except.map] at h
              cases h
              obtain ⟨gap,others,rfl⟩ := resumeTakes resumed
              exact ⟨_,.value blank (.scalar scalar) others,by rw [taken]; simp⟩

theorem passOpenTakes {stack : List Bracket} {cs rest : List Char} (h : passOpen stack cs = .ok rest) :
    ∃ before text tail, Blanks before ∧ Value text ∧ Closing stack tail ∧ cs = before ++ text ++ tail ++ rest := by
  fun_induction passOpen stack cs with
  | case1 => cases h
  | case2 stack cs inner rest' step =>
      cases h
      obtain ⟨taken,found,rfl⟩ := passStepTakes step
      generalize closed : true = done at found
      cases found with
      | value blank here others =>
          rw [List.isEmpty_iff.1 closed.symm] at others
          exact ⟨_,_,_,blank,here,gapClosing others,rfl⟩
      | opening => cases closed
  | case3 stack cs inner more step ih =>
      obtain ⟨before,text,tail,blank,here,closing,rfl⟩ := ih h
      obtain ⟨taken,found,rfl⟩ := passStepTakes step
      generalize onward : false = done at found
      cases found with
      | value only there others =>
          cases inner with
          | nil => cases onward
          | cons b outer =>
              exact ⟨_,_,_,only,there,gapOnward others blank here closing,by simp only [List.append_assoc]⟩
      | opening only heading left =>
          obtain ⟨body,behind,inside,others,split⟩ := closingInside heading (blanksAppend left blank) here closing
          refine ⟨_,_,behind,only,.filled inside,others,?_⟩
          have whole := congrArg (· ++ rest) split
          simp only [List.append_assoc,List.cons_append,List.nil_append] at whole ⊢
          rw [whole]

theorem passTakes : Takes pass (fun _ => Value) := by
  intro cs _ rest h
  simp only [pass] at h
  cases passed : passOpen [] cs with
  | error e => simp [passed,Except.map] at h
  | ok more =>
      simp only [passed,Except.map] at h
      cases h
      obtain ⟨before,text,tail,blank,here,closing,split⟩ := passOpenTakes passed
      cases closing
      exact ⟨before,text,blank,here,by rw [split,List.append_nil]⟩

def onward (stack : List Bracket) (cs : List Char) : Except Fault (List Char) :=
  match resume stack cs with
  | .error e => .error e
  | .ok ([],rest) => .ok rest
  | .ok (b :: stack,rest) => passOpen (b :: stack) rest

theorem closerSolid (b : Bracket) : isBlank b.closer = false ∧ b.closer ≠ ',' := by
  cases b <;> decide

theorem onwardClose (b : Bracket) (stack : List Bracket) {after : List Char} (right : Blanks after) (cs : List Char) :
    onward (b :: stack) (after ++ b.closer :: cs) = onward stack cs := by
  obtain ⟨solid,other⟩ := closerSolid b
  simp [onward,resume,skipBlankBlanks right,skipBlankSolid solid,other]

theorem onwardComma {b : Bracket} (stack : List Bracket) {after rest start : List Char} (right : Blanks after)
    (entered : b.enter rest = .ok start) : onward (b :: stack) (after ++ ',' :: rest) = passOpen (b :: stack) start := by
  have comma : isBlank ',' = false := rfl
  simp [onward,resume,skipBlankBlanks right,skipBlankSolid comma,entered,Except.map]

theorem passOpenStep (stack : List Bracket) (cs : List Char) : passOpen stack cs = match passStep stack cs with
    | .error e => .error e
    | .ok (_,rest,true) => .ok rest
    | .ok (stack,rest,false) => passOpen stack rest := by
  rw [passOpen]
  split <;> rename_i step <;> simp only [step]

theorem passOpenOnward {stack : List Bracket} {cs more : List Char} (step : passStep stack cs =
    (resume stack more).map (fun (stack,rest) => (stack,rest,stack.isEmpty))) : passOpen stack cs = onward stack more := by
  rw [passOpenStep,step,onward]
  cases resume stack more with
  | error e => rfl
  | ok found =>
      obtain ⟨left,rest⟩ := found
      cases left <;> rfl

theorem skipBlankTwice (cs : List Char) : skipBlank (skipBlank cs) = skipBlank cs := by
  obtain ⟨blank,only,split⟩ := skipBlankTakes (rfl : skipBlank cs = skipBlank cs)
  conv => rhs; rw [split]
  exact (skipBlankBlanks only _).symm

theorem passOpenSkip (stack : List Bracket) {cs other : List Char} (same : skipBlank cs = skipBlank other) :
    passOpen stack cs = passOpen stack other := by
  rw [passOpenStep,passOpenStep stack other]
  simp only [passStep,same]

theorem enterSkip {b : Bracket} {cs start : List Char} (h : b.enter cs = .ok start) :
    ∃ later, b.enter (skipBlank cs) = .ok later ∧ skipBlank later = skipBlank start := by
  cases b with
  | list => cases h; exact ⟨_,rfl,skipBlankTwice cs⟩
  | object =>
      refine ⟨start,?_,rfl⟩
      simp only [Bracket.enter,passKey,skipBlankTwice] at h ⊢
      exact h

theorem passStepBracket (b : Bracket) (stack : List Bracket) {before : List Char} (left : Blanks before) (cs : List Char) :
    passStep stack (before ++ b.opener :: cs) = b.opened stack cs := by
  have solid : isBlank b.opener = false := by cases b <;> rfl
  rw [passStep,skipBlankBlanks left,skipBlankSolid solid]
  cases b <;> rfl

theorem passEmpty (b : Bracket) (stack : List Bracket) {before blank : List Char} (left : Blanks before)
    (only : Blanks blank) (cs : List Char) :
    passOpen stack (before ++ b.opener :: (blank ++ b.closer :: cs)) = onward stack cs := by
  refine passOpenOnward ?_
  rw [passStepBracket b stack left,Bracket.opened,skipBlankBlanks only,skipBlankSolid (closerSolid b).1]
  exact if_pos rfl

theorem passFilled {b : Bracket} (stack : List Bracket) {before cs start : List Char} (left : Blanks before)
    (first : ∃ c more, skipBlank cs = c :: more ∧ c ≠ b.closer) (entered : b.enter cs = .ok start) :
    passOpen stack (before ++ b.opener :: cs) = passOpen (b :: stack) start := by
  obtain ⟨c,more,begins,other⟩ := first
  obtain ⟨later,entered,same⟩ := enterSkip entered
  rw [begins] at entered
  rw [passOpenStep,passStepBracket b stack left,Bracket.opened,begins]
  simp only [if_neg other,entered,Except.map]
  exact passOpenSkip (b :: stack) same

theorem passScalarOnward {text : List Char} (h : Scalar text) (stack : List Bracket) {before cs : List Char}
    (left : Blanks before) (right : Ends cs) : passOpen stack (before ++ text ++ cs) = onward stack cs := by
  refine passOpenOnward ?_
  have read := passScalarRead h right
  obtain ⟨c,more,rfl,solid,list,object,_⟩ := scalarStart h
  rw [List.append_assoc,passStep,skipBlankBlanks left,List.cons_append,skipBlankSolid solid]
  rw [List.cons_append] at read
  simp only [if_neg list,if_neg object,read]

theorem valueStart {text : List Char} (h : Value text) : ∃ c more, text = c :: more ∧ isBlank c = false ∧ c ≠ ']' := by
  cases h with
  | scalar here =>
      obtain ⟨c,more,rfl,solid,_,_,other⟩ := scalarStart here
      exact ⟨c,more,rfl,solid,other⟩
  | @empty b => exact ⟨b.opener,_,rfl,by cases b <;> decide⟩
  | @filled b => exact ⟨b.opener,_,rfl,by cases b <;> decide⟩

theorem headingStart {b : Bracket} {lead before text : List Char} (heading : Heading b lead) (left : Blanks before)
    (here : Value text) (cs : List Char) : ∃ c more, skipBlank (lead ++ (before ++ (text ++ cs))) = c :: more ∧ c ≠ b.closer := by
  cases heading with
  | list =>
      obtain ⟨c,more,rfl,solid,other⟩ := valueStart here
      exact ⟨c,_,by rw [List.nil_append,skipBlankBlanks left,List.cons_append,skipBlankSolid solid],other⟩
  | object blank =>
      have quote : isBlank '"' = false := rfl
      simp only [List.append_assoc,List.cons_append]
      exact ⟨'"',_,by rw [skipBlankBlanks blank,skipBlankSolid quote],by decide⟩

theorem insideStart {b : Bracket} {body : List Char} (h : Inside b body) (cs : List Char) :
    ∃ c more, skipBlank (body ++ cs) = c :: more ∧ c ≠ b.closer := by
  cases h with
  | one heading left here => simpa only [List.append_assoc] using headingStart heading left here _
  | more heading left here => simpa only [List.append_assoc] using headingStart heading left here _

theorem endsCloser (b : Bracket) {after : List Char} (right : Blanks after) (cs : List Char) :
    Ends (after ++ b.closer :: cs) := by
  cases b with
  | list => exact endsBlanks right (.inr (.inl rfl)) cs
  | object => exact endsBlanks right (.inr (.inr rfl)) cs

-- Both statements are for any stack, since a value inside brackets is read with those brackets on it.
mutual
theorem valueOnward {text : List Char} (h : Value text) (stack : List Bracket) {before cs : List Char}
    (left : Blanks before) (right : Ends cs) : passOpen stack (before ++ text ++ cs) = onward stack cs := by
  match h with
  | .scalar here => exact passScalarOnward here stack left right
  | .empty only => simpa only [List.append_assoc,List.cons_append,List.nil_append] using passEmpty _ stack left only cs
  | .filled inside =>
      obtain ⟨start,entered,passed⟩ := insideOnward inside stack cs
      have filled := passFilled stack left (insideStart inside _) entered
      rw [passed] at filled
      simpa only [List.append_assoc,List.cons_append,List.nil_append] using filled
theorem insideOnward {b : Bracket} {body : List Char} (h : Inside b body) (stack : List Bracket) (cs : List Char) :
    ∃ start, b.enter (body ++ b.closer :: cs) = .ok start ∧ passOpen (b :: stack) start = onward stack cs := by
  match h with
  | .one heading left here right =>
      have passed := valueOnward here (b :: stack) left (endsCloser b right cs)
      rw [onwardClose b stack right] at passed
      refine ⟨_,?_,passed⟩
      simpa only [List.append_assoc] using enterRead heading _
  | @Inside.more _ _ _ _ _ rest heading left here right others =>
      obtain ⟨start,entered,later⟩ := insideOnward others stack cs
      have passed := valueOnward here (b :: stack) left (endsBlanks right (.inl rfl) (rest ++ b.closer :: cs))
      rw [onwardComma stack right entered,later] at passed
      refine ⟨_,?_,passed⟩
      simpa only [List.append_assoc,List.cons_append] using enterRead heading _
end

theorem passReads {text : List Char} (h : Value text) : Reads pass () text where
  start := valueStart h
  run {blank rest} left right := by
    have passed := valueOnward h [] left right
    simp only [pass,passed,onward,resume,Except.map]

end SyntaxCatalog.Json
