import SyntaxCatalog.Json.Number

/-! Passing over a value of any kind. The lists and objects that are open at a place are kept as a
stack, so nesting may be as deep as the text is long. -/
namespace SyntaxCatalog.Json

inductive Bracket where
  | list
  | object
  deriving DecidableEq, Repr

def Bracket.closer : Bracket → Char
  | .list => ']'
  | .object => '}'

def Bracket.unclosed : Bracket → Reason
  | .list => .endInList
  | .object => .endInObject

def Bracket.expectedCommaOrEnd : Bracket → Reason
  | .list => .expectedListCommaOrEnd
  | .object => .expectedObjectCommaOrEnd

def passKey (cs : List Char) : Except Fault (List Char) :=
  match skipBlank cs with
  | [] => .error (Reason.endInObject.before [])
  | c :: rest =>
      if c = '"' then
        match passString rest with
        | .error e => .error e
        | .ok more =>
            match skipBlank more with
            | [] => .error (Reason.endInObject.before [])
            | d :: last =>
                if d = ':' then .ok last else .error (Reason.expectedColon.into (d :: last))
      else .error (Reason.keyMustBeString.into (c :: rest))

theorem passKeyLength {cs rest} (h : passKey cs = .ok rest) : rest.length < cs.length := by
  unfold passKey at h
  have first := skipBlankLength cs
  split at h
  · cases h
  · rename_i start
    rw [start,List.length_cons] at first
    split at h
    · split at h
      · cases h
      · rename_i more read
        have second := passStringLength read
        have third := skipBlankLength more
        split at h
        · cases h
        · rename_i colon
          rw [colon,List.length_cons] at third
          split at h <;> cases h
          omega
    · cases h

def Bracket.enter (b : Bracket) (cs : List Char) : Except Fault (List Char) :=
  match b with
  | .list => .ok cs
  | .object => passKey cs

theorem enterLength {b : Bracket} {cs rest} (h : b.enter cs = .ok rest) : rest.length ≤ cs.length := by
  cases b with
  | list => cases h; exact Nat.le_refl _
  | object => exact Nat.le_of_lt (passKeyLength h)

def resume : List Bracket → List Char → Except Fault (List Bracket × List Char)
  | [], cs => .ok ([],cs)
  | b :: stack, cs =>
      match skipBlank cs with
      | [] => .error (b.unclosed.before [])
      | c :: rest =>
          if c = ',' then (b.enter rest).map (b :: stack,·)
          else if c = b.closer then resume stack rest
          else .error (b.expectedCommaOrEnd.into (c :: rest))

theorem resumeLength {stack cs stack' rest} (h : resume stack cs = .ok (stack',rest)) :
    rest.length ≤ cs.length := by
  induction stack generalizing cs with
  | nil => cases h; exact Nat.le_refl _
  | cons b stack ih =>
      simp only [resume] at h
      have first := skipBlankLength cs
      split at h
      · cases h
      · rename_i tail start
        rw [start,List.length_cons] at first
        split at h
        · cases entered : b.enter tail with
          | error e => simp [entered,Except.map] at h
          | ok more =>
              simp only [entered,Except.map] at h; cases h
              have := enterLength entered; omega
        · split at h
          · have := ih h; omega
          · cases h

def Bracket.opened (b : Bracket) (stack : List Bracket) (cs : List Char) :
    Except Fault (List Bracket × List Char × Bool) :=
  match skipBlank cs with
  | [] => .error (b.unclosed.before [])
  | c :: rest =>
      if c = b.closer then (resume stack rest).map (fun (stack,rest) => (stack,rest,stack.isEmpty))
      else (b.enter (c :: rest)).map (fun rest => (b :: stack,rest,false))

def passScalar : List Char → Except Fault (List Char)
  | [] => .error (Reason.endInValue.before [])
  | c :: rest =>
      if c = 'n' then word ['u','l','l'] rest
      else if c = 't' then word ['r','u','e'] rest
      else if c = 'f' then word ['a','l','s','e'] rest
      else if c = '-' then passNumber rest
      else if c.isDigit then passNumber (c :: rest)
      else if c = '"' then passString rest
      else .error (Reason.expectedValue.into (c :: rest))

theorem passScalarLength {cs rest} (h : passScalar cs = .ok rest) : rest.length < cs.length := by
  unfold passScalar at h
  split at h
  · cases h
  · simp only [List.length_cons]
    split at h
    · have := wordLength h; omega
    · split at h
      · have := wordLength h; omega
      · split at h
        · have := wordLength h; omega
        · split at h
          · have := passNumberLength h; omega
          · split at h
            · have := passNumberLength h; simpa using this
            · split at h
              · have := passStringLength h; omega
              · cases h

/-- One step from a value that is to come: whatever opens or closes here, up to the next value. The
flag says that the outermost value is complete. -/
def passStep (stack : List Bracket) (cs : List Char) :
    Except Fault (List Bracket × List Char × Bool) :=
  match skipBlank cs with
  | [] => .error (Reason.endInValue.before [])
  | c :: rest =>
      if c = '[' then Bracket.list.opened stack rest
      else if c = '{' then Bracket.object.opened stack rest
      else
        match passScalar (c :: rest) with
        | .error e => .error e
        | .ok more => (resume stack more).map (fun (stack,rest) => (stack,rest,stack.isEmpty))

theorem openedLength {b : Bracket} {stack cs stack' rest done}
    (h : b.opened stack cs = .ok (stack',rest,done)) : rest.length ≤ cs.length := by
  unfold Bracket.opened at h
  have first := skipBlankLength cs
  split at h
  · cases h
  · rename_i c tail start
    rw [start,List.length_cons] at first
    split at h
    · cases resumed : resume stack tail with
      | error e => simp [resumed,Except.map] at h
      | ok found =>
          obtain ⟨_,_⟩ := found
          simp only [resumed,Except.map] at h; cases h
          have := resumeLength resumed; omega
    · cases entered : b.enter (c :: tail) with
      | error e => simp [entered,Except.map] at h
      | ok more =>
          simp only [entered,Except.map] at h; cases h
          have := enterLength entered
          simp only [List.length_cons] at this; omega

theorem passStepLength {stack cs stack' rest done}
    (h : passStep stack cs = .ok (stack',rest,done)) : rest.length < cs.length := by
  unfold passStep at h
  have first := skipBlankLength cs
  split at h
  · cases h
  · rename_i c tail start
    rw [start,List.length_cons] at first
    split at h
    · have := openedLength h; omega
    · split at h
      · have := openedLength h; omega
      · split at h
        · cases h
        · rename_i more read
          have second := passScalarLength read
          cases resumed : resume stack more with
          | error e => simp [resumed,Except.map] at h
          | ok found =>
              obtain ⟨_,_⟩ := found
              simp only [resumed,Except.map] at h; cases h
              have := resumeLength resumed
              simp only [List.length_cons] at second; omega

def passOpen (stack : List Bracket) (cs : List Char) : Except Fault (List Char) :=
  match _h : passStep stack cs with
  | .error e => .error e
  | .ok (_,rest,true) => .ok rest
  | .ok (stack,rest,false) => passOpen stack rest
  termination_by cs.length
  decreasing_by exact passStepLength (by assumption)

theorem passOpenLength {stack cs rest} (h : passOpen stack cs = .ok rest) :
    rest.length < cs.length := by
  fun_induction passOpen stack cs with
  | case1 => cases h
  | case2 stack cs inner rest step => cases h; exact passStepLength step
  | case3 stack cs inner more step ih => exact Nat.lt_trans (ih h) (passStepLength step)

def pass : Text.Reader Fault Unit where
  run cs := (passOpen [] cs).map (fun rest => ((),rest))
  shorter := by
    intro cs a rest h
    cases passed : passOpen [] cs with
    | error e => simp [passed,Except.map] at h
    | ok more => simp only [passed,Except.map] at h; cases h; exact passOpenLength passed

end SyntaxCatalog.Json
