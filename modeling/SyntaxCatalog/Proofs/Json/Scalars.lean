import SyntaxCatalog.Proofs.Json.Taking
import SyntaxCatalog.Proofs.Json.Value

/-! Passing over words, strings and numbers takes exactly what the grammar admits, in both directions. -/
namespace SyntaxCatalog.Json

theorem wordTakes {letters cs rest : List Char} (h : word letters cs = .ok rest) : cs = letters ++ rest := by
  induction letters generalizing cs with
  | nil => cases h; rfl
  | cons w ws ih =>
      cases cs with
      | nil => cases h
      | cons c cs =>
          simp only [word] at h
          split at h
          · rename_i same
            rw [same,ih h,List.cons_append]
          · cases h

theorem wordRead (letters rest : List Char) : word letters (letters ++ rest) = .ok rest := by
  induction letters with
  | nil => rfl
  | cons w ws ih => simp [word,ih]

theorem passEscapeTakes {cs rest : List Char} (h : passEscape cs = .ok rest) :
    ∃ text, Mark ('\\' :: text) ∧ cs = text ++ rest := by
  unfold passEscape at h
  split at h
  · cases h
  · rename_i letter tail
    split at h
    · rename_i named
      cases h
      exact ⟨[letter],.short named,rfl⟩
    · split at h
      · rename_i numbered
        cases read : quad tail with
        | error e => simp [read,Except.map] at h
        | ok found =>
            simp only [read,Except.map] at h
            cases h
            obtain ⟨digits,four,rfl⟩ := quadTakes read
            exact ⟨'u' :: digits,.number four,by rw [numbered]; rfl⟩
      · cases h

theorem passStringTakes {cs rest : List Char} (h : passString cs = .ok rest) :
    ∃ body, Marks body ∧ cs = body ++ '"' :: rest := by
  fun_induction passString cs with
  | case1 => cases h
  | case2 => cases h; exact ⟨[],.nil,rfl⟩
  | case3 => cases h
  | case4 cs more read _ ih =>
      obtain ⟨text,mark,rfl⟩ := passEscapeTakes read
      obtain ⟨body,marks,rfl⟩ := ih h
      exact ⟨'\\' :: text ++ body,.cons mark marks,by simp⟩
  | case5 => cases h
  | case6 c cs quote escape visible ih =>
      obtain ⟨body,marks,rfl⟩ := ih h
      exact ⟨c :: body,.cons (.plain quote escape (by omega)) marks,rfl⟩

theorem passStringMark {text : List Char} (h : Mark text) (rest : List Char) :
    passString (text ++ rest) = passString rest := by
  have escaped (tail : List Char) (read : passEscape (tail ++ rest) = .ok rest) :
      passString ('\\' :: tail ++ rest) = passString rest := by
    rw [List.cons_append,passString]
    simp only [Char.reduceEq,↓reduceIte]
    split
    · rename_i refused
      rw [read] at refused
      cases refused
    · rename_i accepted
      rw [read] at accepted
      cases accepted
      rfl
  cases h with
  | plain quote escape visible =>
      rw [List.singleton_append,passString,if_neg quote,if_neg escape,if_neg (by omega)]
  | short named => exact escaped [_] (by simp [passEscape,named])
  | number four => exact escaped ('u' :: _) (by simp [passEscape,shortEscape,quadRead four,Except.map])

theorem passStringRead {body : List Char} (h : Marks body) (rest : List Char) :
    passString (body ++ '"' :: rest) = .ok rest := by
  induction h with
  | nil => simp [passString]
  | cons head _ ih => rw [List.append_assoc,passStringMark head,ih]

theorem dropDigitsTakes (cs : List Char) : ∃ digits, AllDigits digits ∧ cs = digits ++ dropDigits cs :=
  ⟨cs.takeWhile Char.isDigit,fun c member => List.all_eq_true.1 List.all_takeWhile c member,
    List.takeWhile_append_dropWhile.symm⟩

theorem dropDigitsRead {digits rest : List Char} (all : AllDigits digits) (stop : startsWithDigit rest = false) :
    dropDigits (digits ++ rest) = rest := by
  rw [dropDigits,List.dropWhile_append_of_pos all]
  cases rest with
  | nil => rfl
  | cons c rest =>
      have other : c.isDigit = false := stop
      exact List.dropWhile_cons_of_neg (by simp [other])

theorem startsWithDigits {digits : List Char} (some : digits ≠ []) (all : AllDigits digits) (rest : List Char) :
    startsWithDigit (digits ++ rest) = true := by
  cases digits with
  | nil => exact absurd rfl some
  | cons d ds => exact all d List.mem_cons_self

theorem someDigitsTakes {cs : List Char} (h : startsWithDigit cs = true) :
    ∃ digits, digits ≠ [] ∧ AllDigits digits ∧ cs = digits ++ dropDigits cs := by
  obtain ⟨digits,all,split⟩ := dropDigitsTakes cs
  refine ⟨digits,?_,all,split⟩
  rintro rfl
  -- No digits were taken, so the text that is left starts with one still.
  cases cs with
  | nil => cases h
  | cons c cs =>
      have first : c.isDigit = true := h
      have shorter := dropDigitsLength cs
      simp only [dropDigits,List.dropWhile_cons,first,if_true,List.nil_append] at split
      have lengths := congrArg List.length split
      simp only [List.length_cons] at lengths
      simp only [dropDigits] at shorter
      omega

theorem dropSignTakes (cs : List Char) : ∃ sign, Sign sign ∧ cs = sign ++ dropSign cs := by
  unfold dropSign
  split
  · exact ⟨[],.absent,rfl⟩
  · split
    · rename_i marked
      rcases marked with rfl | rfl
      · exact ⟨['+'],.plus,rfl⟩
      · exact ⟨['-'],.minus,rfl⟩
    · exact ⟨[],.absent,rfl⟩

theorem dropSignRead {sign : List Char} (h : Sign sign) {rest : List Char} (digit : startsWithDigit rest = true) :
    dropSign (sign ++ rest) = rest := by
  cases h with
  | absent =>
      cases rest with
      | nil => rfl
      | cons c rest =>
          have first : c.isDigit = true := digit
          have other : ¬(c = '+' ∨ c = '-') := by rintro (rfl | rfl) <;> cases first
          simp [dropSign,other]
  | plus => simp [dropSign]
  | minus => simp [dropSign]

theorem passExponentTakes {cs rest : List Char} (h : passExponent cs = .ok rest) {mark : Char}
    (letter : mark = 'e' ∨ mark = 'E') : ∃ exponent, Exponent exponent ∧ mark :: cs = exponent ++ rest := by
  unfold passExponent at h
  split at h
  · rename_i digit
    cases h
    obtain ⟨sign,signed,split⟩ := dropSignTakes cs
    obtain ⟨digits,some,all,behind⟩ := someDigitsTakes digit
    refine ⟨_,.power letter signed some all,?_⟩
    rw [List.append_assoc,← behind,List.cons_append,← split]
  · cases h

theorem passFractionTakes {cs rest : List Char} (h : passFraction cs = .ok rest) :
    ∃ fraction exponent, Fraction fraction ∧ Exponent exponent ∧ cs = fraction ++ exponent ++ rest := by
  unfold passFraction at h
  split at h
  · cases h
    exact ⟨[],[],.absent,.absent,rfl⟩
  · rename_i c tail
    split at h
    · rename_i point
      unfold passDecimals at h
      split at h
      · rename_i digit
        obtain ⟨digits,some,all,split⟩ := someDigitsTakes digit
        rw [point,split]
        split at h
        · rename_i d more dropped
          rw [dropped]
          split at h
          · rename_i letter
            obtain ⟨exponent,power,behind⟩ := passExponentTakes h letter
            exact ⟨'.' :: digits,exponent,.decimals some all,power,by rw [behind]; simp⟩
          · cases h
            exact ⟨'.' :: digits,[],.decimals some all,.absent,by simp⟩
        · rename_i dropped
          cases h
          rw [dropped]
          exact ⟨'.' :: digits,[],.decimals some all,.absent,by simp⟩
      · cases h
    · split at h
      · rename_i letter
        obtain ⟨exponent,power,behind⟩ := passExponentTakes h letter
        exact ⟨[],exponent,.absent,power,by rw [behind,List.nil_append]⟩
      · cases h
        exact ⟨[],[],.absent,.absent,rfl⟩

theorem passNumberTakes {cs rest : List Char} (h : passNumber cs = .ok rest) :
    ∃ text, Unsigned text ∧ cs = text ++ rest := by
  unfold passNumber at h
  split at h
  · cases h
  · rename_i c tail
    split at h
    · rename_i zero
      split at h
      · cases h
      · obtain ⟨fraction,exponent,second,third,rfl⟩ := passFractionTakes h
        exact ⟨_,.parts .zero second third,by rw [zero]; simp⟩
    · rename_i positive
      split at h
      · rename_i digit
        obtain ⟨digits,all,split⟩ := dropDigitsTakes tail
        obtain ⟨fraction,exponent,second,third,behind⟩ := passFractionTakes h
        refine ⟨_,.parts (.leading digit positive all) second third,?_⟩
        rw [split,behind]
        simp
      · cases h

theorem endsOther {rest : List Char} (h : Ends rest) {c : Char} (first : c ∈ rest.head?) :
    c.isDigit = false ∧ c ≠ '.' ∧ ¬(c = 'e' ∨ c = 'E') := by
  have ending := h c first
  simp only [isBlank,Bool.or_eq_true,decide_eq_true_eq] at ending
  rcases ending with (((rfl | rfl) | rfl) | rfl) | rfl | rfl | rfl <;> decide

theorem exponentStart {exponent rest : List Char} (h : Exponent exponent) (right : Ends rest) :
    startsWithDigit (exponent ++ rest) = false ∧ '.' ∉ (exponent ++ rest).head? := by
  cases h with
  | absent =>
      cases rest with
      | nil => exact ⟨rfl,by simp⟩
      | cons c rest =>
          obtain ⟨digit,point,_⟩ := endsOther right rfl
          exact ⟨digit,by simpa using point⟩
  | power letter => rcases letter with rfl | rfl <;> exact ⟨rfl,by simp⟩

theorem fractionStart {fraction exponent rest : List Char} (h : Fraction fraction) (power : Exponent exponent)
    (right : Ends rest) : startsWithDigit (fraction ++ (exponent ++ rest)) = false := by
  cases h with
  | absent => exact (exponentStart power right).1
  | decimals => rfl

theorem passExponentRead {exponent rest : List Char} (h : Exponent exponent) (right : Ends rest) :
    passFraction (exponent ++ rest) = .ok rest := by
  cases h with
  | absent =>
      cases rest with
      | nil => rfl
      | cons c rest =>
          obtain ⟨_,point,letter⟩ := endsOther right rfl
          simp [passFraction,point,letter]
  | @power mark sign digits letter signed some all =>
      have stop : startsWithDigit rest = false := (exponentStart .absent right).1
      have digit := startsWithDigits some all rest
      have point : mark ≠ '.' := by rcases letter with rfl | rfl <;> decide
      simp only [List.append_assoc,List.cons_append,passFraction,if_neg point,if_pos letter,passExponent,
        dropSignRead signed digit,digit,if_true,dropDigitsRead all stop]

theorem passDecimalsRead {digits rest : List Char} (some : digits ≠ []) (all : AllDigits digits)
    (stop : startsWithDigit rest = false) (point : '.' ∉ rest.head?) : passDecimals (digits ++ rest) = passFraction rest := by
  simp only [passDecimals,startsWithDigits some all rest,if_true,dropDigitsRead all stop]
  cases rest with
  | nil => rfl
  | cons c rest =>
      have other : c ≠ '.' := by simpa using point
      simp only [passFraction,if_neg other]

theorem passFractionRead {fraction exponent rest : List Char} (h : Fraction fraction) (power : Exponent exponent)
    (right : Ends rest) : passFraction (fraction ++ (exponent ++ rest)) = .ok rest := by
  cases h with
  | absent => exact passExponentRead power right
  | decimals some all =>
      obtain ⟨stop,point⟩ := exponentStart power right
      calc passFraction ('.' :: (_ ++ (exponent ++ rest)))
          = passDecimals (_ ++ (exponent ++ rest)) := by simp only [passFraction,if_true]
        _ = passFraction (exponent ++ rest) := passDecimalsRead some all stop point
        _ = .ok rest := passExponentRead power right

theorem passNumberRead {text rest : List Char} (h : Unsigned text) (right : Ends rest) :
    passNumber (text ++ rest) = .ok rest := by
  cases h with
  | parts first second third =>
      have read := passFractionRead second third right
      have stop := fractionStart second third right
      rw [List.append_assoc,List.append_assoc]
      cases first with
      | zero => simp [passNumber,stop,read]
      | leading digit positive others =>
          simp only [List.cons_append,passNumber,if_neg positive,digit,if_true,dropDigitsRead others stop,read]

theorem passScalarTakes {cs rest : List Char} (h : passScalar cs = .ok rest) : ∃ text, Scalar text ∧ cs = text ++ rest := by
  unfold passScalar at h
  split at h
  · cases h
  · split at h
    · rename_i same
      exact ⟨_,.null,by rw [same,wordTakes h]; rfl⟩
    · split at h
      · rename_i same
        exact ⟨_,.yes,by rw [same,wordTakes h]; rfl⟩
      · split at h
        · rename_i same
          exact ⟨_,.no,by rw [same,wordTakes h]; rfl⟩
        · split at h
          · rename_i same
            obtain ⟨text,size,rfl⟩ := passNumberTakes h
            exact ⟨'-' :: text,.negative size,by rw [same]; rfl⟩
          · split at h
            · obtain ⟨text,size,split⟩ := passNumberTakes h
              exact ⟨text,.number size,split⟩
            · split at h
              · rename_i same
                obtain ⟨body,marks,rfl⟩ := passStringTakes h
                exact ⟨'"' :: body ++ ['"'],.string marks,by rw [same]; simp⟩
              · cases h

theorem unsignedStart {text : List Char} (h : Unsigned text) : ∃ c more, text = c :: more ∧ c.isDigit = true := by
  cases h with
  | parts first =>
      cases first with
      | zero => exact ⟨'0',_,rfl,rfl⟩
      | leading digit => exact ⟨_,_,rfl,digit⟩

theorem passScalarRead {text rest : List Char} (h : Scalar text) (right : Ends rest) :
    passScalar (text ++ rest) = .ok rest := by
  cases h with
  | null => simpa [passScalar] using wordRead ['u','l','l'] rest
  | yes => simpa [passScalar] using wordRead ['r','u','e'] rest
  | no => simpa [passScalar] using wordRead ['a','l','s','e'] rest
  | negative size => simpa [passScalar] using passNumberRead size right
  | string marks => simpa [passScalar] using passStringRead marks rest
  | number size =>
      have read := passNumberRead size right
      obtain ⟨c,more,rfl,digit⟩ := unsignedStart size
      have other : c ≠ 'n' ∧ c ≠ 't' ∧ c ≠ 'f' ∧ c ≠ '-' := by
        refine ⟨?_,?_,?_,?_⟩ <;> (rintro rfl; cases digit)
      simpa [passScalar,other,digit] using read

theorem scalarStart {text : List Char} (h : Scalar text) :
    ∃ c more, text = c :: more ∧ isBlank c = false ∧ c ≠ '[' ∧ c ≠ '{' ∧ c ≠ ']' := by
  cases h with
  | null => exact ⟨_,_,rfl,by decide⟩
  | yes => exact ⟨_,_,rfl,by decide⟩
  | no => exact ⟨_,_,rfl,by decide⟩
  | negative => exact ⟨_,_,rfl,by decide⟩
  | string => exact ⟨_,_,rfl,by decide⟩
  | number size =>
      obtain ⟨c,more,rfl,digit⟩ := unsignedStart size
      refine ⟨c,more,rfl,?_,?_,?_,?_⟩
      · simp only [isBlank,Bool.or_eq_false_iff,decide_eq_false_iff_not]
        refine ⟨⟨⟨?_,?_⟩,?_⟩,?_⟩ <;> (rintro rfl; cases digit)
      all_goals (rintro rfl; cases digit)

end SyntaxCatalog.Json
