import SyntaxCatalog.Json.Collection
import SyntaxCatalog.Proofs.Json.Grammar

/-! What the grammar admits is read, and read as the value it stands for, whatever text follows. Each
lemma is about one reader and says what it makes of one form; those about lists and objects go by
induction on their series. -/
namespace SyntaxCatalog.Json

theorem skipBlankBlanks {blank : List Char} (h : Blanks blank) (cs : List Char) :
    skipBlank (blank ++ cs) = skipBlank cs := by
  induction blank with
  | nil => rfl
  | cons b bs ih =>
      have first := h b List.mem_cons_self
      have later := ih (fun c member => h c (List.mem_cons_of_mem b member))
      simpa [skipBlank,first] using later

theorem skipBlankSolid {c : Char} (solid : isBlank c = false) (cs : List Char) : skipBlank (c :: cs) = c :: cs := by
  simp [skipBlank,solid]

theorem quadRead {n : Nat} {digits : List Char} (h : Quad n digits) (rest : List Char) :
    quad (digits ++ rest) = .ok (n,rest) := by
  cases h with
  | digits first second third fourth => simp [quad,first,second,third,fourth]

theorem hexEscapeRead {n : Nat} {digits : List Char} (four : Quad n digits) (leading : isLeading n = false)
    (trailing : isTrailing n = false) (rest : List Char) :
    hexEscape (digits ++ rest) = .ok (Char.ofNat n,rest) := by
  simp [hexEscape,quadRead four,leading,trailing]

theorem leadingNotTrailing {n : Nat} (h : isLeading n = true) : isTrailing n = false := by
  simp only [isLeading,Bool.and_eq_true,decide_eq_true_eq] at h
  simp only [isTrailing,Bool.and_eq_false_iff,decide_eq_false_iff_not]
  omega

theorem pairRead {n m : Nat} {first second : List Char} (left : Quad n first) (leading : isLeading n = true)
    (right : Quad m second) (trailing : isTrailing m = true) (rest : List Char) :
    hexEscape (first ++ '\\' :: 'u' :: (second ++ rest)) = .ok (paired n m,rest) := by
  simp [hexEscape,quadRead left,leadingNotTrailing leading,leading,partner,quadRead right,trailing]

theorem stringBodySpelling {c : Char} {text : List Char} (h : Spelling c text) (rest : List Char) :
    stringBody (text ++ rest) = (stringBody rest).map (fun read => (c :: read.1,read.2)) := by
  have escaped (tail : List Char) (read : escape (tail ++ rest) = .ok (c,rest)) :
      stringBody ('\\' :: tail ++ rest) = (stringBody rest).map (fun read => (c :: read.1,read.2)) := by
    rw [List.cons_append,stringBody]
    simp only [Char.reduceEq,↓reduceIte]
    split
    · rename_i e refused
      rw [read] at refused
      cases refused
    · rename_i d more accepted
      rw [read] at accepted
      cases accepted
      cases stringBody rest <;> rfl
  cases h with
  | plain quote escape visible =>
      rw [List.singleton_append,stringBody,if_neg quote,if_neg escape,if_neg (by omega)]
      cases stringBody rest <;> rfl
  | short named => exact escaped [_] (by simp [escape,named])
  | number four leading trailing =>
      exact escaped ('u' :: _) (by simp [escape,shortEscape,hexEscapeRead four leading trailing])
  | pair left leading right trailing =>
      exact escaped ('u' :: _ ++ '\\' :: 'u' :: _)
        (by simp [escape,shortEscape,pairRead left leading right trailing])

theorem stringBodySpelled {cs body : List Char} (h : Spelled cs body) (rest : List Char) :
    stringBody (body ++ '"' :: rest) = .ok (cs,rest) := by
  induction h with
  | nil => simp [stringBody]
  | cons head tail ih => rw [List.append_assoc,stringBodySpelling head,ih]; rfl

theorem readStringRead {s : String} {text blank : List Char} (expected : String) (h : Literal s text)
    (left : Blanks blank) (rest : List Char) : readString expected (blank ++ text ++ rest) = .ok (s,rest) := by
  cases h with
  | quoted spelled =>
      simp only [readString,List.append_assoc,List.cons_append,List.nil_append,skipBlankBlanks left]
      rw [skipBlankSolid rfl]
      simp [stringBodySpelled spelled,Except.map]

def Ends (rest : List Char) : Prop := ∀ c ∈ rest.head?, isBlank c = true ∨ c = ',' ∨ c = ']' ∨ c = '}'

theorem endsBlanks {blank : List Char} (h : Blanks blank) {c : Char} (mark : c = ',' ∨ c = ']' ∨ c = '}')
    (rest : List Char) : Ends (blank ++ c :: rest) := by
  intro d first
  cases blank with
  | nil => cases first; exact .inr mark
  | cons b bs => cases first; exact .inl (h _ List.mem_cons_self)

theorem blanksEnd {blank : List Char} (h : Blanks blank) : Ends blank :=
  fun c first => .inl (h c (List.mem_of_mem_head? first))

/- A reader reads a text as a value if it does so after any blanks and before anything that may follow. -/
structure Reads {α : Type} (reader : Text.Reader Fault α) (a : α) (text : List Char) : Prop where
  start : ∃ c more, text = c :: more ∧ isBlank c = false ∧ c ≠ ']'
  run {blank rest : List Char} (left : Blanks blank) (right : Ends rest) :
    reader.run (blank ++ text ++ rest) = .ok (a,rest)

theorem bracketedStart {α : Type} {opener closer : Char} {item : α → List Char → Prop} {as : List α} {text : List Char}
    (solid : isBlank opener = false) (other : opener ≠ ']') (h : Bracketed opener closer item as text) :
    ∃ c more, text = c :: more ∧ isBlank c = false ∧ c ≠ ']' := by
  cases h with
  | empty only => exact ⟨opener,_,rfl,solid,other⟩
  | filled series => exact ⟨opener,_,rfl,solid,other⟩

theorem stringReads {s : String} {text : List Char} (expected : String) (h : Literal s text) :
    Reads (string expected) s text where
  start := by
    cases h with
    | quoted spelled => exact ⟨'"',_,rfl,rfl,by decide⟩
  run left _ := readStringRead expected h left _

theorem mapReads {α β : Type} {reader : Text.Reader Fault α} {a : α} {text : List Char} (f : α → β)
    (h : Reads reader a text) : Reads (reader.map f) (f a) text where
  start := h.start
  run left right := by
    have value := h.run left right
    simp only [Text.Reader.map,value]

inductive Lead : Bool → List Char → Prop where
  | start : Lead true []
  | comma {blank : List Char} (left : Blanks blank) : Lead false (blank ++ [','])

theorem nextElementRead {first : Bool} {lead before : List Char} (h : Lead first lead) (left : Blanks before)
    {c : Char} (solid : isBlank c = false) (open_ : c ≠ ']') (rest : List Char) :
    nextElement first (lead ++ before ++ c :: rest) = .ok (true,c :: rest) := by
  cases h with
  | start => simp [nextElement,skipBlankBlanks left,skipBlankSolid solid,open_]
  | comma around =>
      have comma : isBlank ',' = false := rfl
      simp [nextElement,skipBlankBlanks around,skipBlankSolid comma,skipBlankBlanks left,skipBlankSolid solid,open_]

theorem nextElementClosed {blank : List Char} (first : Bool) (left : Blanks blank) (rest : List Char) :
    nextElement first (blank ++ ']' :: rest) = .ok (false,rest) := by
  have close : isBlank ']' = false := rfl
  simp [nextElement,skipBlankBlanks left,skipBlankSolid close]

theorem elementsClosed {α : Type} {item : Text.Reader Fault α} {first : Bool} {cs rest : List Char}
    (closed : nextElement first cs = .ok (false,rest)) : elements item first cs = .ok ([],rest) := by
  rw [elements]
  split
  all_goals simp_all

theorem elementsNext {α : Type} {item : Text.Reader Fault α} {a : α} {first : Bool} {cs middle rest : List Char}
    (next : nextElement first cs = .ok (true,middle)) (read : item.run middle = .ok (a,rest)) :
    elements item first cs = (elements item false rest).map (fun read => (a :: read.1,read.2)) := by
  rw [elements]
  split
  · rename_i refused
    rw [next] at refused
    cases refused
  · rename_i closed
    rw [next] at closed
    cases closed
  · rename_i found
    rw [next] at found
    cases found
    split
    · rename_i refused
      rw [read] at refused
      cases refused
    · rename_i accepted
      rw [read] at accepted
      cases accepted
      cases elements item false rest <;> rfl

theorem elementsStep {α : Type} {item : Text.Reader Fault α} {a : α} {first : Bool} {lead before text rest : List Char}
    (h : Lead first lead) (left : Blanks before) (read : Reads item a text) (right : Ends rest) :
    elements item first (lead ++ before ++ text ++ rest) =
      (elements item false rest).map (fun read => (a :: read.1,read.2)) := by
  obtain ⟨c,more,split,solid,other⟩ := read.start
  have value := read.run blanksNil right
  rw [List.nil_append] at value
  rw [split] at value ⊢
  rw [List.append_assoc (lead ++ before)]
  exact elementsNext (nextElementRead h left solid other (more ++ rest)) value

theorem elementsThrough {α : Type} {item : Text.Reader Fault α} {as : List α} {body : List Char}
    (h : Series (Reads item) as body) {first : Bool} {lead : List Char} (before : Lead first lead) :
    ∃ blank, Blanks blank ∧ ∀ {c : Char} (_ : c = ',' ∨ c = ']') (rest : List Char),
      elements item first (lead ++ body ++ c :: rest) =
        (elements item false (blank ++ c :: rest)).map (fun read => (as ++ read.1,read.2)) := by
  induction h generalizing first lead with
  | @one a left text right blanks here closing =>
      refine ⟨right,closing,?_⟩
      intro c mark rest
      have step := elementsStep before blanks here (endsBlanks closing (mark.imp_right .inl) rest)
      simp only [List.append_assoc] at step ⊢
      exact step
  | @more a as left text right series blanks here closing others ih =>
      obtain ⟨blank,only,later⟩ := ih (.comma closing)
      refine ⟨blank,only,?_⟩
      intro c mark rest
      have step := elementsStep before blanks here (endsBlanks closing (.inl rfl) (series ++ c :: rest))
      have later := later mark rest
      simp only [List.append_assoc,List.cons_append,List.nil_append] at step later ⊢
      rw [step,later]
      cases elements item false (blank ++ c :: rest) <;> rfl

theorem elementsRead {α : Type} {item : Text.Reader Fault α} {as : List α} {body : List Char}
    (h : Series (Reads item) as body) {first : Bool} {lead : List Char} (before : Lead first lead) (rest : List Char) :
    elements item first (lead ++ body ++ ']' :: rest) = .ok (as,rest) := by
  obtain ⟨blank,only,through⟩ := elementsThrough h before
  have closed : elements item false (blank ++ ']' :: rest) = .ok ([],rest) :=
    elementsClosed (nextElementClosed false only rest)
  rw [through (.inr rfl),closed]
  simp [Except.map]

theorem readListRead {α : Type} {item : Text.Reader Fault α} {as : List α} {text blank : List Char}
    (h : ListText (Reads item) as text) (left : Blanks blank) (rest : List Char) :
    readList item (blank ++ text ++ rest) = .ok (as,rest) := by
  have solid : isBlank '[' = false := rfl
  cases h with
  | @empty inside only =>
      have closed : elements item true (inside ++ ']' :: rest) = .ok ([],rest) :=
        elementsClosed (nextElementClosed true only rest)
      simp [readList,skipBlankBlanks left,skipBlankSolid solid,closed]
  | @filled _ body series =>
      have read := elementsRead series .start rest
      rw [List.nil_append] at read
      simp [readList,skipBlankBlanks left,skipBlankSolid solid,read]

theorem listReads {α : Type} {item : Text.Reader Fault α} {as : List α} {text : List Char}
    (h : ListText (Reads item) as text) : Reads (list item) as text where
  start := bracketedStart rfl (by decide) h
  run left _ := readListRead h left _

theorem nextKeyRead {first : Bool} {lead before name : List Char} {key : String} (h : Lead first lead)
    (left : Blanks before) (literal : Literal key name) (rest : List Char) :
    nextKey first (lead ++ before ++ name ++ rest) = .ok (some key,rest) := by
  cases literal with
  | quoted spelled =>
      have solid : isBlank '"' = false := rfl
      have read := stringBodySpelled spelled rest
      cases h with
      | start => simp [nextKey,nextKey.key,skipBlankBlanks left,skipBlankSolid solid,read,Except.map]
      | comma around =>
          have comma : isBlank ',' = false := rfl
          simp [nextKey,nextKey.key,skipBlankBlanks around,skipBlankSolid comma,skipBlankBlanks left,
            skipBlankSolid solid,read,Except.map]

theorem nextKeyClosed {blank : List Char} (first : Bool) (left : Blanks blank) (rest : List Char) :
    nextKey first (blank ++ '}' :: rest) = .ok (none,rest) := by
  have close : isBlank '}' = false := rfl
  simp [nextKey,skipBlankBlanks left,skipBlankSolid close]

theorem colonRead {blank : List Char} (left : Blanks blank) (rest : List Char) :
    colon (blank ++ ':' :: rest) = .ok rest := by
  have mark : isBlank ':' = false := rfl
  simp [colon,skipBlankBlanks left,skipBlankSolid mark]

theorem membersClosed {σ : Type} {field : σ → String → Field σ} {first : Bool} {cs rest : List Char} (state : σ)
    (closed : nextKey first cs = .ok (none,rest)) : members field first state cs = .ok (state,rest) := by
  rw [members]
  split
  all_goals simp_all

theorem membersNext {σ : Type} {field : σ → String → Field σ} {first : Bool} {state next : σ} {key : String}
    {reader : Text.Reader Fault σ} {cs afterKey afterColon rest : List Char}
    (found : nextKey first cs = .ok (some key,afterKey)) (wanted : field state key = .value reader)
    (sep : colon afterKey = .ok afterColon) (read : reader.run afterColon = .ok (next,rest)) :
    members field first state cs = members field false next rest := by
  rw [members]
  split
  · rename_i refused
    rw [found] at refused
    cases refused
  · rename_i closed
    rw [found] at closed
    cases closed
  · rename_i name _ named
    rw [found] at named
    cases named
    simp only [wanted]
    split
    · rename_i refused
      rw [sep] at refused
      cases refused
    · rename_i parted
      rw [sep] at parted
      cases parted
      split
      · rename_i refused
        rw [read] at refused
        cases refused
      · rename_i accepted
        rw [read] at accepted
        cases accepted
        rfl

inductive Course {σ α : Type} (goes : σ → String → α → σ → Prop) : σ → List (String × α) → σ → Prop where
  | done (state : σ) : Course goes state [] state
  | member {state next last : σ} {key : String} {a : α} {more : List (String × α)} (here : goes state key a next)
      (others : Course goes next more last) : Course goes state ((key,a) :: more) last

/- A field enters its values if it wants each key and reads each text of the value into the state it leads to. -/
def Enters {σ α : Type} (field : σ → String → Field σ) (value : α → List Char → Prop)
    (goes : σ → String → α → σ → Prop) : Prop :=
  ∀ (state next : σ) (key : String) (a : α) (text : List Char), goes state key a next → value a text →
    ∃ reader, field state key = .value reader ∧ Reads reader next text

theorem membersStep {σ α : Type} {field : σ → String → Field σ} {value : α → List Char → Prop}
    {goes : σ → String → α → σ → Prop} (enters : Enters field value goes) {state next : σ} {key : String} {a : α}
    {first : Bool} {lead before text rest : List Char} (h : Lead first lead) (left : Blanks before)
    (member : Member value (key,a) text) (here : goes state key a next) (right : Ends rest) :
    members field first state (lead ++ before ++ text ++ rest) = members field false next rest := by
  cases member with
  | @pair _ _ name middle after text literal beforeColon afterColon written =>
      obtain ⟨reader,wanted,reads⟩ := enters state next key a text here written
      have found := nextKeyRead h left literal (middle ++ ':' :: (after ++ text ++ rest))
      have sep := colonRead beforeColon (after ++ text ++ rest)
      have step := membersNext found wanted sep (reads.run afterColon right)
      simpa only [List.append_assoc,List.cons_append] using step

theorem membersThrough {σ α : Type} {field : σ → String → Field σ} {value : α → List Char → Prop}
    {goes : σ → String → α → σ → Prop} (enters : Enters field value goes) {pairs : List (String × α)}
    {body : List Char} (h : Series (Member value) pairs body) {state last : σ} (course : Course goes state pairs last)
    {first : Bool} {lead : List Char} (before : Lead first lead) :
    ∃ blank, Blanks blank ∧ ∀ {c : Char} (_ : c = ',' ∨ c = '}') (rest : List Char),
      members field first state (lead ++ body ++ c :: rest) = members field false last (blank ++ c :: rest) := by
  induction h generalizing first lead state with
  | @one pair left text right blanks member closing =>
      cases course with
      | member here others =>
          cases others
          refine ⟨right,closing,?_⟩
          intro c mark rest
          have step := membersStep enters before blanks member here (endsBlanks closing (mark.imp_right .inr) rest)
          simp only [List.append_assoc] at step ⊢
          exact step
  | @more pair pairs left text right series blanks member closing others ih =>
      cases course with
      | member here course =>
          obtain ⟨blank,only,later⟩ := ih course (.comma closing)
          refine ⟨blank,only,?_⟩
          intro c mark rest
          have step := membersStep enters before blanks member here
            (endsBlanks closing (.inl rfl) (series ++ c :: rest))
          have later := later mark rest
          simp only [List.append_assoc,List.cons_append,List.nil_append] at step later ⊢
          exact step.trans later

theorem membersRead {σ α : Type} {field : σ → String → Field σ} {value : α → List Char → Prop}
    {goes : σ → String → α → σ → Prop} (enters : Enters field value goes) {pairs : List (String × α)}
    {body : List Char} (h : Series (Member value) pairs body) {state last : σ} (course : Course goes state pairs last)
    {first : Bool} {lead : List Char} (before : Lead first lead) (rest : List Char) :
    members field first state (lead ++ body ++ '}' :: rest) = .ok (last,rest) := by
  obtain ⟨blank,only,through⟩ := membersThrough enters h course before
  rw [through (.inr rfl)]
  exact membersClosed last (nextKeyClosed false only rest)

theorem readObjectRead {σ α : Type} {field : σ → String → Field σ} {value : α → List Char → Prop}
    {goes : σ → String → α → σ → Prop} (enters : Enters field value goes) (expected : String)
    {pairs : List (String × α)} {text blank : List Char} (h : ObjectText value pairs text) {start last : σ}
    (course : Course goes start pairs last) (left : Blanks blank) (rest : List Char) :
    readObject expected field start (blank ++ text ++ rest) = .ok (last,rest) := by
  have solid : isBlank '{' = false := rfl
  cases h with
  | @empty inside only =>
      cases course
      have closed : members field true start (inside ++ '}' :: rest) = .ok (start,rest) :=
        membersClosed start (nextKeyClosed true only rest)
      simp [readObject,skipBlankBlanks left,skipBlankSolid solid,closed]
  | @filled _ body series =>
      have read := membersRead enters series course .start rest
      rw [List.nil_append] at read
      simp [readObject,skipBlankBlanks left,skipBlankSolid solid,read]

theorem objectReads {σ α : Type} {field : σ → String → Field σ} {value : α → List Char → Prop}
    {goes : σ → String → α → σ → Prop} (enters : Enters field value goes) (expected : String)
    {pairs : List (String × α)} {text : List Char} (h : ObjectText value pairs text) {start last : σ}
    (course : Course goes start pairs last) : Reads (object expected field start) last text where
  start := bracketedStart rfl (by decide) h
  run left _ := readObjectRead enters expected h course left _

def RecordText {σ α β : Type} (r : Record σ α) (value : β → List Char → Prop) (goes : σ → String → β → σ → Prop)
    (a : α) (text : List Char) : Prop :=
  ∃ pairs last, ObjectText value pairs text ∧ Course goes r.start pairs last ∧ r.finish last = .ok a

theorem recordRead {σ α β : Type} {r : Record σ α} {value : β → List Char → Prop} {goes : σ → String → β → σ → Prop}
    (enters : Enters r.field value goes) {a : α} {text blank : List Char} (h : RecordText r value goes a text)
    (left : Blanks blank) (rest : List Char) : r.read (blank ++ text ++ rest) = .ok (a,rest) := by
  obtain ⟨pairs,last,written,course,finished⟩ := h
  have read := readObjectRead enters r.name written course left rest
  unfold readObject at read
  unfold Record.read
  split at read
  · cases read
  · rename_i c more start
    split at read
    · rename_i opener
      simp only [if_pos opener,read,Record.complete,finished]
    · cases read

theorem recordStart {σ α β : Type} {r : Record σ α} {value : β → List Char → Prop} {goes : σ → String → β → σ → Prop}
    {a : α} {text : List Char} (h : RecordText r value goes a text) :
    ∃ c more, text = c :: more ∧ isBlank c = false ∧ c ≠ ']' := by
  obtain ⟨_,_,written,_⟩ := h
  exact bracketedStart rfl (by decide) written

theorem parseRuns {α : Type} {reader : Text.Reader Fault α} {text : String} {a : α} (h : parse reader text = .ok a) :
    ∃ rest, reader.run text.toList = .ok (a,rest) ∧ skipBlank rest = [] := by
  unfold parse at h
  split at h
  · cases h
  · rename_i found rest read
    split at h
    · rename_i nothing
      cases h
      exact ⟨rest,read,nothing⟩
    · cases h

theorem parseRead {α : Type} {reader : Text.Reader Fault α} {a : α} {before text after : List Char}
    (h : Reads reader a text) (left : Blanks before) (right : Blanks after) :
    parse reader (String.ofList (before ++ text ++ after)) = .ok a := by
  have nothing : skipBlank after = [] := by simpa [skipBlank] using skipBlankBlanks right []
  have read := h.run left (blanksEnd right)
  simp only [parse,String.toList_ofList,read,nothing]

theorem nullableReads {α : Type} {reader : Text.Reader Fault α} {a : α} {text : List Char} (h : Reads reader a text)
    (other : 'n' ∉ text.head?) : Reads (nullable reader) (some a) text where
  start := h.start
  run {blank rest} left right := by
    have read := (mapReads some h).run blanksNil right
    obtain ⟨c,more,rfl,solid,_⟩ := h.start
    have plain : c ≠ 'n' := fun same => other (congrArg some same)
    simp only [List.nil_append,List.cons_append] at read
    change readNullable reader (blank ++ (c :: more) ++ rest) = _
    simp only [readNullable,List.append_assoc,List.cons_append,skipBlankBlanks left,skipBlankSolid solid,if_neg plain,read]

theorem choiceReads {α : Type} {choices : List (String × α)} {name : String} {a : α} {text : List Char}
    (h : Literal name text) (known : choices.lookup name = some a) : Reads (choice choices) a text where
  start := (stringReads name h).start
  run {blank rest} left right := by
    have read := (stringReads "variant identifier" h).run blanksNil right
    cases h with
    | quoted spelled =>
        simp only [List.nil_append,List.cons_append,List.append_assoc] at read
        change readChoice choices (blank ++ _ ++ rest) = _
        simp only [readChoice,List.append_assoc,List.cons_append,List.nil_append,skipBlankBlanks left]
        rw [skipBlankSolid rfl]
        simp only [Char.reduceEq,↓reduceIte,read,chosen,known]

end SyntaxCatalog.Json
