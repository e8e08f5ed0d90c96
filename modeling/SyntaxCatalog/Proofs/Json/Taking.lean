import SyntaxCatalog.Proofs.Json.Reading

/-! What readers take is within the grammar. Whatever a reader accepts begins, after blanks, with a text
that stands for the value it gives, and the rest is what it leaves. Together with the other direction
this makes a reader and its grammar the same thing. -/
namespace SyntaxCatalog.Json
open Text (Reader)

/- A reader takes only texts of a form, if that form stands behind every value that it gives. -/
def Takes {α : Type} (reader : Reader Fault α) (form : α → List Char → Prop) : Prop :=
  ∀ ⦃cs a rest⦄, reader.run cs = .ok (a,rest) →
    ∃ before text, Blanks before ∧ form a text ∧ cs = before ++ text ++ rest

theorem skipBlankTakes {cs rest : List Char} (h : skipBlank cs = rest) :
    ∃ blank, Blanks blank ∧ cs = blank ++ rest := by
  refine ⟨cs.takeWhile isBlank,?_,?_⟩
  · exact fun c member => List.all_eq_true.1 (List.all_takeWhile) c member
  · rw [← h]
    exact List.takeWhile_append_dropWhile.symm

theorem blanksAppend {before after : List Char} (left : Blanks before) (right : Blanks after) :
    Blanks (before ++ after) := by
  intro c member
  rcases List.mem_append.1 member with front | back
  · exact left c front
  · exact right c back

theorem quadTakes {cs rest : List Char} {n : Nat} (h : quad cs = .ok (n,rest)) :
    ∃ digits, Quad n digits ∧ cs = digits ++ rest := by
  unfold quad at h
  split at h
  · split at h
    · rename_i first second third fourth
      cases h
      exact ⟨_,.digits first second third fourth,rfl⟩
    · cases h
  · split at h <;> cases h

theorem partnerTakes {cs rest : List Char} {n : Nat} {c : Char} (h : partner n cs = .ok (c,rest)) :
    ∃ m digits, Quad m digits ∧ isTrailing m = true ∧ c = paired n m ∧ cs = '\\' :: 'u' :: digits ++ rest := by
  unfold partner at h
  split at h
  · cases h
  · split at h
    · rename_i backslash
      split at h
      · cases h
      · split at h
        · rename_i letter
          split at h
          · cases h
          · rename_i m last read
            obtain ⟨digits,four,split⟩ := quadTakes read
            split at h
            · rename_i trailing
              simp only [Except.ok.injEq,Prod.mk.injEq] at h
              obtain ⟨same,rfl⟩ := h
              exact ⟨m,digits,four,trailing,same.symm,by rw [backslash,letter,split]; rfl⟩
            · cases h
        · cases h
    · cases h

theorem hexEscapeTakes {cs rest : List Char} {c : Char} (h : hexEscape cs = .ok (c,rest)) :
    ∃ text, Spelling c ('\\' :: 'u' :: text) ∧ cs = text ++ rest := by
  unfold hexEscape at h
  split at h
  · cases h
  · rename_i n last read
    obtain ⟨digits,four,split⟩ := quadTakes read
    split at h
    · cases h
    · rename_i trailing
      split at h
      · rename_i leading
        obtain ⟨m,others,right,second,same,behind⟩ := partnerTakes h
        have spelling := Spelling.pair four leading right second
        rw [← same] at spelling
        exact ⟨digits ++ '\\' :: 'u' :: others,spelling,by rw [split,behind,List.append_assoc]⟩
      · rename_i leading
        simp only [Except.ok.injEq,Prod.mk.injEq] at h
        obtain ⟨same,rfl⟩ := h
        have spelling := Spelling.number four (by simpa using leading) (by simpa using trailing)
        rw [same] at spelling
        exact ⟨digits,spelling,split⟩

theorem escapeTakes {cs rest : List Char} {c : Char} (h : escape cs = .ok (c,rest)) :
    ∃ text, Spelling c ('\\' :: text) ∧ cs = text ++ rest := by
  unfold escape at h
  split at h
  · cases h
  · rename_i letter tail
    split at h
    · rename_i named
      cases h
      exact ⟨[letter],.short named,rfl⟩
    · split at h
      · rename_i numbered
        obtain ⟨text,spelling,rfl⟩ := hexEscapeTakes h
        exact ⟨'u' :: text,spelling,by rw [numbered]; rfl⟩
      · cases h

theorem stringBodyTakes {cs ds rest : List Char} (h : stringBody cs = .ok (ds,rest)) :
    ∃ body, Spelled ds body ∧ cs = body ++ '"' :: rest := by
  fun_induction stringBody cs generalizing ds rest with
  | case1 => cases h
  | case2 => cases h; exact ⟨[],.nil,rfl⟩
  | case3 => cases h
  | case4 => cases h
  | case5 cs d more read ds last tail _ ih =>
      cases h
      obtain ⟨text,spelling,rfl⟩ := escapeTakes read
      obtain ⟨body,spelled,rfl⟩ := ih tail
      exact ⟨'\\' :: text ++ body,.cons spelling spelled,by simp⟩
  | case6 => cases h
  | case7 => cases h
  | case8 c cs quote escape visible ds last tail ih =>
      cases h
      obtain ⟨body,spelled,rfl⟩ := ih tail
      exact ⟨c :: body,.cons (.plain quote escape (by omega)) spelled,rfl⟩

theorem literalTakes {cs ds rest : List Char} (h : stringBody cs = .ok (ds,rest)) :
    ∃ name, Literal (String.ofList ds) name ∧ '"' :: cs = name ++ rest := by
  obtain ⟨body,spelled,rfl⟩ := stringBodyTakes h
  exact ⟨'"' :: body ++ ['"'],.quoted (by rwa [String.toList_ofList]),by simp⟩

theorem stringTakes (expected : String) : Takes (string expected) Literal := by
  intro cs s rest h
  change readString expected cs = .ok (s,rest) at h
  unfold readString at h
  split at h
  · cases h
  · rename_i c tail start
    obtain ⟨before,blank,rfl⟩ := skipBlankTakes start
    split at h
    · rename_i quote
      cases read : stringBody tail with
      | error e => simp [read,Except.map] at h
      | ok found =>
          simp only [read,Except.map] at h
          cases h
          obtain ⟨name,literal,split⟩ := literalTakes read
          exact ⟨before,name,blank,literal,by rw [quote,split,List.append_assoc]⟩
    · cases h

theorem mapTakes {α β : Type} {reader : Reader Fault α} {form : α → List Char → Prop} (f : α → β)
    (h : Takes reader form) : Takes (reader.map f) (fun b text => ∃ a, form a text ∧ b = f a) := by
  intro cs b rest run
  simp only [Reader.map] at run
  split at run
  · rename_i a last read
    cases run
    obtain ⟨before,text,blank,written,split⟩ := h read
    exact ⟨before,text,blank,⟨a,written,rfl⟩,split⟩
  · cases run

theorem takesImp {α : Type} {reader : Reader Fault α} {form other : α → List Char → Prop} (h : Takes reader form)
    (imp : ∀ a text, form a text → other a text) : Takes reader other := by
  intro cs a rest run
  obtain ⟨before,text,blank,written,split⟩ := h run
  exact ⟨before,text,blank,imp a text written,split⟩

inductive Remainder {α : Type} (closer : Char) (item : α → List Char → Prop) : Bool → List α → List Char → Prop where
  | closed {blank : List Char} (first : Bool) (only : Blanks blank) : Remainder closer item first [] (blank ++ [closer])
  | series {first : Bool} {as : List α} {lead body : List Char} (before : Lead first lead) (others : Series item as body) :
      Remainder closer item first as (lead ++ body ++ [closer])

section
variable {α : Type} {item : α → List Char → Prop} {opener closer : Char}

theorem remainderNext {first : Bool} {a : α} {as : List α} {lead before text tail : List Char} (h : Lead first lead)
    (left : Blanks before) (here : item a text) (others : Remainder closer item false as tail) :
    Remainder closer item first (a :: as) (lead ++ before ++ text ++ tail) := by
  cases others with
  | closed _ only =>
      have series : Remainder closer item first [a] _ := .series h (.one left here only)
      simpa only [List.append_assoc] using series
  | series comma others =>
      cases comma with
      | comma right =>
          have series : Remainder closer item first (a :: as) _ := .series h (.more left here right others)
          simpa only [List.append_assoc,List.cons_append,List.nil_append] using series

theorem remainderCons {first : Bool} {a : α} {as : List α} {text : List Char}
    (h : Remainder closer item first (a :: as) text) : ∃ lead before here tail, Lead first lead ∧ Blanks before ∧
      item a here ∧ Remainder closer item false as tail ∧ text = lead ++ before ++ here ++ tail := by
  cases h with
  | series lead others =>
      cases others with
      | one left here right => exact ⟨_,_,_,_,lead,left,here,.closed false right,by simp⟩
      | more left here right others => exact ⟨_,_,_,_,lead,left,here,.series (.comma right) others,by simp⟩

theorem remainderNil {first : Bool} {text : List Char} (h : Remainder closer item first [] text) :
    ∃ blank, Blanks blank ∧ text = blank ++ [closer] := by
  cases h with
  | closed _ only => exact ⟨_,only,rfl⟩
  | series _ others => cases others

theorem remainderEnds {as : List α} {text : List Char} (closes : closer = ']' ∨ closer = '}')
    (h : Remainder closer item false as text) (rest : List Char) : Ends (text ++ rest) := by
  cases h with
  | closed _ only =>
      rw [List.append_assoc]
      exact endsBlanks only (.inr closes) rest
  | series lead others =>
      cases lead with
      | comma left =>
          simp only [List.append_assoc]
          exact endsBlanks left (.inl rfl) _

theorem remainderBracketed {as : List α} {text : List Char} (h : Remainder closer item true as text) :
    Bracketed opener closer item as (opener :: text) := by
  cases h with
  | closed _ only => exact .empty only
  | series lead others =>
      cases lead
      exact .filled others

theorem bracketedRemainder {as : List α} {text : List Char} (h : Bracketed opener closer item as text) :
    ∃ inside, text = opener :: inside ∧ Remainder closer item true as inside := by
  cases h with
  | empty only => exact ⟨_,rfl,.closed true only⟩
  | filled others => exact ⟨_,rfl,.series .start others⟩

end

theorem nextElementOver {first : Bool} {cs rest : List Char} (h : nextElement first cs = .ok (false,rest)) :
    ∃ blank, Blanks blank ∧ cs = blank ++ ']' :: rest := by
  unfold nextElement at h
  split at h
  · cases h
  · rename_i start
    obtain ⟨blank,only,rfl⟩ := skipBlankTakes start
    split at h
    · rename_i closer
      cases h
      exact ⟨blank,only,by rw [closer]⟩
    · split at h
      · cases h
      · split at h
        · split at h
          · cases h
          · split at h <;> cases h
        · cases h

theorem nextElementTakes {first : Bool} {cs rest : List Char} (h : nextElement first cs = .ok (true,rest)) :
    ∃ lead before, Lead first lead ∧ Blanks before ∧ cs = lead ++ before ++ rest := by
  unfold nextElement at h
  split at h
  · cases h
  · rename_i start
    obtain ⟨blank,only,rfl⟩ := skipBlankTakes start
    split at h
    · cases h
    · split at h
      · rename_i isFirst
        cases h
        rw [isFirst]
        exact ⟨[],blank,.start,only,by simp⟩
      · rename_i later
        split at h
        · rename_i comma
          split at h
          · cases h
          · rename_i next
            obtain ⟨before,left,rfl⟩ := skipBlankTakes next
            split at h
            · cases h
            · cases h
              rw [comma,Bool.eq_false_iff.2 later]
              exact ⟨blank ++ [','],before,.comma only,left,by simp⟩
        · cases h

theorem elementsTakes {α : Type} {item : Reader Fault α} {form : α → List Char → Prop} (takes : Takes item form)
    {first : Bool} {cs rest : List Char} {as : List α} (h : elements item first cs = .ok (as,rest)) :
    ∃ text, Remainder ']' form first as text ∧ cs = text ++ rest := by
  fun_induction elements item first cs generalizing as rest with
  | case1 => cases h
  | case2 first cs rest closed =>
      cases h
      obtain ⟨blank,only,rfl⟩ := nextElementOver closed
      exact ⟨_,.closed first only,by simp⟩
  | case3 => cases h
  | case4 => cases h
  | case5 first cs middle next a more read as last tail ih =>
      cases h
      obtain ⟨lead,blank,leads,only,rfl⟩ := nextElementTakes next
      obtain ⟨before,text,left,here,rfl⟩ := takes read
      obtain ⟨others,remains,rfl⟩ := ih tail
      refine ⟨_,remainderNext leads (blanksAppend only left) here remains,?_⟩
      simp only [List.append_assoc]

theorem listTakes {α : Type} {item : Reader Fault α} {form : α → List Char → Prop} (takes : Takes item form) :
    Takes (list item) (ListText form) := by
  intro cs as rest h
  change readList item cs = .ok (as,rest) at h
  unfold readList at h
  split at h
  · cases h
  · rename_i start
    obtain ⟨before,blank,rfl⟩ := skipBlankTakes start
    split at h
    · rename_i opener
      obtain ⟨text,remains,rfl⟩ := elementsTakes takes h
      exact ⟨before,_,blank,remainderBracketed remains,by simp [opener]⟩
    · cases h

theorem keyTakes {cs rest : List Char} {found : Option String} (h : nextKey.key cs = .ok (found,rest)) :
    ∃ key name, found = some key ∧ Literal key name ∧ cs = name ++ rest := by
  unfold nextKey.key at h
  split at h
  · cases h
  · rename_i c tail
    split at h
    · rename_i quote
      cases read : stringBody tail with
      | error e => simp [read,Except.map] at h
      | ok body =>
          simp only [read,Except.map] at h
          cases h
          obtain ⟨name,literal,split⟩ := literalTakes read
          exact ⟨_,name,rfl,literal,by rw [quote,split]⟩
    · cases h

theorem nextKeyTakes {first : Bool} {cs rest : List Char} {found : Option String}
    (h : nextKey first cs = .ok (found,rest)) :
    (∃ blank, found = none ∧ Blanks blank ∧ cs = blank ++ '}' :: rest) ∨
      ∃ key lead before name, found = some key ∧ Lead first lead ∧ Blanks before ∧ Literal key name ∧
        cs = lead ++ before ++ name ++ rest := by
  unfold nextKey at h
  split at h
  · cases h
  · rename_i start
    obtain ⟨blank,only,rfl⟩ := skipBlankTakes start
    split at h
    · rename_i closer
      cases h
      exact .inl ⟨blank,rfl,only,by rw [closer]⟩
    · split at h
      · rename_i isFirst
        obtain ⟨key,name,rfl,literal,split⟩ := keyTakes h
        rw [isFirst,split]
        exact .inr ⟨key,[],blank,name,rfl,.start,only,literal,by simp⟩
      · rename_i later
        split at h
        · rename_i comma
          split at h
          · cases h
          · rename_i next
            obtain ⟨before,left,rfl⟩ := skipBlankTakes next
            split at h
            · cases h
            · obtain ⟨key,name,rfl,literal,split⟩ := keyTakes h
              rw [comma,split,Bool.eq_false_iff.2 later]
              exact .inr ⟨key,blank ++ [','],before,name,rfl,.comma only,left,literal,by simp⟩
        · cases h

theorem colonTakes {cs rest : List Char} (h : colon cs = .ok rest) : ∃ blank, Blanks blank ∧ cs = blank ++ ':' :: rest := by
  unfold colon at h
  split at h
  · cases h
  · rename_i start
    obtain ⟨blank,only,rfl⟩ := skipBlankTakes start
    split at h
    · rename_i mark
      cases h
      exact ⟨blank,only,by rw [mark]⟩
    · cases h

def Leaves {σ α : Type} (field : σ → String → Field σ) (value : α → List Char → Prop)
    (goes : σ → String → α → σ → Prop) : Prop :=
  ∀ (state : σ) (key : String) (reader : Reader Fault σ), field state key = .value reader →
    Takes reader (fun next text => ∃ a, value a text ∧ goes state key a next)

theorem membersTakes {σ α : Type} {field : σ → String → Field σ} {value : α → List Char → Prop}
    {goes : σ → String → α → σ → Prop} (leaves : Leaves field value goes) {first : Bool} {state last : σ}
    {cs rest : List Char} (h : members field first state cs = .ok (last,rest)) :
    ∃ pairs text, Remainder '}' (Member value) first pairs text ∧ Course goes state pairs last ∧ cs = text ++ rest := by
  fun_induction members field first state cs with
  | case1 => cases h
  | case2 first state cs rest' closed =>
      cases h
      rcases nextKeyTakes closed with ⟨blank,_,only,rfl⟩ | ⟨_,_,_,_,none,_⟩
      · exact ⟨[],_,.closed first only,.done _,by simp⟩
      · cases none
  | case3 => cases h
  | case4 => cases h
  | case5 => cases h
  | case6 first state cs key after found reader wanted more sep next behind read ih =>
      obtain ⟨pairs,others,remains,course,rfl⟩ := ih h
      rcases nextKeyTakes found with ⟨_,none,_⟩ | ⟨_,lead,before,name,same,leads,left,literal,rfl⟩
      · cases none
      · cases same
        obtain ⟨middle,beforeColon,rfl⟩ := colonTakes sep
        obtain ⟨afterColon,text,right,⟨a,written,here⟩,rfl⟩ := leaves state key reader wanted read
        have member : Member value (key,a) _ := .pair literal beforeColon right written
        refine ⟨(key,a) :: pairs,_,remainderNext leads left member remains,.member here course,?_⟩
        simp only [List.append_assoc,List.cons_append]

theorem objectTakes {σ α : Type} {field : σ → String → Field σ} {value : α → List Char → Prop}
    {goes : σ → String → α → σ → Prop} (leaves : Leaves field value goes) (expected : String) (start : σ) :
    Takes (object expected field start) (fun last text => ∃ pairs, ObjectText value pairs text ∧ Course goes start pairs last) := by
  intro cs last rest h
  change readObject expected field start cs = .ok (last,rest) at h
  unfold readObject at h
  split at h
  · cases h
  · rename_i begin
    obtain ⟨before,blank,rfl⟩ := skipBlankTakes begin
    split at h
    · rename_i opener
      obtain ⟨pairs,text,remains,course,rfl⟩ := membersTakes leaves h
      exact ⟨before,_,blank,⟨pairs,remainderBracketed remains,course⟩,by simp [opener]⟩
    · cases h

def Document {α : Type} (form : α → List Char → Prop) (a : α) (text : String) : Prop :=
  ∃ before body after, Blanks before ∧ form a body ∧ Blanks after ∧ text.toList = before ++ body ++ after

theorem parseDocument {α : Type} {reader : Reader Fault α} {form : α → List Char → Prop} (takes : Takes reader form)
    (reads : ∀ a body, form a body → Reads reader a body) (text : String) (a : α) :
    parse reader text = .ok a ↔ Document form a text := by
  constructor
  · intro h
    obtain ⟨rest,run,nothing⟩ := parseRuns h
    obtain ⟨before,body,left,written,split⟩ := takes run
    obtain ⟨after,right,behind⟩ := skipBlankTakes nothing
    rw [List.append_nil] at behind
    exact ⟨before,body,after,left,written,right,by rw [split,behind]⟩
  · rintro ⟨before,body,after,left,written,right,split⟩
    rw [← String.ofList_toList (s := text),split]
    exact parseRead (reads a body written) left right

end SyntaxCatalog.Json
