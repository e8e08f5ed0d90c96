import SyntaxCatalog.Proofs.Toml.Grammar
import SyntaxCatalog.Proofs.Toml.Value

/-! The readers read what the grammar admits. The stretches of text that the parts remember depend on what follows,
so a lemma about items tells their value and leaves the rest open. -/
namespace SyntaxCatalog.Toml
open Text (hexValue)

theorem skipBlankBlanks {blank : List Char} (h : Blanks blank) (cs : List Char) :
    skipBlank (blank ++ cs) = skipBlank cs := List.dropWhile_append_of_pos h

theorem skipBlankSolid {c : Char} (solid : isBlank c = false) (cs : List Char) : skipBlank (c :: cs) = c :: cs := by
  simp [skipBlank,solid]

theorem digitsRead {n m : Nat} {digits : List Char} (h : Digits n digits m) (rest : List Char) :
    hexNumber digits.length n (digits ++ rest) = some (m,rest) := by
  induction h with
  | nil n => rfl
  | cons digit _ ih => simp [hexNumber,digit,ih]

theorem characterOf (c : Char) : character c.toNat = some c := by
  have valid : c.toNat < 0xD800 ∨ 0xE000 ≤ c.toNat ∧ c.toNat < 0x110000 := by
    rcases c.valid with low | ⟨high,small⟩
    · exact .inl low
    · exact .inr ⟨high,small⟩
  rw [character,if_pos valid,Char.ofNat_toNat]

theorem plainVisible {c : Char} (h : Visible c) : isPlain c = true := by
  simpa [isPlain,Visible] using h

theorem escapeShort {c letter : Char} (named : shortEscape letter = some c) (rest : List Char) :
    escape (letter :: rest) = some (c,rest) := by
  simp [escape,named]

theorem escapeNumber {c mark : Char} {digits : List Char} (number : Digits 0 digits c.toNat)
    (length : mark = 'u' ∧ digits.length = 4 ∨ mark = 'U' ∧ digits.length = 8) (rest : List Char) :
    escape (mark :: (digits ++ rest)) = some (c,rest) := by
  have read := digitsRead number rest
  rcases length with ⟨rfl,length⟩ | ⟨rfl,length⟩
  · rw [length] at read
    simp [escape,shortEscape,read,characterOf]
  · rw [length] at read
    simp [escape,shortEscape,read,characterOf]

theorem basicEscaped {c : Char} {tail rest : List Char} (read : escape (tail ++ rest) = some (c,rest)) :
    basic ('\\' :: tail ++ rest) = (basic rest).map (fun read => (c :: read.1,read.2)) := by
  rw [List.cons_append,basic]
  simp only [Char.reduceEq,↓reduceIte]
  split
  · simp_all
  · rename_i found
    cases read.symm.trans found
    rfl

theorem basicSpelling {c : Char} {text : List Char} (h : Spelling c text) (rest : List Char) :
    basic (text ++ rest) = (basic rest).map (fun read => (c :: read.1,read.2)) := by
  cases h with
  | plain visible quote escape =>
      rw [List.singleton_append,basic,if_neg quote,if_neg escape,if_pos (plainVisible visible)]
  | short named => exact basicEscaped (escapeShort named rest)
  | four number length => exact basicEscaped (escapeNumber number (.inl ⟨rfl,length⟩) rest)
  | eight number length => exact basicEscaped (escapeNumber number (.inr ⟨rfl,length⟩) rest)

theorem basicSpelled {cs body : List Char} (h : Spelled cs body) (rest : List Char) :
    basic (body ++ '"' :: rest) = some (cs,rest) := by
  induction h with
  | nil => simp [basic]
  | cons head _ ih =>
      rw [List.append_assoc,basicSpelling head,ih]
      rfl

theorem literalVerbatim {cs : List Char} (h : ∀ c ∈ cs, Visible c ∧ c ≠ '\'') (rest : List Char) :
    literal (cs ++ '\'' :: rest) = some (cs,rest) := by
  induction cs with
  | nil => rfl
  | cons c cs ih =>
      obtain ⟨visible,other⟩ := h c List.mem_cons_self
      have later := ih (fun d member => h d (List.mem_cons_of_mem c member))
      simp [literal,other,plainVisible visible,later]

/- What follows a string, so that its quote ends it: another quote behind an empty string would start a longer one. -/
def Closes (rest : List Char) : Prop := '"' ∉ rest.head?

theorem spelledHead {cs body : List Char} (h : Spelled cs body) : body = [] ∨ ∃ c more, body = c :: more ∧ c ≠ '"' := by
  cases h with
  | nil => exact .inl rfl
  | cons head tail =>
      cases head with
      | plain visible quote escape => exact .inr ⟨_,_,rfl,quote⟩
      | short named => exact .inr ⟨_,_,rfl,by decide⟩
      | four number length => exact .inr ⟨_,_,rfl,by decide⟩
      | eight number length => exact .inr ⟨_,_,rfl,by decide⟩

theorem literalUntripled {s : String} {text rest : List Char} (h : Literal s text) (closes : Closes rest) :
    tripled '"' (text ++ rest) = none ∧ tripled '\'' (text ++ rest) = none := by
  cases h with
  | quoted spelled =>
      rcases spelledHead spelled with rfl | ⟨c,more,rfl,other⟩
      · cases rest with
        | nil => exact ⟨rfl,rfl⟩
        | cons d rest =>
            have other : d ≠ '"' := fun same => closes (congrArg some same)
            simp [tripled,other]
      · cases more <;> simp [tripled,other]

theorem shortRead {s : String} {text : List Char} (h : Literal s text) (rest : List Char) :
    string.short (text ++ rest) = some (s,rest) := by
  cases h with
  | quoted spelled => simp [string.short,basicSpelled spelled,string.named]

theorem stringRead {s : String} {text rest : List Char} (h : Literal s text) (closes : Closes rest) :
    string (text ++ rest) = some (s,rest) := by
  obtain ⟨double,single⟩ := literalUntripled h closes
  rw [string,double,single]
  exact shortRead h rest

structure Reads (reader : Text.Reader Malformed Item) (v : Value) (text : List Char) : Prop where
  start : ∃ c more, text = c :: more ∧ isBlank c = false ∧ c ∉ ['\n','\r','#',']']
  run : ∀ rest, Closes rest → ∃ item, reader.run (text ++ rest) = .ok (item,rest) ∧ item.value = v

theorem literalReads {s : String} {text : List Char} (h : Literal s text) (depth : Nat) :
    Reads (value depth) (.scalar (.string s)) text where
  start := by
    cases h with
    | quoted spelled => exact ⟨_,_,rfl,rfl,by decide⟩
  run rest closes := by
    have read := stringRead h closes
    have plain : ∃ more, text = '"' :: more := by
      cases h with
      | quoted spelled => exact ⟨_,rfl⟩
    obtain ⟨more,rfl⟩ := plain
    rw [List.cons_append] at read
    have found : simple.run ('"' :: (more ++ rest)) =
        .ok (.scalar (.string s) (between ('"' :: (more ++ rest)) rest),rest) := by
      simp [simple,scalar,read,orMalformed]
    refine ⟨.scalar (.string s) (between ('"' :: (more ++ rest)) rest),?_,rfl⟩
    cases depth with
    | zero => exact found
    | succ depth => exact found

theorem skipLinesGap {gap : List Char} (h : Gap gap) (cs : List Char) :
    skipLines false (gap ++ cs) = skipLines false cs := by
  induction gap with
  | nil => rfl
  | cons c gap ih =>
      have later := ih (fun d member => h d (List.mem_cons_of_mem c member))
      rw [List.cons_append,skipLines.eq_def]
      rcases h c List.mem_cons_self with blank | rfl
      · have other : c ≠ '\n' ∧ c ≠ '\r' := by
          constructor <;> rintro rfl <;> cases blank
        simp [blank,other,later]
      · simp [later]

theorem skipLinesSolid {c : Char} (solid : isBlank c = false) (other : c ∉ ['\n','\r','#']) (cs : List Char) :
    skipLines false (c :: cs) = some (c :: cs) := by
  simp only [List.mem_cons,List.not_mem_nil,or_false,not_or] at other
  rw [skipLines.eq_def]
  simp [solid,other]

theorem sepSame (c : Char) (cs : List Char) : sep c (c :: cs) = some cs := if_pos rfl

theorem sepOther {c d : Char} (other : d ≠ c) (cs : List Char) : sep c (d :: cs) = none := if_neg other

theorem gapCloses {gap : List Char} (h : Gap gap) {c : Char} (other : c ≠ '"') (rest : List Char) :
    Closes (gap ++ c :: rest) := by
  intro quote
  cases gap with
  | nil => exact other (Option.some.inj quote)
  | cons d gap =>
      obtain rfl : d = '"' := Option.some.inj quote
      rcases h _ List.mem_cons_self with blank | ends
      · cases blank
      · cases ends

section
variable {reader : Text.Reader Malformed Item} {item : Item} {cs start more tail : List Char}

theorem itemsClosed {rest : List Char} (skipped : skipLines false cs = some start) (closed : sep ']' start = some rest) :
    items reader cs = some ([],rest) := by
  rw [items]
  split
  · simp_all
  · simp_all

theorem itemsNext (skipped : skipLines false cs = some start) (open_ : sep ']' start = none)
    (read : reader.run start = .ok (item,more)) (again : skipLines false more = some tail) :
    items reader cs = match sep ']' tail with
      | some rest => some ([item],rest)
      | none => match sep ',' tail with
        | none => none
        | some next => (items reader next).map (fun found => (item :: found.1,found.2)) := by
  rw [items]
  split
  · simp_all
  · rename_i found
    cases skipped.symm.trans found
    simp only [open_]
    split
    · simp_all
    · rename_i taken
      cases read.symm.trans taken
      split
      · simp_all
      · rename_i passed
        cases again.symm.trans passed
        split
        · simp_all
        · split <;> simp_all

end

theorem startReady {reader : Text.Reader Malformed Item} {v : Value} {before text : List Char} (left : Gap before)
    (here : Reads reader v text) (rest : List Char) :
    skipLines false (before ++ text ++ rest) = some (text ++ rest) ∧ sep ']' (text ++ rest) = none := by
  obtain ⟨c,more,rfl,solid,other⟩ := here.start
  simp only [List.mem_cons,List.not_mem_nil,or_false,not_or] at other
  obtain ⟨_,_,_,open_⟩ := other
  rw [List.append_assoc,skipLinesGap left,List.cons_append,skipLinesSolid solid (by simp_all)]
  exact ⟨rfl,sepOther open_ _⟩

theorem itemsRead {reader : Text.Reader Malformed Item} {vs : List Value} {body : List Char}
    (h : Items (Reads reader) vs body) (rest : List Char) :
    ∃ found, items reader (body ++ rest) = some (found,rest) ∧ values found = vs := by
  induction h with
  | @closed gap only =>
      have start := skipLinesGap only (']' :: rest)
      rw [skipLinesSolid rfl (by decide)] at start
      refine ⟨[],?_,rfl⟩
      rw [List.append_assoc]
      exact itemsClosed start (sepSame _ _)
  | @last v before text after left here right =>
      have start := startReady left here (after ++ ']' :: rest)
      have ends := skipLinesGap right (']' :: rest)
      rw [skipLinesSolid rfl (by decide)] at ends
      obtain ⟨item,read,meant⟩ := here.run _ (gapCloses right (c := ']') (by decide) rest)
      refine ⟨[item],?_,by rw [values,values,meant]⟩
      have whole : before ++ text ++ after ++ [']'] ++ rest = before ++ text ++ (after ++ ']' :: rest) := by simp
      rw [whole,itemsNext start.1 start.2 read ends,sepSame]
  | @more v vs before text after others left here right _ ih =>
      have start := startReady left here (after ++ ',' :: (others ++ rest))
      have ends := skipLinesGap right (',' :: (others ++ rest))
      rw [skipLinesSolid rfl (by decide)] at ends
      obtain ⟨item,read,meant⟩ := here.run _ (gapCloses right (c := ',') (by decide) (others ++ rest))
      obtain ⟨found,later,same⟩ := ih
      refine ⟨item :: found,?_,by rw [values,meant,same]⟩
      have whole : before ++ text ++ after ++ ',' :: others ++ rest = before ++ text ++ (after ++ ',' :: (others ++ rest)) := by
        simp
      rw [whole,itemsNext start.1 start.2 read ends,sepOther (by decide),sepSame]
      dsimp only
      rw [later]
      rfl

theorem arrayReads {depth : Nat} {vs : List Value} {text : List Char} (h : ArrayText (Reads (value depth)) vs text) :
    Reads (value (depth + 1)) (.array vs) text := by
  obtain ⟨body,items,rfl⟩ := h
  refine ⟨⟨'[',body,rfl,rfl,by decide⟩,fun rest _ => ?_⟩
  obtain ⟨found,read,rfl⟩ := itemsRead items rest
  refine ⟨.array found (between ('[' :: (body ++ rest)) rest),?_,rfl⟩
  have compound : (compound (value depth)).run ('[' :: (body ++ rest)) =
      .ok (.array found (between ('[' :: (body ++ rest)) rest),rest) := by
    simp [Toml.compound,read,orMalformed]
  exact compound

theorem keyTextHead {name : String} {text : List Char} (h : KeyText name text) :
    ∃ c more, text = c :: more ∧ (isBare c = true ∨ c = '"' ∨ c = '\'') := by
  cases h with
  | bare some all =>
      cases whole : name.toList with
      | nil => exact absurd whole some
      | cons c more => exact ⟨c,more,rfl,.inl (all c (whole ▸ List.mem_cons_self))⟩
  | basic literal =>
      cases literal with
      | quoted spelled => exact ⟨_,_,rfl,.inr (.inl rfl)⟩
  | verbatim visible => exact ⟨_,_,rfl,.inr (.inr rfl)⟩

theorem keyTextStart {name : String} {text : List Char} (h : KeyText name text) :
    ∃ c more, text = c :: more ∧ isBlank c = false ∧ c ∉ ['#','\n','\r','[','\uFEFF'] := by
  obtain ⟨c,more,rfl,start⟩ := keyTextHead h
  refine ⟨c,more,rfl,?_⟩
  rcases start with bare | rfl | rfl
  · have other (d : Char) (odd : isBare d = false) : c ≠ d := by
      rintro rfl
      cases bare.symm.trans odd
    refine ⟨?_,?_⟩
    · simp [isBlank,other ' ' rfl,other '\t' rfl]
    · simp [other '#' rfl,other '\n' rfl,other '\r' rfl,other '[' rfl,other '\uFEFF' rfl]
  · decide
  · decide

def Apart (rest : List Char) : Prop := ∀ c ∈ rest.head?, isBare c = false

theorem keyPartRead {name : String} {text rest : List Char} (h : KeyText name text) (apart : Apart rest) :
    keyPart (text ++ rest) = some (name,rest) := by
  cases h with
  | bare some all =>
      have stops : rest.takeWhile isBare = [] ∧ rest.dropWhile isBare = rest := by
        cases rest with
        | nil => exact ⟨rfl,rfl⟩
        | cons c rest => simp [apart c rfl]
      cases whole : name.toList with
      | nil => exact absurd whole some
      | cons c more =>
          rw [whole] at all
          rw [List.cons_append,keyPart,if_pos (all c List.mem_cons_self),← List.cons_append,
            List.takeWhile_append_of_pos all,List.dropWhile_append_of_pos all,stops.1,stops.2,List.append_nil,← whole,
            String.ofList_toList]
  | basic literal =>
      have read := shortRead literal rest
      cases literal with
      | quoted spelled => exact read
  | verbatim visible =>
      have read := literalVerbatim visible rest
      simp [keyPart,isBare,string.short,read,string.named]

theorem keyPartsFirst {cs after rest : List Char} {name : String} {keys : List Key}
    (first : keyPart (skipBlank cs) = some (name,after)) (h : keyParts cs = some (keys,rest)) :
    ∃ span more, keys = ⟨name,span⟩ :: more := by
  rw [keyParts] at h
  split at h
  · cases h
  · rename_i found
    cases first.symm.trans found
    split at h
    · cases h
      exact ⟨_,_,rfl⟩
    · obtain ⟨⟨_,_⟩,_,same⟩ := Option.map_eq_some_iff.1 h
      cases same
      exact ⟨_,_,rfl⟩

theorem keyPartsSingle {cs after : List Char} {name : String} (first : keyPart (skipBlank cs) = some (name,after))
    (last : sep '.' (skipBlank after) = none) :
    keyParts cs = some ([⟨name,between (skipBlank cs) after⟩],skipBlank after) := by
  rw [keyParts]
  split
  · simp_all
  · rename_i found
    cases first.symm.trans found
    split
    · rfl
    · simp_all

theorem keyPathFirst {cs after rest : List Char} {name : String} {path : List Key} {key : Key}
    (first : keyPart (skipBlank cs) = some (name,after)) (h : keyPath cs = some (path,key,rest)) :
    ∃ span more, path ++ [key] = ⟨name,span⟩ :: more := by
  simp only [keyPath,bind,Option.bind_eq_some_iff] at h
  obtain ⟨⟨keys,behind⟩,read,last,ends,same⟩ := h
  split at same
  · cases same
    obtain ⟨span,more,rfl⟩ := keyPartsFirst first read
    exact ⟨span,more,List.dropLast_append_getLast? key ends⟩
  · cases same

theorem keyPathSingle {cs after : List Char} {name : String} (first : keyPart (skipBlank cs) = some (name,after))
    (last : sep '.' (skipBlank after) = none) :
    ∃ span, keyPath cs = some ([],⟨name,span⟩,skipBlank after) := by
  refine ⟨between (skipBlank cs) after,?_⟩
  rw [keyPath,keyPartsSingle first last]
  rfl

theorem lineEndBlanks {blank : List Char} (only : Blanks blank) (rest : List Char) :
    lineEnd (blank ++ '\n' :: rest) = some rest := by
  have ends : isBlank '\n' = false := rfl
  simp [lineEnd,skipBlankBlanks only,skipBlankSolid ends,newline]

theorem blanksApart {blank : List Char} (h : Blanks blank) {c : Char} (other : isBare c = false) (rest : List Char) :
    Apart (blank ++ c :: rest) := by
  intro d first
  cases blank with
  | nil =>
      cases first
      exact other
  | cons b blank =>
      cases first
      have space := h _ List.mem_cons_self
      simp only [isBlank,Bool.or_eq_true,decide_eq_true_eq] at space
      rcases space with rfl | rfl <;> rfl

theorem putNew {t : Table} {key : Key} {item : Item} (new : key.name ∉ t.names) :
    t.put .header [] key item = some (t ++ [(key,item)]) := by
  simp [Table.put,Table.within,Table.put.add,Table.itemNone.2 new]

theorem fieldsAppend (t : Table) (key : Key) (item : Item) :
    fields (t ++ [(key,item)]) = fields t ++ [(key.name,item.value)] := by
  induction t with
  | nil => rfl
  | cons entry t ih => exact congrArg ((entry.1.name,entry.2.value) :: ·) ih

theorem keyValueRead {reader : Text.Reader Malformed Item} {name : String} {v : Value} {key left right text rest : List Char}
    (named : KeyText name key) (behind : Blanks left) (ahead : Blanks right) (here : Reads reader v text)
    (closes : Closes rest) : ∃ span item, item.value = v ∧
      keyValue reader (key ++ (left ++ '=' :: (right ++ (text ++ rest)))) = some ([],⟨name,span⟩,item,rest) := by
  have part := keyPartRead named (blanksApart behind (c := '=') rfl (right ++ (text ++ rest)))
  have equals := skipBlankBlanks behind ('=' :: (right ++ (text ++ rest)))
  rw [skipBlankSolid rfl] at equals
  have start : skipBlank (key ++ (left ++ '=' :: (right ++ (text ++ rest)))) =
      key ++ (left ++ '=' :: (right ++ (text ++ rest))) := by
    obtain ⟨c,more,rfl,solid,_⟩ := keyTextStart named
    exact skipBlankSolid solid _
  rw [← start] at part
  obtain ⟨span,path⟩ := keyPathSingle part (by rw [equals]; rfl)
  obtain ⟨item,read,meant⟩ := here.run rest closes
  obtain ⟨c,more,same,solid,_⟩ := here.start
  have value : skipBlank (right ++ (text ++ rest)) = text ++ rest := by
    rw [skipBlankBlanks ahead,same]
    exact skipBlankSolid solid _
  refine ⟨span,item,meant,?_⟩
  rw [keyValue,path,equals]
  simp only [bind,Option.bind,sepSame,value,read,Except.toOption]

theorem headerNone {c : Char} (other : c ≠ '[') (cs : List Char) : header (c :: cs) = none := by
  rw [header,sepOther other]
  rfl

section
variable {d : Draft} {name : String} {v : Value}

theorem lineRead {key left right text after : List Char} (top : d.path = []) (new : name ∉ d.table.names)
    (named : KeyText name key) (behind : Blanks left) (ahead : Blanks right) (here : Reads (value deepest) v text)
    (trailing : Blanks after) (rest : List Char) :
    ∃ next, line d (key ++ (left ++ '=' :: (right ++ (text ++ (after ++ '\n' :: rest))))) = some (next,rest) ∧
      next.path = [] ∧ fields next.table = fields d.table ++ [(name,v)] := by
  have closes : Closes (after ++ '\n' :: rest) := gapCloses (fun c member => .inl (trailing c member)) (by decide) rest
  obtain ⟨span,item,rfl,read⟩ := keyValueRead named behind ahead here closes
  obtain ⟨c,more,rfl,_,other⟩ := keyTextStart named
  simp only [List.mem_cons,List.not_mem_nil,or_false,not_or] at other
  obtain ⟨_,_,_,open_,_⟩ := other
  have put : d.table.put .header [] ⟨name,span⟩ item = some (d.table ++ [(⟨name,span⟩,item)]) := putNew new
  rw [List.cons_append] at read ⊢
  refine ⟨{d with table := d.table ++ [(⟨name,span⟩,item)],span := Draft.add.extended d item},?_,top,fieldsAppend _ _ _⟩
  simp [line,headerNone open_,sepOther open_,read,lineEndBlanks trailing,Draft.add,put]

theorem documentLine {cs : List Char} {c : Char} {more : List Char} (start : skipBlank cs = c :: more)
    (other : c ∉ ['#','\n','\r']) : document d cs = (line d (c :: more)).bind (fun read => document read.1 read.2) := by
  have solid : ¬ (c = '#' ∨ c = '\n' ∨ c = '\r') := by simpa using other
  rw [document]
  split
  · simp_all
  · rename_i found
    cases start.symm.trans found
    rw [if_neg solid]
    split <;> simp_all

theorem linesRead {pairs : List (String × Value)} {text : List Char} (h : LinesText (Reads (value deepest)) pairs text)
    (top : d.path = []) (distinct : (pairs.map Prod.fst).Nodup) (new : ∀ pair ∈ pairs, pair.1 ∉ d.table.names)
    (rest : List Char) : ∃ next, document d (text ++ rest) = document next rest ∧ next.path = [] ∧
      fields next.table = fields d.table ++ pairs := by
  induction h generalizing d with
  | nil => exact ⟨d,rfl,top,(List.append_nil _).symm⟩
  | @cons pair pairs text others line _ ih =>
      obtain ⟨apart,unique⟩ := List.nodup_cons.1 distinct
      cases line with
      | @pair name v before key left right text after indent named behind ahead here trailing =>
          obtain ⟨next,read,level,found⟩ :=
            lineRead top (new _ List.mem_cons_self) named behind ahead here trailing (others ++ rest)
          have names : next.table.names = d.table.names ++ [name] := by
            rw [← fieldsNames,found,List.map_append,fieldsNames]
            rfl
          have unseen : ∀ pair ∈ pairs, pair.1 ∉ next.table.names := by
            intro pair member
            rw [names,List.mem_append,List.mem_singleton,not_or]
            refine ⟨new pair (List.mem_cons_of_mem _ member),fun same => apart ?_⟩
            exact List.mem_map.2 ⟨pair,member,same⟩
          obtain ⟨last,through,done,all⟩ := ih level unique unseen
          refine ⟨last,?_,done,by rw [all,found,List.append_assoc]; rfl⟩
          obtain ⟨c,more,rfl,solid,other⟩ := keyTextStart named
          have start := skipBlankBlanks indent
            (c :: more ++ (left ++ '=' :: (right ++ (text ++ (after ++ '\n' :: (others ++ rest))))))
          rw [List.cons_append,skipBlankSolid solid] at start
          rw [← through]
          rw [List.cons_append] at read
          have whole : before ++ c :: more ++ left ++ '=' :: right ++ text ++ after ++ ['\n'] ++ others ++ rest =
              before ++ c :: (more ++ (left ++ '=' :: (right ++ (text ++ (after ++ '\n' :: (others ++ rest)))))) := by
            simp
          rw [whole,documentLine start (by simp_all),read]
          rfl

end

theorem rootUnmarked {cs : List Char} (plain : '\uFEFF' ∉ cs.head?) :
    root (String.ofList cs) = (document Draft.start cs).bind Draft.finish := by
  rw [root,String.toList_ofList]
  cases cs with
  | nil => rfl
  | cons c rest =>
      have other : c ≠ '\uFEFF' := fun same => plain (congrArg some same)
      dsimp only
      rw [if_neg other]
      rfl

theorem keyUnmarked {blank key : List Char} {name : String} (h : Blanks blank) (named : KeyText name key) (rest : List Char) :
    '\uFEFF' ∉ (blank ++ (key ++ rest)).head? := by
  intro mark
  cases blank with
  | nil =>
      obtain ⟨c,more,rfl,_,other⟩ := keyTextStart named
      obtain rfl : c = '\uFEFF' := Option.some.inj mark
      simp at other
  | cons b blank =>
      obtain rfl : b = '\uFEFF' := Option.some.inj mark
      cases h _ List.mem_cons_self

theorem linesUnmarked {α : Type} {value : α → List Char → Prop} {pairs : List (String × α)} {text : List Char}
    (h : LinesText value pairs text) {rest : List Char} (plain : '\uFEFF' ∉ rest.head?) : '\uFEFF' ∉ (text ++ rest).head? := by
  cases h with
  | nil => exact plain
  | cons line _ =>
      cases line with
      | pair indent named _ _ _ _ =>
          simp only [List.append_assoc]
          exact keyUnmarked indent named _

theorem rootRead {pairs : List (String × Value)} {text : List Char} (h : LinesText (Reads (value deepest)) pairs text)
    (distinct : (pairs.map Prod.fst).Nodup) : ∃ table, root (String.ofList text) = some table ∧ fields table = pairs := by
  obtain ⟨last,through,level,found⟩ := linesRead h (d := Draft.start) rfl distinct nofun []
  have plain : '\uFEFF' ∉ (text ++ []).head? := linesUnmarked h nofun
  have ends : document last [] = some last := by
    rw [document]
    rfl
  rw [List.append_nil] at through plain
  refine ⟨last.table,?_,found⟩
  rw [rootUnmarked plain,through,ends]
  simp [Draft.finish,level]

end SyntaxCatalog.Toml
