import SyntaxCatalog.Proofs.Toml.Reading

/-! The name that a line is about. Whatever comes behind it, a document that can be read has this name in its topmost
table: a key sets it, and the header of a table opens it. -/
namespace SyntaxCatalog.Toml

inductive Opener : List Char → Prop where
  | line : Opener []
  | header : Opener ['[']
  | repeated : Opener ['[','[']

section
variable {d next : Draft} {cs blank key rest left : List Char} {name : String}

theorem keyAhead (inside : Blanks blank) (named : KeyText name key) (apart : Apart rest) :
    keyPart (skipBlank (blank ++ (key ++ rest))) = some (name,rest) := by
  have part := keyPartRead named apart
  obtain ⟨c,more,rfl,solid,_⟩ := keyTextStart named
  rw [skipBlankBlanks inside]
  rw [List.cons_append] at part ⊢
  rw [skipBlankSolid solid]
  exact part

theorem headerOnce {path : List Key} {repeated : Bool} (once : sep '[' cs = none)
    (h : header ('[' :: cs) = some (path,repeated,left)) :
    ∃ inner key after, keyPath cs = some (inner,key,after) ∧ path = inner ++ [key] := by
  simp only [header,sepSame,bind,Option.bind_some,once,Option.bind_eq_some_iff] at h
  obtain ⟨⟨inner,key,after⟩,read,_,_,same⟩ := h
  cases same
  exact ⟨inner,key,after,read,rfl⟩

theorem headerTwice {path : List Key} {repeated : Bool} (h : header ('[' :: '[' :: cs) = some (path,repeated,left)) :
    ∃ inner key after, keyPath cs = some (inner,key,after) ∧ path = inner ++ [key] := by
  simp only [header,sepSame,bind,Option.bind_some,Option.bind_eq_some_iff] at h
  obtain ⟨⟨inner,key,after⟩,read,_,_,_,_,same⟩ := h
  cases same
  exact ⟨inner,key,after,read,rfl⟩

theorem keyUnopened (inside : Blanks blank) (named : KeyText name key) : sep '[' (blank ++ (key ++ rest)) = none := by
  cases blank with
  | nil =>
      obtain ⟨c,more,rfl,_,other⟩ := keyTextStart named
      simp only [List.mem_cons,List.not_mem_nil,or_false,not_or] at other
      exact sepOther other.2.2.2.1 _
  | cons b blank =>
      have other : b ≠ '[' := by
        rintro rfl
        cases inside _ List.mem_cons_self
      exact sepOther other _

theorem headerNamed {opener : List Char} (opens : Opener opener) (table : opener ≠ []) (inside : Blanks blank)
    (named : KeyText name key) (apart : Apart rest) {path : List Key} {repeated : Bool}
    (h : header (opener ++ (blank ++ (key ++ rest))) = some (path,repeated,left)) :
    ∃ span more, path = ⟨name,span⟩ :: more := by
  have first := keyAhead inside named apart
  cases opens with
  | line => exact absurd rfl table
  | header =>
      obtain ⟨inner,last,after,read,rfl⟩ := headerOnce (keyUnopened inside named) h
      exact keyPathFirst first read
  | repeated =>
      obtain ⟨inner,last,after,read,rfl⟩ := headerTwice h
      exact keyPathFirst first read

theorem keyValueFirst {reader : Text.Reader Malformed Item} {after : List Char} {path : List Key} {last : Key} {item : Item}
    (first : keyPart (skipBlank cs) = some (name,after)) (h : keyValue reader cs = some (path,last,item,rest)) :
    (path.headD last).name = name := by
  simp only [keyValue,bind,Option.bind_eq_some_iff] at h
  obtain ⟨⟨inner,key,_⟩,keys,_,_,_,_,same⟩ := h
  cases same
  obtain ⟨span,more,first⟩ := keyPathFirst first keys
  cases inner with
  | nil => exact congrArg Key.name (List.cons.inj first).1
  | cons head inner => exact congrArg Key.name (List.cons.inj first).1

theorem lineNamed {opener : List Char} (distinct : d.names.Nodup) (top : d.path = []) (opens : Opener opener)
    (inside : Blanks blank) (named : KeyText name key) (apart : Apart rest)
    (h : line d (opener ++ (blank ++ (key ++ rest))) = some (next,left)) : name ∈ next.names := by
  unfold line at h
  split at h
  · rename_i path repeated after found
    simp only [bind,Option.bind_eq_some_iff] at h
    obtain ⟨_,entered,_,_,same⟩ := h
    cases same
    obtain ⟨head,more,rfl,names⟩ := Draft.enterNames distinct entered
    have table : opener ≠ [] := by
      rintro rfl
      simp only [List.nil_append,header,keyUnopened inside named] at found
      cases found
    obtain ⟨span,_,same⟩ := headerNamed opens table inside named apart found
    cases same
    exact names.mem_iff.2 (memGrown.2 (.inr rfl))
  · split at h
    · cases h
    · rename_i open_
      have bare : opener = [] := by
        cases opens with
        | line => rfl
        | header => exact absurd rfl open_
        | repeated => exact absurd rfl open_
      subst bare
      simp only [bind,Option.bind_eq_some_iff] at h
      obtain ⟨⟨path,last,item,after⟩,read,_,_,_,added,same⟩ := h
      cases same
      have names := Draft.addNames added
      rw [if_pos top] at names
      rw [names]
      exact memGrown.2 (.inr (keyValueFirst (keyAhead inside named apart) read).symm)

theorem openerStart {opener : List Char} (opens : Opener opener) (inside : Blanks blank) (named : KeyText name key)
    (rest : List Char) : ∃ blank', Blanks blank' ∧ ∃ c more, skipBlank (opener ++ (blank ++ (key ++ rest))) = c :: more ∧
      c :: more = opener ++ (blank' ++ (key ++ rest)) ∧ c ∉ ['#','\n','\r'] := by
  obtain ⟨c,more,rfl,solid,other⟩ := keyTextStart named
  cases opens with
  | line =>
      refine ⟨[],blanksNil,c,more ++ rest,?_,rfl,by simp_all⟩
      exact (skipBlankBlanks inside _).trans (skipBlankSolid solid _)
  | header => exact ⟨blank,inside,'[',_,skipBlankSolid rfl _,rfl,by decide⟩
  | repeated => exact ⟨blank,inside,'[',_,skipBlankSolid rfl _,rfl,by decide⟩

theorem openerUnmarked {indent opener : List Char} (lead : Blanks indent) (opens : Opener opener) (inside : Blanks blank)
    (named : KeyText name key) (rest : List Char) : '\uFEFF' ∉ (indent ++ (opener ++ (blank ++ (key ++ rest)))).head? := by
  cases indent with
  | nil =>
      cases opens with
      | line => exact keyUnmarked inside named rest
      | header => exact nofun
      | repeated => exact nofun
  | cons b indent =>
      intro mark
      obtain rfl : b = '\uFEFF' := Option.some.inj mark
      cases lead _ List.mem_cons_self

theorem rootNamed {pairs : List (String × Value)} {front indent opener : List Char}
    (h : LinesText (Reads (value deepest)) pairs front) (distinct : (pairs.map Prod.fst).Nodup) (lead : Blanks indent)
    (opens : Opener opener) (inside : Blanks blank) (named : KeyText name key) (apart : Apart rest) {table : Table}
    (parsed : root (String.ofList (front ++ (indent ++ (opener ++ (blank ++ (key ++ rest)))))) = some table) :
    name ∈ table.names := by
  obtain ⟨d,through,level,found⟩ :=
    linesRead h (d := Draft.start) rfl distinct nofun (indent ++ (opener ++ (blank ++ (key ++ rest))))
  obtain ⟨blank',inside',c,more,start,whole,other⟩ := openerStart opens inside named rest
  have unmarked := linesUnmarked h (openerUnmarked lead opens inside named rest)
  rw [rootUnmarked unmarked,through,documentLine ((skipBlankBlanks lead _).trans start) other,whole] at parsed
  have names : d.names = pairs.map Prod.fst := by
    rw [Draft.names,level]
    dsimp only
    rw [← fieldsNames,found]
    rfl
  simp only [Option.bind_eq_some_iff] at parsed
  obtain ⟨last,⟨⟨next,left⟩,read,onward⟩,closed⟩ := parsed
  have unique : d.names.Nodup := by rwa [names]
  have there := lineNamed unique level opens inside' named apart read
  have kept := documentKept (lineKept unique read).distinct onward
  rw [Draft.finishNames closed]
  exact kept.kept there

end

end SyntaxCatalog.Toml
