import SyntaxCatalog.Text.Position
import SyntaxCatalog.Toml.Scalar

/-! Reading documents. Values nest less than 80 deep, and keys have less than 80 parts. -/
namespace SyntaxCatalog.Toml
open Text (Reader bytes)

inductive Malformed where
  | malformed
  deriving DecidableEq, Repr

def deepest : Nat := 79

def between (start stop : List Char) : Span := ⟨bytes start,bytes stop⟩

def keyParts (cs : List Char) : Option (List Key × List Char) :=
  match _h : keyPart (skipBlank cs) with
  | none => none
  | some (name,rest) =>
      match _d : sep '.' (skipBlank rest) with
      | none => some ([⟨name,between (skipBlank cs) rest⟩],skipBlank rest)
      | some more =>
          (keyParts more).map (fun (keys,last) => (⟨name,between (skipBlank cs) rest⟩ :: keys,last))
  termination_by cs.length
  decreasing_by
    have one := skipBlankLength cs
    have two := keyPartLength (by assumption)
    have three := skipBlankLength rest
    have four := sepLength (by assumption)
    omega

theorem keyPartsLength {cs keys rest} (h : keyParts cs = some (keys,rest)) :
    rest.length < cs.length := by
  fun_induction keyParts cs generalizing keys rest with
  | case1 => cases h
  | case2 cs name middle read =>
      cases h
      have one := skipBlankLength cs
      have two := keyPartLength read
      have three := skipBlankLength middle
      omega
  | case3 cs name middle read more dot ih =>
      obtain ⟨⟨_,_⟩,tail,same⟩ := Option.map_eq_some_iff.1 h
      cases same
      have one := skipBlankLength cs
      have two := keyPartLength read
      have three := skipBlankLength middle
      have four := sepLength dot
      have five := ih tail
      omega

def keyPath (cs : List Char) : Option (List Key × Key × List Char) := do
  let (keys,rest) ← keyParts cs
  let key ← keys.getLast?
  if keys.length ≤ deepest then some (keys.dropLast,key,rest) else none

theorem keyPathLength {cs path key rest} (h : keyPath cs = some (path,key,rest)) :
    rest.length < cs.length := by
  simp only [keyPath,bind,Option.bind_eq_some_iff] at h
  obtain ⟨⟨keys,last⟩,read,_,_,same⟩ := h
  split at same <;> cases same
  exact keyPartsLength read

def keyValue (value : Reader Malformed Item) (cs : List Char) :
    Option (List Key × Key × Item × List Char) := do
  let (path,key,rest) ← keyPath cs
  let rest ← sep '=' rest
  let (item,rest) ← (value.run (skipBlank rest)).toOption
  some (path,key,item,rest)

theorem keyValueLength {value : Reader Malformed Item} {cs path key item rest}
    (h : keyValue value cs = some (path,key,item,rest)) : rest.length < cs.length := by
  simp only [keyValue,bind,Option.bind_eq_some_iff] at h
  obtain ⟨⟨_,_,one⟩,named,two,equals,⟨_,_⟩,read,same⟩ := h
  cases same
  have a := keyPathLength named
  have b := sepLength equals
  have c := skipBlankLength two
  cases taken : value.run (skipBlank two) with
  | error e => simp [taken,Except.toOption] at read
  | ok found =>
      simp only [taken,Except.toOption,Option.some.injEq] at read
      cases read
      have d := value.shorter taken
      dsimp only at *
      omega

def items (value : Reader Malformed Item) (cs : List Char) : Option (List Item × List Char) :=
  match _s : skipLines false cs with
  | none => none
  | some start =>
      match sep ']' start with
      | some rest => some ([],rest)
      | none =>
          match _v : value.run start with
          | .error _ => none
          | .ok (item,more) =>
              match _e : skipLines false more with
              | none => none
              | some tail =>
                  match sep ']' tail with
                  | some rest => some ([item],rest)
                  | none =>
                      match _c : sep ',' tail with
                      | none => none
                      | some next => (items value next).map (fun (rest,last) => (item :: rest,last))
  termination_by cs.length
  decreasing_by
    have one := skipLinesLength _s
    have two := value.shorter _v
    have three := skipLinesLength _e
    have four := sepLength _c
    omega

theorem itemsLength {value : Reader Malformed Item} {cs found rest}
    (h : items value cs = some (found,rest)) : rest.length < cs.length := by
  fun_induction items value cs generalizing found rest with
  | case1 => cases h
  | case2 cs start skipped last closed =>
      cases h
      have := skipLinesLength skipped
      have := sepLength closed
      omega
  | case3 => cases h
  | case4 => cases h
  | case5 cs start skipped _ item more read tail again last closed =>
      cases h
      have := skipLinesLength skipped
      have := value.shorter read
      have := skipLinesLength again
      have := sepLength closed
      omega
  | case6 => cases h
  | case7 cs start skipped _ item more read tail again _ next comma ih =>
      obtain ⟨⟨_,_⟩,later,same⟩ := Option.map_eq_some_iff.1 h
      cases same
      have := skipLinesLength skipped
      have := value.shorter read
      have := skipLinesLength again
      have := sepLength comma
      have := ih later
      omega

def entries (value : Reader Malformed Item) (table : Table) (cs : List Char) :
    Option (Table × List Char) :=
  match _h : keyValue value cs with
  | none => none
  | some (path,key,item,rest) =>
      match table.put .braces path key item with
      | none => none
      | some table =>
          match sep '}' (skipBlank rest) with
          | some last => some (table,last)
          | none =>
              match _c : sep ',' (skipBlank rest) with
              | none => none
              | some more => entries value table more
  termination_by cs.length
  decreasing_by
    have one := keyValueLength (by assumption)
    have two := skipBlankLength rest
    have three := sepLength (by assumption)
    omega

theorem entriesLength {value : Reader Malformed Item} {table cs found rest}
    (h : entries value table cs = some (found,rest)) : rest.length < cs.length := by
  fun_induction entries value table cs generalizing found rest with
  | case1 => cases h
  | case2 => cases h
  | case3 table cs path key item middle read new _ last closed =>
      cases h
      have := keyValueLength read
      have := skipBlankLength middle
      have := sepLength closed
      omega
  | case4 => cases h
  | case5 table cs path key item middle read new _ _ more comma ih =>
      have := keyValueLength read
      have := skipBlankLength middle
      have := sepLength comma
      have := ih h
      omega

def braces (value : Reader Malformed Item) (cs : List Char) : Option (Table × List Char) :=
  match sep '}' (skipBlank cs) with
  | some rest => some ([],rest)
  | none => entries value [] cs

theorem bracesLength {value : Reader Malformed Item} {cs found rest}
    (h : braces value cs = some (found,rest)) : rest.length < cs.length := by
  unfold braces at h
  split at h
  · rename_i closed
    cases h
    have := skipBlankLength cs
    have := sepLength closed
    omega
  · exact entriesLength h

def orMalformed {α : Type} : Option α → Except Malformed α
  | some a => .ok a
  | none => .error .malformed

theorem fromOption {α : Type} {o : Option α} {a : α} (h : orMalformed o = .ok a) : o = some a := by
  cases o <;> simp_all [orMalformed]

def compound (value : Reader Malformed Item) : Reader Malformed Item where
  run cs := orMalformed <|
    match cs with
    | [] => none
    | c :: rest =>
        if c = '[' then (items value rest).map (fun (found,last) => (.array found (between cs last),last))
        else if c = '{' then
          (braces value rest).map (fun (found,last) => (.table .braces found (some (between cs last)),last))
        else none
  shorter := by
    intro cs item rest h
    have h := fromOption h
    split at h
    · cases h
    · simp only [List.length_cons]
      split at h
      · obtain ⟨⟨_,_⟩,read,same⟩ := Option.map_eq_some_iff.1 h
        cases same
        have := itemsLength read
        omega
      · split at h
        · obtain ⟨⟨_,_⟩,read,same⟩ := Option.map_eq_some_iff.1 h
          cases same
          have := bracesLength read
          omega
        · cases h

def simple : Reader Malformed Item where
  run cs := orMalformed ((scalar cs).map (fun (v,rest) => (.scalar v (between cs rest),rest)))
  shorter := by
    intro cs item rest h
    obtain ⟨⟨_,_⟩,read,same⟩ := Option.map_eq_some_iff.1 (fromOption h)
    cases same
    exact scalarLength read

def startsCompound : List Char → Bool
  | c :: _ => c == '[' || c == '{'
  | [] => false

def value : Nat → Reader Malformed Item
  | 0 => simple
  | depth + 1 => {
      run := fun cs => if startsCompound cs then (compound (value depth)).run cs else simple.run cs
      shorter := by
        intro cs item rest h
        split at h
        · exact (compound (value depth)).shorter h
        · exact simple.shorter h }

def header (cs : List Char) : Option (List Key × Bool × List Char) := do
  let rest ← sep '[' cs
  match sep '[' rest with
  | some inner =>
      let (path,key,rest) ← keyPath inner
      let rest ← sep ']' rest
      let rest ← sep ']' rest
      some (path ++ [key],true,rest)
  | none =>
      let (path,key,rest) ← keyPath rest
      let rest ← sep ']' rest
      some (path ++ [key],false,rest)

theorem headerLength {cs path repeated rest} (h : header cs = some (path,repeated,rest)) :
    rest.length < cs.length := by
  simp only [header,bind,Option.bind_eq_some_iff] at h
  obtain ⟨one,opened,h⟩ := h
  have a := sepLength opened
  split at h
  · rename_i again
    simp only [Option.bind_eq_some_iff] at h
    obtain ⟨⟨_,_,_⟩,named,_,closed,_,closedAgain,same⟩ := h
    cases same
    have b := sepLength again
    have c := keyPathLength named
    have d := sepLength closed
    have e := sepLength closedAgain
    dsimp only at *
    omega
  · simp only [Option.bind_eq_some_iff] at h
    obtain ⟨⟨_,_,_⟩,named,_,closed,same⟩ := h
    cases same
    have c := keyPathLength named
    have d := sepLength closed
    dsimp only at *
    omega

def line (d : Draft) (cs : List Char) : Option (Draft × List Char) :=
  match header cs with
  | some (path,repeated,rest) => do
      let d ← d.enter path repeated (between cs rest)
      let rest ← lineEnd rest
      some (d,rest)
  | none =>
      if (sep '[' cs).isSome then none
      else do
        let (path,key,item,rest) ← keyValue (value deepest) cs
        let rest ← lineEnd rest
        let d ← d.add path key item
        some (d,rest)

theorem lineLength {d cs next rest} (h : line d cs = some (next,rest)) : rest.length < cs.length := by
  unfold line at h
  split at h
  · rename_i found
    simp only [bind,Option.bind_eq_some_iff] at h
    obtain ⟨_,_,_,ended,same⟩ := h
    cases same
    have a := headerLength found
    have b := lineEndLength ended
    omega
  · split at h
    · cases h
    · simp only [bind,Option.bind_eq_some_iff] at h
      obtain ⟨⟨_,_,_,_⟩,read,_,ended,_,_,same⟩ := h
      cases same
      have a := keyValueLength read
      have b := lineEndLength ended
      dsimp only at *
      omega

def document (d : Draft) (cs : List Char) : Option Draft :=
  match _s : skipBlank cs with
  | [] => some d
  | c :: rest =>
      if c = '#' ∨ c = '\n' ∨ c = '\r' then
        match _e : lineEnd (c :: rest) with
        | none => none
        | some more => document d more
      else
        match _l : line d (c :: rest) with
        | none => none
        | some (next,more) => document next more
  termination_by cs.length
  decreasing_by
  · have one := skipBlankLength cs
    have two := lineEndShorter _e
    rw [_s] at one
    omega
  · have one := skipBlankLength cs
    have two := lineLength _l
    rw [_s] at one
    omega

def root (text : String) : Option Table := do
  let d ← document Draft.start (match text.toList with
    | c :: rest => if c = '\uFEFF' then rest else c :: rest
    | [] => [])
  d.finish

end SyntaxCatalog.Toml
