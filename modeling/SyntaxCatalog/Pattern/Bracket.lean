import SyntaxCatalog.Pattern.Lexeme

/-! Sets between brackets. Sets lie in each other, and two of them are combined by a doubled `&`, `-`
or `~`; a dash or a closing bracket at the start of a set stands for itself. -/
namespace SyntaxCatalog.Pattern

def setNames : List String :=
  ["alnum","alpha","ascii","blank","cntrl","digit","graph","lower","print","punct","space","upper",
    "word","xdigit"]

def namedSet : List Char → Option (Bool × List Char)
  | ':' :: '^' :: cs => ending true cs
  | ':' :: cs => ending false cs
  | _ => none
where
  ending (negated : Bool) (cs : List Char) : Option (Bool × List Char) :=
    match cs.dropWhile (· ≠ ':') with
    | ':' :: ']' :: rest =>
        if setNames.contains (String.ofList (cs.takeWhile (· ≠ ':'))) then some (negated,rest) else none
    | _ => none

theorem namedSetEndingLength {negated cs read} (h : namedSet.ending negated cs = some read) :
    read.2.length < cs.length := by
  unfold namedSet.ending at h
  have before := Text.dropWhileLength (· ≠ ':') cs
  split at h
  · rename_i closed
    rw [closed] at before
    split at h <;> cases h
    simp only [List.length_cons] at before ⊢; omega
  · cases h

theorem namedSetLength {cs read} (h : namedSet cs = some read) : read.2.length < cs.length := by
  unfold namedSet at h
  split at h
  · have := namedSetEndingLength h; simp only [List.length_cons]; omega
  · have := namedSetEndingLength h; simp only [List.length_cons]; omega
  · cases h

def setItem (spaced : Bool) (c : Char) (cs : List Char) : Option (Escape × List Char) :=
  if c = '\\' then escape spaced cs else some (.literal ⟨c,false⟩,cs)

theorem setItemLength {spaced c cs read} (h : setItem spaced c cs = some read) :
    read.2.length ≤ cs.length := by
  unfold setItem at h
  split at h
  · exact Nat.le_of_lt (escapeLength h)
  · cases h; exact Nat.le_refl _

def Escape.charSet? : Escape → Option CharSet
  | .literal l => some (.literal l)
  | .shorthand negated => some (.shorthand negated)
  | .place _ => none

def Escape.range? : Escape → Escape → Option CharSet
  | .literal first,.literal last => if first.char ≤ last.char then some (.range first last) else none
  | _,_ => none

def setRange (spaced : Bool) (c : Char) (cs : List Char) : Option (CharSet × List Char) :=
  match setItem spaced c cs with
  | none => none
  | some (first,after) =>
      match skip spaced after with
      | [] => none
      | d :: rest =>
          if d = '-' then
            match skip spaced rest with
            | [] => none
            | e :: more =>
                if e = ']' ∨ e = '-' then first.charSet?.map (·,d :: rest)
                else
                  match setItem spaced e more with
                  | none => none
                  | some (last,more) => (first.range? last).map (·,more)
          else first.charSet?.map (·,d :: rest)

theorem setRangeLength {spaced c cs read} (h : setRange spaced c cs = some read) :
    read.2.length ≤ cs.length := by
  unfold setRange at h
  split at h
  · cases h
  · rename_i first after item
    have one := setItemLength item
    have two := skipLength spaced after
    simp only at one
    split at h
    · cases h
    · rename_i d rest next
      rw [next] at two
      split at h
      · have three := skipLength spaced rest
        split at h
        · cases h
        · rename_i e more last
          rw [last] at three
          simp only [List.length_cons] at two three
          split at h
          · obtain ⟨_,_,same⟩ := Option.map_eq_some_iff.1 h
            cases same; simp only [List.length_cons]; omega
          · split at h
            · cases h
            · rename_i second
              have four := setItemLength second
              obtain ⟨_,_,same⟩ := Option.map_eq_some_iff.1 h
              cases same; simp only at four ⊢; omega
      · obtain ⟨_,_,same⟩ := Option.map_eq_some_iff.1 h
        cases same; exact Nat.le_trans two one

inductive SetMark where
  | item (s : CharSet)
  | dash
  | opened (negated : Bool)
  | closed
  | combined

structure OpenSet where
  negated : Bool
  start : Bool
  items : List CharSet
  left : Option CharSet

def OpenSet.fresh (negated : Bool) : OpenSet := ⟨negated,true,[],none⟩

def OpenSet.inside (o : OpenSet) : CharSet :=
  let right := CharSet.ofItems o.items.reverse
  match o.left with
  | none => right
  | some left => .combined left right

def OpenSet.charSet (o : OpenSet) : CharSet := .bracketed o.negated o.inside

def OpenSet.add (o : OpenSet) (s : CharSet) : OpenSet := {o with start := false,items := s :: o.items}

def negation : List Char → Bool × List Char
  | [] => (false,[])
  | c :: cs => if c = '^' then (true,cs) else (false,c :: cs)

theorem negationLength (cs : List Char) : (negation cs).2.length ≤ cs.length := by
  unfold negation
  split
  · exact Nat.le_refl _
  · split <;> simp

def OpenSet.mark (o : OpenSet) (spaced : Bool) (c : Char) (cs : List Char) : Option (SetMark × List Char) :=
  if o.start && c = '-' then some (.dash,cs)
  else if o.start && o.items.isEmpty && c = ']' then some (.item (.literal ⟨c,false⟩),cs)
  else if c = '[' then
    match namedSet cs with
    | some (negated,rest) => some (.item (.named negated),rest)
    | none => let (negated,rest) := negation (skip spaced cs); some (.opened negated,rest)
  else if c = ']' then some (.closed,cs)
  else if (c = '&' || c = '-' || c = '~') && cs.head? == some c then some (.combined,cs.drop 1)
  else (setRange spaced c cs).map (fun (s,rest) => (.item s,rest))

theorem markLength {o : OpenSet} {spaced c cs read} (h : o.mark spaced c cs = some read) :
    read.2.length ≤ cs.length := by
  unfold OpenSet.mark at h
  split at h
  · cases h; exact Nat.le_refl _
  · split at h
    · cases h; exact Nat.le_refl _
    · split at h
      · split at h
        · rename_i named
          cases h; exact Nat.le_of_lt (namedSetLength named)
        · cases h; exact Nat.le_trans (negationLength _) (skipLength spaced cs)
      · split at h
        · cases h; exact Nat.le_refl _
        · split at h
          · cases h; simp
          · obtain ⟨_,range,same⟩ := Option.map_eq_some_iff.1 h
            cases same; exact setRangeLength range

def readSets (spaced : Bool) (o : OpenSet) (outer : List OpenSet) (cs : List Char) :
    Option (CharSet × List Char) :=
  match _start : skip spaced cs with
  | [] => none
  | c :: rest =>
      match _next : o.mark spaced c rest with
      | none => none
      | some (.item s,more) => readSets spaced (o.add s) outer more
      | some (.dash,more) => readSets spaced {o.add (.literal ⟨'-',false⟩) with start := true} outer more
      | some (.opened negated,more) => readSets spaced (.fresh negated) ({o with start := false} :: outer) more
      | some (.combined,more) => readSets spaced ⟨o.negated,false,[],some o.inside⟩ outer more
      | some (.closed,more) =>
          match outer with
          | [] => some (o.charSet,more)
          | up :: others => readSets spaced (up.add o.charSet) others more
  termination_by cs.length
  decreasing_by
    all_goals
      have one := skipLength spaced cs
      have two := markLength (by assumption)
      rw [_start,List.length_cons] at one
      simp only at two
      omega

theorem readSetsLength {spaced o outer cs read} (h : readSets spaced o outer cs = some read) :
    read.2.length < cs.length := by
  fun_induction readSets spaced o outer cs with
  | case1 => cases h
  | case2 => cases h
  | case3 o outer cs c rest start s more next ih | case4 o outer cs c rest start more next ih
  | case5 o outer cs c rest start negated more next ih | case6 o outer cs c rest start more next ih
  | case8 o cs c rest start more next up others ih =>
      have one := skipLength spaced cs
      have two := markLength next
      have three := ih h
      rw [start,List.length_cons] at one
      simp only at two
      omega
  | case7 o cs c rest start more next =>
      have one := skipLength spaced cs
      have two := markLength next
      rw [start,List.length_cons] at one
      cases h
      exact Nat.lt_of_le_of_lt two one

def readSet (spaced : Bool) (cs : List Char) : Option (CharSet × List Char) :=
  let (negated,rest) := negation (skip spaced cs)
  readSets spaced (.fresh negated) [] rest

theorem readSetLength {spaced cs read} (h : readSet spaced cs = some read) :
    read.2.length < cs.length :=
  Nat.lt_of_lt_of_le (readSetsLength h) (Nat.le_trans (negationLength _) (skipLength spaced cs))

end SyntaxCatalog.Pattern
