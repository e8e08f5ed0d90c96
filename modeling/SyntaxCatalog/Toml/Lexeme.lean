import SyntaxCatalog.Text.Hex
import SyntaxCatalog.Text.Reader

/-! Blanks, comments, strings and keys. -/
namespace SyntaxCatalog.Toml
open Text (hexValue)

def isBlank (c : Char) : Bool := c = ' ' || c = '\t'

def skipBlank (cs : List Char) : List Char := cs.dropWhile isBlank

theorem skipBlankLength (cs : List Char) : (skipBlank cs).length ≤ cs.length :=
  Text.dropWhileLength isBlank cs

def isPlain (c : Char) : Bool := c = '\t' || (0x20 ≤ c.toNat && c.toNat ≠ 0x7F)

def newline : List Char → Option (List Char)
  | [] => none
  | c :: cs =>
      if c = '\n' then some cs
      else if c = '\r' then
        match cs with
        | d :: rest => if d = '\n' then some rest else none
        | [] => none
      else none

theorem newlineLength {cs rest} (h : newline cs = some rest) : rest.length < cs.length := by
  unfold newline at h
  split at h
  · cases h
  · split at h
    · cases h; simp
    · split at h
      · split at h
        · split at h <;> cases h
          simp only [List.length_cons]; omega
        · cases h
      · cases h

def lineEnd (cs : List Char) : Option (List Char) :=
  match skipBlank cs with
  | [] => some []
  | c :: rest =>
      if c = '#' then
        match rest.dropWhile isPlain with
        | [] => some []
        | d :: more => newline (d :: more)
      else newline (c :: rest)

theorem lineEndShorter {c cs rest} (h : lineEnd (c :: cs) = some rest) :
    rest.length < (c :: cs).length := by
  unfold lineEnd at h
  have first := skipBlankLength (c :: cs)
  split at h
  · cases h; simp
  · rename_i d tail start
    rw [start] at first
    split at h
    · have second := Text.dropWhileLength isPlain tail
      simp only [List.length_cons] at *
      split at h
      · cases h; simp
      · rename_i dropped
        rw [dropped] at second
        have := newlineLength h; omega
    · exact Nat.lt_of_lt_of_le (newlineLength h) first

theorem lineEndLength {cs rest} (h : lineEnd cs = some rest) : rest.length ≤ cs.length := by
  cases cs with
  | nil => cases h; simp
  | cons c cs => exact Nat.le_of_lt (lineEndShorter h)

def skipLines (comment : Bool) : List Char → Option (List Char)
  | [] => if comment then none else some []
  | c :: cs =>
      if c = '\n' then skipLines false cs
      else if c = '\r' then
        match cs with
        | d :: rest => if d = '\n' then skipLines false rest else none
        | [] => none
      else if comment then (if isPlain c then skipLines true cs else none)
      else if isBlank c then skipLines false cs
      else if c = '#' then skipLines true cs
      else some (c :: cs)

theorem skipLinesLength {comment cs rest} (h : skipLines comment cs = some rest) :
    rest.length ≤ cs.length := by
  fun_induction skipLines comment cs with
  | case1 => cases h
  | case2 => cases h; simp
  | case3 comment cs ih => have := ih h; simp only [List.length_cons]; omega
  | case4 comment rest' _ ih => have := ih h; simp only [List.length_cons]; omega
  | case5 => cases h
  | case6 => cases h
  | case7 c cs _ _ _ ih => have := ih h; simp only [List.length_cons]; omega
  | case8 => cases h
  | case9 comment c cs _ _ _ _ ih => have := ih h; simp only [List.length_cons]; omega
  | case10 comment cs _ _ _ _ ih => have := ih h; simp only [List.length_cons]; omega
  | case11 => cases h; simp

def hexNumber : Nat → Nat → List Char → Option (Nat × List Char)
  | 0, n, cs => some (n,cs)
  | _ + 1, _, [] => none
  | count + 1, n, c :: cs => do hexNumber count (n * 16 + (← hexValue c)) cs

theorem hexNumberLength {count n cs m rest} (h : hexNumber count n cs = some (m,rest)) :
    rest.length ≤ cs.length := by
  induction count generalizing n cs with
  | zero => simp only [hexNumber] at h; cases h; exact Nat.le_refl _
  | succ count ih =>
      cases cs with
      | nil => simp [hexNumber] at h
      | cons c cs =>
          simp only [hexNumber,bind,Option.bind_eq_some_iff] at h
          obtain ⟨_,_,later⟩ := h
          have := ih later
          simp only [List.length_cons]; omega

def character (n : Nat) : Option Char :=
  if n < 0xD800 ∨ (0xE000 ≤ n ∧ n < 0x110000) then some (Char.ofNat n) else none

def shortEscape (c : Char) : Option Char :=
  match c with
  | 'b' => some '\x08'
  | 't' => some '\t'
  | 'n' => some '\n'
  | 'f' => some '\x0c'
  | 'r' => some '\r'
  | '"' => some '"'
  | '\\' => some '\\'
  | _ => none

def escape : List Char → Option (Char × List Char)
  | [] => none
  | c :: cs =>
      match shortEscape c with
      | some d => some (d,cs)
      | none =>
          if c = 'u' ∨ c = 'U' then do
            let (n,rest) ← hexNumber (if c = 'u' then 4 else 8) 0 cs
            let d ← character n
            some (d,rest)
          else none

theorem escapeLength {cs c rest} (h : escape cs = some (c,rest)) : rest.length < cs.length := by
  unfold escape at h
  split at h
  · cases h
  · split at h
    · cases h; simp
    · split at h
      · simp only [bind,Option.bind_eq_some_iff] at h
        obtain ⟨⟨n,tail⟩,read,d,_,same⟩ := h
        have := hexNumberLength read
        cases same
        simp only [List.length_cons]; omega
      · cases h

def basic (cs : List Char) : Option (List Char × List Char) :=
  match cs with
  | [] => none
  | c :: rest =>
      if c = '"' then some ([],rest)
      else if c = '\\' then
        match _h : escape rest with
        | none => none
        | some (d,more) => (basic more).map (fun (ds,last) => (d :: ds,last))
      else if isPlain c then (basic rest).map (fun (ds,last) => (c :: ds,last))
      else none
  termination_by cs.length
  decreasing_by
  · have := escapeLength (by assumption); simp only [List.length_cons]; omega
  · simp

theorem basicLength {cs ds rest} (h : basic cs = some (ds,rest)) : rest.length < cs.length := by
  fun_induction basic cs generalizing ds rest with
  | case1 => cases h
  | case2 => cases h; simp
  | case3 => cases h
  | case4 cs d more read _ ih =>
      obtain ⟨⟨_,_⟩,tail,same⟩ := Option.map_eq_some_iff.1 h
      cases same
      have := escapeLength read
      have := ih tail
      simp only [List.length_cons]; omega
  | case5 c cs _ _ _ ih =>
      obtain ⟨⟨_,_⟩,tail,same⟩ := Option.map_eq_some_iff.1 h
      cases same
      have := ih tail
      simp only [List.length_cons]; omega
  | case6 => cases h

def literal : List Char → Option (List Char × List Char)
  | [] => none
  | c :: cs =>
      if c = '\'' then some ([],cs)
      else if isPlain c then (literal cs).map (fun (ds,rest) => (c :: ds,rest))
      else none

theorem literalLength {cs ds rest} (h : literal cs = some (ds,rest)) : rest.length < cs.length := by
  induction cs generalizing ds rest with
  | nil => cases h
  | cons c cs ih =>
      simp only [literal] at h
      split at h
      · cases h; simp
      · split at h
        · obtain ⟨⟨_,_⟩,tail,same⟩ := Option.map_eq_some_iff.1 h
          cases same
          have := ih tail
          simp only [List.length_cons]; omega
        · cases h

def tripled (quote : Char) : List Char → Option (List Char)
  | a :: b :: c :: rest => if a = quote ∧ b = quote ∧ c = quote then some rest else none
  | _ => none

theorem tripledLength {quote cs rest} (h : tripled quote cs = some rest) :
    rest.length < cs.length := by
  unfold tripled at h
  split at h
  · split at h <;> cases h
    simp only [List.length_cons]; omega
  · cases h

-- After three quotes up to two more belong to the string, which they end all the same.
def surplus (quote : Char) (cs : List Char) : List Char × List Char :=
  (cs.take 2 |>.takeWhile (· = quote),cs.drop (cs.take 2 |>.takeWhile (· = quote)).length)

theorem surplusLength (quote : Char) (cs : List Char) : (surplus quote cs).2.length ≤ cs.length := by
  simp [surplus]

def folded (cs : List Char) : Option (List Char) := do
  let rest ← newline (skipBlank cs)
  skipEmpty rest
where
  skipEmpty : List Char → Option (List Char)
    | [] => some []
    | c :: cs =>
        if c = '\n' || isBlank c then skipEmpty cs
        else if c = '\r' then
          match cs with
          | d :: rest => if d = '\n' then skipEmpty rest else some (c :: d :: rest)
          | [] => some [c]
        else some (c :: cs)

theorem skipEmptyLength {cs rest} (h : folded.skipEmpty cs = some rest) : rest.length ≤ cs.length := by
  fun_induction folded.skipEmpty cs with
  | case1 => cases h; simp
  | case2 c cs _ ih => have := ih h; simp only [List.length_cons]; omega
  | case3 rest' _ ih => have := ih h; simp only [List.length_cons]; omega
  | case4 => cases h; simp
  | case5 => cases h; simp
  | case6 => cases h; simp

theorem foldedLength {cs rest} (h : folded cs = some rest) : rest.length < cs.length := by
  simp only [folded,bind,Option.bind_eq_some_iff] at h
  obtain ⟨middle,broken,empty⟩ := h
  have := skipBlankLength cs
  have := newlineLength broken
  have := skipEmptyLength empty
  omega

def piece (escapes : Bool) (cs : List Char) : Option (List Char × List Char) :=
  match newline cs with
  | some rest => some (['\n'],rest)
  | none =>
      match cs with
      | [] => none
      | c :: rest =>
          if escapes && c == '\\' then
            match folded rest with
            | some more => some ([],more)
            | none => (escape rest).map (fun (d,more) => ([d],more))
          else if isPlain c then some ([c],rest)
          else none

theorem pieceLength {escapes cs ds rest} (h : piece escapes cs = some (ds,rest)) :
    rest.length < cs.length := by
  unfold piece at h
  split at h
  · rename_i broken; cases h; exact newlineLength broken
  · split at h
    · cases h
    · split at h
      · split at h
        · rename_i joined; cases h
          have := foldedLength joined
          simp only [List.length_cons]; omega
        · obtain ⟨⟨d,more⟩,read,same⟩ := Option.map_eq_some_iff.1 h
          cases same
          have := escapeLength read
          simp only [List.length_cons]; omega
      · split at h <;> cases h
        simp

def lines (quote : Char) (escapes : Bool) (cs : List Char) : Option (List Char × List Char) :=
  match tripled quote cs with
  | some rest => some (surplus quote rest)
  | none =>
      match _h : piece escapes cs with
      | none => none
      | some (ds,rest) => (lines quote escapes rest).map (fun (es,last) => (ds ++ es,last))
  termination_by cs.length
  decreasing_by exact pieceLength (by assumption)

theorem linesLength {quote escapes cs ds rest} (h : lines quote escapes cs = some (ds,rest)) :
    rest.length < cs.length := by
  fun_induction lines quote escapes cs generalizing ds rest with
  | case1 cs tail closed =>
      have one := tripledLength closed
      have two := surplusLength quote tail
      simp only [Option.some.injEq] at h
      rw [h] at two
      exact Nat.lt_of_le_of_lt two one
  | case2 => cases h
  | case3 cs _ es tail read ih =>
      obtain ⟨⟨_,_⟩,later,same⟩ := Option.map_eq_some_iff.1 h
      cases same
      have := pieceLength read
      have := ih later
      omega

def opening (cs : List Char) : List Char := (newline cs).getD cs

theorem openingLength (cs : List Char) : (opening cs).length ≤ cs.length := by
  unfold opening
  cases found : newline cs with
  | none => simp
  | some rest => simpa using Nat.le_of_lt (newlineLength found)

def string (cs : List Char) : Option (String × List Char) :=
  match tripled '"' cs with
  | some rest => (lines '"' true (opening rest)).map named
  | none =>
      match tripled '\'' cs with
      | some rest => (lines '\'' false (opening rest)).map named
      | none => short cs
where
  named : List Char × List Char → String × List Char
    | (ds,rest) => (String.ofList ds,rest)
  short : List Char → Option (String × List Char)
    | [] => none
    | c :: rest =>
        if c = '"' then (basic rest).map named
        else if c = '\'' then (literal rest).map named
        else none

theorem shortLength {cs s rest} (h : string.short cs = some (s,rest)) : rest.length < cs.length := by
  unfold string.short at h
  split at h
  · cases h
  · simp only [List.length_cons]
    split at h
    · obtain ⟨⟨_,_⟩,read,same⟩ := Option.map_eq_some_iff.1 h
      cases same
      have := basicLength read; omega
    · split at h
      · obtain ⟨⟨_,_⟩,read,same⟩ := Option.map_eq_some_iff.1 h
        cases same
        have := literalLength read; omega
      · cases h

theorem stringLength {cs s rest} (h : string cs = some (s,rest)) : rest.length < cs.length := by
  unfold string at h
  split at h
  · rename_i tail three
    obtain ⟨⟨_,_⟩,read,same⟩ := Option.map_eq_some_iff.1 h
    cases same
    have := tripledLength three
    have := openingLength tail
    have := linesLength read
    omega
  · split at h
    · rename_i tail three
      obtain ⟨⟨_,_⟩,read,same⟩ := Option.map_eq_some_iff.1 h
      cases same
      have := tripledLength three
      have := openingLength tail
      have := linesLength read
      omega
    · exact shortLength h

def isBare (c : Char) : Bool :=
  ('a' ≤ c && c ≤ 'z') || ('A' ≤ c && c ≤ 'Z') || ('0' ≤ c && c ≤ '9') || c == '-' || c == '_'

def keyPart (cs : List Char) : Option (String × List Char) :=
  match cs with
  | [] => none
  | c :: _ =>
      if isBare c then some (String.ofList (cs.takeWhile isBare),cs.dropWhile isBare)
      else string.short cs

theorem keyPartLength {cs s rest} (h : keyPart cs = some (s,rest)) : rest.length < cs.length := by
  unfold keyPart at h
  split at h
  · cases h
  · rename_i c tail
    split at h
    · rename_i bare
      cases h
      have := Text.dropWhileLength isBare tail
      simp only [List.dropWhile,bare,List.length_cons]; omega
    · exact shortLength h

end SyntaxCatalog.Toml
