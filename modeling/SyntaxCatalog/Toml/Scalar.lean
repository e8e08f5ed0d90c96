import SyntaxCatalog.Toml.Item
import SyntaxCatalog.Toml.Lexeme

/-! Numbers, truth values, dates and times. -/
namespace SyntaxCatalog.Toml
open Decimal (Binary64)
open Text (hexValue)

def grouped (digit : Char → Bool) : List Char → List Char × List Char
  | [] => ([],[])
  | c :: cs =>
      if digit c then
        let (ds,rest) := grouped digit cs
        (c :: ds,rest)
      else if c = '_' then
        match cs with
        | d :: more =>
            if digit d then
              let (ds,rest) := grouped digit more
              (d :: ds,rest)
            else ([],c :: cs)
        | [] => ([],[c])
      else ([],c :: cs)

theorem groupedLength (digit : Char → Bool) (cs : List Char) :
    (grouped digit cs).1.length + (grouped digit cs).2.length ≤ cs.length := by
  fun_induction grouped digit cs <;> simp_all <;> omega

def digits (digit : Char → Bool) (cs : List Char) : Option (List Char × List Char) :=
  match cs with
  | [] => none
  | c :: _ => if digit c then some (grouped digit cs) else none

theorem digitsLength {digit cs ds rest} (h : digits digit cs = some (ds,rest)) :
    rest.length < cs.length := by
  unfold digits at h
  split at h
  · cases h
  · rename_i c tail
    split at h
    · rename_i good
      have := groupedLength digit tail
      rw [grouped.eq_def] at h
      simp only [good,if_true,Option.some.injEq,Prod.mk.injEq] at h
      rw [← h.2,List.length_cons]; omega
    · cases h

def natural (base : Nat) (ds : List Char) : Nat :=
  ds.foldl (fun n c => n * base + (hexValue c).getD 0) 0

def sign : List Char → Bool × List Char
  | [] => (false,[])
  | c :: cs => if c = '+' then (false,cs) else if c = '-' then (true,cs) else (false,c :: cs)

theorem signLength (cs : List Char) : (sign cs).2.length ≤ cs.length := by
  unfold sign
  split
  · simp
  · split
    · simp
    · split <;> simp

def decimalDigits : List Char → Option (List Char × List Char)
  | [] => none
  | c :: cs =>
      if c = '0' then some ([c],cs)
      else if c.isDigit then some (grouped Char.isDigit (c :: cs))
      else none

theorem decimalDigitsLength {cs ds rest} (h : decimalDigits cs = some (ds,rest)) :
    rest.length < cs.length := by
  unfold decimalDigits at h
  split at h
  · cases h
  · rename_i c tail
    split at h
    · cases h; simp
    · split at h
      · rename_i good
        have := groupedLength Char.isDigit tail
        rw [grouped.eq_def] at h
        simp only [good,if_true,Option.some.injEq,Prod.mk.injEq] at h
        rw [← h.2,List.length_cons]; omega
      · cases h

def radix : List Char → Option (Nat × (Char → Bool) × List Char)
  | a :: b :: rest =>
      if a = '0' ∧ b = 'x' then some (16,fun c => (hexValue c).isSome,rest)
      else if a = '0' ∧ b = 'o' then some (8,fun c => '0' ≤ c && c ≤ '7',rest)
      else if a = '0' ∧ b = 'b' then some (2,fun c => c == '0' || c == '1',rest)
      else none
  | _ => none

theorem radixLength {cs base digit rest} (h : radix cs = some (base,digit,rest)) :
    rest.length < cs.length := by
  unfold radix at h
  split at h
  · split at h
    · cases h; simp only [List.length_cons]; omega
    · split at h
      · cases h; simp only [List.length_cons]; omega
      · split at h <;> cases h
        simp only [List.length_cons]; omega
  · cases h

def integerBound : Nat := Nat.pow 2 63

def integer (cs : List Char) : Option (Scalar × List Char) :=
  match radix cs with
  | some (base,digit,tail) => do
      let (ds,rest) ← digits digit tail
      if natural base ds < integerBound then some (.integer (natural base ds),rest) else none
  | none => do
      let (ds,rest) ← decimalDigits (sign cs).2
      let n := natural 10 ds
      if (sign cs).1 then
        if n ≤ integerBound then some (.integer (-(n : Int)),rest) else none
      else if n < integerBound then some (.integer n,rest)
      else none

theorem integerLength {cs v rest} (h : integer cs = some (v,rest)) : rest.length < cs.length := by
  unfold integer at h
  split at h
  · rename_i found
    simp only [bind,Option.bind_eq_some_iff] at h
    obtain ⟨⟨ds,last⟩,read,same⟩ := h
    split at same <;> cases same
    have := radixLength found
    have := digitsLength read
    dsimp only at *
    omega
  · simp only [bind,Option.bind_eq_some_iff] at h
    obtain ⟨⟨ds,last⟩,read,same⟩ := h
    have := signLength cs
    have := decimalDigitsLength read
    split at same
    · split at same <;> cases same
      dsimp only at *
      omega
    · split at same <;> cases same
      dsimp only at *
      omega

def exponent (cs : List Char) : Option (Int × List Char) := do
  let (ds,rest) ← digits Char.isDigit (sign cs).2
  some (if (sign cs).1 then -(natural 10 ds : Int) else natural 10 ds,rest)

theorem exponentLength {cs e rest} (h : exponent cs = some (e,rest)) : rest.length < cs.length := by
  simp only [exponent,bind,Option.bind_eq_some_iff] at h
  obtain ⟨⟨ds,last⟩,read,same⟩ := h
  cases same
  have := signLength cs
  have := digitsLength read
  dsimp only at *
  omega

def takeExponent (cs : List Char) : Option (Int × List Char) :=
  match cs with
  | c :: rest => if c = 'e' ∨ c = 'E' then exponent rest else none
  | [] => none

theorem takeExponentLength {cs e rest} (h : takeExponent cs = some (e,rest)) :
    rest.length < cs.length := by
  unfold takeExponent at h
  split at h
  · split at h
    · have := exponentLength h; simp only [List.length_cons]; omega
    · cases h
  · cases h

def fraction (cs : List Char) : Option (List Char × Int × List Char) :=
  match cs with
  | [] => none
  | c :: tail =>
      if c = '.' then do
        let (ds,rest) ← digits Char.isDigit tail
        match takeExponent rest with
        | some (e,last) => some (ds,e,last)
        | none => some (ds,0,rest)
      else (takeExponent cs).map (fun (e,rest) => ([],e,rest))

theorem fractionLength {cs ds e rest} (h : fraction cs = some (ds,e,rest)) :
    rest.length < cs.length := by
  unfold fraction at h
  split at h
  · cases h
  · split at h
    · simp only [bind,Option.bind_eq_some_iff] at h
      obtain ⟨⟨fs,middle⟩,read,same⟩ := h
      have one := digitsLength read
      split at same
      · rename_i more
        cases same
        have := takeExponentLength more
        simp only [List.length_cons] at *; omega
      · cases same
        simp only [List.length_cons]; omega
    · obtain ⟨⟨_,_⟩,read,same⟩ := Option.map_eq_some_iff.1 h
      cases same
      exact takeExponentLength read

def startsWith (word : List Char) (cs : List Char) : Option (List Char) :=
  if cs.take word.length = word then some (cs.drop word.length) else none

theorem startsWithLength {word cs rest} (h : startsWith word cs = some rest) :
    rest.length + word.length = cs.length := by
  unfold startsWith at h
  split at h
  · rename_i same
    cases h
    have := congrArg List.length same
    simp only [List.length_take] at this
    simp only [List.length_drop]; omega
  · cases h

def float (cs : List Char) : Option (Scalar × List Char) :=
  let negative := (sign cs).1
  let tail := (sign cs).2
  match startsWith ['i','n','f'] tail with
  | some rest => some (.float (.infinite negative),rest)
  | none =>
      match startsWith ['n','a','n'] tail with
      | some rest => some (.float .undefined,rest)
      | none => do
          let (whole,after) ← decimalDigits tail
          let (places,e,rest) ← fraction after
          match Decimal.ofDecimal (natural 10 (whole ++ places)) (e - places.length) with
          | some x => some (.float (.finite negative x),rest)
          | none => if negative then some (.float (.infinite true),rest) else none

theorem floatLength {cs v rest} (h : float cs = some (v,rest)) : rest.length < cs.length := by
  unfold float at h
  have signed := signLength cs
  simp only at h
  split at h
  · rename_i found
    cases h
    have := startsWithLength found
    simp only [List.length_cons,List.length_nil] at this; omega
  · split at h
    · rename_i found
      cases h
      have := startsWithLength found
      simp only [List.length_cons,List.length_nil] at this; omega
    · simp only [bind,Option.bind_eq_some_iff] at h
      obtain ⟨⟨ds,middle⟩,read,⟨fs,e,last⟩,more,same⟩ := h
      have := decimalDigitsLength read
      have := fractionLength more
      split at same
      · cases same; dsimp only at *; omega
      · split at same <;> cases same
        dsimp only at *
        omega

def fixed (count least most : Nat) (cs : List Char) : Option (Nat × List Char) :=
  let ds := cs.take count
  if ds.length = count ∧ ds.all Char.isDigit then
    if least ≤ natural 10 ds ∧ natural 10 ds ≤ most then some (natural 10 ds,cs.drop count) else none
  else none

theorem fixedLength {count least most cs n rest} (h : fixed count least most cs = some (n,rest)) :
    rest.length + count = cs.length := by
  unfold fixed at h
  simp only at h
  split at h
  · rename_i full
    split at h <;> cases h
    have := full.1
    simp only [List.length_take] at this
    simp only [List.length_drop]; omega
  · cases h

def sep (c : Char) : List Char → Option (List Char)
  | [] => none
  | d :: cs => if d = c then some cs else none

theorem sepLength {c cs rest} (h : sep c cs = some rest) : rest.length < cs.length := by
  unfold sep at h
  split at h
  · cases h
  · split at h <;> cases h
    simp

def daysIn (year month : Nat) : Nat :=
  if month = 2 then
    if year % 4 = 0 ∧ (year % 100 ≠ 0 ∨ year % 400 = 0) then 29 else 28
  else if month = 4 ∨ month = 6 ∨ month = 9 ∨ month = 11 then 30
  else 31

def date (cs : List Char) : Option (List Char) := do
  let (year,cs) ← fixed 4 0 9999 cs
  let cs ← sep '-' cs
  let (month,cs) ← fixed 2 1 12 cs
  let cs ← sep '-' cs
  let (_,cs) ← fixed 2 1 (daysIn year month) cs
  some cs

theorem dateLength {cs rest} (h : date cs = some rest) : rest.length < cs.length := by
  simp only [date,bind,Option.bind_eq_some_iff] at h
  obtain ⟨⟨_,_⟩,one,_,two,⟨_,_⟩,three,_,four,⟨_,_⟩,five,same⟩ := h
  cases same
  have := fixedLength one
  have := sepLength two
  have := fixedLength three
  have := sepLength four
  have := fixedLength five
  dsimp only at *
  omega

def secondFraction (cs : List Char) : List Char :=
  match cs with
  | c :: d :: rest => if c = '.' ∧ d.isDigit then rest.dropWhile Char.isDigit else cs
  | _ => cs

theorem secondFractionLength (cs : List Char) : (secondFraction cs).length ≤ cs.length := by
  unfold secondFraction
  split
  · split
    · rename_i rest _
      have := Text.dropWhileLength Char.isDigit rest
      simp only [List.length_cons]; omega
    · simp
  · simp

def time (cs : List Char) : Option (List Char) := do
  let (_,cs) ← fixed 2 0 23 cs
  let cs ← sep ':' cs
  let (_,cs) ← fixed 2 0 59 cs
  let cs ← sep ':' cs
  let (_,cs) ← fixed 2 0 60 cs
  some (secondFraction cs)

theorem timeLength {cs rest} (h : time cs = some rest) : rest.length < cs.length := by
  simp only [time,bind,Option.bind_eq_some_iff] at h
  obtain ⟨⟨_,_⟩,one,_,two,⟨_,_⟩,three,_,four,⟨_,last⟩,five,same⟩ := h
  cases same
  have := fixedLength one
  have := sepLength two
  have := fixedLength three
  have := sepLength four
  have := fixedLength five
  have := secondFractionLength last
  dsimp only at *
  omega

def offset (cs : List Char) : Option (List Char) :=
  match cs with
  | [] => some []
  | c :: rest =>
      if c = 'Z' ∨ c = 'z' then some rest
      else if c = '+' ∨ c = '-' then do
        let (_,rest) ← fixed 2 0 23 rest
        let rest ← sep ':' rest
        let (_,rest) ← fixed 2 0 59 rest
        some rest
      else some cs

theorem offsetLength {cs rest} (h : offset cs = some rest) : rest.length ≤ cs.length := by
  unfold offset at h
  split at h
  · cases h; simp
  · simp only [List.length_cons]
    split at h
    · cases h; omega
    · split at h
      · simp only [bind,Option.bind_eq_some_iff] at h
        obtain ⟨⟨_,_⟩,one,_,two,⟨_,_⟩,three,same⟩ := h
        cases same
        have := fixedLength one
        have := sepLength two
        have := fixedLength three
        dsimp only at *
        omega
      · cases h; simp

def dayTime (cs : List Char) : Option (List Char) :=
  match cs with
  | [] => some []
  | c :: rest =>
      if c = 'T' ∨ c = 't' ∨ c = ' ' then
        match time rest with
        | some more => offset more
        | none => some cs
      else some cs

theorem dayTimeLength {cs rest} (h : dayTime cs = some rest) : rest.length ≤ cs.length := by
  unfold dayTime at h
  split at h
  · cases h; simp
  · split at h
    · split at h
      · rename_i found
        have := timeLength found
        have := offsetLength h
        simp only [List.length_cons]; omega
      · cases h; exact Nat.le_refl _
    · cases h; exact Nat.le_refl _

def dateTime (cs : List Char) : Option (Scalar × List Char) :=
  match date cs with
  | some rest => (dayTime rest).map (.datetime,·)
  | none => (time cs).map (.datetime,·)

theorem dateTimeLength {cs v rest} (h : dateTime cs = some (v,rest)) : rest.length < cs.length := by
  unfold dateTime at h
  split at h
  · rename_i found
    obtain ⟨last,read,same⟩ := Option.map_eq_some_iff.1 h
    cases same
    have := dateLength found
    have := dayTimeLength read
    omega
  · obtain ⟨last,read,same⟩ := Option.map_eq_some_iff.1 h
    cases same
    exact timeLength read

def scalar (cs : List Char) : Option (Scalar × List Char) :=
  match cs with
  | [] => none
  | c :: _ =>
      if c = '"' ∨ c = '\'' then (string cs).map (fun (s,rest) => (.string s,rest))
      else if c = 't' then (startsWith ['t','r','u','e'] cs).map (.boolean true,·)
      else if c = 'f' then (startsWith ['f','a','l','s','e'] cs).map (.boolean false,·)
      else if c = 'i' ∨ c = 'n' then float cs
      else dateTime cs <|> float cs <|> integer cs

theorem scalarLength {cs v rest} (h : scalar cs = some (v,rest)) : rest.length < cs.length := by
  unfold scalar at h
  split at h
  · cases h
  · split at h
    · obtain ⟨⟨_,_⟩,read,same⟩ := Option.map_eq_some_iff.1 h
      cases same
      exact stringLength read
    · split at h
      · obtain ⟨_,read,same⟩ := Option.map_eq_some_iff.1 h
        cases same
        have := startsWithLength read
        simp only [List.length_cons,List.length_nil] at this ⊢; omega
      · split at h
        · obtain ⟨_,read,same⟩ := Option.map_eq_some_iff.1 h
          cases same
          have := startsWithLength read
          simp only [List.length_cons,List.length_nil] at this ⊢; omega
        · split at h
          · exact floatLength h
          · simp only [Option.orElse_eq_orElse,Option.orElse_eq_or,Option.or_eq_some_iff] at h
            rcases h with h | ⟨_,h⟩
            · exact dateTimeLength h
            · rcases h with h | ⟨_,h⟩
              · exact floatLength h
              · exact integerLength h

end SyntaxCatalog.Toml
