import SyntaxCatalog.Pattern
import SyntaxCatalog.Text.Alphanumeric
import SyntaxCatalog.Text.Blank
import SyntaxCatalog.Text.Hex
import SyntaxCatalog.Text.Reader

/-! The small parts of a pattern's text: blanks that do not count, escapes, flags and names. Braces
are refused: the texts that are read here hold no closing brace. -/
namespace SyntaxCatalog.Pattern

def skipBlanks (comment : Bool) : List Char → List Char
  | [] => []
  | c :: cs =>
      if comment then skipBlanks (c ≠ '\n') cs
      else if Text.blank c then skipBlanks false cs
      else if c = '#' then skipBlanks true cs
      else c :: cs

def skip (spaced : Bool) (cs : List Char) : List Char := if spaced then skipBlanks false cs else cs

theorem skipBlanksLength (comment : Bool) (cs : List Char) :
    (skipBlanks comment cs).length ≤ cs.length := by
  fun_induction skipBlanks comment cs with
  | case1 => exact Nat.le_refl _
  | case2 => rename_i ih; exact Nat.le_succ_of_le ih
  | case3 => rename_i ih; exact Nat.le_succ_of_le ih
  | case4 => rename_i ih; exact Nat.le_succ_of_le ih
  | case5 => exact Nat.le_refl _

theorem skipLength (spaced : Bool) (cs : List Char) : (skip spaced cs).length ≤ cs.length := by
  unfold skip
  split
  · exact skipBlanksLength false cs
  · exact Nat.le_refl _

inductive Escape where
  | literal (l : Literal)
  | shorthand (negated : Bool)
  | place (word : Bool)
  deriving DecidableEq, Repr

def hexWidth? : Char → Option Nat
  | 'x' => some 2
  | 'u' => some 4
  | 'U' => some 8
  | _ => none

def Escape.ofChar? (c : Char) : Option Escape :=
  match c with
  | 'd' | 's' | 'w' => some (.shorthand false)
  | 'D' | 'S' | 'W' => some (.shorthand true)
  | 'A' | 'z' => some (.place false)
  | 'b' | 'B' | '<' | '>' => some (.place true)
  | 'a' => some (.literal ⟨'\x07',false⟩)
  | 'f' => some (.literal ⟨'\x0c',false⟩)
  | 't' => some (.literal ⟨'\t',false⟩)
  | 'n' => some (.literal ⟨'\n',false⟩)
  | 'r' => some (.literal ⟨'\r',false⟩)
  | 'v' => some (.literal ⟨'\x0b',false⟩)
  | _ => if c.toNat < 0x80 && !c.isAlphanum then some (.literal ⟨c,false⟩) else none

def hexDigits (spaced : Bool) : Nat → Nat → List Char → Option (Nat × List Char)
  | 0, value, cs => some (value,cs)
  | n + 1, value, cs =>
      match skip spaced cs with
      | [] => none
      | c :: rest =>
          match Text.hexValue c with
          | none => none
          | some d => hexDigits spaced n (16 * value + d) rest

theorem hexDigitsLength {spaced n value cs read} (h : hexDigits spaced n value cs = some read) :
    read.2.length ≤ cs.length := by
  induction n generalizing value cs with
  | zero => simp only [hexDigits] at h; cases h; exact Nat.le_refl _
  | succ n ih =>
      simp only [hexDigits] at h
      have first := skipLength spaced cs
      split at h
      · cases h
      · rename_i start
        rw [start,List.length_cons] at first
        split at h
        · cases h
        · have := ih h; omega

def escape (spaced : Bool) : List Char → Option (Escape × List Char)
  | [] => none
  | c :: cs =>
      match hexWidth? c with
      | none => (Escape.ofChar? c).map (·,cs)
      | some width =>
          match hexDigits spaced width 0 cs with
          | none => none
          | some (value,rest) =>
              if value.isValidChar then some (.literal ⟨Char.ofNat value,c = 'x'⟩,rest) else none

theorem escapeLength {spaced cs read} (h : escape spaced cs = some read) :
    read.2.length < cs.length := by
  unfold escape at h
  split at h
  · cases h
  · rename_i c cs
    split at h
    · obtain ⟨_,_,same⟩ := Option.map_eq_some_iff.1 h
      cases same; simp
    · split at h
      · cases h
      · rename_i value rest digits
        have := hexDigitsLength digits
        split at h <;> cases h
        simp only [List.length_cons] at this ⊢; omega

def readFlags (seen : Flags) (off dangling : Bool) : List Char → Option (Flags × Char × List Char)
  | [] => none
  | c :: cs =>
      if c = ':' ∨ c = ')' then if dangling then none else some (seen,c,cs)
      else if c = '-' then if off then none else readFlags seen true true cs
      else
        match Flag.ofChar? c with
        | none => none
        | some flag =>
            if (seen.lookup flag).isSome then none else readFlags (seen ++ [(flag,!off)]) off false cs

theorem readFlagsLength {seen off dangling cs read} (h : readFlags seen off dangling cs = some read) :
    read.2.2.length < cs.length := by
  fun_induction readFlags seen off dangling cs with
  | case1 => cases h
  | case2 => cases h
  | case3 => cases h; simp
  | case4 => cases h
  | case5 => rename_i ih; exact Nat.lt_succ_of_lt (ih h)
  | case6 => cases h
  | case7 => cases h
  | case8 => rename_i ih; exact Nat.lt_succ_of_lt (ih h)

def nameChar (first : Bool) (c : Char) : Bool :=
  c = '_' || (if first then Text.alphabetic c
    else c = '.' || c = '[' || c = ']' || Text.alphanumeric c)

def readName (first : Bool) : List Char → Option (List Char × List Char)
  | [] => none
  | c :: cs =>
      if c = '>' then some ([],cs)
      else if nameChar first c then
        (readName false cs).map (fun read => (c :: read.1,read.2))
      else none

theorem readNameLength {first cs read} (h : readName first cs = some read) :
    read.2.length < cs.length := by
  induction cs generalizing first read with
  | nil => cases h
  | cons c cs ih =>
      simp only [readName] at h
      split at h
      · cases h; simp
      · split at h
        · obtain ⟨_,tail,same⟩ := Option.map_eq_some_iff.1 h
          have := ih tail
          cases same
          simp only [List.length_cons]; omega
        · cases h

end SyntaxCatalog.Pattern
