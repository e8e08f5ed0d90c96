import SyntaxCatalog.Json.Fault
import SyntaxCatalog.Text.Hex
import SyntaxCatalog.Text.Reader

/-! Blanks, words and strings. Strings are read in two ways: their value may be wanted, or they may
only have to be passed over, and then surrogates need no partner. -/
namespace SyntaxCatalog.Json
open Text (bytes hexValue)

def isBlank (c : Char) : Bool := c = ' ' || c = '\n' || c = '\t' || c = '\r'

def skipBlank (cs : List Char) : List Char := cs.dropWhile isBlank

theorem skipBlankLength (cs : List Char) : (skipBlank cs).length ≤ cs.length :=
  Text.dropWhileLength isBlank cs

def word : List Char → List Char → Except Fault (List Char)
  | [], cs => .ok cs
  | _ :: _, [] => .error (Reason.endInValue.before [])
  | w :: ws, c :: cs => if c = w then word ws cs else .error (Reason.expectedIdent.into (c :: cs))

theorem wordLength {ws cs rest} (h : word ws cs = .ok rest) : rest.length ≤ cs.length := by
  induction ws generalizing cs with
  | nil => simp only [word] at h; cases h; exact Nat.le_refl _
  | cons w ws ih =>
      cases cs with
      | nil => simp [word] at h
      | cons c cs =>
          simp only [word] at h
          split at h
          · exact Nat.le_succ_of_le (ih h)
          · cases h

def quad (cs : List Char) : Except Fault (Nat × List Char) :=
  match cs with
  | a :: b :: c :: d :: rest =>
      match hexValue a,hexValue b,hexValue c,hexValue d with
      | some a,some b,some c,some d => .ok (((a * 16 + b) * 16 + c) * 16 + d,rest)
      | _,_,_,_ => .error ⟨.invalidEscape,bytes cs - 4⟩
  | _ => if bytes cs < 4 then .error (Reason.endInString.before [])
      else .error ⟨.invalidEscape,bytes cs - 4⟩

theorem quadLength {cs n rest} (h : quad cs = .ok (n,rest)) : rest.length < cs.length := by
  unfold quad at h
  split at h
  · split at h <;> cases h
    simp only [List.length_cons]; omega
  · split at h <;> cases h

def isLeading (n : Nat) : Bool := 0xD800 ≤ n && n ≤ 0xDBFF
def isTrailing (n : Nat) : Bool := 0xDC00 ≤ n && n ≤ 0xDFFF

def paired (leading trailing : Nat) : Char :=
  Char.ofNat ((leading - 0xD800) * 0x400 + (trailing - 0xDC00) + 0x10000)

def partner (leading : Nat) : List Char → Except Fault (Char × List Char)
  | [] => .error (Reason.endInString.before [])
  | c :: rest =>
      if c = '\\' then
        match rest with
        | [] => .error (Reason.endInString.before [])
        | d :: more =>
            if d = 'u' then
              match quad more with
              | .error e => .error e
              | .ok (n,last) =>
                  if isTrailing n then .ok (paired leading n,last)
                  else .error (Reason.loneSurrogate.before last)
            else .error (Reason.unexpectedEndOfHexEscape.into (d :: more))
      else .error (Reason.unexpectedEndOfHexEscape.into (c :: rest))

theorem partnerLength {n cs c rest} (h : partner n cs = .ok (c,rest)) : rest.length < cs.length := by
  unfold partner at h
  split at h
  · cases h
  · split at h
    · split at h
      · cases h
      · split at h
        · split at h
          · cases h
          · rename_i read
            have shorter := quadLength read
            split at h
            · simp only [Except.ok.injEq,Prod.mk.injEq] at h
              simp only [List.length_cons,← h.2]; omega
            · cases h
        · cases h
    · cases h

def hexEscape (cs : List Char) : Except Fault (Char × List Char) :=
  match quad cs with
  | .error e => .error e
  | .ok (n,rest) =>
      if isTrailing n then .error (Reason.loneSurrogate.before rest)
      else if isLeading n then partner n rest
      else .ok (Char.ofNat n,rest)

theorem hexEscapeLength {cs c rest} (h : hexEscape cs = .ok (c,rest)) : rest.length < cs.length := by
  unfold hexEscape at h
  split at h
  · cases h
  · rename_i read
    have first := quadLength read
    split at h
    · cases h
    · split at h
      · have := partnerLength h; omega
      · cases h; exact first

def shortEscape (c : Char) : Option Char :=
  match c with
  | '"' => some '"'
  | '\\' => some '\\'
  | '/' => some '/'
  | 'b' => some '\x08'
  | 'f' => some '\x0c'
  | 'n' => some '\n'
  | 'r' => some '\r'
  | 't' => some '\t'
  | _ => none

def escape : List Char → Except Fault (Char × List Char)
  | [] => .error (Reason.endInString.before [])
  | c :: rest =>
      match shortEscape c with
      | some d => .ok (d,rest)
      | none => if c = 'u' then hexEscape rest else .error (Reason.invalidEscape.into (c :: rest))

theorem escapeLength {cs c rest} (h : escape cs = .ok (c,rest)) : rest.length < cs.length := by
  unfold escape at h
  split at h
  · cases h
  · split at h
    · cases h; simp
    · split at h
      · have := hexEscapeLength h; simp only [List.length_cons]; omega
      · cases h

def stringBody (cs : List Char) : Except Fault (List Char × List Char) :=
  match cs with
  | [] => .error (Reason.endInString.before [])
  | c :: rest =>
      if c = '"' then .ok ([],rest)
      else if c = '\\' then
        match _h : escape rest with
        | .error e => .error e
        | .ok (d,more) =>
            match stringBody more with
            | .error e => .error e
            | .ok (ds,last) => .ok (d :: ds,last)
      else if c.toNat < 0x20 then .error (Reason.controlCharacter.into (c :: rest))
      else
        match stringBody rest with
        | .error e => .error e
        | .ok (ds,last) => .ok (c :: ds,last)
  termination_by cs.length
  decreasing_by
  · have := escapeLength (by assumption); simp only [List.length_cons]; omega
  · simp

theorem stringBodyLength {cs ds rest} (h : stringBody cs = .ok (ds,rest)) :
    rest.length < cs.length := by
  fun_induction stringBody cs generalizing ds rest with
  | case1 => cases h
  | case2 => cases h; simp
  | case3 => cases h
  | case4 => cases h
  | case5 cs d more read ds last tail _ ih =>
      cases h
      have := escapeLength read
      have := ih tail
      simp only [List.length_cons]; omega
  | case6 => cases h
  | case7 => cases h
  | case8 c cs _ _ _ ds last tail ih => cases h; have := ih tail; simp only [List.length_cons]; omega

def passEscape : List Char → Except Fault (List Char)
  | [] => .error (Reason.endInString.before [])
  | c :: rest =>
      match shortEscape c with
      | some _ => .ok rest
      | none =>
          if c = 'u' then (quad rest).map Prod.snd
          else .error (Reason.invalidEscape.into (c :: rest))

theorem passEscapeLength {cs rest} (h : passEscape cs = .ok rest) : rest.length < cs.length := by
  unfold passEscape at h
  split at h
  · cases h
  · split at h
    · cases h; simp
    · split at h
      · rename_i tail _ _ _
        cases read : quad tail with
        | error e => simp [read,Except.map] at h
        | ok found =>
            obtain ⟨_,_⟩ := found
            simp only [read,Except.map] at h; cases h
            have := quadLength read
            simp only [List.length_cons]; omega
      · cases h

def passString (cs : List Char) : Except Fault (List Char) :=
  match cs with
  | [] => .error (Reason.endInString.before [])
  | c :: rest =>
      if c = '"' then .ok rest
      else if c = '\\' then
        match _h : passEscape rest with
        | .error e => .error e
        | .ok more => passString more
      else if c.toNat < 0x20 then .error (Reason.controlCharacter.before (c :: rest))
      else passString rest
  termination_by cs.length
  decreasing_by
  · have := passEscapeLength (by assumption); simp only [List.length_cons]; omega
  · simp

theorem passStringLength {cs rest} (h : passString cs = .ok rest) : rest.length < cs.length := by
  fun_induction passString cs with
  | case1 => cases h
  | case2 => cases h; simp
  | case3 => cases h
  | case4 cs more read _ ih => have := passEscapeLength read; have := ih h; simp only [List.length_cons]; omega
  | case5 => cases h
  | case6 c cs _ _ _ ih => have := ih h; simp only [List.length_cons]; omega

end SyntaxCatalog.Json
