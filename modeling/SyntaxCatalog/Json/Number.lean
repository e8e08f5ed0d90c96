import SyntaxCatalog.Decimal.Shortest
import SyntaxCatalog.Json.Lexeme

/-! Numbers. One that is passed over only has to keep the grammar. One that is read has a value: an
integer of 64 bits where it fits, and otherwise a binary floating point number. -/
namespace SyntaxCatalog.Json
open Decimal (Binary64 Magnitude)

def dropDigits (cs : List Char) : List Char := cs.dropWhile Char.isDigit

theorem dropDigitsLength (cs : List Char) : (dropDigits cs).length ≤ cs.length :=
  Text.dropWhileLength Char.isDigit cs

def startsWithDigit : List Char → Bool
  | c :: _ => c.isDigit
  | [] => false

def dropSign : List Char → List Char
  | [] => []
  | c :: rest => if c = '+' ∨ c = '-' then rest else c :: rest

theorem dropSignLength (cs : List Char) : (dropSign cs).length ≤ cs.length := by
  unfold dropSign
  split
  · simp
  · split <;> simp

def passExponent (cs : List Char) : Except Fault (List Char) :=
  if startsWithDigit (dropSign cs) then .ok (dropDigits (dropSign cs))
  else .error (Reason.invalidNumber.into (dropSign cs))

def passDecimals (cs : List Char) : Except Fault (List Char) :=
  if startsWithDigit cs then
    match dropDigits cs with
    | c :: rest => if c = 'e' ∨ c = 'E' then passExponent rest else .ok (c :: rest)
    | [] => .ok []
  else .error (Reason.invalidNumber.into cs)

def passFraction : List Char → Except Fault (List Char)
  | [] => .ok []
  | c :: rest =>
      if c = '.' then passDecimals rest
      else if c = 'e' ∨ c = 'E' then passExponent rest
      else .ok (c :: rest)

def passNumber : List Char → Except Fault (List Char)
  | [] => .error (Reason.invalidNumber.before [])
  | c :: rest =>
      if c = '0' then
        if startsWithDigit rest then .error (Reason.invalidNumber.into rest) else passFraction rest
      else if c.isDigit then passFraction (dropDigits rest)
      else .error (Reason.invalidNumber.into (c :: rest))

theorem passExponentLength {cs rest} (h : passExponent cs = .ok rest) : rest.length ≤ cs.length := by
  unfold passExponent at h
  split at h
  · cases h; exact Nat.le_trans (dropDigitsLength _) (dropSignLength cs)
  · cases h

theorem passDecimalsLength {cs rest} (h : passDecimals cs = .ok rest) : rest.length ≤ cs.length := by
  unfold passDecimals at h
  have shorter := dropDigitsLength cs
  split at h
  · split at h
    · rename_i dropped
      rw [dropped,List.length_cons] at shorter
      split at h
      · have := passExponentLength h; omega
      · cases h; simpa using shorter
    · cases h; simp
  · cases h

theorem passFractionLength {cs rest} (h : passFraction cs = .ok rest) : rest.length ≤ cs.length := by
  unfold passFraction at h
  split at h
  · cases h; simp
  · split at h
    · have := passDecimalsLength h; simp only [List.length_cons]; omega
    · split at h
      · have := passExponentLength h; simp only [List.length_cons]; omega
      · cases h; simp

theorem passNumberLength {cs rest} (h : passNumber cs = .ok rest) : rest.length < cs.length := by
  unfold passNumber at h
  split at h
  · cases h
  · rename_i c tail
    have dropped := dropDigitsLength tail
    split at h
    · split at h
      · cases h
      · have := passFractionLength h; simp only [List.length_cons]; omega
    · split at h
      · have := passFractionLength h; simp only [List.length_cons]; omega
      · cases h

inductive Number where
  | integer (value : Int)
  | float (value : Binary64)
  deriving DecidableEq, Repr

-- Takes digits as long as the number they form stays within the limit: the number, how many digits
-- were taken, and the rest.
def gather (limit : Nat) : Nat → List Char → Nat × Nat × List Char
  | n, [] => (n,0,[])
  | n, c :: rest =>
      if c.isDigit then
        let next := n * 10 + (c.toNat - '0'.toNat)
        if limit < next then (n,0,c :: rest)
        else
          let (last,count,rest) := gather limit next rest
          (last,count + 1,rest)
      else (n,0,c :: rest)

def greatestWord : Nat := Nat.pow 2 64 - 1
def greatestExponent : Nat := Nat.pow 2 31 - 1

/-- Scales by a power of ten, rounding once for every factor of at most `1e308`. -/
def scale (x : Magnitude) (exponent : Int) : Option Magnitude :=
  if exponent.natAbs ≤ 308 then do
    let power ← Decimal.ofDecimal 1 exponent.natAbs
    if 0 ≤ exponent then x.mul power else x.div power
  else if x.significand = 0 then some x
  else if 0 ≤ exponent then none
  else do
    let power ← Decimal.ofDecimal 1 308
    let smaller ← x.div power
    scale smaller (exponent + 308)
  termination_by exponent.natAbs
  decreasing_by omega

def floated (negative : Bool) (significand : Nat) (exponent : Int) (rest : List Char) :
    Except Fault (Number × List Char) :=
  match Decimal.nearest significand 1 >>= (scale · exponent) with
  | some x => .ok (.float (.finite negative x),rest)
  | none => .error (Reason.numberOutOfRange.before rest)

def readExponent (negative : Bool) (significand : Nat) (start : Int) (cs : List Char) :
    Except Fault (Number × List Char) :=
  let below := cs.head? == some '-'
  let digits := dropSign cs
  match digits with
  | [] => .error (Reason.endInValue.before [])
  | c :: _ =>
      if c.isDigit then
        let (e,_,rest) := gather greatestExponent 0 digits
        match rest with
        | d :: more =>
            if d.isDigit then
              if significand ≠ 0 ∧ ¬ below then .error (Reason.numberOutOfRange.before more)
              else .ok (.float (.finite negative Magnitude.zero),dropDigits more)
            else floated negative significand (if below then start - e else start + e) rest
        | [] => floated negative significand (if below then start - e else start + e) rest
      else .error (Reason.invalidNumber.into digits)

def readTail (negative : Bool) (significand : Nat) (exponent : Int) (cs : List Char) :
    Except Fault (Number × List Char) :=
  match cs with
  | c :: rest =>
      if c = 'e' ∨ c = 'E' then readExponent negative significand exponent rest
      else floated negative significand exponent cs
  | [] => floated negative significand exponent []

def readDecimals (negative : Bool) (significand : Nat) (start : Int) (cs : List Char) :
    Except Fault (Number × List Char) :=
  let (n,count,rest) := gather greatestWord significand cs
  if startsWithDigit rest then readTail negative n (start - count) (dropDigits rest)
  else if count = 0 then
    match rest with
    | [] => .error (Reason.endInValue.before [])
    | _ => .error (Reason.invalidNumber.into rest)
  else readTail negative n (start - count) rest

def readFraction (negative : Bool) (significand : Nat) (cs : List Char) :
    Except Fault (Number × List Char) :=
  match cs with
  | c :: rest =>
      if c = '.' then readDecimals negative significand 0 rest
      else if c = 'e' ∨ c = 'E' then readExponent negative significand 0 rest
      else whole cs
  | [] => whole []
where
  whole (rest : List Char) : Except Fault (Number × List Char) :=
    if negative then
      if 0 < significand ∧ significand ≤ Nat.pow 2 63 then .ok (.integer (-(significand : Int)),rest)
      else floated true significand 0 rest
    else .ok (.integer significand,rest)

-- What follows leading digits that no longer fit into a word; the digits dropped count as zeros.
def readLong (negative : Bool) (significand : Nat) (cs : List Char) :
    Except Fault (Number × List Char) :=
  let rest := dropDigits cs
  let dropped : Int := cs.length - rest.length
  match rest with
  | c :: more =>
      if c = '.' then readDecimals negative significand dropped more
      else readTail negative significand dropped rest
  | [] => readTail negative significand dropped rest

def readNumber (negative : Bool) : List Char → Except Fault (Number × List Char)
  | [] => .error (Reason.endInValue.before [])
  | c :: rest =>
      if c = '0' then
        if startsWithDigit rest then .error (Reason.invalidNumber.into rest)
        else readFraction negative 0 rest
      else if c.isDigit then
        let (n,_,more) := gather greatestWord 0 (c :: rest)
        if startsWithDigit more then readLong negative n more else readFraction negative n more
      else .error (Reason.invalidNumber.into (c :: rest))

end SyntaxCatalog.Json
