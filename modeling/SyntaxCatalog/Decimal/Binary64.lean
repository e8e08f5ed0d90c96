/-! Binary floating point numbers of double precision, by exact arithmetic on natural numbers. A
finite magnitude is `significand * 2 ^ exponent` with a significand below `2 ^ 53` and an exponent
of at least -1074; zero has the least exponent. -/
namespace SyntaxCatalog.Decimal

structure Magnitude where
  significand : Nat
  exponent : Int
  deriving DecidableEq, Repr

inductive Binary64 where
  | finite (negative : Bool) (magnitude : Magnitude)
  | infinite (negative : Bool)
  | undefined
  deriving DecidableEq, Repr

def Magnitude.zero : Magnitude := ⟨0,-1074⟩

def Magnitude.ratio (x : Magnitude) : Nat × Nat :=
  if 0 ≤ x.exponent then (x.significand * Nat.pow 2 x.exponent.toNat,1)
  else (x.significand,Nat.pow 2 x.exponent.natAbs)

def roundToEven (num den : Nat) : Nat :=
  let low := num / den
  let twice := 2 * (num % den)
  if den < twice ∨ (twice = den ∧ low % 2 = 1) then low + 1 else low

def binaryExponent (num den : Nat) : Int :=
  let guess : Int := (num.log2 : Int) - (den.log2 : Int)
  let fits := if 0 ≤ guess then den * Nat.pow 2 guess.toNat ≤ num else den ≤ num * Nat.pow 2 guess.natAbs
  if fits then guess else guess - 1

def nearest (num den : Nat) : Option Magnitude :=
  if num = 0 then some Magnitude.zero
  else
    let q := max (binaryExponent num den - 52) (-1074)
    let m := if 0 ≤ q then roundToEven num (den * Nat.pow 2 q.toNat) else roundToEven (num * Nat.pow 2 q.natAbs) den
    let (m,q) := if m = Nat.pow 2 53 then (Nat.pow 2 52,q + 1) else (m,q)
    if 971 < q then none else some ⟨m,q⟩

def Magnitude.mul (x y : Magnitude) : Option Magnitude :=
  nearest (x.ratio.1 * y.ratio.1) (x.ratio.2 * y.ratio.2)

def Magnitude.div (x y : Magnitude) : Option Magnitude :=
  nearest (x.ratio.1 * y.ratio.2) (x.ratio.2 * y.ratio.1)

/-- The nearest magnitude to `digits * 10 ^ exponent`. Quotients far beyond the greatest magnitude
or far below the least are decided by their size alone. -/
def ofDecimal (digits : Nat) (exponent : Int) : Option Magnitude :=
  let size : Int := (Nat.toDigits 10 digits).length + exponent
  if digits = 0 then some Magnitude.zero
  else if 320 < size then none
  else if size < -340 then some Magnitude.zero
  else if 0 ≤ exponent then nearest (digits * Nat.pow 10 exponent.toNat) 1
  else nearest digits (Nat.pow 10 exponent.natAbs)

end SyntaxCatalog.Decimal
