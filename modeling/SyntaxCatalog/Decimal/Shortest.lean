import SyntaxCatalog.Decimal.Binary64

/-! The shortest decimal number that reads back as a given magnitude: the fewest digits first, then
the nearest. Two that are equally near are told apart by the layout in which they are written;
layouts are at the end. -/
namespace SyntaxCatalog.Decimal

structure Number where
  digits : Nat
  exponent : Int
  deriving DecidableEq, Repr

-- Four times the bounds of the numbers that round to a magnitude, in units of its last place.
def Magnitude.bounds (x : Magnitude) : Nat × Nat :=
  let below := if x.significand = Nat.pow 2 52 ∧ -1074 < x.exponent then 1 else 2
  (4 * x.significand - below,4 * x.significand + 2)

def compareScaled (a : Nat) (d : Int) (b : Nat) (q : Int) : Ordering :=
  let up (base : Nat) (e : Int) := if 0 ≤ e then Nat.pow base e.toNat else 1
  let down (base : Nat) (e : Int) := if 0 ≤ e then 1 else Nat.pow base e.natAbs
  compare (a * up 10 d * down 2 q) (b * up 2 q * down 10 d)

def Magnitude.readsBack (x : Magnitude) (n : Number) : Bool :=
  let (low,high) := x.bounds
  let least := compareScaled n.digits n.exponent low (x.exponent - 2)
  let most := compareScaled n.digits n.exponent high (x.exponent - 2)
  if x.significand % 2 = 0 then least != .lt && most != .gt else least == .gt && most == .lt

def Magnitude.floorAt (x : Magnitude) (step : Int) : Nat :=
  let (num,den) := x.ratio
  if 0 ≤ step then num / (den * Nat.pow 10 step.toNat) else num * Nat.pow 10 step.natAbs / den

inductive Tie where
  | even
  | greater
  deriving DecidableEq, Repr

def Magnitude.onGrid (x : Magnitude) (tie : Tie) (step : Int) : Option Number :=
  let low : Number := ⟨x.floorAt step,step⟩
  let high : Number := ⟨low.digits + 1,step⟩
  match x.readsBack low,x.readsBack high with
  | false,false => none
  | true,false => some low
  | false,true => some high
  | true,true =>
      match compareScaled (low.digits + high.digits) step (2 * x.significand) x.exponent with
      | .gt => some low
      | .lt => some high
      | .eq => if tie = .even ∧ low.digits % 2 = 0 then some low else some high

def Magnitude.leading (x : Magnitude) : Int :=
  let (num,den) := x.ratio
  if den ≤ num then ((Nat.toDigits 10 (num / den)).length : Int) - 1
  else
    let guess := (Nat.toDigits 10 (den / num)).length
    if num * Nat.pow 10 (guess - 1) < den then -(guess : Int) else 1 - (guess : Int)

-- Seventeen digits always suffice; the last grid is taken without a test.
def Magnitude.shortest (x : Magnitude) (tie : Tie) : Number :=
  let top := x.leading
  match (List.range 17).findSome? (fun (n : Nat) => x.onGrid tie (top - n)) with
  | some n => n
  | none => ⟨x.floorAt (top - 16),top - 16⟩

def dropZeros (ds : List Char) : List Char × Nat :=
  let kept := (ds.reverse.dropWhile (· = '0')).reverse
  (kept,ds.length - kept.length)

def positional (digits : List Char) (exponent : Int) : List Char :=
  if 0 ≤ exponent then digits ++ List.replicate exponent.toNat '0' ++ ['.','0']
  else
    let places := exponent.natAbs
    if places < digits.length then
      digits.take (digits.length - places) ++ '.' :: digits.drop (digits.length - places)
    else '0' :: '.' :: List.replicate (places - digits.length) '0' ++ digits

def scientific (digits : List Char) (exponent : Int) : List Char :=
  let lead : Int := exponent + digits.length - 1
  let tail := if digits.length ≤ 1 then [] else '.' :: digits.drop 1
  let sign := if lead < 0 then '-' else '+'
  digits.take 1 ++ tail ++ ('e' :: sign :: Nat.toDigits 10 lead.natAbs)

structure Layout where
  positionalFrom : Option Int
  positionalTo : Option Int
  tie : Tie
  deriving DecidableEq, Repr

def Layout.write (layout : Layout) (x : Magnitude) : List Char :=
  if x.significand = 0 then ['0','.','0']
  else
    let n := x.shortest layout.tie
    let (digits,zeros) := dropZeros (Nat.toDigits 10 n.digits)
    let exponent := n.exponent + zeros
    let lead : Int := exponent + digits.length - 1
    if layout.positionalFrom.all (· ≤ lead) && layout.positionalTo.all (lead ≤ ·) then
      positional digits exponent
    else scientific digits exponent

def Layout.text (layout : Layout) : Binary64 → String
  | .undefined => "NaN"
  | .infinite false => "inf"
  | .infinite true => "-inf"
  | .finite false x => String.ofList (layout.write x)
  | .finite true x => String.ofList ('-' :: layout.write x)

def Layout.compact : Layout := ⟨some (-5),some 15,.even⟩

def Layout.plain : Layout := ⟨none,none,.greater⟩

end SyntaxCatalog.Decimal
