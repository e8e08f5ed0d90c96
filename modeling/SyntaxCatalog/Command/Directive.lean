import SyntaxCatalog.Event
import SyntaxCatalog.Pattern.Check
import SyntaxCatalog.Text.Pieces
import SyntaxCatalog.Text.Position

/-! Directives: `origin[span{field=value}]=level`, where every part may be missing. A directive says
how much is shown of the events of an origin; one that names a span, or a value for its field, says
nothing about events that stand in no span. -/
namespace SyntaxCatalog.Command

inductive Threshold where
  | off
  | error
  | warn
  | info
  | debug
  | trace
  deriving DecidableEq, Repr

def Threshold.shows : Threshold → Level → Bool
  | .off,_ | .error,_ => false
  | .warn,level => level == .warn
  | .info,level => level != .debug
  | .debug,_ | .trace,_ => true

def thresholds : List (String × Threshold) :=
  [("off",.off),("error",.error),("warn",.warn),("info",.info),("debug",.debug),("trace",.trace)]

def number? (cs : List Char) : Option Nat :=
  let digits := match cs with
    | '+' :: rest => rest
    | _ => cs
  if digits ≠ [] ∧ digits.all Char.isDigit then
    some (digits.foldl (fun n c => 10 * n + (c.toNat - '0'.toNat)) 0)
  else none

def threshold? (cs : List Char) : Option Threshold :=
  match number? cs with
  | some n => (thresholds[n]?).map Prod.snd
  | none => thresholds.lookup (String.ofList (cs.map Char.toLower))

structure Directive where
  origin : String
  field : Option String
  threshold : Threshold
  deriving DecidableEq, Repr

inductive Misreading where
  | form
  | field (fault : Pattern.Fault)
  | level
  deriving DecidableEq, Repr

def Misreading.describe : Misreading → String
  | .form => "invalid filter directive"
  | .field fault => "invalid field filter: " ++ fault.describe
  | .level => "error parsing level filter: expected one of \"off\", \"error\", \"warn\", \"info\", " ++
      "\"debug\", \"trace\", or a number 0-5"

def decimal (cs : List Char) : Bool :=
  let whole := cs.takeWhile Char.isDigit
  let rest := cs.dropWhile Char.isDigit
  let (decimals,rest) := match rest with
    | '.' :: more => (more.takeWhile Char.isDigit,more.dropWhile Char.isDigit)
    | _ => ([],rest)
  !(whole.isEmpty && decimals.isEmpty) && (rest.isEmpty || exponent rest)
where
  exponent : List Char → Bool
    | 'e' :: more | 'E' :: more =>
        let digits := match more with
          | '+' :: rest | '-' :: rest => rest
          | _ => more
        !digits.isEmpty && digits.all Char.isDigit
    | _ => false

def isNumber (cs : List Char) : Bool :=
  let unsigned := match cs with
    | '+' :: rest | '-' :: rest => rest
    | _ => cs
  decimal unsigned ||
    ["inf","infinity","nan"].contains (String.ofList (unsigned.map Char.toLower))

structure Field where
  name : String
  value : Option (List Char)
  deriving DecidableEq, Repr

def Field.ofText (cs : List Char) : Field :=
  match Text.pieces '=' cs with
  | name :: value :: _ => ⟨String.ofList name,some value⟩
  | _ => ⟨String.ofList cs,none⟩

def Field.fault? (f : Field) : Option Pattern.Fault :=
  match f.value with
  | none => none
  | some value => if isNumber value then none else Pattern.fault? value

inductive Tail where
  | nothing
  | level (start : Nat)
  | malformed
  deriving DecidableEq, Repr

-- The places of the parts of a directive, each by the number of bytes before it.
structure Outline where
  originEnd : Nat
  spanned : Bool
  field : Option (Nat × Nat)
  tail : Tail
  deriving DecidableEq, Repr

namespace Outline
variable (text : List Char)

def place (rest : List Char) : Nat := Text.bytes text - Text.bytes rest

def tailOf : List Char → Tail
  | [] => .nothing
  | c :: rest => if c = '=' then .level (place text rest) else .malformed

def ofBrackets (originEnd : Nat) (inside : List Char) : Option Outline :=
  match inside.dropWhile (fun c => c ≠ ']' && c ≠ '{') with
  | [] => none
  | c :: rest =>
      if c = ']' then some ⟨originEnd,true,none,tailOf text rest⟩
      else
        match rest.dropWhile (· ≠ '}') with
        | [] => none
        | brace :: last =>
            let field := (place text rest,place text (brace :: last))
            let spanned := place text (c :: rest) ≠ place text inside
            if field.1 = field.2 then none
            else
              match last with
              | ']' :: more => some ⟨originEnd,spanned,some field,tailOf text more⟩
              | _ => some ⟨originEnd,spanned,some field,.malformed⟩

def ofText? : Option Outline :=
  match text with
  | [] => none
  | first :: inside =>
      if first = '[' then ofBrackets text 0 inside
      else if first = '-' || first = ':' || first = '_' || Text.alphanumeric first then
        match text.dropWhile (fun c => c ≠ '=' && c ≠ '[') with
        | [] => some ⟨place text [],false,none,.nothing⟩
        | c :: rest =>
            let originEnd := place text (c :: rest)
            if c = '=' then some ⟨originEnd,false,none,.level (place text rest)⟩
            else ofBrackets text originEnd rest
      else none

end Outline

/-- Reads a directive; the answer is empty for one that says nothing about events. Blanks around it do
not count when its parts are told apart, but the places found so are places in the whole text. A
text without brackets and level may be a level itself. -/
def Directive.ofText (text : List Char) : Except Misreading (Option Directive) :=
  let trimmed := Text.trimmed text
  match Outline.ofText? trimmed with
  | none => .error .form
  | some o =>
      if o.originEnd = Text.bytes trimmed then
        match threshold? text with
        | some threshold => .ok (some ⟨"",none,threshold⟩)
        | none => .ok (some ⟨String.ofList text,none,.trace⟩)
      else
        let origin := String.ofList (Text.takeBytes o.originEnd text)
        let field := o.field.map (fun (start,stop) =>
          Field.ofText (Text.takeBytes (stop - start) (Text.dropBytes start text)))
        match field.bind Field.fault?,level o.tail with
        | some fault,_ => .error (.field fault)
        | none,.error misreading => .error misreading
        | none,.ok threshold =>
            if o.spanned || field.any (·.value.isSome) then .ok none
            else .ok (some ⟨origin,field.map Field.name,threshold⟩)
where
  level : Tail → Except Misreading Threshold
    | .nothing => .ok .trace
    | .malformed => .error .form
    | .level start =>
        match Text.dropBytes start text with
        | [] => .ok .trace
        | cs => (threshold? cs).elim (.error .level) .ok

end SyntaxCatalog.Command
