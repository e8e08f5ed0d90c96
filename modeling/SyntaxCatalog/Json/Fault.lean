import SyntaxCatalog.Mismatch
import SyntaxCatalog.Text.Position

/-! Why a JSON text was refused, and where. -/
namespace SyntaxCatalog.Json
open Text (Position bytes)

inductive Reason where
  | endInList
  | endInObject
  | endInString
  | endInValue
  | expectedColon
  | expectedListCommaOrEnd
  | expectedObjectCommaOrEnd
  | expectedIdent
  | expectedValue
  | invalidEscape
  | invalidNumber
  | numberOutOfRange
  | loneSurrogate
  | unexpectedEndOfHexEscape
  | controlCharacter
  | keyMustBeString
  | trailingComma
  | trailingCharacters
  | mismatch (cause : Mismatch)
  deriving DecidableEq, Repr

inductive Category where
  | grammar
  | data
  | ending
  deriving DecidableEq, Repr

def Reason.category : Reason → Category
  | .endInList | .endInObject | .endInString | .endInValue => .ending
  | .mismatch _ => .data
  | _ => .grammar

def Reason.describe : Reason → String
  | .endInList => "EOF while parsing a list"
  | .endInObject => "EOF while parsing an object"
  | .endInString => "EOF while parsing a string"
  | .endInValue => "EOF while parsing a value"
  | .expectedColon => "expected `:`"
  | .expectedListCommaOrEnd => "expected `,` or `]`"
  | .expectedObjectCommaOrEnd => "expected `,` or `\x7d`"
  | .expectedIdent => "expected ident"
  | .expectedValue => "expected value"
  | .invalidEscape => "invalid escape"
  | .invalidNumber => "invalid number"
  | .numberOutOfRange => "number out of range"
  | .loneSurrogate => "lone leading surrogate in hex escape"
  | .unexpectedEndOfHexEscape => "unexpected end of hex escape"
  | .controlCharacter => "control character (\\u0000-\\u001F) found while parsing a string"
  | .keyMustBeString => "key must be a string"
  | .trailingComma => "trailing comma"
  | .trailingCharacters => "trailing characters"
  | .mismatch cause => cause.message

/-- A refusal at the place that has `unread` bytes after it. -/
structure Fault where
  reason : Reason
  unread : Nat
  deriving DecidableEq, Repr

def Reason.before (reason : Reason) (rest : List Char) : Fault := ⟨reason,bytes rest⟩

-- Refuses one byte into the given rest of the text, or at its end.
def Reason.into (reason : Reason) (rest : List Char) : Fault := ⟨reason,bytes rest - 1⟩

structure Error where
  reason : Reason
  position : Position
  deriving DecidableEq, Repr

def Fault.locate (text : List Char) (fault : Fault) : Error :=
  ⟨fault.reason,Position.before fault.unread text⟩

def Error.message (e : Error) : String :=
  e.reason.describe ++ " at line " ++ toString e.position.line ++ " column " ++ toString e.position.column

end SyntaxCatalog.Json
