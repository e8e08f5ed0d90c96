import SyntaxCatalog.Decimal.Shortest
import SyntaxCatalog.Mismatch
import SyntaxCatalog.Text.Position
import SyntaxCatalog.Toml.Item

/-! Documents of the wrong shape. The report quotes the line in which the offending stretch of text
starts and marks the part of the stretch that lies on that line. -/
namespace SyntaxCatalog.Toml
open Text (bytes)

inductive Reason where
  | mismatch (cause : Mismatch)
  | neitherStringNorTable
  | noElement
  | severalElements
  | expectedEmptyTable
  | expectedEmptyArray
  | expectedTable (found : String)
  deriving DecidableEq, Repr

def Reason.message : Reason → String
  | .mismatch cause => cause.message
  | .neitherStringNorTable => "wanted string or table"
  | .noElement => "wanted exactly 1 element, found 0 elements"
  | .severalElements => "wanted exactly 1 element, more than 1 element"
  | .expectedEmptyTable => "expected empty table"
  | .expectedEmptyArray => "expected empty array"
  | .expectedTable found => "expected table, found " ++ found

structure Fault where
  reason : Reason
  span : Span
  deriving DecidableEq, Repr

inductive Error where
  | malformed
  | shape (fault : Fault) (text : String)
  deriving DecidableEq, Repr

def Scalar.found : Scalar → Found
  | .string text => .string text
  | .integer value => .integer value
  | .float value => .float (Decimal.Layout.plain.text value)
  | .boolean value => .boolean value
  | .datetime => .map

def Scalar.kind : Scalar → String
  | .string _ => "string"
  | .integer _ => "integer"
  | .float _ => "float"
  | .boolean _ => "boolean"
  | .datetime => "datetime"

def Item.found : Item → Found
  | .scalar value _ => value.found
  | .array _ _ => .sequence
  | .table _ _ _ => .map
  | .tables _ => .sequence

def splitBytes : Nat → List Char → List Char × List Char
  | _, [] => ([],[])
  | n, c :: cs =>
      if n = 0 then ([],c :: cs)
      else
        let (before,after) := splitBytes (n - c.utf8Size) cs
        (c :: before,after)

def report (reason : Reason) (before after : List Char) (size : Nat) : String :=
  let number := 1 + before.count '\n'
  let start := (before.reverse.takeWhile (· ≠ '\n')).reverse
  let line := start ++ after.takeWhile (· ≠ '\n')
  let column := start.length
  let label := toString number
  let margin := String.ofList (List.replicate (label.length + 1) ' ') ++ "|"
  let marks := max 1 (min size (bytes line - column))
  "TOML parse error at line " ++ label ++ ", column " ++ toString (column + 1) ++ "\n" ++
    margin ++ "\n" ++
    label ++ " | " ++ String.ofList line ++ "\n" ++
    margin ++ String.ofList (List.replicate (column + 1) ' ' ++ List.replicate marks '^') ++ "\n" ++
    reason.message ++ "\n"

def Fault.render (fault : Fault) (text : String) : String :=
  let (before,after) := splitBytes (bytes text.toList - fault.span.start) text.toList
  report fault.reason before after (fault.span.start - fault.span.stop)

end SyntaxCatalog.Toml
