import SyntaxCatalog.Text.Quoted

/-! Values of the wrong kind, whatever the format they were written in. -/
namespace SyntaxCatalog

inductive Found where
  | null
  | boolean (value : Bool)
  | integer (value : Int)
  | float (digits : String)
  | string (text : String)
  | sequence
  | map
  deriving DecidableEq, Repr

inductive Mismatch where
  | invalidType (found : Found) (expected : String)
  | invalidLength (length : Nat) (expected : String)
  | missingField (name : String)
  | duplicateField (name : String)
  | unknownField (name : String) (known : List String)
  | unknownVariant (name : String) (known : List String)
  deriving DecidableEq, Repr

def ticked (s : String) : String := "`" ++ s ++ "`"

def Found.describe : Found → String
  | .null => "null"
  | .boolean value => "boolean " ++ ticked (if value then "true" else "false")
  | .integer value => "integer " ++ ticked (toString value)
  | .float digits => "floating point " ++ ticked digits
  | .string text => "string " ++ Text.quoted text
  | .sequence => "sequence"
  | .map => "map"

def alternatives : List String → String
  | [one] => ticked one
  | [one,other] => ticked one ++ " or " ++ ticked other
  | many => "one of " ++ ", ".intercalate (many.map ticked)

def Mismatch.message : Mismatch → String
  | .invalidType found expected => "invalid type: " ++ found.describe ++ ", expected " ++ expected
  | .invalidLength length expected => "invalid length " ++ toString length ++ ", expected " ++ expected
  | .missingField name => "missing field " ++ ticked name
  | .duplicateField name => "duplicate field " ++ ticked name
  | .unknownField name known =>
      "unknown field " ++ ticked name ++ ", expected " ++ alternatives known
  | .unknownVariant name known =>
      "unknown variant " ++ ticked name ++ ", expected " ++ alternatives known

end SyntaxCatalog
