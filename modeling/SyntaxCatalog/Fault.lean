import SyntaxCatalog.FileTree.Report
import SyntaxCatalog.Json.Fault
import SyntaxCatalog.Toml.Fault

/-! Everything that can go wrong, as a cause. The texts come in two forms: a message for people, and
one that shows all parts of the cause. -/
namespace SyntaxCatalog

inductive FileAction where
  | read
  | write
  deriving DecidableEq, Repr

inductive Fault where
  | fileAccess (path : Path) (action : FileAction) (cause : FileFault)
  | malformedInput (path : Path) (cause : Json.Error)
  | unwritable (cause : Json.Error)
  | configuration (reason : String)
  | configurationFile (path : Path) (cause : Toml.Error)
  | unknownNode (node : String)
  deriving DecidableEq, Repr

def FileAction.name : FileAction → String
  | .read => "read"
  | .write => "write"

def Toml.Error.message : Toml.Error → String
  | .malformed => "TOML parse error"
  | .shape fault text => fault.render text

namespace Fault

def message : Fault → String
  | .fileAccess path action cause => "cannot " ++ action.name ++ " " ++ path.text ++ ": " ++ cause.message
  | .malformedInput path cause => "malformed input in " ++ path.text ++ ": " ++ cause.message
  | .unwritable cause => "failed to serialize parameter names: " ++ cause.message
  | .configuration reason => "invalid configuration: " ++ reason
  | .configurationFile path cause => "invalid config file " ++ path.text ++ ": " ++ cause.message
  | .unknownNode node => "unknown node: " ++ node

def cause? : Fault → Option String
  | .fileAccess _ _ cause => some cause.message
  | .malformedInput _ cause => some cause.message
  | .unwritable cause => some cause.message
  | .configurationFile _ cause => some cause.message
  | .configuration _ | .unknownNode _ => none

def jsonDetail (e : Json.Error) : String :=
  "Error(" ++ Text.quoted e.reason.describe ++ ", line: " ++ toString e.position.line ++
    ", column: " ++ toString e.position.column ++ ")"

/-- The fault with all its parts. Of write failures and of faults in configuration files only the
kind is shown, since their parts depend on the machine. -/
def detail : Fault → String
  | .fileAccess path .read cause =>
      "FileAccess \x7b path: " ++ Text.quoted path.text ++ ", action: Read, source: " ++ cause.detail ++ " \x7d"
  | .fileAccess _ .write _ => "FileAccess Write"
  | .malformedInput path cause =>
      "MalformedInput \x7b path: " ++ Text.quoted path.text ++ ", source: " ++ jsonDetail cause ++ " \x7d"
  | .unwritable cause => "Serialize(" ++ jsonDetail cause ++ ")"
  | .configuration reason => "Config(" ++ Text.quoted reason ++ ")"
  | .configurationFile _ _ => "ConfigParse"
  | .unknownNode node => "UnknownNode(" ++ Text.quoted node ++ ")"

end Fault
end SyntaxCatalog
