import SyntaxCatalog.Path

/-! What a run reports while it works. -/
namespace SyntaxCatalog

inductive Level where
  | debug
  | info
  | warn
  deriving DecidableEq, Repr

inductive Event where
  | readingDescriptor (path : Path)
  | readingCatalog (path : Path)
  | repeatedNode (node : String)
  | writing (size : Nat) (path : Path)
  | wrote (nodes : Nat) (path : Path)
  | generated (nodes files : Nat)
  deriving DecidableEq, Repr

namespace Event

def level : Event → Level
  | .readingDescriptor _ | .readingCatalog _ | .writing _ _ => .debug
  | .repeatedNode _ => .warn
  | .wrote _ _ | .generated _ _ => .info

def message : Event → String
  | .readingDescriptor path => "reading descriptor " ++ path.text
  | .readingCatalog path => "reading parameter names " ++ path.text
  | .repeatedNode node => "duplicate node " ++ node ++ " in descriptor; keeping the last definition"
  | .writing size path => "writing " ++ toString size ++ " bytes to " ++ path.text
  | .wrote nodes path => "wrote " ++ toString nodes ++ " nodes to " ++ path.text
  | .generated nodes files =>
      "Generated parameter names for " ++ toString nodes ++ " nodes into " ++ toString files ++ " file(s)"

def origin : Event → String
  | .readingDescriptor _ => "paramgen_core::descriptor"
  | .readingCatalog _ | .repeatedNode _ => "paramgen_core::param_names"
  | .writing _ _ | .wrote _ _ => "paramgen_core::generate"
  | .generated _ _ => "paramgen"

end Event
end SyntaxCatalog
