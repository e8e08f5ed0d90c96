/-! Descriptors of syntax trees: a list of node kinds, each with its attributes in order. -/
namespace SyntaxCatalog

structure Attribute where
  name : String
  deriving DecidableEq, Repr

structure Node where
  name : String
  attributes : List Attribute
  deriving DecidableEq, Repr

structure Descriptor where
  nodes : List Node
  deriving DecidableEq, Repr

def Node.parameters (node : Node) : List String := node.attributes.map Attribute.name

end SyntaxCatalog
