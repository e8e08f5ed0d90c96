import Std.Data.HashMap
import SyntaxCatalog.Descriptor

/-! Catalogs: the parameter names of every node kind, in the order in which the kinds were first
entered. The index finds the place of a node among the entries. -/
namespace SyntaxCatalog

structure Entry where
  node : String
  parameters : List String
  deriving DecidableEq, Repr

structure Catalog where
  entries : Array Entry
  index : Std.HashMap String Nat

namespace Catalog

def empty : Catalog := ⟨#[],∅⟩

instance : BEq Catalog := ⟨fun a b => a.entries == b.entries && a.index == b.index⟩

/-- A known node keeps its place and takes the new parameters; an unknown one goes to the end. The
parameters known before are returned. -/
def insert (c : Catalog) (node : String) (parameters : List String) : Option (List String) × Catalog :=
  match c.index[node]? with
  | some place =>
      (c.entries[place]?.map Entry.parameters,
        {c with entries := c.entries.modify place (fun entry => {entry with parameters})})
  | none =>
      (none,⟨c.entries.push ⟨node,parameters⟩,c.index.insert node c.entries.size⟩)

def get? (c : Catalog) (node : String) : Option (List String) := do
  let place ← c.index[node]?
  let entry ← c.entries[place]?
  some entry.parameters

def size (c : Catalog) : Nat := c.entries.size

def isEmpty (c : Catalog) : Bool := c.entries.isEmpty

def toList (c : Catalog) : List Entry := c.entries.toList

def nodes (c : Catalog) : List String := c.toList.map Entry.node

def enter (c : Catalog) : List Node → List String × Catalog
  | [] => ([],c)
  | node :: rest =>
      let (previous,c) := c.insert node.name node.parameters
      let (repeated,c) := c.enter rest
      (if previous.isSome then node.name :: repeated else repeated,c)

def ofDescriptor (d : Descriptor) : List String × Catalog := empty.enter d.nodes

end Catalog
end SyntaxCatalog
