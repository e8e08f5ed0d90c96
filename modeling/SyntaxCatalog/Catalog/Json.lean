import SyntaxCatalog.Catalog
import SyntaxCatalog.Json.Collection
import SyntaxCatalog.Json.Written

/-! Catalogs as JSON: one object, from node names to lists of parameter names, in catalog order. A
key that is repeated in the text replaces the parameters it was read with before. -/
namespace SyntaxCatalog.Catalog
open Json (Layout)

def reader : Text.Reader Json.Fault Catalog :=
  Json.object "a map of node names to lists of parameter names"
    (fun c node => .value ((Json.list (Json.string "a string")).map (fun names => (c.insert node names).2)))
    empty

def ofJson (text : String) : Except Json.Error Catalog := Json.parse reader text

def writtenEntry (layout : Layout) (entry : Entry) : List Char :=
  layout.member entry.node (layout.strings 1 entry.parameters)

def written (c : Catalog) (layout : Layout) : List Char :=
  layout.object 0 (c.toList.map (writtenEntry layout))

def render (c : Catalog) (layout : Layout) : String := String.ofList (c.written layout)

end SyntaxCatalog.Catalog
