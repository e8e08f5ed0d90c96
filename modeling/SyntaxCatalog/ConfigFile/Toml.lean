import SyntaxCatalog.ConfigFile
import SyntaxCatalog.Toml.Document
import SyntaxCatalog.Toml.Fault

/-! Configuration as TOML. Keys are looked at in the order of the table, and the first that is
unknown or has a value of the wrong shape is reported. -/
namespace SyntaxCatalog
open Toml (Item Key Span Table)

namespace Toml

def Item.place (item : Item) (key : Key) : Span := item.span.getD key.span

def stringItem (expected : String) (place : Span) : Item → Except Fault String
  | .scalar (.string text) _ => .ok text
  | item => .error ⟨.mismatch (.invalidType item.found expected),place⟩

def nothing (place : Span) : Item → Except Fault Unit
  | .array [] _ => .ok ()
  | .table _ [] _ => .ok ()
  | .tables [] => .ok ()
  | .scalar value span => .error ⟨.expectedTable value.kind,span⟩
  | .tables more => .error ⟨.expectedEmptyArray,(Item.tables more).span.getD place⟩
  | item => .error ⟨.expectedEmptyTable,item.span.getD place⟩

def chosen {α : Type} (choices : List (String × α)) (name : String) (place : Span) : Except Fault α :=
  match choices.lookup name with
  | some a => .ok a
  | none => .error ⟨.mismatch (.unknownVariant name (choices.map Prod.fst)),place⟩

def choiceItem {α : Type} (choices : List (String × α)) (place : Span) : Item → Except Fault α
  | .scalar (.string name) _ => chosen choices name place
  | .table _ [] _ => .error ⟨.noElement,place⟩
  | .table _ [(key,item)] _ =>
      match chosen choices key.name key.span with
      | .error e => .error e
      | .ok a => (nothing place item).map (fun _ => a)
  | .table _ _ _ => .error ⟨.severalElements,place⟩
  | _ => .error ⟨.neitherStringNorTable,place⟩

def eachItem {α : Type} (read : Span → Item → Except Fault α) (place : Span) :
    List Item → Except Fault (List α)
  | [] => .ok []
  | item :: more => do
      let a ← read (item.span.getD place) item
      let as ← eachItem read place more
      .ok (a :: as)

def listItem {α : Type} (read : Span → Item → Except Fault α) (place : Span) :
    Item → Except Fault (List α)
  | .array items _ => eachItem read place items
  | .tables items => eachItem read place items
  | item => .error ⟨.mismatch (.invalidType item.found "a sequence"),place⟩

end Toml

namespace ConfigFile

def pathItem (place : Span) (item : Item) : Except Toml.Fault Path :=
  (Toml.stringItem "path string" place item).map Path.mk

def take (file : ConfigFile) (key : Key) (item : Item) : Except Toml.Fault ConfigFile :=
  let place := item.place key
  if key.name = "descriptor" then
    (pathItem place item).map (fun found => {file with descriptor := some found})
  else if key.name = "outputs" then
    (Toml.listItem pathItem place item).map (fun found => {file with outputs := some found})
  else if key.name = "format" then
    (Toml.choiceItem layoutNames place item).map (fun found => {file with layout := some found})
  else if key.name = "variant" then
    (Toml.choiceItem Variant.names place item).map (fun found => {file with variant := some found})
  else .error ⟨.mismatch (.unknownField key.name keys),key.span⟩

def ofTable (table : Table) : Except Toml.Fault ConfigFile :=
  table.foldlM (fun file entry => file.take entry.1 entry.2) empty

def ofToml (text : String) : Except Toml.Error ConfigFile :=
  match Toml.root text with
  | none => .error .malformed
  | some table =>
      match ofTable table with
      | .ok file => .ok file
      | .error fault => .error (.shape fault text)

end ConfigFile
end SyntaxCatalog
