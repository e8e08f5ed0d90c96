import SyntaxCatalog.Descriptor
import SyntaxCatalog.Json.Collection

/-! Reading descriptors. Only `nodes`, `name` and `attributes` matter; every other key is passed
over. A node without `attributes` has none. -/
namespace SyntaxCatalog
open Json (Field Record Slot)

def Attribute.record : Record (Option String) Attribute where
  name := "struct Attribute"
  start := none
  field state key :=
    if key = "name" then
      if state.isSome then .refuse (.duplicateField "name")
      else .value ((Json.string "a string").map some)
    else .value (Json.pass.map (fun _ => state))
  slots := [⟨fun _ => (Json.string "a string").map some,false⟩]
  finish
    | some name => .ok ⟨name⟩
    | none => .error (.missingField "name")

structure Node.Fields where
  name : Option String
  attributes : Option (List Attribute)

def Node.record : Record Node.Fields Node where
  name := "struct Node"
  start := ⟨none,none⟩
  field state key :=
    if key = "name" then
      if state.name.isSome then .refuse (.duplicateField "name")
      else .value ((Json.string "a string").map (fun name => ⟨some name,state.attributes⟩))
    else if key = "attributes" then
      if state.attributes.isSome then .refuse (.duplicateField "attributes")
      else .value ((Json.list Attribute.record.reader).map (fun found => ⟨state.name,some found⟩))
    else .value (Json.pass.map (fun _ => state))
  slots := [
    ⟨fun state => (Json.string "a string").map (fun name => ⟨some name,state.attributes⟩),false⟩,
    ⟨fun state => (Json.list Attribute.record.reader).map (fun found => ⟨state.name,some found⟩),true⟩]
  finish state := match state.name with
    | some name => .ok ⟨name,state.attributes.getD []⟩
    | none => .error (.missingField "name")

def Descriptor.record : Record (Option (List Node)) Descriptor where
  name := "struct Descriptor"
  start := none
  field state key :=
    if key = "nodes" then
      if state.isSome then .refuse (.duplicateField "nodes")
      else .value ((Json.list Node.record.reader).map some)
    else .value (Json.pass.map (fun _ => state))
  slots := [⟨fun _ => (Json.list Node.record.reader).map some,false⟩]
  finish
    | some nodes => .ok ⟨nodes⟩
    | none => .error (.missingField "nodes")

def Descriptor.ofJson (text : String) : Except Json.Error Descriptor :=
  Json.parse Descriptor.record.reader text

end SyntaxCatalog
