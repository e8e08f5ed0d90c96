import SyntaxCatalog.ConfigFile
import SyntaxCatalog.Json.Collection

/-! Configuration as JSON. A key may be `null`, which is as good as absent, but may not be repeated,
and no other key is accepted. -/
namespace SyntaxCatalog
open Json (Field Record Slot nullable)
open Text (Reader)

def pathReader : Reader Json.Fault Path := (Json.string "path string").map Path.mk

def Variant.reader : Reader Json.Fault Variant := Json.choice Variant.names

def layoutReader : Reader Json.Fault Json.Layout := Json.choice layoutNames

namespace ConfigFile

structure Fields where
  seen : List String
  file : ConfigFile

def Fields.reader (state : Fields) (key : String) : Option (Reader Json.Fault Fields) :=
  let put (file : ConfigFile) : Fields := ⟨key :: state.seen,file⟩
  if key = "descriptor" then
    some ((nullable pathReader).map (fun found => put {state.file with descriptor := found}))
  else if key = "outputs" then
    some ((nullable (Json.list pathReader)).map (fun found => put {state.file with outputs := found}))
  else if key = "format" then
    some ((nullable layoutReader).map (fun found => put {state.file with layout := found}))
  else if key = "variant" then
    some ((nullable Variant.reader).map (fun found => put {state.file with variant := found}))
  else none

def record : Record Fields ConfigFile where
  name := "struct ConfigFile"
  start := ⟨[],empty⟩
  field state key :=
    match state.reader key with
    | some reader => if state.seen.contains key then .refuse (.duplicateField key) else .value reader
    | none => .refuse (.unknownField key keys)
  slots := keys.map (fun key => ⟨fun state => (state.reader key).getD (Json.pass.map (fun _ => state)),false⟩)
  finish state := .ok state.file

def ofJson (text : String) : Except Json.Error ConfigFile := Json.parse record.reader text

end ConfigFile
end SyntaxCatalog
