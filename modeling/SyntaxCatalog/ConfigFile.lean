import SyntaxCatalog.Settings

/-! What a configuration file may say. Every key is optional. -/
namespace SyntaxCatalog

structure ConfigFile where
  descriptor : Option Path
  outputs : Option (List Path)
  layout : Option Json.Layout
  variant : Option Variant
  deriving DecidableEq, Repr

namespace ConfigFile

def empty : ConfigFile := ⟨none,none,none,none⟩

def keys : List String := ["descriptor","outputs","format","variant"]

def baseDirectory (path : Path) : Path := (path.parent.filter (fun dir => !dir.text.isEmpty)).getD ⟨"."⟩

def settings (file : ConfigFile) (path : Path) : Settings :=
  ⟨some (baseDirectory path),file.variant,file.descriptor,file.outputs.getD [],file.layout⟩

end ConfigFile
end SyntaxCatalog
