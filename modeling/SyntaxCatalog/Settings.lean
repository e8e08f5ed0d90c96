import SyntaxCatalog.Json.Written
import SyntaxCatalog.Path

/-! Settings of a generation. They come in layers, of which a later one wins, and are resolved
against a base directory into the paths that a generation reads and writes. -/
namespace SyntaxCatalog

def defaultDescriptor : Path :=
  ⟨"../ballerina-treegen/src/main/resources/syntax_tree_descriptor.json"⟩
def mainOutput : Path := ⟨"src/main/resources/parameter-names.json"⟩
def testOutput : Path := ⟨"src/test/resources/parameter-names.json"⟩

inductive Variant where
  | main
  | mainAndTest
  deriving DecidableEq, Repr

def Variant.outputs : Variant → List Path
  | .main => [mainOutput]
  | .mainAndTest => [mainOutput,testOutput]

def Variant.names : List (String × Variant) := [("main",.main),("main-and-test",.mainAndTest)]

def layoutNames : List (String × Json.Layout) := [("compact",.compact),("pretty",.pretty)]

structure Plan where
  descriptor : Path
  outputs : List Path
  layout : Json.Layout
  deriving DecidableEq, Repr

def Variant.plan (v : Variant) (base : Path) : Plan :=
  ⟨base.join defaultDescriptor,v.outputs.map base.join,.compact⟩

structure Settings where
  baseDir : Option Path
  variant : Option Variant
  descriptor : Option Path
  outputs : List Path
  layout : Option Json.Layout
  deriving DecidableEq, Repr

namespace Settings

def unset : Settings := ⟨none,none,none,[],none⟩

/-- Lays one layer over another. Each setting is decided by itself, and outputs are taken whole. -/
def merge (lower upper : Settings) : Settings where
  baseDir := upper.baseDir <|> lower.baseDir
  variant := upper.variant <|> lower.variant
  descriptor := upper.descriptor <|> lower.descriptor
  outputs := if upper.outputs.isEmpty then lower.outputs else upper.outputs
  layout := upper.layout <|> lower.layout

def base (s : Settings) : Path := s.baseDir.getD ⟨"."⟩

def plan (s : Settings) : Plan :=
  let defaults := (s.variant.getD .main).plan s.base
  { descriptor := (s.descriptor.map s.base.join).getD defaults.descriptor
    outputs := if s.outputs.isEmpty then defaults.outputs else s.outputs.map s.base.join
    layout := s.layout.getD .compact }

end Settings
end SyntaxCatalog
