import SyntaxCatalog.Proofs.ConfigFile.Acceptance

/-! A configuration in parts, one for each key that is present. Parts set different settings, so a configuration is put
together from its parts in any order. -/
namespace SyntaxCatalog.ConfigFile
open Toml (Value PathValue Chooses Lists)

inductive Part where
  | descriptor (path : Path)
  | outputs (paths : List Path)
  | layout (layout : Json.Layout)
  | variant (variant : Variant)
  deriving DecidableEq, Repr

namespace Part

def key : Part → String
  | .descriptor _ => "descriptor"
  | .outputs _ => "outputs"
  | .layout _ => "format"
  | .variant _ => "variant"

def set (file : ConfigFile) : Part → ConfigFile
  | .descriptor path => {file with descriptor := some path}
  | .outputs paths => {file with outputs := some paths}
  | .layout found => {file with layout := some found}
  | .variant found => {file with variant := some found}

theorem setSwaps (file : ConfigFile) {one other : Part} (apart : one.key ≠ other.key) :
    other.set (one.set file) = one.set (other.set file) := by
  cases one <;> cases other <;> first | exact absurd rfl apart | rfl

end Part

def gathered (start : ConfigFile) (order : List Part) : ConfigFile := order.foldl Part.set start

def parts (file : ConfigFile) : List Part :=
  file.descriptor.toList.map .descriptor ++ file.outputs.toList.map .outputs ++ file.layout.toList.map .layout ++
    file.variant.toList.map .variant

section
variable {file : ConfigFile} {order : List Part}

theorem partsNodup (file : ConfigFile) : (file.parts.map Part.key).Nodup := by
  obtain ⟨descriptor,outputs,layout,variant⟩ := file
  cases descriptor <;> cases outputs <;> cases layout <;> cases variant <;> simp [parts,Part.key]

theorem partsGathered (file : ConfigFile) : gathered empty file.parts = file := by
  obtain ⟨descriptor,outputs,layout,variant⟩ := file
  cases descriptor <;> cases outputs <;> cases layout <;> cases variant <;> rfl

theorem orderNodup (same : order.Perm file.parts) : (order.map Part.key).Nodup :=
  (same.map Part.key).nodup_iff.2 (partsNodup file)

theorem orderGathered (same : order.Perm file.parts) : gathered empty order = file := by
  refine (same.foldl_eq' ?_ empty).trans (partsGathered file)
  intro one left other right start
  by_cases alike : one.key = other.key
  · rw [List.inj_on_of_nodup_map (orderNodup same) left right alike]
  · exact Part.setSwaps start alike

end

def layoutWord : Json.Layout → String
  | .compact => "compact"
  | .pretty => "pretty"

def variantWord : Variant → String
  | .main => "main"
  | .mainAndTest => "main-and-test"

theorem layoutWordKnown (layout : Json.Layout) : layoutNames.lookup (layoutWord layout) = some layout := by
  cases layout <;> rfl

theorem variantWordKnown (variant : Variant) : Variant.names.lookup (variantWord variant) = some variant := by
  cases variant <;> rfl

def PartText (literal : String → List Char → Prop) (array : (Path → List Char → Prop) → List Path → List Char → Prop) :
    Part → List Char → Prop
  | .descriptor path => literal path.text
  | .outputs paths => array (fun path => literal path.text) paths
  | .layout layout => literal (layoutWord layout)
  | .variant variant => literal (variantWord variant)

def writtenPart (literal : String → List Char) (array : List (List Char) → List Char) : Part → List Char
  | .descriptor path => literal path.text
  | .outputs paths => array (paths.map (fun path => literal path.text))
  | .layout layout => literal (layoutWord layout)
  | .variant variant => literal (variantWord variant)

theorem partWritten {literal : String → List Char → Prop} {array : (Path → List Char → Prop) → List Path → List Char → Prop}
    {write : String → List Char} {list : List (List Char) → List Char} (string : ∀ s, literal s (write s))
    (paths : ∀ paths, array (fun path => literal path.text) paths (list (paths.map (fun path => write path.text))))
    (part : Part) : PartText literal array part (writtenPart write list part) := by
  cases part with
  | descriptor path => exact string path.text
  | outputs all => exact paths all
  | layout layout => exact string (layoutWord layout)
  | variant variant => exact string (variantWord variant)

end SyntaxCatalog.ConfigFile
