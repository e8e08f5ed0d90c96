import SyntaxCatalog.Proofs.FileTree.Contents
import SyntaxCatalog.Proofs.Program.Runs

/-! One request in two trees that are alike. It is answered in both as in the other, unless it asks for the
contents of a file that differ, and the trees are alike after it. -/
namespace SyntaxCatalog.Request
open FileTree

def SeesSame (base : Location) (t other : FileTree) : Request → Prop
  | .read path => t.read base path = other.read base path
  | .setMode file _ | .append file _ | .rename file _ => t.get? file = other.get? file
  | .modeOf _ | .create _ _ | .discard _ | .report _ => True

variable {deniable : Request.Deniable} {base : Location} {t other after : FileTree} {r : Request} {answer : r.Answer}

theorem afterTogether {one two : Except FileFault FileTree} (alike : t.Alike other) (both : Together t other one two) :
    (other.after two).1 = (t.after one).1 ∧ Kept t other (t.after one).2 (other.after two).2 := by
  cases both with
  | refused e => exact ⟨rfl,keptStill alike⟩
  | done kept => exact ⟨rfl,kept⟩

theorem performAlike (alike : t.Alike other) (sees : r.SeesSame base t other) :
    (r.perform base other).1 = (r.perform base t).1 ∧ Kept t other (r.perform base t).2 (r.perform base other).2 := by
  cases r with
  | read path =>
      rw [performRead,performRead]
      exact ⟨sees.symm,keptStill alike⟩
  | modeOf path =>
      rw [performModeOf,performModeOf]
      exact ⟨(modeAlike alike base path).symm,keptStill alike⟩
  | create dir mode =>
      rw [performCreate,performCreate]
      rcases createAlike alike base dir mode with ⟨e,one,two⟩ | ⟨file,one,two⟩
      · rw [one,two]
        exact ⟨rfl,keptStill alike⟩
      · rw [one,two]
        exact ⟨rfl,keptPut alike file _⟩
  | setMode file mode =>
      rw [performSetMode,performSetMode]
      exact afterTogether alike (setModeTogether alike sees mode)
  | append file contents =>
      rw [performAppend,performAppend]
      exact afterTogether alike (appendTogether alike sees contents)
  | rename file path =>
      rw [performRename,performRename]
      exact afterTogether alike (renameTogether alike sees base path)
  | discard file => exact ⟨rfl,keptErase alike file⟩
  | report event => exact ⟨rfl,keptStill alike⟩

/- What a system that may deny requests answers in the one tree, it may answer in the other. -/
theorem comesAlike (alike : t.Alike other) (sees : r.SeesSame base t other) (comes : r.Comes deniable base t answer after) :
    ∃ next, r.Comes deniable base other answer next ∧ Kept t other after next := by
  cases comes with
  | performed =>
      obtain ⟨same,kept⟩ := performAlike alike sees
      have again : r.Comes deniable base other (r.perform base other).1 (r.perform base other).2 := .performed r
      rw [same] at again
      exact ⟨_,again,kept⟩
  | created there free =>
      rw [directoryAlike alike] at there
      rw [maskedAlike alike]
      exact ⟨_,.created there (alikeNone alike free),keptPut alike _ _⟩
  | unread e may => exact ⟨_,.unread e may,keptStill alike⟩
  | untold may => exact ⟨_,.untold may,keptStill alike⟩
  | uncreated e may => exact ⟨_,.uncreated e may,keptStill alike⟩
  | unset e may => exact ⟨_,.unset e may,keptStill alike⟩
  | cutShort there e may =>
      rw [sees] at there
      exact ⟨_,.cutShort there e may,keptPut alike _ _⟩
  | unwritten e may => exact ⟨_,.unwritten e may,keptStill alike⟩
  | unmoved e may => exact ⟨_,.unmoved e may,keptStill alike⟩

end SyntaxCatalog.Request
