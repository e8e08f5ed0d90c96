import SyntaxCatalog.Settings

/-! Settings in layers. However the merges of a list of layers are bracketed, each setting comes from the last
layer that sets it, whatever becomes of the other settings. A layer that sets nothing is neutral wherever it lies. -/
namespace SyntaxCatalog.Settings

section
variable {α : Type}

def lastSet (column : List (Option α)) : Option α := column.reverse.findSome? id

def lastFilled (column : List (List α)) : List α := (column.reverse.find? (fun outputs => !outputs.isEmpty)).getD []

theorem lastSetAppend (lower upper : List (Option α)) : lastSet (lower ++ upper) = (lastSet upper <|> lastSet lower) := by
  simp [lastSet,List.findSome?_append]

theorem lastFilledAppend (lower upper : List (List α)) :
    lastFilled (lower ++ upper) = if (lastFilled upper).isEmpty then lastFilled lower else lastFilled upper := by
  unfold lastFilled
  rw [List.reverse_append,List.find?_append]
  cases found : upper.reverse.find? (fun outputs => !outputs.isEmpty) with
  | none => simp
  | some outputs =>
      have filled : outputs.isEmpty = false := by simpa using List.find?_some found
      simp [filled]

end

def overlaid (layers : List Settings) : Settings where
  baseDir := lastSet (layers.map Settings.baseDir)
  variant := lastSet (layers.map Settings.variant)
  descriptor := lastSet (layers.map Settings.descriptor)
  outputs := lastFilled (layers.map Settings.outputs)
  layout := lastSet (layers.map Settings.layout)

theorem overlaidAppend (lower upper : List Settings) :
    overlaid (lower ++ upper) = (overlaid lower).merge (overlaid upper) := by
  simp [overlaid,merge,lastSetAppend,lastFilledAppend]

theorem overlaidSingle (s : Settings) : overlaid [s] = s := by
  obtain ⟨baseDir,variant,descriptor,outputs,layout⟩ := s
  cases outputs <;> simp [overlaid,lastSet,lastFilled]

theorem unsetMerge (s : Settings) : unset.merge s = s := by
  obtain ⟨baseDir,variant,descriptor,outputs,layout⟩ := s
  cases outputs <;> simp [merge,unset]

theorem overlaidUnset (front back : List Settings) : overlaid (front ++ unset :: back) = overlaid (front ++ back) := by
  have middle : overlaid (unset :: back) = overlaid back := by
    rw [← List.singleton_append,overlaidAppend,overlaidSingle,unsetMerge]
  rw [overlaidAppend,middle,← overlaidAppend]

inductive Grouping where
  | layer (s : Settings)
  | merge (lower upper : Grouping)

namespace Grouping

def layers : Grouping → List Settings
  | .layer s => [s]
  | .merge lower upper => lower.layers ++ upper.layers

def settings : Grouping → Settings
  | .layer s => s
  | .merge lower upper => lower.settings.merge upper.settings

end Grouping

theorem groupingOverlaid (g : Grouping) : g.settings = overlaid g.layers := by
  induction g with
  | layer s => exact (overlaidSingle s).symm
  | merge lower upper below above => rw [Grouping.settings,below,above,← overlaidAppend,Grouping.layers]

theorem foldOverlaid (first : Settings) (layers : List Settings) :
    layers.foldl merge first = overlaid (first :: layers) := by
  induction layers generalizing first with
  | nil => exact (overlaidSingle first).symm
  | cons next rest ih =>
      have two : first.merge next = overlaid [first,next] := by
        rw [← List.singleton_append,overlaidAppend,overlaidSingle,overlaidSingle]
      have pair : overlaid (first.merge next :: rest) = overlaid ([first,next] ++ rest) := by
        rw [← List.singleton_append,overlaidAppend,overlaidSingle,two,← overlaidAppend]
      rw [List.foldl_cons,ih,pair]
      rfl

/- All bracketings of the layers over the unset settings come to the same, column by column, and to the same
again with a further layer that sets nothing at any place among them. -/
theorem layersGrouped {layers : List Settings} {g : Grouping} (ordered : g.layers = unset :: layers) :
    g.settings = overlaid layers ∧ layers.foldl merge unset = g.settings ∧
      ∀ (front back : List Settings) (more : Grouping), layers = front ++ back →
        more.layers = unset :: front ++ unset :: back → more.settings = g.settings := by
  have base : ∀ above, overlaid (unset :: above) = overlaid above := overlaidUnset []
  have whole : g.settings = overlaid layers := by rw [groupingOverlaid,ordered,base]
  refine ⟨whole,?_,?_⟩
  · rw [whole,foldOverlaid,base]
  · rintro front back more rfl placed
    rw [whole,groupingOverlaid,placed,overlaidUnset,List.cons_append,base]

def fileLayer : Settings :=
  ⟨some ⟨"quoter"⟩,some .mainAndTest,some ⟨"file.json"⟩,[⟨"a.json"⟩,⟨"b.json"⟩],some .pretty⟩

def argumentLayer : Settings := ⟨none,none,some ⟨"flag.json"⟩,[⟨"c.json"⟩],none⟩

def fileUnderArguments : Grouping := .merge (.layer unset) (.merge (.layer fileLayer) (.layer argumentLayer))

theorem argumentsOverFile : fileUnderArguments.layers = unset :: [fileLayer,argumentLayer] ∧
    fileUnderArguments.settings =
      ⟨some ⟨"quoter"⟩,some .mainAndTest,some ⟨"flag.json"⟩,[⟨"c.json"⟩],some .pretty⟩ := by
  have ordered : fileUnderArguments.layers = unset :: [fileLayer,argumentLayer] := rfl
  exact ⟨ordered,(layersGrouped ordered).1.trans (by decide)⟩

end SyntaxCatalog.Settings
