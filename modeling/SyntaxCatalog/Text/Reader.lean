/-! Readers take a value off the front of a text and leave the rest. A reader that succeeds has
consumed at least one character, so a loop over readers ends with the text. -/
namespace SyntaxCatalog.Text

structure Reader (ε α : Type) where
  run : List Char → Except ε (α × List Char)
  shorter : ∀ {cs a rest}, run cs = .ok (a,rest) → rest.length < cs.length

def Reader.map {ε α β : Type} (f : α → β) (r : Reader ε α) : Reader ε β where
  run cs := match r.run cs with
    | .ok (a,rest) => .ok (f a,rest)
    | .error e => .error e
  shorter := by
    intro cs b rest h
    split at h <;> cases h
    rename_i read
    exact r.shorter read

theorem dropWhileLength {α : Type} (p : α → Bool) (xs : List α) :
    (xs.dropWhile p).length ≤ xs.length := (List.dropWhile_sublist p).length_le

end SyntaxCatalog.Text
