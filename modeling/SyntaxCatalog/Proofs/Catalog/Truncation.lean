import Mathlib.Data.List.DropRight
import SyntaxCatalog.Proofs.Catalog.Acceptance
import SyntaxCatalog.Proofs.Descriptor.Acceptance

/-! Texts that are cut off. A descriptor and a catalog end with the bracket that they begin with, so their
readers need not know what follows. A part that is accepted would therefore be all that the reader takes
from the whole text as well, and only blanks could be missing from it. -/
namespace SyntaxCatalog
open Json
open Text (Reader)

namespace Json

def trimmed (text : String) : List Char := text.toList.rdropWhile isBlank

/- The part of a text up to any character before the end of what is not blank. -/
def CutOff (text part : String) : Prop := part.toList <+: trimmed text ∧ part.toList ≠ trimmed text

def Closed {α : Type} (reader : Reader Fault α) (form : α → List Char → Prop) : Prop :=
  ∀ ⦃blank text : List Char⦄ ⦃a : α⦄, Blanks blank → form a text → ∀ rest, reader.run (blank ++ text ++ rest) = .ok (a,rest)

theorem trimmedFront (text : String) : trimmed text <+: text.toList := List.rdropWhile_prefix isBlank text.toList

theorem trimmedAppend {text : String} {front behind : List Char} (split : text.toList = front ++ behind)
    (only : Blanks behind) : trimmed text <+: front := by
  rw [trimmed,split,List.rdropWhile,List.reverse_append,List.dropWhile_append_of_pos]
  · exact List.rdropWhile_prefix isBlank front
  · exact fun c member => only c (List.mem_reverse.1 member)

section
variable {α : Type} {reader : Reader Fault α} {form : α → List Char → Prop} (takes : Takes reader form)
  (closed : Closed reader form) {text part : String} {a b : α}
include takes closed

theorem partWhole (front : part.toList <+: text.toList) (whole : parse reader text = .ok a)
    (accepted : parse reader part = .ok b) : b = a ∧ trimmed text <+: part.toList := by
  obtain ⟨missing,split⟩ := front
  obtain ⟨rest,ran,_⟩ := parseRuns accepted
  obtain ⟨before,body,left,written,same⟩ := takes ran
  have further := closed left written (rest ++ missing)
  rw [← List.append_assoc,← same,split] at further
  obtain ⟨left,ran',nothing⟩ := parseRuns whole
  cases further.symm.trans ran'
  obtain ⟨blank,only,behind⟩ := skipBlankTakes nothing
  rw [List.append_nil] at behind
  refine ⟨rfl,trimmedAppend split.symm ?_⟩
  exact fun c member => only c (behind ▸ List.mem_append_right rest member)

theorem cutOffUnread (cut : CutOff text part) (whole : parse reader text = .ok a) : ∃ e, parse reader part = .error e := by
  cases read : parse reader part with
  | error e => exact ⟨e,rfl⟩
  | ok b =>
      have front := cut.1.trans (trimmedFront text)
      have all := (partWhole takes closed front whole read).2
      exact absurd (cut.1.eq_of_length_le all.length_le) cut.2

end
end Json

theorem descriptorClosed : Closed Descriptor.record.reader DescriptorText :=
  fun _ _ _ left written rest => followsRead descriptorFollows (singleText.2 written) left rest

theorem descriptorTakes : Takes Descriptor.record.reader DescriptorText :=
  takesImp (followsTakes descriptorFollows) (fun _ _ => singleText.1)

theorem catalogClosed : Closed Catalog.reader
    (fun c text => ∃ entries, Catalog.CatalogText entries text ∧ c = Catalog.empty.insertAll entries) := by
  rintro blank text _ left ⟨entries,written,rfl⟩ rest
  exact readObjectRead Catalog.readerEnters _ written (Catalog.courseInsertAll Catalog.empty entries) left rest

theorem cutOffRefused {text part : String} (front : part.toList <+: text.toList) :
    (∀ d, Descriptor.ofJson text = .ok d → (CutOff text part → ∃ e, Descriptor.ofJson part = .error e) ∧
      ∀ other, Descriptor.ofJson part = .ok other → other = d) ∧
    (∀ c, Catalog.ofJson text = .ok c → (CutOff text part → ∃ e, Catalog.ofJson part = .error e) ∧
      ∀ other, Catalog.ofJson part = .ok other → other = c) := by
  constructor
  · intro d whole
    exact ⟨fun cut => cutOffUnread descriptorTakes descriptorClosed cut whole,
      fun _ read => (partWhole descriptorTakes descriptorClosed front whole read).1⟩
  · intro c whole
    exact ⟨fun cut => cutOffUnread Catalog.readerTakes catalogClosed cut whole,
      fun _ read => (partWhole Catalog.readerTakes catalogClosed front whole read).1⟩

def lineText : String := "\x7b\"nodes\":[\x7b\"name\":\"A\",\"attributes\":[]\x7d]\x7d\n"

def openText : String := "\x7b\"nodes\":[\x7b\"name\":\"A\",\"attributes\":[]\x7d]"

theorem lineAccepted : Descriptor.ofJson lineText = .ok ⟨[⟨"A",[]⟩]⟩ :=
  (descriptorAccepted lineText _).2 ⟨[],_,['\n'],blanksNil,descriptorSpelled _,by simp [Blanks,isBlank],by decide⟩

theorem openTextsRefused : (∃ e, Descriptor.ofJson openText = .error e) ∧
    ∃ e, Catalog.ofJson "\x7b\"a\":[\"x\"],\"b\":[],\"\\u00" = .error e := by
  constructor
  · have front : openText.toList <+: lineText.toList := by decide
    exact ((cutOffRefused front).1 _ lineAccepted).1 ⟨by decide,by decide⟩
  · have whole := (Catalog.ofJsonIff Catalog.spellingsText _).2 ⟨_,Catalog.spellingsDocument,rfl⟩
    have front : "\x7b\"a\":[\"x\"],\"b\":[],\"\\u00".toList <+: Catalog.spellingsText.toList := by decide
    exact ((cutOffRefused front).2 _ whole).1 ⟨by decide,by decide⟩

end SyntaxCatalog
