import Mathlib.Tactic.TFAE
import SyntaxCatalog.Proofs.Catalog.Records
import SyntaxCatalog.Proofs.Json.Places

/-! Catalogs in their two layouts. The layouts differ in blanks outside of literals only, and each of them shows all
that there is to a catalog: of two catalogs that look alike, neither tells how it was made. -/
namespace SyntaxCatalog.Catalog
open Json

theorem tightensRender (c : Catalog) (layout : Layout) :
    Tightens (c.render layout).toList (c.render .compact).toList := by
  rw [render,render,String.toList_ofList,String.toList_ofList]
  exact tightensObject layout 0 (fun entry _ => tightensMember layout entry.node (tightensStrings layout 1 entry.parameters))

theorem renderLast (c : Catalog) (layout : Layout) : (c.render layout).toList.getLast? = some '}' := by
  rw [render,String.toList_ofList]
  exact enclosedLast layout 0 '{' '}' _

/- Without the blanks outside of literals the layouts are one text, and only one of them has such blanks. Neither has
control characters, apart from line feeds between the signs of the other, nor a line feed at its end. -/
theorem layoutsAgree (c : Catalog) :
    let pretty := (c.render .pretty).toList
    let compact := (c.render .compact).toList
    stripped pretty = compact ∧
      (∀ mark ∈ places .outside compact, mark.2 = .outside → Text.blank mark.1 = false) ∧
      (∀ char ∈ compact, 0x20 ≤ char.toNat) ∧
      (∀ mark ∈ places .outside pretty, mark.1.toNat < 0x20 → mark = ('\n',.outside)) ∧
      ∀ layout, (c.render layout).toList.getLast? ≠ some '\n' ∧ Place.outside.behind (c.render layout).toList = .outside := by
  have tight := tightensRender c .pretty
  refine ⟨tight.tight,?_,tightensVisible tight,tight.feeds,?_⟩
  · intro mark member outside
    have solid := tightensSpaces tight mark member
    simpa [isSpace,outside] using solid
  · intro layout
    rw [renderLast]
    exact ⟨by decide,(tightensRender c layout).closed⟩

theorem renderIff {a b : Catalog} (ha : a.Indexed) (hb : b.Indexed) (layout : Layout) :
    a.render layout = b.render layout ↔ a.toList = b.toList := by
  constructor
  · intro same
    have read := renderRead a layout
    rw [same,renderRead b layout,Except.ok.injEq] at read
    rw [← ownEntries ha,← read,ownEntries hb]
  · intro same
    rw [render,written,same]
    rfl

theorem equalRendered {a b : Catalog} (ha : Reachable a) (hb : Reachable b) :
    [(a == b) = true,a.toList = b.toList,a.render .compact = b.render .compact,a.render .pretty = b.render .pretty].TFAE := by
  have indexed := reachableIndexed ha
  have other := reachableIndexed hb
  tfae_have 1 ↔ 2 := equalIff indexed other
  tfae_have 3 ↔ 2 := renderIff indexed other .compact
  tfae_have 4 ↔ 2 := renderIff indexed other .pretty
  tfae_finish

def atOnce : Descriptor := ⟨[⟨"a",[⟨"y"⟩]⟩,⟨"b",[]⟩]⟩

def otherWay : Descriptor := ⟨atOnce.nodes.reverse⟩

theorem spellingsEqual : ∃ read, ofJson spellingsText = .ok read ∧ (read == (ofDescriptor atOnce).2) = true ∧
    read.render .pretty = (ofDescriptor atOnce).2.render .pretty ∧
    read.render .compact ≠ (ofDescriptor otherWay).2.render .compact := by
  have read := (ofJsonIff spellingsText _).2 ⟨_,spellingsDocument,rfl⟩
  have same : (empty.insertAll [⟨"a",["x"]⟩,⟨"b",[]⟩,⟨"a",["y"]⟩]).toList = (ofDescriptor atOnce).2.toList := by
    rw [insertAllEntries,ofDescriptorEntries]
    decide
  have turned : (empty.insertAll [⟨"a",["x"]⟩,⟨"b",[]⟩,⟨"a",["y"]⟩]).toList ≠ (ofDescriptor otherWay).2.toList := by
    rw [insertAllEntries,ofDescriptorEntries]
    decide
  have equal := equalRendered (.ofJson read) (.ofDescriptor atOnce)
  have unequal := equalRendered (.ofJson read) (.ofDescriptor otherWay)
  exact ⟨_,read,(equal.out 0 1).2 same,(equal.out 3 1).2 same,fun alike => turned ((unequal.out 2 1).1 alike)⟩

end SyntaxCatalog.Catalog
