import SyntaxCatalog.Proofs.Catalog.Acceptance
import SyntaxCatalog.Proofs.Json.Writing

/-! Catalogs as text and back. Whatever a catalog was made from, its index agrees with its entries; so
reading what was written of it, which enters the same entries in the same order, gives it again. -/
namespace SyntaxCatalog.Catalog
open Json

inductive Reachable : Catalog → Prop where
  | empty : Reachable empty
  | insert {c : Catalog} (before : Reachable c) (node : String) (parameters : List String) :
      Reachable (c.insert node parameters).2
  | ofDescriptor (d : Descriptor) : Reachable (ofDescriptor d).2
  | ofJson {text : String} {c : Catalog} (read : ofJson text = .ok c) : Reachable c

theorem ofJsonIndexed {text : String} {c : Catalog} (h : ofJson text = .ok c) : c.Indexed := by
  obtain ⟨entries,_,rfl⟩ := (ofJsonIff text c).1 h
  exact insertAllIndexed emptyIndexed entries

theorem reachableIndexed {c : Catalog} (h : Reachable c) : c.Indexed := by
  induction h with
  | empty => exact emptyIndexed
  | insert _ node parameters ih => exact insertIndexed ih node parameters
  | ofDescriptor d => exact ofDescriptorIndexed d
  | ofJson read => exact ofJsonIndexed read

theorem catalogWritten (c : Catalog) (layout : Layout) :
    CatalogText c.toList (c.written layout) := by
  have members := objectWritten layout 0 (c.toList.map Entry.pair) (fun pair _ => stringsWritten layout 1 pair.2)
  rw [List.map_map] at members
  exact members

theorem renderBlanksRead (c : Catalog) (layout : Layout) {behind : List Char} (only : Blanks behind) :
    ofJson (c.render layout ++ String.ofList behind) = .ok (empty.insertAll c.toList) := by
  have read := parseRead (readerReads (catalogWritten c layout)) blanksNil only
  rw [List.nil_append,String.ofList_append] at read
  exact read

theorem renderRead (c : Catalog) (layout : Layout) : ofJson (c.render layout) = .ok (empty.insertAll c.toList) := by
  have read := renderBlanksRead c layout blanksNil
  rwa [String.ofList_nil,String.append_empty] at read

theorem ownGet {c : Catalog} (h : c.Indexed) (node : String) : (empty.insertAll c.toList).get? node = c.get? node := by
  have again : (empty.insertAll c.toList).Indexed := insertAllIndexed emptyIndexed c.toList
  apply Option.ext
  intro parameters
  rw [getIff again,getIff h,ownEntries h]

theorem renderBlanksParses {c : Catalog} (indexed : c.Indexed) (layout : Layout) {behind : List Char} (only : Blanks behind) :
    ∃ read, ofJson (c.render layout ++ String.ofList behind) = .ok read ∧ (read == c) = true ∧ read.toList = c.toList ∧
      ∀ node, read.get? node = c.get? node :=
  ⟨_,renderBlanksRead c layout only,insertAllOwn indexed,ownEntries indexed,ownGet indexed⟩

theorem renderParses {c : Catalog} (h : Reachable c) (layout : Layout) :
    ∃ read, ofJson (c.render layout) = .ok read ∧ (read == c) = true ∧ read.toList = c.toList ∧
      ∀ node, read.get? node = c.get? node := by
  have indexed := reachableIndexed h
  have again : (empty.insertAll c.toList).Indexed := insertAllIndexed emptyIndexed c.toList
  have same := insertAllOwn indexed
  exact ⟨_,renderRead c layout,same,(equalIff again indexed).1 same,ownGet indexed⟩

theorem rareNamesRenderParses :
    Reachable ((empty.insert "" []).2.insert "\"\\\x01😀" ["","/\n"]).2 ∧
    ∃ read, ofJson (((empty.insert "" []).2.insert "\"\\\x01😀" ["","/\n"]).2.render .pretty) = .ok read ∧
      (read == ((empty.insert "" []).2.insert "\"\\\x01😀" ["","/\n"]).2) = true ∧
      read.toList = ((empty.insert "" []).2.insert "\"\\\x01😀" ["","/\n"]).2.toList ∧
      ∀ node, read.get? node = ((empty.insert "" []).2.insert "\"\\\x01😀" ["","/\n"]).2.get? node :=
  have reachable := .insert (.insert .empty "" []) "\"\\\x01😀" ["","/\n"]
  ⟨reachable,renderParses reachable .pretty⟩

end SyntaxCatalog.Catalog
