import Mathlib.Data.List.Basic
import SyntaxCatalog.Generation
import SyntaxCatalog.Proofs.Catalog.RoundTrip

/-! What the entries and the index of a catalog have to do with each other after any run of insertions,
descriptors and texts, and what this means for those who look up, list and count nodes. -/
namespace SyntaxCatalog.Catalog

theorem indexKeys {c : Catalog} (h : c.Indexed) (node : String) : node ∈ c.index ↔ node ∈ c.nodes := by
  rw [Std.HashMap.mem_iff_isSome_getElem?,Option.isSome_iff_ne_none,ne_eq,indexNone h,Decidable.not_not]

theorem entryAt {c : Catalog} (h : c.Indexed) {node : String} {place : Nat} (known : c.index[node]? = some place) :
    ∃ entry, c.entries[place]? = some entry ∧ entry.node = node := by
  have named := (h node place).1 known
  rw [nodes,List.getElem?_map,Option.map_eq_some_iff] at named
  obtain ⟨entry,found,same⟩ := named
  exact ⟨entry,by simpa [toList] using found,same⟩

theorem sizeDistinct {c : Catalog} (h : c.Indexed) : c.size = c.nodes.eraseDups.length := by
  have same : (empty.insertAll c.toList).nodes = c.nodes := congrArg (List.map Entry.node) (ownEntries h)
  calc c.size = c.nodes.length := c.sizeNodes
    _ = (empty.insertAll c.toList).nodes.length := by rw [same]
    _ = c.nodes.eraseDups.length := by rw [insertAllNodes]; rfl

theorem listedGet {c : Catalog} (h : c.Indexed) :
    c.toList = c.nodes.filterMap (fun name => (c.get? name).map (Entry.mk name)) := by
  have own : ∀ entry ∈ c.toList, (c.get? entry.node).map (Entry.mk entry.node) = some entry := by
    intro entry listed
    rw [(getIff h entry.node entry.parameters).2 listed]
    rfl
  calc c.toList = c.toList.filterMap some := List.filterMap_some.symm
    _ = c.toList.filterMap (fun entry => (c.get? entry.node).map (Entry.mk entry.node)) :=
        List.filterMap_congr (fun entry listed => (own entry listed).symm)
    _ = c.nodes.filterMap (fun name => (c.get? name).map (Entry.mk name)) := by
        rw [nodes,List.filterMap_map]
        rfl

theorem insertAllEntries (entries : List Entry) : (empty.insertAll entries).toList =
    (entries.map Entry.node).eraseDups.filterMap (fun name => entries.reverse.find? (fun entry => entry.node == name)) := by
  rw [listedGet (insertAllIndexed emptyIndexed entries),insertAllNodes]
  apply List.filterMap_congr
  intro name _
  rw [insertAllLast]
  cases last : entries.reverse.find? (fun entry => entry.node == name) with
  | none => rfl
  | some entry =>
      have named : entry.node = name := by simpa using List.find?_some last
      subst named
      rfl

theorem requireOk (c : Catalog) (node : String) (parameters : List String) :
    c.require node = .ok parameters ↔ c.get? node = some parameters := by
  rw [require]
  cases c.get? node <;> simp

theorem requireUnknown (c : Catalog) (node : String) : c.require node = .error (.unknownNode node) ↔ c.get? node = none := by
  rw [require]
  cases c.get? node <;> simp

/- Entries have names of their own, the index finds each of them and nothing else, and so a lookup
answers what is listed. -/
theorem reachableConsistent {c : Catalog} (h : Reachable c) :
    c.nodes.Nodup ∧ (∀ node, node ∈ c.index ↔ node ∈ c.nodes) ∧
      (∀ (node : String) (place : Nat), c.index[node]? = some place ↔ c.nodes[place]? = some node) ∧
      (∀ (node : String) (place : Nat), c.index[node]? = some place →
        ∃ entry : Entry, c.entries[place]? = some entry ∧ entry.node = node) ∧
      c.size = c.nodes.eraseDups.length ∧
      (∀ node parameters, c.get? node = some parameters ↔ ⟨node,parameters⟩ ∈ c.toList) ∧
      (∀ node parameters, c.require node = .ok parameters ↔ ⟨node,parameters⟩ ∈ c.toList) ∧
      (∀ node, c.require node = .error (.unknownNode node) ↔ ∀ parameters, ⟨node,parameters⟩ ∉ c.toList) := by
  have indexed := reachableIndexed h
  refine ⟨nodesUnique indexed,indexKeys indexed,indexed,fun node place => entryAt indexed,sizeDistinct indexed,
    getIff indexed,?_,?_⟩
  · intro node parameters
    rw [requireOk,getIff indexed]
  · intro node
    rw [requireUnknown,Option.eq_none_iff_forall_ne_some]
    exact forall_congr' (fun parameters => not_congr (getIff indexed node parameters))

theorem replacedConsistent :
    Reachable (empty.insertAll [⟨"a",["x"]⟩,⟨"b",[]⟩,⟨"a",["y"]⟩]) ∧
      (empty.insertAll [⟨"a",["x"]⟩,⟨"b",[]⟩,⟨"a",["y"]⟩]).size = 2 ∧
      (empty.insertAll [⟨"a",["x"]⟩,⟨"b",[]⟩,⟨"a",["y"]⟩]).require "a" = .ok ["y"] ∧
      (empty.insertAll [⟨"a",["x"]⟩,⟨"b",[]⟩,⟨"a",["y"]⟩]).require "c" = .error (.unknownNode "c") := by
  have reachable : Reachable (empty.insertAll [⟨"a",["x"]⟩,⟨"b",[]⟩,⟨"a",["y"]⟩]) :=
    .insert (.insert (.insert .empty "a" ["x"]) "b" []) "a" ["y"]
  obtain ⟨_,_,_,_,count,got,found,unknown⟩ := reachableConsistent reachable
  refine ⟨reachable,?_,?_,?_⟩
  · rw [count,insertAllNodes]
    decide
  · rw [found,← got,insertAllLast]
    decide
  · rw [unknown]
    intro parameters
    rw [← got,insertAllLast]
    exact nofun

end SyntaxCatalog.Catalog
