import SyntaxCatalog.Proofs.Catalog.Index

/-! Many insertions one after another. Descriptors and JSON objects are both entered in this way, so
what they lead to is said once, for lists of entries: the last entry of a node decides its parameters,
and entries of new nodes go behind the old ones in their own order. -/
namespace SyntaxCatalog

def Node.entry (node : Node) : Entry := ⟨node.name,node.parameters⟩

namespace Catalog

def insertAll (c : Catalog) (entries : List Entry) : Catalog :=
  entries.foldl (fun c entry => (c.insert entry.node entry.parameters).2) c

theorem insertAllIndexed {c : Catalog} (h : c.Indexed) (entries : List Entry) : (c.insertAll entries).Indexed := by
  induction entries generalizing c with
  | nil => exact h
  | cons entry rest ih => exact ih (insertIndexed h entry.node entry.parameters)

theorem insertAllGet {c : Catalog} (h : c.Indexed) (entries : List Entry) (name : String) :
    (c.insertAll entries).get? name =
      ((entries.reverse.find? (fun entry => entry.node == name)).map Entry.parameters).or (c.get? name) := by
  induction entries generalizing c with
  | nil => rfl
  | cons entry rest ih =>
      show ((c.insert entry.node entry.parameters).2.insertAll rest).get? name = _
      rw [ih (insertIndexed h _ _),getInsert h,List.reverse_cons,List.find?_append]
      cases rest.reverse.find? (fun entry => entry.node == name) with
      | some last => rfl
      | none =>
          by_cases same : name = entry.node
          · simp [same]
          · have other : (entry.node == name) = false := by simpa using Ne.symm same
            simp [same,other]

theorem insertAllPlaces {c : Catalog} (h : c.Indexed) (entries : List Entry) :
    (c.insertAll entries).nodes = List.eraseDupsBy.loop (· == ·) (entries.map Entry.node) c.nodes.reverse := by
  induction entries generalizing c with
  | nil => simp [insertAll,List.eraseDupsBy.loop]
  | cons entry rest ih =>
      show ((c.insert entry.node entry.parameters).2.insertAll rest).nodes = _
      rw [ih (insertIndexed h _ _),insertNodes h,List.map_cons,List.eraseDupsBy.loop]
      have seen : (c.nodes.reverse.any fun node => entry.node == node) = decide (entry.node ∈ c.nodes) := by
        simp [List.any_beq]
      rw [seen]
      by_cases known : entry.node ∈ c.nodes
      · simp [known]
      · simp [known]

theorem insertAllNodes (entries : List Entry) : (empty.insertAll entries).nodes = (entries.map Entry.node).eraseDups :=
  insertAllPlaces emptyIndexed entries

theorem emptyGet (name : String) : empty.get? name = none := (getNone emptyIndexed name).2 (by simp [empty,nodes,toList])

theorem insertAllLast (entries : List Entry) (name : String) : (empty.insertAll entries).get? name =
    (entries.reverse.find? (fun entry => entry.node == name)).map Entry.parameters := by
  rw [insertAllGet emptyIndexed,emptyGet,Option.or_none]

theorem memNodesInsertAll {c : Catalog} (h : c.Indexed) (entries : List Entry) (name : String) :
    name ∈ (c.insertAll entries).nodes ↔ name ∈ c.nodes ∨ ∃ entry ∈ entries, entry.node = name := by
  induction entries generalizing c with
  | nil => simp [insertAll]
  | cons entry rest ih =>
      have first : name ∈ (c.insert entry.node entry.parameters).2.nodes ↔ name ∈ c.nodes ∨ entry.node = name := by
        rw [insertNodes h]
        by_cases known : entry.node ∈ c.nodes
        · rw [if_pos known]
          exact ⟨.inl,fun either => either.elim id (fun same => same ▸ known)⟩
        · simp [known,eq_comm]
      calc name ∈ ((c.insert entry.node entry.parameters).2.insertAll rest).nodes
          ↔ name ∈ (c.insert entry.node entry.parameters).2.nodes ∨ ∃ other ∈ rest, other.node = name :=
            ih (insertIndexed h _ _)
        _ ↔ name ∈ c.nodes ∨ ∃ other ∈ entry :: rest, other.node = name := by
            rw [first,or_assoc]; simp

theorem insertAllFresh {c : Catalog} (h : c.Indexed) {entries : List Entry}
    (fresh : (c.nodes ++ entries.map Entry.node).Nodup) : (c.insertAll entries).toList = c.toList ++ entries := by
  induction entries generalizing c with
  | nil => simp [insertAll]
  | cons entry rest ih =>
      have new : entry.node ∉ c.nodes := by
        intro known
        exact (List.nodup_append.1 fresh).2.2 _ known _ (by simp) rfl
      have rest' : ((c.insert entry.node entry.parameters).2.nodes ++ rest.map Entry.node).Nodup := by
        rw [insertNodes h,if_neg new]
        simpa using fresh
      have step : (c.insert entry.node entry.parameters).2.toList = c.toList ++ [entry] := by
        rw [insertToList h,if_neg new]
      calc ((c.insert entry.node entry.parameters).2.insertAll rest).toList
          = (c.insert entry.node entry.parameters).2.toList ++ rest := ih (insertIndexed h _ _) rest'
        _ = c.toList ++ entry :: rest := by rw [step,List.append_assoc,List.singleton_append]

theorem ownEntries {c : Catalog} (h : c.Indexed) : (empty.insertAll c.toList).toList = c.toList :=
  insertAllFresh emptyIndexed (nodesUnique h)

theorem insertAllOwn {c : Catalog} (h : c.Indexed) : (empty.insertAll c.toList == c) = true :=
  (equalIff (insertAllIndexed emptyIndexed _) h).2 (ownEntries h)

theorem enterAll (c : Catalog) (nodes : List Node) : (c.enter nodes).2 = c.insertAll (nodes.map Node.entry) := by
  induction nodes generalizing c with
  | nil => rfl
  | cons node rest ih => exact ih (c.insert node.name node.parameters).2

theorem ofDescriptorAll (d : Descriptor) : (ofDescriptor d).2 = empty.insertAll (d.nodes.map Node.entry) :=
  enterAll empty d.nodes

theorem ofDescriptorIndexed (d : Descriptor) : (ofDescriptor d).2.Indexed := by
  rw [ofDescriptorAll]
  exact insertAllIndexed emptyIndexed _

theorem ofDescriptorNodes (d : Descriptor) : (ofDescriptor d).2.nodes = (d.nodes.map Node.name).eraseDups := by
  rw [ofDescriptorAll,insertAllNodes,List.map_map]
  rfl

theorem ofDescriptorNone (d : Descriptor) (name : String) :
    (ofDescriptor d).2.get? name = none ↔ ∀ node ∈ d.nodes, node.name ≠ name := by
  rw [getNone (ofDescriptorIndexed d),ofDescriptorAll,memNodesInsertAll emptyIndexed]
  simp [Node.entry,nodes,toList,empty]

theorem ofDescriptorGet (d : Descriptor) (name : String) : (ofDescriptor d).2.get? name =
    (d.nodes.reverse.find? (fun node => node.name == name)).map Node.parameters := by
  rw [ofDescriptorAll,insertAllLast,← List.map_reverse,List.find?_map,Option.map_map]
  rfl

end Catalog
end SyntaxCatalog
