import SyntaxCatalog.Catalog

/-! The index of a catalog agrees with its entries: a node stands at exactly the place that the index
gives for it, so no two entries are of the same node. Insertion keeps this, whatever came before. -/
namespace SyntaxCatalog.Catalog

def Indexed (c : Catalog) : Prop :=
  ∀ (node : String) (place : Nat), c.index[node]? = some place ↔ c.nodes[place]? = some node

theorem emptyIndexed : empty.Indexed := by
  intro node place
  simp [empty,nodes,toList]

theorem sizeNodes (c : Catalog) : c.size = c.nodes.length := by simp [size,nodes,toList]

theorem nodesUnique {c : Catalog} (h : c.Indexed) : c.nodes.Nodup := by
  rw [List.nodup_iff_pairwise_ne,List.pairwise_iff_getElem]
  intro i j hi hj less same
  have left := (h c.nodes[i] i).2 (List.getElem?_eq_getElem hi)
  have right := (h c.nodes[j] j).2 (List.getElem?_eq_getElem hj)
  rw [same,right] at left
  cases left
  omega

theorem indexNone {c : Catalog} (h : c.Indexed) (node : String) :
    c.index[node]? = none ↔ node ∉ c.nodes := by
  constructor
  · intro unknown member
    obtain ⟨place,found⟩ := List.mem_iff_getElem?.1 member
    rw [(h node place).2 found] at unknown
    cases unknown
  · intro absent
    cases found : c.index[node]? with
    | none => rfl
    | some place => exact absurd (List.mem_of_getElem? ((h node place).1 found)) absent

theorem nodesOfEntry {c : Catalog} {place : Nat} {entry : Entry} (found : c.toList[place]? = some entry) :
    c.nodes[place]? = some entry.node := by
  simp [nodes,found]

theorem getIff {c : Catalog} (h : c.Indexed) (node : String) (parameters : List String) :
    c.get? node = some parameters ↔ ⟨node,parameters⟩ ∈ c.toList := by
  constructor
  · intro got
    simp only [get?,bind,Option.bind_eq_some_iff] at got
    obtain ⟨place,known,entry,found,same⟩ := got
    cases same
    have atPlace : c.toList[place]? = some entry := by simpa [toList] using found
    have named := (h node place).1 known
    rw [nodesOfEntry atPlace] at named
    cases named
    exact List.mem_of_getElem? atPlace
  · intro member
    obtain ⟨place,atPlace⟩ := List.mem_iff_getElem?.1 member
    have known := (h node place).2 (nodesOfEntry atPlace)
    have found : c.entries[place]? = some ⟨node,parameters⟩ := by simpa [toList] using atPlace
    simp [get?,known,found]

theorem getNone {c : Catalog} (h : c.Indexed) (node : String) : c.get? node = none ↔ node ∉ c.nodes := by
  constructor
  · intro unknown member
    obtain ⟨⟨name,parameters⟩,listed,same⟩ := List.mem_map.1 member
    cases same
    rw [(getIff h _ _).2 listed] at unknown
    cases unknown
  · intro absent
    cases got : c.get? node with
    | none => rfl
    | some parameters => exact absurd (List.mem_map.2 ⟨_,(getIff h _ _).1 got,rfl⟩) absent

theorem insertToList {c : Catalog} (h : c.Indexed) (node : String) (parameters : List String) :
    (c.insert node parameters).2.toList =
      if node ∈ c.nodes then
        c.toList.map (fun entry => if entry.node = node then ⟨node,parameters⟩ else entry)
      else c.toList ++ [⟨node,parameters⟩] := by
  cases known : c.index[node]? with
  | none =>
      rw [if_neg ((indexNone h node).1 known)]
      simp [insert,known,toList]
  | some place =>
      have found := (h node place).1 known
      rw [if_pos (List.mem_of_getElem? found)]
      simp only [insert,known,toList,Array.toList_modify]
      apply List.ext_getElem?
      intro i
      rw [List.getElem?_modify,List.getElem?_map]
      cases stands : c.entries.toList[i]? with
      | none => simp
      | some entry =>
          have named : c.nodes[i]? = some entry.node := nodesOfEntry stands
          -- Only the entry at the indexed place is of this node.
          by_cases here : place = i
          · subst here
            rw [found] at named
            cases named
            simp
          · have other : entry.node ≠ node := by
              intro same
              rw [same] at named
              have again := (h node i).2 named
              rw [known] at again
              cases again
              exact here rfl
            simp [here,other]

theorem insertNodes {c : Catalog} (h : c.Indexed) (node : String) (parameters : List String) :
    (c.insert node parameters).2.nodes = if node ∈ c.nodes then c.nodes else c.nodes ++ [node] := by
  show (c.insert node parameters).2.toList.map Entry.node = _
  rw [insertToList h]
  by_cases known : node ∈ c.nodes
  · rw [if_pos known,if_pos known,List.map_map]
    apply List.map_congr_left
    intro entry _
    by_cases same : entry.node = node <;> simp [same]
  · rw [if_neg known,if_neg known,List.map_append]
    rfl

theorem insertIndexed {c : Catalog} (h : c.Indexed) (node : String) (parameters : List String) :
    (c.insert node parameters).2.Indexed := by
  intro other place
  rw [insertNodes h]
  cases known : c.index[node]? with
  | some old =>
      rw [if_pos (List.mem_of_getElem? ((h node old).1 known))]
      simp only [insert,known]
      exact h other place
  | none =>
      have absent := (indexNone h node).1 known
      rw [if_neg absent]
      have size : c.nodes.length = c.entries.size := c.sizeNodes.symm
      simp only [insert,known,Std.HashMap.getElem?_insert,← size]
      by_cases same : node = other
      · subst same
        rw [if_pos (beq_self_eq_true node),Option.some.injEq,List.getElem?_append]
        constructor
        · intro last
          simp [← last]
        · split
          · intro found
            exact absurd (List.mem_of_getElem? found) absent
          · intro found
            have inside := (List.getElem?_eq_some_iff.1 found).1
            simp only [List.length_cons,List.length_nil] at inside
            omega
      · rw [if_neg (by simpa using same),h other place,List.getElem?_append]
        split
        · exact Iff.rfl
        · rename_i beyond
          constructor
          · intro found
            exact absurd (List.getElem?_eq_some_iff.1 found).1 beyond
          · intro found
            have listed := List.mem_of_getElem? found
            rw [List.mem_singleton] at listed
            exact absurd listed.symm same

theorem memInsert {c : Catalog} (h : c.Indexed) (node : String) (parameters : List String) (entry : Entry) :
    entry ∈ (c.insert node parameters).2.toList ↔
      entry = ⟨node,parameters⟩ ∨ entry ∈ c.toList ∧ entry.node ≠ node := by
  rw [insertToList h]
  by_cases known : node ∈ c.nodes
  · rw [if_pos known,List.mem_map]
    constructor
    · rintro ⟨old,listed,same⟩
      by_cases named : old.node = node
      · rw [if_pos named] at same
        exact .inl same.symm
      · rw [if_neg named] at same
        subst same
        exact .inr ⟨listed,named⟩
    · rintro (rfl | ⟨listed,other⟩)
      · obtain ⟨old,listed,named⟩ := List.mem_map.1 known
        exact ⟨old,listed,if_pos named⟩
      · exact ⟨entry,listed,if_neg other⟩
  · rw [if_neg known,List.mem_append,List.mem_singleton]
    constructor
    · rintro (listed | rfl)
      · exact .inr ⟨listed,fun named => known (List.mem_map.2 ⟨entry,listed,named⟩)⟩
      · exact .inl rfl
    · rintro (rfl | ⟨listed,_⟩)
      · exact .inr rfl
      · exact .inl listed

theorem getInsert {c : Catalog} (h : c.Indexed) (node : String) (parameters : List String) (name : String) :
    (c.insert node parameters).2.get? name = if name = node then some parameters else c.get? name := by
  apply Option.ext
  intro found
  rw [getIff (insertIndexed h node parameters),memInsert h]
  by_cases same : name = node
  · simp [same,eq_comm]
  · simp [same,getIff h]

theorem equalIff {a b : Catalog} (ha : a.Indexed) (hb : b.Indexed) : (a == b) = true ↔ a.toList = b.toList := by
  show (a.entries == b.entries && a.index == b.index) = true ↔ _
  rw [Bool.and_eq_true,beq_iff_eq]
  constructor
  · intro same
    exact congrArg Array.toList same.1
  · intro same
    refine ⟨Array.toList_inj.1 same,Std.HashMap.beq_iff_equiv.2 (.of_forall_getElem?_eq ?_)⟩
    intro node
    apply Option.ext
    intro place
    rw [ha,hb,nodes,nodes,same]

end SyntaxCatalog.Catalog
