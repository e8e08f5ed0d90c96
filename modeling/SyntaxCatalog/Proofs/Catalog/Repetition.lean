import SyntaxCatalog.Proofs.Catalog.Insertion

/-! Nodes that a descriptor defines again. Entering its records reports, in their order, exactly those whose name
stands among the names before them, however often it stands there. -/
namespace SyntaxCatalog

/- The names that stand among those before them, each as often as it does so, in order. -/
def repeats (names : List String) : List String :=
  (names.zipIdx.filter (fun entry => entry.1 ∈ names.take entry.2)).map Prod.fst

namespace Catalog

theorem repeatsBehind (seen : List String) (name : String) (names : List String) :
    ((name :: names).zipIdx seen.length).filter (fun entry => entry.1 ∈ (seen ++ name :: names).take entry.2) =
      (if name ∈ seen then [(name,seen.length)] else []) ++
        (names.zipIdx (seen ++ [name]).length).filter (fun entry => entry.1 ∈ ((seen ++ [name]) ++ names).take entry.2) := by
  rw [List.zipIdx_cons,List.filter_cons,List.append_assoc,List.singleton_append,List.length_append,List.length_singleton]
  by_cases known : name ∈ seen <;> simp [known]

theorem insertPrevious (c : Catalog) (node : String) (parameters : List String) :
    (c.insert node parameters).1 = c.get? node := by
  unfold insert get?
  cases c.index[node]? with
  | none => rfl
  | some place => cases there : c.entries[place]? <;> simp [there]

theorem insertKnown {c : Catalog} (h : c.Indexed) (node : String) (parameters : List String) :
    (c.insert node parameters).1.isSome = decide (node ∈ c.nodes) := by
  rw [insertPrevious]
  cases got : c.get? node with
  | none => simpa using (getNone h node).1 got
  | some found =>
      have listed : node ∈ c.nodes := List.mem_map.2 ⟨_,(getIff h node found).1 got,rfl⟩
      simp [listed]

theorem enterRepeats {c : Catalog} (h : c.Indexed) (seen : List String) (same : ∀ name, name ∈ c.nodes ↔ name ∈ seen)
    (nodes : List Node) : (c.enter nodes).1 =
      (((nodes.map Node.name).zipIdx seen.length).filter
        (fun entry => entry.1 ∈ (seen ++ nodes.map Node.name).take entry.2)).map Prod.fst := by
  induction nodes generalizing c seen with
  | nil => rfl
  | cons node nodes ih =>
      have seenNext : ∀ name, name ∈ (c.insert node.name node.parameters).2.nodes ↔ name ∈ seen ++ [node.name] := by
        intro name
        rw [insertNodes h,List.mem_append,List.mem_singleton,← same]
        split
        · rename_i known
          exact ⟨.inl,fun either => either.elim id (fun here => here ▸ known)⟩
        · rw [List.mem_append,List.mem_singleton]
      have later := ih (insertIndexed h node.name node.parameters) (seen ++ [node.name]) seenNext
      have known : (c.insert node.name node.parameters).1.isSome = decide (node.name ∈ seen) := by
        rw [insertKnown h]
        exact decide_eq_decide.2 (same node.name)
      rw [List.map_cons,repeatsBehind,List.map_append,← later,enter]
      by_cases again : node.name ∈ seen <;> simp [known,again]

theorem ofDescriptorRepeats (d : Descriptor) : (ofDescriptor d).1 = repeats (d.nodes.map Node.name) :=
  enterRepeats emptyIndexed [] (by simp [empty,nodes,toList]) d.nodes

end Catalog
end SyntaxCatalog
