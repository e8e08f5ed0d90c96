import Mathlib.Data.List.Nodup
import SyntaxCatalog.Proofs.Catalog.Repetition
import SyntaxCatalog.Proofs.Catalog.Representation

/-! What an insertion changes, and what it leaves alone. The parameters of a known node are replaced where they
stand, and an unknown node goes behind all others; either way no other node is touched. -/
namespace SyntaxCatalog.Catalog

theorem entrySplit {c : Catalog} (h : c.Indexed) {node : String} {old : List String} (got : c.get? node = some old) :
    ∃ front back, c.toList = front ++ ⟨node,old⟩ :: back ∧ ∀ entry ∈ front ++ back, entry.node ≠ node := by
  obtain ⟨front,back,split⟩ := List.append_of_mem ((getIff h node old).1 got)
  have unique := nodesUnique h
  rw [nodes,split,List.map_append,List.map_cons,List.nodup_middle,← List.map_append] at unique
  refine ⟨front,back,split,?_⟩
  intro entry member same
  exact (List.nodup_cons.1 unique).1 (List.mem_map.2 ⟨entry,member,same⟩)

theorem insertReplaces {c : Catalog} (h : c.Indexed) {node : String} {old : List String} (got : c.get? node = some old)
    (parameters : List String) : ∃ front back, c.toList = front ++ ⟨node,old⟩ :: back ∧
      (c.insert node parameters).2.toList = front ++ ⟨node,parameters⟩ :: back := by
  obtain ⟨front,back,split,others⟩ := entrySplit h got
  obtain ⟨before,behind⟩ := List.forall_mem_append.1 others
  have known : node ∈ c.nodes := by simp [nodes,split]
  have kept : ∀ entries : List Entry, (∀ entry ∈ entries, entry.node ≠ node) →
      entries.map (fun entry => if entry.node = node then ⟨node,parameters⟩ else entry) = entries := by
    intro entries apart
    calc entries.map (fun entry => if entry.node = node then ⟨node,parameters⟩ else entry)
        = entries.map id := List.map_congr_left (fun entry member => if_neg (apart entry member))
      _ = entries := List.map_id entries
  refine ⟨front,back,split,?_⟩
  rw [insertToList h,if_pos known,split,List.map_append,List.map_cons,kept front before,kept back behind,if_pos rfl]

theorem insertSize {c : Catalog} (h : c.Indexed) (node : String) (parameters : List String) :
    (c.insert node parameters).2.size = if node ∈ c.nodes then c.size else c.size + 1 := by
  rw [sizeNodes,sizeNodes,insertNodes h]
  by_cases known : node ∈ c.nodes <;> simp [known]

theorem insertFrame {c : Catalog} (h : Reachable c) (node : String) (parameters : List String) :
    let after := (c.insert node parameters).2
    (c.insert node parameters).1 = c.get? node ∧ after.get? node = some parameters ∧
      (∀ other, other ≠ node → after.get? other = c.get? other) ∧
      (node ∈ c.nodes → after.nodes = c.nodes ∧ after.size = c.size ∧ ∃ old front back,
        (c.insert node parameters).1 = some old ∧ c.toList = front ++ ⟨node,old⟩ :: back ∧
          after.toList = front ++ ⟨node,parameters⟩ :: back) ∧
      (node ∉ c.nodes → after.toList = c.toList ++ [⟨node,parameters⟩] ∧ after.size = c.size + 1) := by
  intro after
  have indexed := reachableIndexed h
  have got := getInsert indexed node parameters
  have listed := insertNodes indexed node parameters
  have counted := insertSize indexed node parameters
  refine ⟨insertPrevious c node parameters,by rw [got,if_pos rfl],?_,?_,?_⟩
  · intro other different
    rw [got,if_neg different]
  · intro known
    rw [if_pos known] at listed counted
    obtain ⟨old,previous⟩ : ∃ old, c.get? node = some old := by
      rw [← Option.ne_none_iff_exists',ne_eq,getNone indexed]
      exact fun absent => absent known
    obtain ⟨front,back,before,replaced⟩ := insertReplaces indexed previous parameters
    exact ⟨listed,counted,old,front,back,(insertPrevious c node parameters).trans previous,before,replaced⟩
  · intro unknown
    rw [if_neg unknown] at counted
    refine ⟨?_,counted⟩
    rw [insertToList indexed,if_neg unknown]

def redefined : Catalog := empty.insertAll [⟨"a",["x"]⟩,⟨"b",[]⟩,⟨"a",["y"]⟩]

theorem redefinedFrame : Reachable redefined ∧
    (redefined.insert "a" []).1 = some ["y"] ∧ (redefined.insert "a" []).2.nodes = ["a","b"] ∧
      (redefined.insert "a" []).2.get? "b" = some [] ∧
      (redefined.insert "c" ["z"]).1 = none ∧
      (redefined.insert "c" ["z"]).2.toList = [⟨"a",["y"]⟩,⟨"b",[]⟩,⟨"c",["z"]⟩] := by
  have reachable : Reachable redefined := .insert (.insert (.insert .empty "a" ["x"]) "b" []) "a" ["y"]
  have listed : redefined.nodes = ["a","b"] := by
    rw [redefined,insertAllNodes]
    decide
  have entries : redefined.toList = [⟨"a",["y"]⟩,⟨"b",[]⟩] := by
    rw [redefined,insertAllEntries]
    decide
  obtain ⟨previous,_,others,known,_⟩ := insertFrame reachable "a" []
  obtain ⟨absent,_,_,_,unknown⟩ := insertFrame reachable "c" ["z"]
  refine ⟨reachable,?_,?_,?_,?_,?_⟩
  · rw [previous,redefined,insertAllLast]
    decide
  · rw [(known (by simp [listed])).1,listed]
  · rw [others "b" (by decide),redefined,insertAllLast]
    decide
  · rw [absent,redefined,insertAllLast]
    decide
  · rw [(unknown (by simp [listed])).1,entries]
    rfl

end SyntaxCatalog.Catalog
