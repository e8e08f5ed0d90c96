import Mathlib.Data.List.Count
import SyntaxCatalog.Proofs.Catalog.Layouts

/-! Descriptors whose records come in another order. What a catalog says of a node comes from the records of this
node alone, in their order; so those of different nodes may change places, and only the nodes are listed otherwise. -/
namespace SyntaxCatalog

def recordsOf (nodes : List Node) (name : String) : List Node := nodes.filter (fun node => node.name == name)

/- The same records in another order, where those of one name follow each other as before. -/
structure Rearranged (before after : List Node) : Prop where
  same : before.Perm after
  order : ∀ name, recordsOf before name = recordsOf after name

theorem neighboursSwap {node other : Node} (different : node.name ≠ other.name) (front back : List Node) :
    Rearranged (front ++ node :: other :: back) (front ++ other :: node :: back) where
  same := (List.Perm.swap other node back).append_left front
  order name := by
    simp only [recordsOf,List.filter_append]
    congr 1
    by_cases first : node.name = name
    · have second : (other.name == name) = false := beq_eq_false_iff_ne.2 (fun same => different (first.trans same.symm))
      simp [first,second]
    · have none : (node.name == name) = false := beq_eq_false_iff_ne.2 first
      simp [List.filter_cons,none]

def Descriptor.firsts (d : Descriptor) : List String := (d.nodes.map Node.name).eraseDups

theorem lastRecord (d : Descriptor) (name : String) : d.last name = (recordsOf d.nodes name).getLast? := by
  rw [Descriptor.last,recordsOf,← List.head?_filter,List.filter_reverse,List.head?_reverse]

namespace Catalog

theorem enterWarnings {c : Catalog} (h : c.Indexed) (nodes : List Node) (name : String) :
    (c.enter nodes).1.count name = (recordsOf nodes name).length - if name ∈ c.nodes then 0 else 1 := by
  induction nodes generalizing c with
  | nil => simp [enter,recordsOf]
  | cons node nodes ih =>
      have later := ih (insertIndexed h node.name node.parameters)
      have repeated := insertKnown h node.name node.parameters
      rw [insertNodes h] at later
      simp only [enter,repeated,decide_eq_true_eq]
      by_cases here : node.name = name
      · subst here
        have all : recordsOf (node :: nodes) node.name = node :: recordsOf nodes node.name := by simp [recordsOf]
        rw [all,List.length_cons]
        by_cases known : node.name ∈ c.nodes
        · simp only [if_pos known] at later ⊢
          rw [List.count_cons_self,later]
          rfl
        · have entered : node.name ∈ c.nodes ++ [node.name] := by simp
          simp only [if_neg known,if_pos entered] at later ⊢
          rw [later]
          rfl
      · have others : recordsOf (node :: nodes) name = recordsOf nodes name := by simp [recordsOf,here]
        have listed : name ∈ (if node.name ∈ c.nodes then c.nodes else c.nodes ++ [node.name]) ↔ name ∈ c.nodes := by
          split
          · exact Iff.rfl
          · simp [Ne.symm here]
        simp only [listed] at later
        rw [others,← later]
        split
        · rw [List.count_cons_of_ne here]
        · rfl

theorem ofDescriptorWarnings (d : Descriptor) (name : String) :
    (ofDescriptor d).1.count name = (recordsOf d.nodes name).length - 1 := by
  rw [ofDescriptor,enterWarnings emptyIndexed]
  simp [empty,nodes,toList]

section
variable {d e : Descriptor} (h : Rearranged d.nodes e.nodes)
include h

theorem rearrangedGet (name : String) : (ofDescriptor d).2.get? name = (ofDescriptor e).2.get? name := by
  have last : d.last name = e.last name := by rw [lastRecord,lastRecord,h.order]
  exact (ofDescriptorGet d name).trans ((congrArg (Option.map Node.parameters) last).trans (ofDescriptorGet e name).symm)

theorem rearrangedNodes : (ofDescriptor d).2.nodes.Perm (ofDescriptor e).2.nodes := by
  have indexed := ofDescriptorIndexed d
  have other := ofDescriptorIndexed e
  rw [List.perm_ext_iff_of_nodup (nodesUnique indexed) (nodesUnique other)]
  intro name
  rw [← not_iff_not,← getNone indexed,← getNone other,rearrangedGet h]

theorem rearrangedSize : (ofDescriptor d).2.size = (ofDescriptor e).2.size := by
  rw [sizeNodes,sizeNodes,(rearrangedNodes h).length_eq]

theorem rearrangedWarnings (name : String) : (ofDescriptor d).1.count name = (ofDescriptor e).1.count name := by
  rw [ofDescriptorWarnings,ofDescriptorWarnings,h.order]

theorem rearrangedEntries : (ofDescriptor d).2.toList = (ofDescriptor e).2.toList ↔ d.firsts = e.firsts := by
  rw [Descriptor.firsts,Descriptor.firsts,← ofDescriptorNodes,← ofDescriptorNodes]
  constructor
  · intro entries
    rw [nodes,nodes,entries]
  · intro order
    rw [listedGet (ofDescriptorIndexed d),listedGet (ofDescriptorIndexed e),order]
    simp only [rearrangedGet h]

end
end Catalog

/- Whatever is asked of the one catalog is answered by the other, with as many warnings of each node; and they are one
catalog, of one text, just in case the nodes first come up in one order. -/
theorem rearrangedAlike {d e : Descriptor} (h : Rearranged d.nodes e.nodes) (base : Location) (t : FileTree) :
    let one := (catalogued d).run base t
    let other := (catalogued e).run base t
    one.value.size = other.value.size ∧
      (∀ name, one.value.get? name = other.value.get? name) ∧
      (∀ name, one.value.require name = other.value.require name) ∧
      (∀ name, one.log.count (.repeatedNode name) = other.log.count (.repeatedNode name)) ∧
      one.value.nodes.Perm other.value.nodes ∧
      ((one.value == other.value) = true ↔ d.firsts = e.firsts) ∧
      (d.firsts = e.firsts → ∀ layout, one.value.render layout = other.value.render layout) := by
  intro one other
  have ran : one = ⟨(Catalog.ofDescriptor d).2,(Catalog.ofDescriptor d).1.map .repeatedNode,t⟩ := by
    rw [Catalog.ofDescriptorRepeats]
    exact cataloguedRun d base t
  have again : other = ⟨(Catalog.ofDescriptor e).2,(Catalog.ofDescriptor e).1.map .repeatedNode,t⟩ := by
    rw [Catalog.ofDescriptorRepeats]
    exact cataloguedRun e base t
  have got := Catalog.rearrangedGet h
  have indexed := Catalog.ofDescriptorIndexed d
  have indexedToo := Catalog.ofDescriptorIndexed e
  have entries := Catalog.rearrangedEntries h
  rw [ran,again]
  refine ⟨Catalog.rearrangedSize h,got,?_,?_,Catalog.rearrangedNodes h,?_,?_⟩
  · intro name
    rw [Catalog.require,Catalog.require,got]
  · intro name
    have single : Function.Injective Event.repeatedNode := fun _ _ same => Event.repeatedNode.inj same
    simp only [List.count_map_of_injective _ _ single]
    exact Catalog.rearrangedWarnings h name
  · exact (Catalog.equalIff indexed indexedToo).trans entries
  · intro order layout
    exact (Catalog.renderIff indexed indexedToo layout).2 (entries.2 order)

def enclosing : Descriptor := ⟨[⟨"a",[⟨"x"⟩]⟩,⟨"b",[]⟩,⟨"a",[⟨"y"⟩]⟩]⟩

def leading : Descriptor := ⟨[⟨"b",[]⟩,⟨"a",[⟨"x"⟩]⟩,⟨"a",[⟨"y"⟩]⟩]⟩

def trailing : Descriptor := ⟨[⟨"a",[⟨"x"⟩]⟩,⟨"a",[⟨"y"⟩]⟩,⟨"b",[]⟩]⟩

theorem enclosingLeading : Rearranged enclosing.nodes leading.nodes := neighboursSwap (by decide) [] [⟨"a",[⟨"y"⟩]⟩]

theorem enclosingTrailing : Rearranged enclosing.nodes trailing.nodes := neighboursSwap (by decide) [⟨"a",[⟨"x"⟩]⟩] []

theorem enclosingAlike :
    let run (d : Descriptor) := (catalogued d).run [] FileTree.empty
    (run enclosing).value.get? "a" = (run leading).value.get? "a" ∧
      (run enclosing).log.count (.repeatedNode "a") = (run leading).log.count (.repeatedNode "a") ∧
      ((run enclosing).value == (run leading).value) = false ∧
      ((run enclosing).value == (run trailing).value) = true ∧
      (run enclosing).value.render .pretty = (run trailing).value.render .pretty := by
  obtain ⟨_,got,_,warned,_,different,_⟩ := rearrangedAlike enclosingLeading [] FileTree.empty
  obtain ⟨_,_,_,_,_,equal,rendered⟩ := rearrangedAlike enclosingTrailing [] FileTree.empty
  refine ⟨got "a",warned "a",?_,equal.2 (by decide),rendered (by decide) .pretty⟩
  rw [Bool.eq_false_iff,ne_eq,different]
  decide

end SyntaxCatalog
