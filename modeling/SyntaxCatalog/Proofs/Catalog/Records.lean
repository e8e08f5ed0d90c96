import SyntaxCatalog.Proofs.Catalog.Repetition
import SyntaxCatalog.Proofs.Catalog.Representation
import SyntaxCatalog.Proofs.Generation.Reading

/-! What the records of a descriptor come to. A record either gives a new node its place or is warned of, so there
are as many places and warnings as records. Whatever a node was defined as before, its last record stands. -/
namespace SyntaxCatalog

def Descriptor.last (d : Descriptor) (name : String) : Option Node := d.nodes.reverse.find? (fun node => node.name == name)

namespace Catalog

theorem insertCount {c : Catalog} (h : c.Indexed) (node : String) (parameters : List String) :
    (c.insert node parameters).2.size + (c.insert node parameters).1.isSome.toNat = c.size + 1 := by
  rw [insertKnown h,sizeNodes,sizeNodes,insertNodes h]
  by_cases known : node ∈ c.nodes <;> simp [known]

theorem enterCount {c : Catalog} (h : c.Indexed) (nodes : List Node) :
    (c.enter nodes).2.size + (c.enter nodes).1.length = c.size + nodes.length := by
  induction nodes generalizing c with
  | nil => rfl
  | cons node nodes ih =>
      have first := insertCount h node.name node.parameters
      have later := ih (insertIndexed h node.name node.parameters)
      simp only [enter,List.length_cons]
      cases again : (c.insert node.name node.parameters).1.isSome with
      | false =>
          simp only [again,Bool.toNat_false] at first
          simp only [Bool.false_eq_true,if_false]
          omega
      | true =>
          simp only [again,Bool.toNat_true] at first
          simp only [if_true,List.length_cons]
          omega

theorem ofDescriptorEntries (d : Descriptor) : (ofDescriptor d).2.toList =
    (d.nodes.map Node.name).eraseDups.filterMap (fun name => (d.last name).map Node.entry) := by
  rw [ofDescriptorAll,insertAllEntries,List.map_map]
  apply List.filterMap_congr
  intro name _
  rw [← List.map_reverse,List.find?_map]
  rfl

end Catalog

theorem cataloguedRun (d : Descriptor) (base : Location) (t : FileTree) : (catalogued d).run base t =
    ⟨(Catalog.ofDescriptor d).2,(repeats (d.nodes.map Node.name)).map .repeatedNode,t⟩ := by
  rw [← Catalog.ofDescriptorRepeats]
  simp [catalogued,Program.runBind,reportAllRun,Program.runPure]

/- Nodes stand in the order of their first records, with the attributes of their last ones. All records but the
first of a node are warned of, in their order. -/
theorem recordsCatalogued (d : Descriptor) (base : Location) (t : FileTree) :
    let names := d.nodes.map Node.name
    let o := (catalogued d).run base t
    o.value.nodes = names.eraseDups ∧
      (∀ name, o.value.get? name = (d.last name).map (fun node => node.attributes.map Attribute.name)) ∧
      o.value.toList = names.eraseDups.filterMap (fun name => (d.last name).map Node.entry) ∧
      o.log.map (fun event => (event.level,event.message)) = (repeats names).map
        (fun node => (.warn,"duplicate node " ++ node ++ " in descriptor; keeping the last definition")) ∧
      o.log.length + o.value.size = d.nodes.length ∧ o.tree = t := by
  intro names o
  have ran : o = ⟨(Catalog.ofDescriptor d).2,(repeats names).map .repeatedNode,t⟩ := cataloguedRun d base t
  rw [ran]
  refine ⟨Catalog.ofDescriptorNodes d,Catalog.ofDescriptorGet d,Catalog.ofDescriptorEntries d,?_,?_,rfl⟩
  · rw [List.map_map]
    rfl
  · have warned : (Catalog.ofDescriptor d).1 = repeats names := Catalog.ofDescriptorRepeats d
    have count := Catalog.enterCount Catalog.emptyIndexed d.nodes
    calc ((repeats names).map Event.repeatedNode).length + (Catalog.ofDescriptor d).2.size
        = (Catalog.ofDescriptor d).2.size + (Catalog.ofDescriptor d).1.length := by
          rw [List.length_map,warned,Nat.add_comm]
      _ = Catalog.empty.size + d.nodes.length := count
      _ = d.nodes.length := Nat.zero_add _

end SyntaxCatalog
