import SyntaxCatalog.Proofs.Catalog.RoundTrip
import SyntaxCatalog.Proofs.Generation.Outputs

/-! Looking up nodes in the outputs of a generation. Files take the place of files or of nothing, so
every path keeps naming what it named, and what has been written once stays until it is written again,
with the same text. -/
namespace SyntaxCatalog
open FileTree Program

def FileTree.Landed (t : FileTree) (base : Location) (path : Path) (contents : ByteArray) : Prop :=
  ∃ loc mode, t.target base path = .ok loc ∧ t.get? loc = some (.file contents mode)

def FileTree.Unlinked (t : FileTree) (base : Location) (path : Path) : Prop :=
  ∀ loc link, t.target base path = .ok loc → t.get? loc ≠ some (.link link)

section
variable {deniable : Request.Deniable} {base dir : Location} {t after : FileTree} {path other : Path} {name : String}
  {contents : ByteArray} {mode : Nat}

theorem unlinkedSame (same : SamePassages t after) (h : t.Unlinked base path) : after.Unlinked base path := by
  intro loc link target there
  exact h loc link (targetSame same.symm target) (passageLink same.symm there)

theorem replacedPassages (h : Replaced t base path dir name (.file contents mode) after) (unlinked : t.Unlinked base path) :
    SamePassages t after := by
  have nothing := passageNone h.plain (fun target => unlinked _ target (namesTarget h.named))
  rw [h.left]
  exact passagesPut (by simp) rfl nothing

theorem replacedLanded (same : SamePassages t after) (h : Replaced t base path dir name (.file contents mode) after) :
    after.Landed base path contents := by
  have target := targetSame same (namesTarget h.named)
  exact ⟨_,mode,target,by rw [replacedGet h,if_pos rfl]⟩

theorem landedKept (same : SamePassages t after) (h : Replaced t base path dir name (.file contents mode) after)
    (landed : t.Landed base other contents) : after.Landed base other contents := by
  obtain ⟨loc,old,target,there⟩ := landed
  have target := targetSame same target
  by_cases here : loc = dir ++ [name]
  · exact ⟨loc,mode,target,by rw [replacedGet h,if_pos here]⟩
  · exact ⟨loc,old,target,by rw [replacedGet h,if_neg here,there]⟩

theorem writtenLanded {paths : List Path} (h : Written deniable base contents t paths after)
    (unlinked : ∀ path ∈ paths, t.Unlinked base path) (wanted : other ∈ paths ∨ t.Landed base other contents) :
    after.Landed base other contents := by
  induction h with
  | nil t =>
      rcases wanted with nowhere | landed
      · cases nowhere
      · exact landed
  | cons first done others ih =>
      obtain ⟨_,_,_,_,replaced⟩ := writeFileDone first done
      have same := replacedPassages replaced (unlinked _ List.mem_cons_self)
      refine ih (fun path member => unlinkedSame same (unlinked path (List.mem_cons_of_mem _ member))) ?_
      rcases wanted with member | landed
      · rcases List.mem_cons.1 member with rfl | later
        · exact .inr (replacedLanded same replaced)
        · exact .inl later
      · exact .inr (landedKept same replaced landed)

theorem landedHolds {text : String} (h : t.Landed base path text.toUTF8) : t.Holds base path text := by
  obtain ⟨loc,mode,target,there⟩ := h
  exact holdsText (readNamed target there)

theorem readCatalogRun {text : String} {c : Catalog} (holds : t.Holds base path text)
    (accepted : Catalog.ofJson text = .ok c) : ((readCatalog path).run base t).value = .ok c := by
  have read : (readCatalog path).run base t = ⟨.ok c,[.readingCatalog path],t⟩ := readJsonRun holds accepted
  rw [read]

end

theorem holdsUnique {t : FileTree} {base : Location} {path : Path} {text other : String} (h : t.Holds base path text)
    (again : t.Holds base path other) : text = other := by
  obtain ⟨contents,there,decoded⟩ := h
  obtain ⟨contents',there',decoded'⟩ := again
  cases there.symm.trans there'
  exact Option.some.inj (decoded.symm.trans decoded')

/- What an output answers is what the descriptor says: the last record of a node decides. -/
theorem generatedLookup {deniable : Request.Deniable} {base : Location} {plan : Plan} {t : FileTree} {text : String}
    {d : Descriptor} {o : Outcome (Except Fault Report)} {report : Report} (holds : t.Holds base plan.descriptor text)
    (accepted : Descriptor.ofJson text = .ok d) (unlinked : ∀ path ∈ plan.outputs, t.Unlinked base path)
    (h : (generate plan).Runs deniable base t o) (done : o.value = .ok report) :
    ∀ path ∈ plan.outputs, ∃ c, ((readCatalog path).run base o.tree).value = .ok c ∧ ∀ name,
      (c.require name = match d.nodes.reverse.find? (fun node => node.name == name) with
        | some last => .ok (last.attributes.map Attribute.name)
        | none => .error (.unknownNode name)) ∧
      (c.require name = .error (.unknownNode name) ↔ ∀ node ∈ d.nodes, node.name ≠ name) := by
  obtain ⟨value,log,tree⟩ := o
  have course := generateRuns h
  cases done
  cases course with
  | @finished text' d' _ holds' accepted' written =>
      cases holdsUnique holds' holds
      cases accepted'.symm.trans accepted
      intro path member
      have landed := writtenLanded written unlinked (.inl member)
      have read := readCatalogRun (landedHolds landed) (Catalog.renderRead (Catalog.ofDescriptor d).2 plan.layout)
      refine ⟨_,read,fun name => ?_⟩
      have same := Catalog.ownGet (Catalog.ofDescriptorIndexed d) name
      constructor
      · rw [Catalog.require,same,Catalog.ofDescriptorGet]
        cases d.nodes.reverse.find? (fun node => node.name == name) <;> rfl
      · rw [← Catalog.ofDescriptorNone,Catalog.require,same]
        cases (Catalog.ofDescriptor d).2.get? name <;> simp

def twicePlan : Plan := ⟨⟨"in"⟩,[⟨"out"⟩,⟨"in"⟩],.pretty⟩

theorem twiceLookup : ∃ c,
    ((readCatalog ⟨"out"⟩).run [] ((generate twicePlan).run [] twiceTree).tree).value = .ok c ∧
    c.require "Node" = .ok ["left","right"] ∧ c.require "Other" = .error (.unknownNode "Other") := by
  have done : ((generate twicePlan).run [] twiceTree).value = .ok ⟨(Catalog.ofDescriptor twice).2.size,twicePlan.outputs⟩ := by
    rw [(generateRun (by decide) twiceHolds (spelledRead twice)).1]
    rfl
  have unlinked : ∀ path ∈ twicePlan.outputs, twiceTree.Unlinked [] path := by
    intro path _ loc link _ there
    cases loc with
    | nil => cases there
    | cons first rest =>
        simp only [twiceTree,holding,get?,List.lookup_cons,List.lookup_nil] at there
        split at there <;> cases there
  have runs := runsRun .none [] (generate twicePlan) twiceTree
  obtain ⟨c,read,answers⟩ := generatedLookup twiceHolds (spelledRead twice) unlinked runs done ⟨"out"⟩ (by decide)
  exact ⟨c,read,(answers "Node").1,(answers "Other").1⟩

end SyntaxCatalog
