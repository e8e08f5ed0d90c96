import SyntaxCatalog.Proofs.Generation.Destinations
import SyntaxCatalog.Proofs.Generation.Success

/-! Generating again. A write that succeeds settles its destination: the same write once more keeps the mode
that it finds there, and so puts the very entry that stands there already. -/
namespace SyntaxCatalog
open FileTree Program

/- Another write of the contents would succeed and put what stands there already. -/
def FileTree.Settled (t : FileTree) (base : Location) (path : Path) (contents : ByteArray) : Prop :=
  ∃ loc mode, t.Offers base path loc ∧ t.Stands loc (.file contents mode)

section
variable {base loc : Location} {t after : FileTree} {path other : Path} {contents : ByteArray} {mode : Nat}

theorem offersSame (same : SamePassages t after) (offers : t.Offers base path loc) : after.Offers base path loc := by
  refine ⟨createSame same offers.room,targetSame same offers.target,?_⟩
  intro mode directory
  obtain ⟨mode,stood⟩ := passageDirectory same.symm directory
  exact offers.plain mode stood

theorem offersPassages (offers : t.Offers base path loc) (unlinked : t.Unlinked base path) (contents : ByteArray)
    (mode : Nat) : SamePassages t (t.put loc (.file contents mode)) := by
  have nothing := passageNone offers.plain (fun target => unlinked loc target offers.target)
  exact passagesPut (targetInside offers.target) rfl nothing

theorem settledPut (offers : t.Offers base path loc) (unlinked : t.Unlinked base path) :
    (t.put loc (.file contents mode)).Settled base path contents :=
  ⟨loc,mode,offersSame (offersPassages offers unlinked contents mode) offers,putStands t (targetInside offers.target) _⟩

theorem settledKept (offers : t.Offers base path loc) (unlinked : t.Unlinked base path)
    (settled : t.Settled base other contents) : (t.put loc (.file contents mode)).Settled base other contents := by
  obtain ⟨place,old,offered,stands⟩ := settled
  have still := offersSame (offersPassages offers unlinked contents mode) offered
  by_cases here : place = loc
  · subst here
    exact ⟨place,mode,still,putStands t (targetInside offers.target) _⟩
  · exact ⟨place,old,still,standsPut stands (targetInside offers.target) here⟩

theorem settledRun (settled : t.Settled base path contents) :
    (writeFile path contents).run base t = ⟨.ok (),[.writing contents.size path],t⟩ := by
  obtain ⟨loc,mode,offers,stands⟩ := settled
  have inside := targetInside offers.target
  have there := standsGet inside stands
  have kept : (t.modeOf base path).getD (t.masked plainMode) = mode := by
    simp [modeOf,locateNamed offers.target there,there,FileTree.mode]
  rw [writeFileRun offers,kept,putSame inside stands]

end

def writeEvents (nodes size : Nat) (paths : List Path) : List Event :=
  paths.flatMap (fun path => [.writing size path,.wrote nodes path])

section
variable {base : Location} {t after last : FileTree} {nodes : Nat} {text : String} {path : Path} {paths : List Path}

theorem writeAllOnward (first : (writeFile path text.toUTF8).run base t = ⟨.ok (),[.writing text.toUTF8.size path],after⟩)
    (others : (writeAll nodes text paths).run base after = ⟨.ok paths,writeEvents nodes text.toUTF8.size paths,last⟩) :
    (writeAll nodes text (path :: paths)).run base t =
      ⟨.ok (path :: paths),writeEvents nodes text.toUTF8.size (path :: paths),last⟩ := by
  rw [writeAll,runAndThen first,runBind,runReport]
  simp only [runAndThen others,runPure,writeEvents,List.flatMap_cons,List.append_nil]
  rfl

theorem writeAllSettles {written : List Path} (unlinked : ∀ path ∈ paths, t.Unlinked base path)
    (done : ((writeAll nodes text paths).run base t).value = .ok written) :
    ∃ last, (writeAll nodes text paths).run base t = ⟨.ok paths,writeEvents nodes text.toUTF8.size paths,last⟩ ∧
      (∀ path ∈ paths, last.Settled base path text.toUTF8) ∧
      ∀ other, t.Settled base other text.toUTF8 → last.Settled base other text.toUTF8 := by
  induction paths generalizing t written with
  | nil => exact ⟨t,rfl,by simp,fun _ settled => settled⟩
  | cons path more ih =>
      have here := unlinked path List.mem_cons_self
      obtain ⟨_,first,onward⟩ := runDone done
      obtain ⟨loc,offers⟩ := writeFileOffers first
      obtain ⟨mode,wrote⟩ : ∃ mode, (writeFile path text.toUTF8).run base t =
          ⟨.ok (),[.writing text.toUTF8.size path],t.put loc (.file text.toUTF8 mode)⟩ := ⟨_,writeFileRun offers⟩
      rw [wrote,runBind,runReport] at onward
      obtain ⟨_,others,_⟩ := runDone onward
      have same := offersPassages offers here text.toUTF8 mode
      have later : ∀ path ∈ more, (t.put loc (.file text.toUTF8 mode)).Unlinked base path :=
        fun path member => unlinkedSame same (unlinked path (List.mem_cons_of_mem _ member))
      obtain ⟨last,ran,each,kept⟩ := ih later others
      refine ⟨last,writeAllOnward wrote ran,?_,fun other settled => kept other (settledKept offers here settled)⟩
      intro other member
      rcases List.mem_cons.1 member with rfl | member
      · exact kept other (settledPut offers here)
      · exact each other member

theorem writeAllSettled (settled : ∀ path ∈ paths, t.Settled base path text.toUTF8) :
    (writeAll nodes text paths).run base t = ⟨.ok paths,writeEvents nodes text.toUTF8.size paths,t⟩ := by
  induction paths with
  | nil => rfl
  | cons path more ih =>
      have others := ih (fun other member => settled other (List.mem_cons_of_mem _ member))
      exact writeAllOnward (settledRun (settled path List.mem_cons_self)) others

end

def Plan.writes (plan : Plan) (d : Descriptor) : Program (Except Fault (List Path)) :=
  writeAll (Catalog.ofDescriptor d).2.size ((Catalog.ofDescriptor d).2.render plan.layout) plan.outputs

def Plan.writeEvents (plan : Plan) (d : Descriptor) : List Event :=
  SyntaxCatalog.writeEvents (Catalog.ofDescriptor d).2.size (plan.contents d).size plan.outputs

section
variable {base : Location} {plan : Plan} {t last : FileTree} {text : String} {d : Descriptor} {report : Report}

theorem generateDone (done : ((generate plan).run base t).value = .ok report) :
    plan.outputs ≠ [] ∧ ∃ text d written, t.Holds base plan.descriptor text ∧ Descriptor.ofJson text = .ok d ∧
      ((plan.writes d).run base t).value = .ok written := by
  have some : plan.outputs ≠ [] := by
    intro none
    simp [generate,Plan.validate,none,runPure] at done
  rw [generate,validateSome some] at done
  obtain ⟨catalog,built,onward⟩ := runDone done
  obtain ⟨written,wrote,_⟩ := runDone onward
  obtain ⟨same,⟨cause,failed⟩ | ⟨text,cause,_,_,failed⟩ | ⟨text,d,holds,accepted,made⟩⟩ :=
    buildCatalogRuns (runsRun .none base (buildCatalog plan.descriptor) t)
  · cases built.symm.trans failed
  · cases built.symm.trans failed
  · cases built.symm.trans made
    rw [same] at wrote
    exact ⟨some,text,d,written,holds,accepted,wrote⟩

theorem generateWhole (some : plan.outputs ≠ []) (holds : t.Holds base plan.descriptor text)
    (accepted : Descriptor.ofJson text = .ok d)
    (wrote : (plan.writes d).run base t = ⟨.ok plan.outputs,plan.writeEvents d,last⟩) :
    (generate plan).run base t = ⟨.ok ⟨(Catalog.ofDescriptor d).2.size,plan.outputs⟩,
      .readingDescriptor plan.descriptor :: (Catalog.ofDescriptor d).1.map .repeatedNode ++ plan.writeEvents d,last⟩ := by
  rw [generate,validateSome some]
  refine runOnward (buildCatalogRun holds accepted) ?_
  rw [← List.append_nil (plan.writeEvents d)]
  exact runOnward wrote (runPure base _ last)

/- A generation that succeeded and finds its descriptor unchanged can be repeated: it comes to the same
value, reports the same, and leaves the tree as it is. -/
theorem regenerateSame (unlinked : ∀ path ∈ plan.outputs, t.Unlinked base path)
    (done : ((generate plan).run base t).value = .ok report)
    (unchanged : ((generate plan).run base t).tree.read base plan.descriptor = t.read base plan.descriptor) :
    (generate plan).run base ((generate plan).run base t).tree = (generate plan).run base t := by
  obtain ⟨some,text,d,written,holds,accepted,wrote⟩ := generateDone done
  obtain ⟨last,ran,settled,_⟩ := writeAllSettles unlinked wrote
  have first := generateWhole some holds accepted ran
  rw [first] at unchanged ⊢
  have again : last.Holds base plan.descriptor text := by
    obtain ⟨contents,there,decoded⟩ := holds
    exact ⟨contents,unchanged.trans there,decoded⟩
  exact generateWhole some again accepted (writeAllSettled settled)

end

theorem spellingsRepeated : ∃ report after,
    (generate spellingsPlan).run [] windingTree = after ∧ after.value = .ok report ∧
      (generate spellingsPlan).run [] after.tree = after := by
  have some : spellingsPlan.outputs ≠ [] := by decide
  have ran := generateRun some windingHolds (spelledRead lone)
  have done : ((generate spellingsPlan).run [] windingTree).value =
      .ok ⟨(Catalog.ofDescriptor lone).2.size,spellingsPlan.outputs⟩ := by
    rw [ran.1]
    rfl
  have unchanged : ((generate spellingsPlan).run [] windingTree).tree.read [] spellingsPlan.descriptor =
      windingTree.read [] spellingsPlan.descriptor := by
    rw [ran.2]
    rfl
  exact ⟨_,_,rfl,done,regenerateSame spellingsUnlinked done unchanged⟩

end SyntaxCatalog
