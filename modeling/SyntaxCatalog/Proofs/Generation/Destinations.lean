import SyntaxCatalog.Proofs.Generation.Lookup

/-! What a generation that succeeds leaves at its destinations, and that it leaves everything else alone.
A file takes ways away and gives none, so an output names the same entry in every tree on the way. -/
namespace SyntaxCatalog
open FileTree Program

section
variable {base : Location} {contents : ByteArray} {t after : FileTree} {paths : List Path} {path : Path}

theorem replacedTarget {dir loc : Location} {name : String} {mode : Nat}
    (h : Replaced t base path dir name (.file contents mode) after) {other : Path}
    (target : after.target base other = .ok loc) : t.target base other = .ok loc := by
  rw [h.left] at target
  exact putTarget (by simp) target

theorem writtenTarget (h : Written deniable base contents t paths after) {loc : Location}
    (target : after.target base path = .ok loc) : t.target base path = .ok loc := by
  induction h with
  | nil t => exact target
  | cons first done others ih =>
      obtain ⟨_,_,_,_,replaced⟩ := writeFileDone first done
      exact replacedTarget replaced (ih target)

theorem writtenChanged (h : Written deniable base contents t paths after) {loc : Location}
    (changed : after.get? loc ≠ t.get? loc) :
    ∃ path ∈ paths, t.target base path = .ok loc := by
  induction h with
  | nil t => exact absurd rfl changed
  | @cons t after path more o first done others ih =>
      obtain ⟨dir,name,mode,_,replaced⟩ := writeFileDone first done
      by_cases here : loc = dir ++ [name]
      · subst here
        exact ⟨path,List.mem_cons_self,namesTarget replaced.named⟩
      · have kept : o.tree.get? loc = t.get? loc := by rw [replacedGet replaced,if_neg here]
        obtain ⟨other,member,target⟩ := ih (by rwa [kept])
        exact ⟨other,List.mem_cons_of_mem _ member,replacedTarget replaced target⟩

theorem writtenKept (h : Written deniable base contents t paths after) {loc : Location}
    (there : ∃ mode, t.get? loc = some (.file contents mode)) : ∃ mode, after.get? loc = some (.file contents mode) := by
  induction h with
  | nil t => exact there
  | cons first done others ih =>
      obtain ⟨dir,name,mode,_,replaced⟩ := writeFileDone first done
      refine ih ?_
      rw [replacedGet replaced]
      split
      · exact ⟨_,rfl⟩
      · exact there

theorem writtenFile (h : Written deniable base contents t paths after) (member : path ∈ paths) :
    ∃ loc mode, t.target base path = .ok loc ∧ after.get? loc = some (.file contents mode) := by
  induction h with
  | nil t => cases member
  | cons first done others ih =>
      obtain ⟨dir,name,mode,_,replaced⟩ := writeFileDone first done
      rcases List.mem_cons.1 member with rfl | later
      · have there := replacedGet replaced (dir ++ [name])
        rw [if_pos rfl] at there
        obtain ⟨mode,kept⟩ := writtenKept others ⟨_,there⟩
        exact ⟨_,mode,namesTarget replaced.named,kept⟩
      · obtain ⟨loc,mode,target,there⟩ := ih later
        exact ⟨loc,mode,replacedTarget replaced target,there⟩

theorem writtenSplit {front back : List Path} (h : Written deniable base contents t (front ++ back) after) :
    ∃ between, Written deniable base contents t front between ∧ Written deniable base contents between back after := by
  induction front generalizing t with
  | nil => exact ⟨t,.nil t,h⟩
  | cons path front ih =>
      cases h with
      | cons first done others =>
          obtain ⟨between,early,late⟩ := ih others
          exact ⟨between,.cons first done early,late⟩

theorem writtenSingle (h : Written deniable base contents t [path] after) :
    ∃ loc mode, t.target base path = .ok loc ∧ after.get? loc = some (.file contents mode) ∧
      (after.read base path = .ok contents ↔ (t.erase loc).target base path = .ok loc) := by
  cases h with
  | cons first done others =>
      cases others
      obtain ⟨dir,name,mode,_,replaced⟩ := writeFileDone first done
      have there := replacedGet replaced (dir ++ [name])
      rw [if_pos rfl] at there
      have reads := readPut (namesTarget replaced.named) contents mode
      rw [← replaced.left] at reads
      exact ⟨_,_,namesTarget replaced.named,there,reads⟩

theorem writtenUnlinked (h : Written deniable base contents t paths after) (unlinked : t.Unlinked base path) :
    after.Unlinked base path := by
  intro loc link target there
  have named := writtenTarget h target
  by_cases same : after.get? loc = t.get? loc
  · exact unlinked loc link named (same.symm.trans there)
  · obtain ⟨other,member,again⟩ := writtenChanged h same
    obtain ⟨found,mode,place,file⟩ := writtenFile h member
    cases again.symm.trans place
    cases there.symm.trans file

theorem landedReads (h : t.Landed base path contents) : t.read base path = .ok contents := by
  obtain ⟨loc,mode,target,there⟩ := h
  exact readNamed target there

end

theorem catalogSize (d : Descriptor) : (Catalog.ofDescriptor d).2.size = (d.nodes.map Node.name).eraseDups.length := by
  rw [Catalog.sizeNodes,Catalog.ofDescriptorNodes]

def WrittenAt (deniable : Request.Deniable) (base : Location) (contents : ByteArray) (t : FileTree)
    (outputs : List Path) (last : FileTree) (k : Nat) (path : Path) : Prop :=
  ∃ before after loc, Written deniable base contents t (outputs.take k) before ∧
    Written deniable base contents before [path] after ∧
    Written deniable base contents after (outputs.drop (k + 1)) last ∧ t.target base path = .ok loc ∧
    (∃ mode, after.get? loc = some (.file contents mode)) ∧
    (t.Unlinked base path → after.read base path = .ok contents) ∧
    (after.read base path = .ok contents ↔ (before.erase loc).target base path = .ok loc)

theorem writtenEach {deniable : Request.Deniable} {base : Location} {contents : ByteArray} {t last : FileTree}
    {outputs : List Path} (h : Written deniable base contents t outputs last) {k : Nat} {path : Path} (here : outputs[k]? = some path) :
    WrittenAt deniable base contents t outputs last k path := by
  obtain ⟨inside,same⟩ := List.getElem?_eq_some_iff.1 here
  have split : outputs = outputs.take k ++ ([path] ++ outputs.drop (k + 1)) := by
    rw [← same,List.singleton_append,List.getElem_cons_drop,List.take_append_drop]
  rw [split] at h
  obtain ⟨before,early,rest⟩ := writtenSplit h
  obtain ⟨after,single,late⟩ := writtenSplit rest
  obtain ⟨loc,mode,target,there,reads⟩ := writtenSingle single
  refine ⟨before,after,loc,early,single,late,writtenTarget early target,⟨mode,there⟩,?_,reads⟩
  intro unlinked
  have landed : after.Landed base path contents := by
    refine writtenLanded single ?_ (.inl List.mem_cons_self)
    intro other member
    rw [List.mem_singleton.1 member]
    exact writtenUnlinked early unlinked
  exact landedReads landed

/- After a generation that succeeds every destination is a file with the one text, and nothing else has
changed. A path that names no link reads as this text, right after its write and to the end. -/
theorem generatedDestinations {deniable : Request.Deniable} {base : Location} {plan : Plan} {t : FileTree}
    {o : Outcome (Except Fault Report)} {report : Report} (h : (generate plan).Runs deniable base t o) (done : o.value = .ok report) :
    ∃ text d, t.Holds base plan.descriptor text ∧ Descriptor.ofJson text = .ok d ∧ report.written = plan.outputs ∧
      report.nodes = (d.nodes.map Node.name).eraseDups.length ∧
      (∀ k path, plan.outputs[k]? = some path → WrittenAt deniable base (plan.contents d) t plan.outputs o.tree k path) ∧
      (∀ loc, o.tree.get? loc ≠ t.get? loc → ∃ path ∈ plan.outputs, t.target base path = .ok loc) ∧
      (∀ path ∈ plan.outputs, ∃ loc mode, t.target base path = .ok loc ∧
        o.tree.get? loc = some (.file (plan.contents d) mode)) ∧
      ((∀ path ∈ plan.outputs, t.Unlinked base path) →
        ∀ path ∈ plan.outputs, o.tree.read base path = .ok (plan.contents d)) := by
  obtain ⟨value,log,tree⟩ := o
  have course := generateRuns h
  cases done
  cases course with
  | @finished text d _ holds accepted written =>
      refine ⟨text,d,holds,accepted,rfl,catalogSize d,fun k path => writtenEach written,
        fun loc => writtenChanged written,fun path => writtenFile written,?_⟩
      intro unlinked path member
      exact landedReads (writtenLanded written unlinked (.inl member))

def lone : Descriptor := ⟨[⟨"A",[]⟩]⟩

def windingTree : FileTree :=
  .holding [(["sub"],newDirectory),(["l"],.link ⟨"sub"⟩),(["in"],.file (String.ofList lone.spelled).toUTF8 0o644)]

theorem windingHolds : windingTree.Holds [] ⟨"in"⟩ (String.ofList lone.spelled) := holdsText rfl

def spellingsPlan : Plan := ⟨⟨"in"⟩,[⟨"out"⟩,⟨"./out"⟩],.pretty⟩

theorem windingLink {loc : Location} {link : Path} (there : windingTree.get? loc = some (.link link)) : loc = ["l"] := by
  cases loc with
  | nil => cases there
  | cons first rest =>
      simp only [windingTree,holding,get?,List.lookup_cons,List.lookup_nil] at there
      split at there
      · cases there
      · split at there
        · rename_i same
          exact beq_iff_eq.1 same
        · split at there <;> cases there

theorem spellingsUnlinked : ∀ path ∈ spellingsPlan.outputs, windingTree.Unlinked [] path := by
  intro path member loc link target there
  rw [windingLink there] at target
  simp only [spellingsPlan,List.mem_cons,List.not_mem_nil,or_false] at member
  rcases member with rfl | rfl
  · have other : windingTree.target [] ⟨"out"⟩ = .ok ["out"] := rfl
    simp [other] at target
  · have other : windingTree.target [] ⟨"./out"⟩ = .ok ["out"] := rfl
    simp [other] at target

theorem spellingsGenerated :
    ∃ report, ((generate spellingsPlan).run [] windingTree).value = .ok report ∧ report.nodes = 1 ∧
      ∀ path ∈ spellingsPlan.outputs,
        ((generate spellingsPlan).run [] windingTree).tree.read [] path = .ok (spellingsPlan.contents lone) := by
  have done : ((generate spellingsPlan).run [] windingTree).value =
      .ok ⟨(Catalog.ofDescriptor lone).2.size,spellingsPlan.outputs⟩ := by
    rw [(generateRun (by decide) windingHolds (spelledRead lone)).1]
    rfl
  obtain ⟨text,d,holds,accepted,_,count,_,_,_,reads⟩ :=
    generatedDestinations (runsRun .none [] (generate spellingsPlan) windingTree) done
  cases holdsUnique holds windingHolds
  cases accepted.symm.trans (spelledRead lone)
  have one : (lone.nodes.map Node.name).eraseDups.length = 1 := by decide
  exact ⟨_,done,count.trans one,reads spellingsUnlinked⟩

def windingPlan : Plan := ⟨⟨"in"⟩,[⟨"l/../l"⟩],.compact⟩

/- The write succeeds and takes the link away, and so the path leads nowhere right after it. -/
theorem windingUnread :
    ((generate windingPlan).run [] windingTree).value = .ok ⟨(Catalog.ofDescriptor lone).2.size,windingPlan.outputs⟩ ∧
      windingTree.target [] ⟨"l/../l"⟩ = .ok ["l"] ∧ windingTree.get? ["l"] = some (.link ⟨"sub"⟩) ∧
      ((generate windingPlan).run [] windingTree).tree.read [] ⟨"l/../l"⟩ = .error .notADirectory := by
  have some : windingPlan.outputs ≠ [] := by decide
  have ran := generateRun some windingHolds (spelledRead lone)
  refine ⟨?_,rfl,rfl,?_⟩
  · rw [ran.1]
    rfl
  · rw [ran.2]
    rfl

end SyntaxCatalog
