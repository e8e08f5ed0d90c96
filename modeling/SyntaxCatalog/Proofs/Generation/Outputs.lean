import SyntaxCatalog.Proofs.Descriptor.Acceptance
import SyntaxCatalog.Proofs.Generation.Reading
import SyntaxCatalog.Proofs.Generation.Replacement

/-! The outputs of a generation, one after another. A generation that fails has written those before the
one that failed, all with the same text, and nothing else. -/
namespace SyntaxCatalog
open FileTree Program

variable {deniable : Request.Deniable}

/- Writes that succeed, in the order of their paths, each in the tree that the one before it left. -/
inductive Written (deniable : Request.Deniable) (base : Location) (contents : ByteArray) :
    FileTree → List Path → FileTree → Prop where
  | nil (t : FileTree) : Written deniable base contents t [] t
  | cons {t after : FileTree} {path : Path} {more : List Path} {o : Outcome (Except Fault Unit)}
      (first : (writeFile path contents).Runs deniable base t o) (done : o.value = .ok ())
      (others : Written deniable base contents o.tree more after) : Written deniable base contents t (path :: more) after

theorem replacedUnique {t a b : FileTree} {base dir there : Location} {path : Path} {name other : String}
    {entry : FileEntry} (one : Replaced t base path dir name entry a) (two : Replaced t base path there other entry b) :
    a = b := by
  have same := (namesTarget one.named).symm.trans (namesTarget two.named)
  rw [one.left,two.left,Except.ok.inj same]

theorem writtenUnique {t a b : FileTree} {base : Location} {contents : ByteArray} {paths : List Path}
    (told : ∀ path ∈ paths, ¬deniable (.modeOf path)) (one : Written deniable base contents t paths a)
    (two : Written deniable base contents t paths b) : a = b := by
  induction one with
  | nil t => cases two; rfl
  | cons first done others ih =>
      cases two with
      | cons second done' others' =>
          obtain ⟨here,later⟩ := List.forall_mem_cons.1 told
          obtain ⟨_,_,_,lends,replaced⟩ := writeFileDone first done
          obtain ⟨_,_,_,lends',again⟩ := writeFileDone second done'
          rw [lendsTold here lends] at replaced
          rw [lendsTold here lends'] at again
          rw [replacedUnique again replaced] at others'
          exact ih later others'

def Refused (deniable : Request.Deniable) (base : Location) (contents : ByteArray) (t : FileTree) (path : Path)
    (cause : FileFault) : Prop :=
  ∃ o, (writeFile path contents).Runs deniable base t o ∧ o.value = .error (.fileAccess path .write cause) ∧ o.tree = t

theorem writeAllRuns {base : Location} {nodes : Nat} {text : String} {paths : List Path} {t : FileTree}
    {o : Outcome (Except Fault (List Path))} (h : (writeAll nodes text paths).Runs deniable base t o) :
    (∃ before path after cause, paths = before ++ path :: after ∧
      o.value = .error (.fileAccess path .write cause) ∧ Written deniable base text.toUTF8 t before o.tree ∧
      Refused deniable base text.toUTF8 o.tree path cause) ∨
      o.value = .ok paths ∧ Written deniable base text.toUTF8 t paths o.tree := by
  induction paths generalizing t o with
  | nil =>
      cases h
      exact .inr ⟨rfl,.nil t⟩
  | cons path more ih =>
      obtain ⟨wrote,writing,goes⟩ := runsAndThen h
      rcases writeFileRuns writing with ⟨cause,failed,left⟩ | ⟨done,_⟩
      · rw [failed,left] at goes
        obtain ⟨value,tree⟩ := goes
        refine .inl ⟨[],path,more,cause,rfl,value,?_,?_⟩
        · rw [tree]
          exact .nil t
        · rw [tree]
          exact ⟨wrote,writing,failed,left⟩
      · rw [done] at goes
        obtain ⟨rest,goes,value,tree⟩ := goes
        obtain ⟨told,last,telling,onward,rfl⟩ := runsBind goes
        rw [runsReport telling] at onward
        obtain ⟨others,writingOthers,ends⟩ := runsAndThen onward
        rcases ih writingOthers with ⟨before,bad,after,cause,same,failed,written,refused⟩ | ⟨ok,written⟩
        · rw [failed] at ends
          have left := tree.trans ends.2
          rw [← left] at written refused
          have earlier : Written deniable base text.toUTF8 t (path :: before) o.tree := .cons writing done written
          exact .inl ⟨path :: before,bad,after,cause,by rw [same,List.cons_append],value.trans ends.1,earlier,refused⟩
        · rw [ok] at ends
          obtain ⟨final,ending,value',tree'⟩ := ends
          cases ending
          rw [value,tree,value',tree']
          exact .inr ⟨rfl,.cons writing done written⟩

def Plan.contents (plan : Plan) (d : Descriptor) : ByteArray := ((Catalog.ofDescriptor d).2.render plan.layout).toUTF8

inductive Generates (deniable : Request.Deniable) (base : Location) (plan : Plan) (t : FileTree) :
    Except Fault Report → FileTree → Prop where
  | unset (none : plan.outputs = []) :
      Generates deniable base plan t (.error (.configuration "at least one output path is required")) t
  | unread (cause : FileFault) : Generates deniable base plan t (.error (.fileAccess plan.descriptor .read cause)) t
  | malformed {text : String} {cause : Json.Error} (holds : t.Holds base plan.descriptor text)
      (refused : Descriptor.ofJson text = .error cause) :
      Generates deniable base plan t (.error (.malformedInput plan.descriptor cause)) t
  | stopped {text : String} {d : Descriptor} {before after : List Path} {path : Path} {cause : FileFault} {left : FileTree}
      (holds : t.Holds base plan.descriptor text) (accepted : Descriptor.ofJson text = .ok d)
      (split : plan.outputs = before ++ path :: after)
      (written : Written deniable base (plan.contents d) t before left)
      (refused : Refused deniable base (plan.contents d) left path cause) :
      Generates deniable base plan t (.error (.fileAccess path .write cause)) left
  | finished {text : String} {d : Descriptor} {left : FileTree} (holds : t.Holds base plan.descriptor text)
      (accepted : Descriptor.ofJson text = .ok d) (written : Written deniable base (plan.contents d) t plan.outputs left) :
      Generates deniable base plan t (.ok ⟨(Catalog.ofDescriptor d).2.size,plan.outputs⟩) left

theorem validateSome {plan : Plan} (some : plan.outputs ≠ []) : plan.validate = .ok () := by simp [Plan.validate,some]

theorem generateRuns {base : Location} {plan : Plan} {t : FileTree} {o : Outcome (Except Fault Report)}
    (h : (generate plan).Runs deniable base t o) : Generates deniable base plan t o.value o.tree := by
  unfold generate at h
  by_cases none : plan.outputs = []
  · have refused : plan.validate = .error (.configuration "at least one output path is required") := by
      simp [Plan.validate,none]
    rw [refused] at h
    cases h
    exact .unset none
  · rw [validateSome none] at h
    obtain ⟨built,building,goes⟩ := runsAndThen h
    obtain ⟨same,⟨cause,failed⟩ | ⟨text,cause,holds,refused,failed⟩ | ⟨text,d,holds,accepted,done⟩⟩ :=
      buildCatalogRuns building
    · rw [failed,same] at goes
      rw [goes.1,goes.2]
      exact .unread cause
    · rw [failed,same] at goes
      rw [goes.1,goes.2]
      exact .malformed holds refused
    · rw [done,same] at goes
      obtain ⟨rest,goes,value,tree⟩ := goes
      rw [value,tree]
      obtain ⟨wrote,writing,ends⟩ := runsAndThen goes
      rcases writeAllRuns writing with ⟨before,path,after,cause,split,failed,written,refused⟩ | ⟨ok,written⟩
      · rw [failed] at ends
        rw [ends.1,ends.2]
        exact .stopped holds accepted split written refused
      · rw [ok] at ends
        obtain ⟨final,ending,value,tree⟩ := ends
        cases ending
        rw [value,tree]
        exact .finished holds accepted written

theorem generateRun {base : Location} {plan : Plan} {t : FileTree} {text : String} {d : Descriptor}
    (some : plan.outputs ≠ []) (holds : t.Holds base plan.descriptor text) (accepted : Descriptor.ofJson text = .ok d) :
    let catalog := (Catalog.ofDescriptor d).2
    let wrote := (writeAll catalog.size (catalog.render plan.layout) plan.outputs).run base t
    ((generate plan).run base t).value = wrote.value.map (fun written => ⟨catalog.size,written⟩) ∧
      ((generate plan).run base t).tree = wrote.tree := by
  rw [generate,validateSome some]
  simp only [runAndThen (buildCatalogRun holds accepted)]
  rw [andThen,runBind]
  dsimp only
  cases ((writeAll (Catalog.ofDescriptor d).2.size ((Catalog.ofDescriptor d).2.render plan.layout) plan.outputs).run
    base t).value <;> exact ⟨rfl,rfl⟩

/- The write of one output failed, and left nothing of its own. The tree is the one that the writes before it made,
one after another with the same text: the only one, unless modes may be denied. -/
def StoppedAt (deniable : Request.Deniable) (base : Location) (plan : Plan) (t : FileTree) (fault : Fault)
    (left : FileTree) : Prop :=
  ∃ text d k path cause, t.Holds base plan.descriptor text ∧ Descriptor.ofJson text = .ok d ∧
    plan.outputs[k]? = some path ∧ fault = .fileAccess path .write cause ∧
    Written deniable base (plan.contents d) t (plan.outputs.take k) left ∧
    ((∀ path ∈ plan.outputs.take k, ¬deniable (.modeOf path)) →
      ∀ other, Written deniable base (plan.contents d) t (plan.outputs.take k) other → other = left) ∧
    Refused deniable base (plan.contents d) left path cause

theorem generateFailure {base : Location} {plan : Plan} {t : FileTree} {o : Outcome (Except Fault Report)} {fault : Fault}
    (h : (generate plan).Runs deniable base t o) (failed : o.value = .error fault) :
    o.tree = t ∧ plan.outputs = [] ∧ fault = .configuration "at least one output path is required" ∨
    o.tree = t ∧ (∃ cause, fault = .fileAccess plan.descriptor .read cause) ∨
    o.tree = t ∧ (∃ text cause, t.Holds base plan.descriptor text ∧ Descriptor.ofJson text = .error cause ∧
      fault = .malformedInput plan.descriptor cause) ∨
    StoppedAt deniable base plan t fault o.tree := by
  obtain ⟨value,log,tree⟩ := o
  have course := generateRuns h
  cases failed
  cases course with
  | unset none => exact .inl ⟨rfl,none,rfl⟩
  | unread cause => exact .inr (.inl ⟨rfl,cause,rfl⟩)
  | malformed holds refused => exact .inr (.inr (.inl ⟨rfl,_,_,holds,refused,rfl⟩))
  | @stopped text d before after path cause _ holds accepted split written refused =>
      have here : plan.outputs[before.length]? = some path := by simp [split]
      have earlier : plan.outputs.take before.length = before := by simp [split]
      refine .inr (.inr (.inr ⟨text,d,before.length,path,cause,holds,accepted,here,rfl,?_,?_,refused⟩))
      · rwa [earlier]
      · rw [earlier]
        exact fun told other again => writtenUnique told again written

def twice : Descriptor := ⟨[⟨"Node",[⟨"old"⟩]⟩,⟨"Node",[⟨"left"⟩,⟨"right"⟩]⟩]⟩

def twiceTree : FileTree := .holding [(["in"],.file (String.ofList twice.spelled).toUTF8 0o644)]

theorem twiceHolds : twiceTree.Holds [] ⟨"in"⟩ (String.ofList twice.spelled) := holdsText rfl

def stoppedPlan : Plan := ⟨⟨"in"⟩,[⟨"out"⟩,⟨"gone/out"⟩],.compact⟩

theorem missingDirectoryStops :
    ((generate stoppedPlan).run [] twiceTree).value = .error (.fileAccess ⟨"gone/out"⟩ .write .notFound) ∧
      StoppedAt .none [] stoppedPlan twiceTree (.fileAccess ⟨"gone/out"⟩ .write .notFound)
        ((generate stoppedPlan).run [] twiceTree).tree := by
  have failed : ((generate stoppedPlan).run [] twiceTree).value = .error (.fileAccess ⟨"gone/out"⟩ .write .notFound) := by
    rw [(generateRun (by decide) twiceHolds (spelledRead twice)).1]
    rfl
  refine ⟨failed,?_⟩
  rcases generateFailure (runsRun .none [] (generate stoppedPlan) twiceTree) failed with
    ⟨_,_,other⟩ | ⟨_,_,other⟩ | ⟨_,_,_,_,_,other⟩ | stopped
  · cases other
  · simp at other
  · cases other
  · exact stopped

end SyntaxCatalog
