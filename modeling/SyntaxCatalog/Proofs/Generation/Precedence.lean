import SyntaxCatalog.Proofs.Generation.Effects

/-! Which end a generation comes to. Several faults may be waiting for it at once; the plan is looked at first, then
the descriptor, then the outputs in their order, each in the tree that those before it have made. -/
namespace SyntaxCatalog
open FileTree Program

inductive Concludes (base : Location) (plan : Plan) (t : FileTree) : Except Fault Report → FileTree → Prop where
  | unset (none : plan.outputs = []) :
      Concludes base plan t (.error (.configuration "at least one output path is required")) t
  | unread {fault : Fault} (some : plan.outputs ≠ [])
      (failed : t.parsed base Descriptor.ofJson plan.descriptor = .error fault) :
      Concludes base plan t (.error fault) t
  | stopped {d : Descriptor} {k : Nat} {path : Path} {cause : FileFault} {left : FileTree} (some : plan.outputs ≠ [])
      (read : t.parsed base Descriptor.ofJson plan.descriptor = .ok d)
      (stops : t.Stops base (plan.contents d) plan.outputs k path cause left) :
      Concludes base plan t (.error (.fileAccess path .write cause)) left
  | finished {d : Descriptor} {last : FileTree} (some : plan.outputs ≠ [])
      (read : t.parsed base Descriptor.ofJson plan.descriptor = .ok d)
      (all : t.replaceEach base (plan.contents d) plan.outputs = .ok last) :
      Concludes base plan t (.ok ⟨(Catalog.ofDescriptor d).2.size,plan.outputs⟩) last

section
variable {base : Location} {plan : Plan} {t last : FileTree} {value : Except Fault Report}

theorem generateUnread {fault : Fault} (some : plan.outputs ≠ [])
    (failed : t.parsed base Descriptor.ofJson plan.descriptor = .error fault) :
    (generate plan).run base t = ⟨.error fault,[.readingDescriptor plan.descriptor],t⟩ := by
  rw [generate,validateSome some]
  exact runFailed (buildCatalogUnread failed)

theorem generateStopped {d : Descriptor} {k : Nat} {path : Path} {cause : FileFault} {left : FileTree}
    (some : plan.outputs ≠ []) (read : t.parsed base Descriptor.ofJson plan.descriptor = .ok d)
    (stops : t.Stops base (plan.contents d) plan.outputs k path cause left) :
    ((generate plan).run base t).value = .error (.fileAccess path .write cause) ∧
      ((generate plan).run base t).tree = left := by
  obtain ⟨text,there,accepted⟩ := parsedOk.1 read
  have stopped := writeAllStopped (Catalog.ofDescriptor d).2.size stops
  obtain ⟨ended,tree⟩ := generateRun some (textHolds.1 there) accepted
  rw [stopped] at ended tree
  exact ⟨ended,tree⟩

theorem generateFinished {d : Descriptor} (some : plan.outputs ≠ [])
    (read : t.parsed base Descriptor.ofJson plan.descriptor = .ok d)
    (all : t.replaceEach base (plan.contents d) plan.outputs = .ok last) :
    ((generate plan).run base t).value = .ok ⟨(Catalog.ofDescriptor d).2.size,plan.outputs⟩ ∧
      ((generate plan).run base t).tree = last := by
  obtain ⟨text,there,accepted⟩ := parsedOk.1 read
  have wrote := writeAllReplaced (Catalog.ofDescriptor d).2.size all
  obtain ⟨ended,tree⟩ := generateRun some (textHolds.1 there) accepted
  rw [wrote] at ended tree
  exact ⟨ended,tree⟩

theorem concludesRun (course : Concludes base plan t value last) :
    ((generate plan).run base t).value = value ∧ ((generate plan).run base t).tree = last := by
  cases course with
  | unset none => simp [generate,Plan.validate,none,runPure]
  | unread some failed => simp [generateUnread some failed]
  | stopped some read stops => exact generateStopped some read stops
  | finished some read all => exact generateFinished some read all

theorem concludesSome (base : Location) (plan : Plan) (t : FileTree) : ∃ value last, Concludes base plan t value last := by
  by_cases none : plan.outputs = []
  · exact ⟨_,_,.unset none⟩
  · cases read : t.parsed base Descriptor.ofJson plan.descriptor with
    | error fault => exact ⟨_,_,.unread none read⟩
    | ok d =>
        rcases replaceEachOrStops t base (plan.contents d) plan.outputs with ⟨last,all⟩ | ⟨k,path,cause,left,stops⟩
        · exact ⟨_,_,.finished none read all⟩
        · exact ⟨_,_,.stopped none read stops⟩

theorem concludesIff : Concludes base plan t value last ↔
    ((generate plan).run base t).value = value ∧ ((generate plan).run base t).tree = last := by
  refine ⟨concludesRun,?_⟩
  rintro ⟨rfl,rfl⟩
  obtain ⟨value,last,course⟩ := concludesSome base plan t
  obtain ⟨ended,left⟩ := concludesRun course
  rwa [ended,left]

end

/- Each end together with all that brings it about, as what the tree holds. -/
structure Decided (base : Location) (plan : Plan) (t : FileTree) (value : Except Fault Report) : Prop where
  configuration : ∀ reason, value = .error (.configuration reason) ↔
    plan.outputs = [] ∧ reason = "at least one output path is required"
  read : ∀ path cause, value = .error (.fileAccess path .read cause) ↔
    plan.outputs ≠ [] ∧ path = plan.descriptor ∧ t.text base plan.descriptor = .error cause
  malformed : ∀ path cause, value = .error (.malformedInput path cause) ↔
    plan.outputs ≠ [] ∧ path = plan.descriptor ∧ ∃ text, t.text base plan.descriptor = .ok text ∧
      Descriptor.ofJson text = .error cause
  write : ∀ path cause, value = .error (.fileAccess path .write cause) ↔
    plan.outputs ≠ [] ∧ ∃ text d k left, t.text base plan.descriptor = .ok text ∧ Descriptor.ofJson text = .ok d ∧
      t.Stops base (plan.contents d) plan.outputs k path cause left
  done : ∀ report, value = .ok report ↔
    plan.outputs ≠ [] ∧ ∃ text d, t.text base plan.descriptor = .ok text ∧ Descriptor.ofJson text = .ok d ∧
      (∀ k path cause left, ¬t.Stops base (plan.contents d) plan.outputs k path cause left) ∧
      report = ⟨(Catalog.ofDescriptor d).2.size,plan.outputs⟩

section
variable {base : Location} {plan : Plan} {t : FileTree}

theorem runIff {value : Except Fault Report} :
    ((generate plan).run base t).value = value ↔ ∃ last, Concludes base plan t value last := by
  constructor
  · intro ended
    exact ⟨_,concludesIff.2 ⟨ended,rfl⟩⟩
  · rintro ⟨last,course⟩
    exact (concludesRun course).1

theorem runDecided : Decided base plan t ((generate plan).run base t).value where
  configuration reason := by
    rw [runIff]
    constructor
    · rintro ⟨last,course⟩
      cases course with
      | unset none => exact ⟨none,rfl⟩
      | unread _ failed => rcases parsedFault.1 failed with ⟨_,_,other⟩ | ⟨_,_,_,_,other⟩ <;> cases other
    · rintro ⟨none,rfl⟩
      exact ⟨_,.unset none⟩
  read path cause := by
    rw [runIff]
    constructor
    · rintro ⟨last,course⟩
      cases course with
      | unread some failed =>
          rcases parsedFault.1 failed with ⟨_,there,same⟩ | ⟨_,_,_,_,other⟩
          · cases same
            exact ⟨some,rfl,there⟩
          · cases other
    · rintro ⟨some,rfl,there⟩
      exact ⟨_,.unread some (parsedFault.2 (.inl ⟨cause,there,rfl⟩))⟩
  malformed path cause := by
    rw [runIff]
    constructor
    · rintro ⟨last,course⟩
      cases course with
      | unread some failed =>
          rcases parsedFault.1 failed with ⟨_,_,other⟩ | ⟨text,_,there,refused,same⟩
          · cases other
          · cases same
            exact ⟨some,rfl,text,there,refused⟩
    · rintro ⟨some,rfl,text,there,refused⟩
      exact ⟨_,.unread some (parsedFault.2 (.inr ⟨text,cause,there,refused,rfl⟩))⟩
  write path cause := by
    rw [runIff]
    constructor
    · rintro ⟨last,course⟩
      cases course with
      | unread _ failed => rcases parsedFault.1 failed with ⟨_,_,other⟩ | ⟨_,_,_,_,other⟩ <;> cases other
      | @stopped d k _ _ left some read stops =>
          obtain ⟨text,there,accepted⟩ := parsedOk.1 read
          exact ⟨some,text,d,k,last,there,accepted,stops⟩
    · rintro ⟨some,text,d,k,left,there,accepted,stops⟩
      exact ⟨left,.stopped some (parsedOk.2 ⟨text,there,accepted⟩) stops⟩
  done report := by
    rw [runIff]
    constructor
    · rintro ⟨last,course⟩
      cases course with
      | finished some read all =>
          obtain ⟨text,there,accepted⟩ := parsedOk.1 read
          exact ⟨some,text,_,there,accepted,fun _ _ _ _ stops => stopsNever all stops,rfl⟩
    · rintro ⟨some,text,d,there,accepted,never,rfl⟩
      rcases replaceEachOrStops t base (plan.contents d) plan.outputs with ⟨last,all⟩ | ⟨k,path,cause,left,stops⟩
      · exact ⟨last,.finished some (parsedOk.2 ⟨text,there,accepted⟩) all⟩
      · exact absurd stops (never k path cause left)

end

/- A generation ends with the first fault on its way, and in no other way: what it ends with is decided by the plan
and the tree. Faults of other kinds do not occur even on a system that may deny requests, and a descriptor that is read
from a file is the one that its text stands for, or is refused for the same cause. -/
theorem generationDecided (base : Location) (plan : Plan) (t : FileTree) :
    Decided base plan t ((generate plan).run base t).value ∧
      (∀ deniable o, (generate plan).Runs deniable base t o →
        (∀ cause, o.value ≠ .error (.unwritable cause)) ∧
        (∀ path cause, o.value ≠ .error (.configurationFile path cause)) ∧
        ∀ node, o.value ≠ .error (.unknownNode node)) ∧
      ∀ path text, t.text base path = .ok text →
        ((readDescriptor path).run base t).value = (Descriptor.ofJson text).mapError (.malformedInput path) := by
  refine ⟨runDecided,?_,?_⟩
  · intro deniable o runs
    obtain ⟨value,log,tree⟩ := o
    have course := generateRuns runs
    cases course <;> simp
  · intro path text there
    rw [readDescriptorRun]
    simp only [parsed,there]
    cases Descriptor.ofJson text <;> rfl

example : ((generate ⟨⟨"gone"⟩,[⟨"gone/out"⟩],.compact⟩).run [] .empty).value =
    .error (.fileAccess ⟨"gone"⟩ .read .notFound) := rfl

end SyntaxCatalog
