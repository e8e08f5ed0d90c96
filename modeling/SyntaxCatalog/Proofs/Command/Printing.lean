import SyntaxCatalog.Command
import SyntaxCatalog.Proofs.Generation.Precedence
import SyntaxCatalog.Proofs.Settings.Resolution

/-! Printing a catalog instead of writing it. Both commands take the same way up to the catalog, and so fail alike;
after that a printing run has nothing left to fail at, and a writing run has only its writes. -/
namespace SyntaxCatalog
open FileTree Program

structure Filled (base : Location) (text : String) (t : FileTree) (paths : List Path) (after : FileTree) : Prop where
  order : t.replaceEach base text.toUTF8 paths = .ok after
  files : ∀ path ∈ paths, ∃ loc mode, t.target base path = .ok loc ∧ after.get? loc = some (.file text.toUTF8 mode)
  others : ∀ loc, after.get? loc ≠ t.get? loc → ∃ path ∈ paths, t.target base path = .ok loc

theorem replaceEachFilled {base : Location} {text : String} {t after : FileTree} {paths : List Path}
    (all : t.replaceEach base text.toUTF8 paths = .ok after) : Filled base text t paths after := by
  have written := replaceEachWritten .none all
  exact ⟨all,fun _ member => writtenFile written member,fun _ changed => writtenChanged written changed⟩

section
variable {deniable : Request.Deniable} {base : Location}

theorem readTextStill (path : Path) : Still deniable base (readText path) := fun _ _ h => (readTextRuns h).1

theorem buildCatalogStill (path : Path) : Still deniable base (buildCatalog path) := fun _ _ h => (buildCatalogRuns h).1

theorem readConfigFileStill (path : Path) : Still deniable base (readConfigFile path) := by
  refine stillAndThen (readTextStill path) ?_
  intro text
  cases ConfigFile.ofToml text <;> exact stillPure _

theorem overFileStill (s : Settings) (config : Option Path) : Still deniable base (s.overFile config) := by
  cases config with
  | none => exact stillPure _
  | some path =>
      have settings : Still deniable base (readSettings path) :=
        stillAndThen (readConfigFileStill path) (fun _ => stillPure _)
      exact stillAndThen settings (fun _ => stillPure _)

end

namespace Command

def GenerateArguments.printed (a : GenerateArguments) : Program (Except Fault String) :=
  a.plan.andThen (fun plan => (buildCatalog plan.descriptor).andThen (fun catalog =>
    pure (.ok (catalog.render plan.layout ++ "\n"))))

def GenerateArguments.written (a : GenerateArguments) : Program (Except Fault String) :=
  a.plan.andThen (fun plan => (generate plan).andThen (fun done => do
    Program.report (.generated done.nodes done.written.length)
    pure (.ok "")))

theorem runPrinted (a : GenerateArguments) : runGenerate {a with stdout := true} = printing a.printed := rfl

theorem runWritten (a : GenerateArguments) : runGenerate {a with stdout := false} = printing a.written := rfl

section
variable {deniable : Request.Deniable} {base : Location} {t after : FileTree} {a : GenerateArguments}

theorem printingFailed {p : Program (Except Fault String)} {fault : Fault} {log : List Event}
    (h : p.run base t = ⟨.error fault,log,after⟩) : (printing p).run base t = ⟨⟨"",.error fault⟩,log,after⟩ := by
  rw [printing,runBind,h]
  simp [runPure]

theorem printingDone {p : Program (Except Fault String)} {text : String} {log : List Event}
    (h : p.run base t = ⟨.ok text,log,after⟩) : (printing p).run base t = ⟨⟨text,.ok ()⟩,log,after⟩ := by
  rw [printing,runBind,h]
  simp [runPure]

theorem printingSilent {p : Program (Except Fault String)} {o : Outcome Finish} {fault : Fault}
    (h : (printing p).Runs deniable base t o) (failed : o.value.result = .error fault) : o.value.stdout = "" := by
  obtain ⟨first,rest,_,goes,rfl⟩ := runsBind h
  cases found : first.value with
  | error fault =>
      rw [found] at goes
      cases goes
      rfl
  | ok text =>
      rw [found] at goes
      cases goes
      cases failed

theorem planStill (a : GenerateArguments) : Still deniable base a.plan :=
  stillAndThen (overFileStill a.flags a.config) (fun _ => stillPure _)

theorem planRun {found : Except Fault Plan} (h : (a.plan.run base t).value = found) :
    a.plan.run base t = ⟨found,(a.plan.run base t).log,t⟩ :=
  runParts h (planStill a (runsRun .none base a.plan t))

theorem planSome {plan : Plan} (h : (a.plan.run base t).value = .ok plan) : plan.outputs ≠ [] := by
  obtain ⟨s,_,resolved⟩ := runDone h
  exact (Settings.resolveIff.1 resolved).filled

theorem printedStill (a : GenerateArguments) : Still deniable base (printing a.printed) := by
  refine stillBind ?_ ?_
  · refine stillAndThen (planStill a) (fun plan => ?_)
    exact stillAndThen (buildCatalogStill plan.descriptor) (fun _ => stillPure _)
  · intro found
    cases found <;> exact stillPure _

/- What a printing run and a writing run from one tree have in common. Printing fails only where nothing can be
read, and what it prints is what the writes put, up to the first that fails. -/
structure Agree (a : GenerateArguments) (base : Location) (t : FileTree) (printed written : Outcome Finish) : Prop where
  still : printed.tree = t
  failed : ∀ fault, printed.value.result = .error fault →
    printed.value.stdout = "" ∧ written.value.result = .error fault ∧ written.tree = t
  prints : ∀ plan text d, (a.plan.run base t).value = .ok plan → t.text base plan.descriptor = .ok text →
    Descriptor.ofJson text = .ok d → printed.value.result = .ok ()
  done : printed.value.result = .ok () → ∃ plan text d, (a.plan.run base t).value = .ok plan ∧
    t.text base plan.descriptor = .ok text ∧ Descriptor.ofJson text = .ok d ∧
    let catalog := (Catalog.ofDescriptor d).2
    let rendered := catalog.render plan.layout
    printed.value.stdout = rendered ++ "\n" ∧
    (written.value.result = .ok () ∧ Filled base rendered t plan.outputs written.tree ∨
      ∃ k path cause, plan.outputs[k]? = some path ∧ written.value.result = .error (.fileAccess path .write cause) ∧
        Filled base rendered t (plan.outputs.take k) written.tree) ∧
    ∃ read, Catalog.ofJson printed.value.stdout = .ok read ∧ (read == catalog) = true ∧ read.toList = catalog.toList ∧
      ∀ node, read.get? node = catalog.get? node

theorem agreeFailed {fault : Fault} {log other : List Event}
    (unread : ∀ plan, (a.plan.run base t).value = .ok plan →
      ∃ e, t.parsed base Descriptor.ofJson plan.descriptor = .error e) :
    Agree a base t ⟨⟨"",.error fault⟩,log,t⟩ ⟨⟨"",.error fault⟩,other,t⟩ where
  still := rfl
  failed found same := by
    cases same
    exact ⟨rfl,rfl,rfl⟩
  prints plan text d planned there accepted := by
    obtain ⟨e,failed⟩ := unread plan planned
    cases failed.symm.trans (parsedOk.2 ⟨text,there,accepted⟩)
  done ok := by cases ok

theorem agreeUnplanned {fault : Fault} (planned : (a.plan.run base t).value = .error fault) :
    Agree a base t ((printing a.printed).run base t) ((printing a.written).run base t) := by
  have first := planRun planned
  have printed : a.printed.run base t = ⟨.error fault,_,t⟩ := runFailed first
  have written : a.written.run base t = ⟨.error fault,_,t⟩ := runFailed first
  rw [printingFailed printed,printingFailed written]
  exact agreeFailed (fun plan other => nomatch planned.symm.trans other)

theorem agreeUnread {plan : Plan} {fault : Fault} (planned : (a.plan.run base t).value = .ok plan)
    (unread : t.parsed base Descriptor.ofJson plan.descriptor = .error fault) :
    Agree a base t ((printing a.printed).run base t) ((printing a.written).run base t) := by
  have first := planRun planned
  have printed : a.printed.run base t = ⟨.error fault,_,t⟩ := runOnward first (runFailed (buildCatalogUnread unread))
  have written : a.written.run base t = ⟨.error fault,_,t⟩ :=
    runOnward first (runFailed (generateUnread (planSome planned) unread))
  rw [printingFailed printed,printingFailed written]
  refine agreeFailed (fun other again => ?_)
  cases planned.symm.trans again
  exact ⟨fault,unread⟩

theorem agreeRead {plan : Plan} {d : Descriptor} (planned : (a.plan.run base t).value = .ok plan)
    (read : t.parsed base Descriptor.ofJson plan.descriptor = .ok d) :
    Agree a base t ((printing a.printed).run base t) ((printing a.written).run base t) := by
  have first := planRun planned
  obtain ⟨text,there,accepted⟩ := parsedOk.1 read
  have printed : a.printed.run base t = ⟨.ok ((Catalog.ofDescriptor d).2.render plan.layout ++ "\n"),_,t⟩ :=
    runOnward first (runOnward (buildCatalogRun (textHolds.1 there) accepted) (runPure base _ t))
  have newline : Json.Blanks ['\n'] := by simp [Json.Blanks,Json.isBlank]
  have again := Catalog.renderBlanksParses (Catalog.ofDescriptorIndexed d) plan.layout newline
  rw [printingDone printed]
  refine ⟨rfl,?_,fun _ _ _ _ _ _ => rfl,fun _ => ⟨plan,text,d,planned,there,accepted,rfl,?_,again⟩⟩
  · intro _ failed
    cases failed
  · rcases replaceEachOrStops t base (plan.contents d) plan.outputs with ⟨last,all⟩ | ⟨k,path,cause,left,stops⟩
    · obtain ⟨ended,tree⟩ := generateFinished (planSome planned) read all
      have written : a.written.run base t = ⟨.ok "",_,last⟩ := runOnward first (runOnward (runParts ended tree) rfl)
      rw [printingDone written]
      exact .inl ⟨rfl,replaceEachFilled all⟩
    · obtain ⟨ended,tree⟩ := generateStopped (planSome planned) read stops
      have written : a.written.run base t = ⟨.error (.fileAccess path .write cause),_,left⟩ :=
        runOnward first (runFailed (runParts ended tree))
      rw [printingFailed written]
      exact .inr ⟨k,path,cause,stops.here,rfl,replaceEachFilled stops.before⟩

theorem printedAgrees (a : GenerateArguments) (base : Location) (t : FileTree) :
    Agree a base t ((runGenerate {a with stdout := true}).run base t)
        ((runGenerate {a with stdout := false}).run base t) ∧
      ∀ deniable o, (runGenerate {a with stdout := true}).Runs deniable base t o →
        o.tree = t ∧ ∀ fault, o.value.result = .error fault → o.value.stdout = "" := by
  rw [runPrinted,runWritten]
  refine ⟨?_,fun _ _ runs => ⟨printedStill a runs,fun _ failed => printingSilent runs failed⟩⟩
  cases planned : (a.plan.run base t).value with
  | error fault => exact agreeUnplanned planned
  | ok plan =>
      cases read : t.parsed base Descriptor.ofJson plan.descriptor with
      | error fault => exact agreeUnread planned read
      | ok d => exact agreeRead planned read

end
end Command
end SyntaxCatalog
