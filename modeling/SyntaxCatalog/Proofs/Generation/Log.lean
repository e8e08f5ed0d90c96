import SyntaxCatalog.Proofs.Catalog.Records
import SyntaxCatalog.Proofs.Generation.Regeneration
import SyntaxCatalog.Proofs.Program.Moments

/-! The log of a generation. It tells what was done, step by step: the descriptor that was read, the nodes that were
defined again, and for each output the write and what came of it. Every message stands for the tree of its moment. -/
namespace SyntaxCatalog
open FileTree Program
variable {deniable : Request.Deniable}

inductive Unaccepted (base : Location) (path : Path) (t : FileTree) : Fault → Prop where
  | unread (cause : FileFault) : Unaccepted base path t (.fileAccess path .read cause)
  | malformed {text : String} {cause : Json.Error} (holds : t.Holds base path text)
      (refused : Descriptor.ofJson text = .error cause) : Unaccepted base path t (.malformedInput path cause)

def warnings (d : Descriptor) : List Event := (repeats (d.nodes.map Node.name)).map .repeatedNode

section
variable {base : Location} {t : FileTree} {path : Path} {moments : List Moment}

theorem readTextQuiet (path : Path) : Quiet deniable base (readText path) := by
  refine quietBind (quietRequest rfl) ?_
  intro found
  cases found with
  | error e => exact quietPure _
  | ok contents =>
      dsimp only
      split <;> exact quietPure _

theorem readJsonTells {α : Type} {event : Path → Event} {read : String → Except Json.Error α} {o : Outcome (Except Fault α)}
    (h : (readJson event read path).Tells deniable base t moments o) : moments = [(event path,t)] := by
  obtain ⟨front,_,back,_,telling,goes,rfl,rfl⟩ := tellsBind h
  obtain ⟨rfl,_⟩ := tellsReport telling
  have silent : back = [] := by
    refine quietAndThen (readTextQuiet path) (fun text => ?_) goes
    cases read text <;> exact quietPure _
  rw [silent,List.append_nil]

theorem reportAllTells {events : List Event} {o : Outcome Unit} (h : (reportAll events).Tells deniable base t moments o) :
    moments = events.map (fun event => (event,t)) := by
  induction events generalizing moments o with
  | nil => cases h; rfl
  | cons event more ih =>
      obtain ⟨front,first,back,_,telling,goes,rfl,rfl⟩ := tellsBind h
      obtain ⟨rfl,same⟩ := tellsReport telling
      rw [same] at goes
      rw [ih goes]
      rfl

theorem cataloguedTells {d : Descriptor} {o : Outcome Catalog} (h : (catalogued d).Tells deniable base t moments o) :
    moments = (warnings d).map (fun event => (event,t)) := by
  obtain ⟨front,_,back,_,telling,goes,rfl,rfl⟩ := tellsBind h
  cases goes
  have told : front = (((Catalog.ofDescriptor d).1.map .repeatedNode).map (fun event => (event,t))) := reportAllTells telling
  rw [told,List.append_nil,Catalog.ofDescriptorRepeats]
  rfl

theorem buildCatalogTells {o : Outcome (Except Fault Catalog)} (h : (buildCatalog path).Tells deniable base t moments o) :
    o.tree = t ∧ ((∃ fault, o.value = .error fault ∧ Unaccepted base path t fault ∧ moments = [(.readingDescriptor path,t)]) ∨
      ∃ text d, t.Holds base path text ∧ Descriptor.ofJson text = .ok d ∧ o.value = .ok (Catalog.ofDescriptor d).2 ∧
        moments = (.readingDescriptor path,t) :: (warnings d).map (fun event => (event,t))) := by
  obtain ⟨front,first,reading,goes⟩ := tellsAndThen h
  have told := readJsonTells reading
  obtain ⟨same,⟨cause,failed⟩ | ⟨text,cause,holds,refused,failed⟩ | ⟨text,d,holds,accepted,done⟩⟩ :=
    readJsonRuns (tellsRuns reading)
  · rw [failed] at goes
    obtain ⟨rfl,value,tree⟩ := goes
    exact ⟨tree.trans same,.inl ⟨_,value,.unread cause,told⟩⟩
  · rw [failed] at goes
    obtain ⟨rfl,value,tree⟩ := goes
    exact ⟨tree.trans same,.inl ⟨_,value,.malformed holds refused,told⟩⟩
  · rw [done,same] at goes
    obtain ⟨back,rest,entering,rfl,value,tree⟩ := goes
    obtain ⟨warned,entered,nothing,_,cataloguing,ending,rfl,rfl⟩ := tellsBind entering
    obtain ⟨catalog,left⟩ := cataloguedRuns (tellsRuns cataloguing)
    cases ending
    rw [told,cataloguedTells cataloguing,List.append_nil]
    exact ⟨tree.trans left,.inr ⟨text,d,holds,accepted,value.trans (congrArg Except.ok catalog),rfl⟩⟩

theorem keepModeQuiet (file : Location) (path : Path) : Quiet deniable base (keepMode file path) := by
  refine quietBind (quietRequest rfl) ?_
  intro found
  cases found with
  | none => exact quietPure _
  | some mode => exact quietRequest rfl

theorem completeQuiet (file : Location) (path : Path) (contents : ByteArray) :
    Quiet deniable base (complete file path contents) := by
  refine quietAndThen (keepModeQuiet file path) (fun _ => ?_)
  exact quietAndThen (quietRequest rfl) (fun _ => quietRequest rfl)

theorem replaceFileQuiet (path : Path) (contents : ByteArray) : Quiet deniable base (replaceFile path contents) := by
  refine quietAndThen (quietRequest rfl) (fun file => ?_)
  refine quietBind (completeQuiet file path contents) ?_
  intro found
  cases found with
  | error e => exact quietBind (quietRequest rfl) (fun _ => quietPure _)
  | ok _ => exact quietPure _

theorem writeFileTells {contents : ByteArray} {o : Outcome (Except Fault Unit)}
    (h : (writeFile path contents).Tells deniable base t moments o) : moments = [(.writing contents.size path,t)] := by
  obtain ⟨front,_,back,_,telling,goes,rfl,rfl⟩ := tellsBind h
  obtain ⟨rfl,_⟩ := tellsReport telling
  have silent : back = [] := by
    refine quietBind (replaceFileQuiet path contents) (fun found => ?_) goes
    cases found <;> exact quietPure _
  rw [silent,List.append_nil]

end

inductive Recorded (deniable : Request.Deniable) (base : Location) (contents : ByteArray) (nodes : Nat) :
    FileTree → List Path → List Moment → FileTree → Prop where
  | nil (t : FileTree) : Recorded deniable base contents nodes t [] [] t
  | cons {t between after : FileTree} {path : Path} {more : List Path} {moments : List Moment}
      (single : Written deniable base contents t [path] between)
      (others : Recorded deniable base contents nodes between more moments after) :
      Recorded deniable base contents nodes t (path :: more)
        ((.writing contents.size path,t) :: (.wrote nodes path,between) :: moments) after

theorem recordedWritten {base : Location} {contents : ByteArray} {nodes : Nat} {t after : FileTree} {paths : List Path}
    {moments : List Moment} (h : Recorded deniable base contents nodes t paths moments after) :
    Written deniable base contents t paths after := by
  induction h with
  | nil t => exact .nil t
  | cons single _ ih =>
      cases single with
      | cons first done others =>
          cases others
          exact .cons first done ih

theorem recordedEvents {base : Location} {contents : ByteArray} {nodes : Nat} {t after : FileTree} {paths : List Path}
    {moments : List Moment} (h : Recorded deniable base contents nodes t paths moments after) :
    moments.map Prod.fst = writeEvents nodes contents.size paths := by
  induction h with
  | nil t => rfl
  | cons _ _ ih => simp [writeEvents,ih]

/- A single write, seen from the tree in which the writes began: its entry is the file now, and its path reads as the
contents unless it leads through a link that stood there. -/
structure Put (deniable : Request.Deniable) (base : Location) (contents : ByteArray) (start : FileTree) (path : Path)
    (before after : FileTree) : Prop where
  single : Written deniable base contents before [path] after
  entry : ∃ loc mode, start.target base path = .ok loc ∧ after.get? loc = some (.file contents mode) ∧
    (after.read base path = .ok contents ↔ (before.erase loc).target base path = .ok loc)
  reads : start.Unlinked base path → after.read base path = .ok contents

section
variable {base : Location} {contents : ByteArray} {nodes : Nat} {start t after : FileTree} {paths : List Path}
  {moments : List Moment}

structure Since (base : Location) (start t : FileTree) : Prop where
  target : ∀ path loc, t.target base path = .ok loc → start.target base path = .ok loc
  unlinked : ∀ path, start.Unlinked base path → t.Unlinked base path

theorem sinceWritten (since : Since base start t) (h : Written deniable base contents t paths after) :
    Since base start after where
  target path loc named := since.target path loc (writtenTarget h named)
  unlinked path plain := writtenUnlinked h (since.unlinked path plain)

theorem putSince {path : Path} (since : Since base start t) (single : Written deniable base contents t [path] after) :
    Put deniable base contents start path t after where
  single := single
  entry := by
    obtain ⟨loc,mode,target,there,reads⟩ := writtenSingle single
    exact ⟨loc,mode,since.target path loc target,there,reads⟩
  reads plain := by
    have unlinked : ∀ other ∈ [path], t.Unlinked base other := by
      intro other member
      rw [List.mem_singleton.1 member]
      exact since.unlinked path plain
    exact landedReads (writtenLanded single unlinked (.inl List.mem_cons_self))

theorem recordedPut (h : Recorded deniable base contents nodes t paths moments after) (since : Since base start t)
    {front back : List Moment} {count : Nat} {path : Path} {there : FileTree}
    (split : moments = front ++ (.wrote count path,there) :: back) :
    ∃ earlier before, front = earlier ++ [(.writing contents.size path,before)] ∧
      Put deniable base contents start path before there := by
  induction h generalizing front with
  | nil t => simp at split
  | @cons t between after first more moments single others ih =>
      rcases front with _ | ⟨announced,_ | ⟨wrote,front⟩⟩
      · cases split
      · cases split
        exact ⟨[],t,rfl,putSince since single⟩
      · obtain ⟨earlier,before,rfl,put⟩ := ih (sinceWritten since single) (List.cons.inj (List.cons.inj split).2).2
        exact ⟨announced :: wrote :: earlier,before,rfl,put⟩

end

theorem writeAllTells {base : Location} {nodes : Nat} {text : String} {paths : List Path} {t : FileTree}
    {moments : List Moment} {o : Outcome (Except Fault (List Path))}
    (h : (writeAll nodes text paths).Tells deniable base t moments o) :
    ∃ k written, Recorded deniable base text.toUTF8 nodes t (paths.take k) written o.tree ∧
      moments = written ++ paths[k]?.toList.map (fun path => (.writing text.toUTF8.size path,o.tree)) ∧
      match paths[k]? with
      | none => o.value = .ok paths
      | some path => ∃ cause, o.value = .error (.fileAccess path .write cause) ∧
          Refused deniable base text.toUTF8 o.tree path cause := by
  induction paths generalizing t moments o with
  | nil =>
      cases h
      exact ⟨0,[],.nil t,rfl,rfl⟩
  | cons path more ih =>
      obtain ⟨front,wrote,writing,goes⟩ := tellsAndThen h
      have told := writeFileTells writing
      rcases writeFileRuns (tellsRuns writing) with ⟨cause,failed,left⟩ | ⟨done,_⟩
      · rw [failed,left] at goes
        obtain ⟨rfl,value,tree⟩ := goes
        refine ⟨0,[],?_,?_,cause,value,?_⟩
        · rw [tree]
          exact .nil t
        · rw [tree]
          exact told
        · rw [tree]
          exact ⟨wrote,tellsRuns writing,failed,left⟩
      · rw [done] at goes
        obtain ⟨behind,rest,goes,rfl,value,tree⟩ := goes
        obtain ⟨said,last,others,later,telling,onward,rfl,rfl⟩ := tellsBind goes
        obtain ⟨rfl,same⟩ := tellsReport telling
        rw [same] at onward
        obtain ⟨reached,others,value',tree'⟩ := tellsMap onward
        obtain ⟨k,written,recorded,rfl,outcome⟩ := ih others
        have single : Written deniable base text.toUTF8 t [path] wrote.tree := .cons (tellsRuns writing) done (.nil _)
        have left : o.tree = reached.tree := tree.trans tree'
        have found : o.value = reached.value.map (path :: ·) := value.trans value'
        refine ⟨k + 1,(.writing text.toUTF8.size path,t) :: (.wrote nodes path,wrote.tree) :: written,?_⟩
        rw [List.getElem?_cons_succ,List.take_succ_cons,told,left,found]
        refine ⟨.cons single recorded,by simp,?_⟩
        cases here : more[k]? with
        | none =>
            rw [here] at outcome
            rw [outcome]
            rfl
        | some stopped =>
            rw [here] at outcome
            obtain ⟨cause,failed,refused⟩ := outcome
            rw [failed]
            exact ⟨cause,rfl,refused⟩

section
variable {α : Type} {a b front back : List α} {x : α}

theorem splitBehind (h : a ++ b = front ++ x :: back) (foreign : x ∉ a) : ∃ rest, front = a ++ rest ∧ b = rest ++ x :: back := by
  rcases List.append_eq_append_iff.1 h with ⟨rest,before,behind⟩ | ⟨rest,whole,behind⟩
  · exact ⟨rest,before,behind⟩
  · cases rest with
    | nil => exact ⟨[],by simpa using whole.symm,by simpa using behind.symm⟩
    | cons y rest =>
        obtain ⟨rfl,_⟩ := List.cons.inj behind
        exact absurd (whole ▸ List.mem_append_right front List.mem_cons_self) foreign

theorem splitBefore (h : a ++ b = front ++ x :: back) (foreign : x ∉ b) : ∃ rest, a = front ++ x :: rest ∧ back = rest ++ b := by
  rcases List.append_eq_append_iff.1 h with ⟨rest,_,behind⟩ | ⟨rest,whole,behind⟩
  · exact absurd (behind ▸ List.mem_append_right rest List.mem_cons_self) foreign
  · cases rest with
    | nil =>
        have same : x :: back = b := behind
        exact absurd (same ▸ List.mem_cons_self) foreign
    | cons y rest =>
        obtain ⟨rfl,same⟩ := List.cons.inj behind
        exact ⟨rest,whole,same⟩

end

structure Writes (deniable : Request.Deniable) (base : Location) (plan : Plan) (t : FileTree) (d : Descriptor) (k : Nat)
    (written : List Moment) (moments : List Moment) (o : Outcome (Except Fault Report)) : Prop where
  recorded : Recorded deniable base (plan.contents d) (Catalog.ofDescriptor d).2.size t (plan.outputs.take k) written o.tree
  told : moments = (.readingDescriptor plan.descriptor,t) :: (warnings d).map (fun event => (event,t)) ++ written ++
    plan.outputs[k]?.toList.map (fun path => (.writing (plan.contents d).size path,o.tree))
  ends : match plan.outputs[k]? with
    | none => o.value = .ok ⟨(Catalog.ofDescriptor d).2.size,plan.outputs⟩
    | some path => ∃ cause, o.value = .error (.fileAccess path .write cause) ∧
        Refused deniable base (plan.contents d) o.tree path cause

section
variable {base : Location} {plan : Plan} {t : FileTree} {d : Descriptor} {k : Nat} {written moments : List Moment}
  {o : Outcome (Except Fault Report)}

theorem generateUnset (none : plan.outputs = []) (h : (generate plan).Tells deniable base t moments o) :
    moments = [] ∧ o.value = .error (.configuration "at least one output path is required") ∧ o.tree = t := by
  have refused : plan.validate = .error (.configuration "at least one output path is required") := by
    simp [Plan.validate,none]
  rw [generate,refused] at h
  cases h
  exact ⟨rfl,rfl,rfl⟩

theorem generateTells (some : plan.outputs ≠ []) (h : (generate plan).Tells deniable base t moments o) :
    (∃ fault, o.value = .error fault ∧ Unaccepted base plan.descriptor t fault ∧ o.tree = t ∧
      moments = [(.readingDescriptor plan.descriptor,t)]) ∨
    ∃ text d k written, t.Holds base plan.descriptor text ∧ Descriptor.ofJson text = .ok d ∧
      Writes deniable base plan t d k written moments o := by
  rw [generate,validateSome some] at h
  obtain ⟨front,built,building,goes⟩ := tellsAndThen h
  obtain ⟨same,⟨fault,failed,unaccepted,told⟩ | ⟨text,d,holds,accepted,done,told⟩⟩ := buildCatalogTells building
  · rw [failed] at goes
    obtain ⟨rfl,value,tree⟩ := goes
    exact .inl ⟨fault,value,unaccepted,tree.trans same,told⟩
  · rw [done,same] at goes
    obtain ⟨back,rest,goes,rfl,value,tree⟩ := goes
    obtain ⟨wrote,writing,value',tree'⟩ := tellsMap goes
    obtain ⟨k,written,recorded,rfl,outcome⟩ := writeAllTells writing
    have left : o.tree = wrote.tree := tree.trans tree'
    have found := value.trans value'
    refine .inr ⟨text,d,k,written,holds,accepted,?_,?_,?_⟩
    · rw [left]
      exact recorded
    · rw [told,left,← List.append_assoc]
      rfl
    · cases here : plan.outputs[k]? with
      | none =>
          rw [here] at outcome
          rw [found,outcome]
          rfl
      | some path =>
          rw [here] at outcome
          obtain ⟨cause,failed,refused⟩ := outcome
          rw [found,failed,left]
          exact ⟨cause,rfl,refused⟩

theorem writesPut (h : Writes deniable base plan t d k written moments o) {front back : List Moment} {count : Nat} {path : Path}
    {there : FileTree} (split : moments = front ++ (.wrote count path,there) :: back) :
    ∃ earlier before, front = earlier ++ [(.writing (plan.contents d).size path,before)] ∧
      Put deniable base (plan.contents d) t path before there := by
  have first : (Event.wrote count path,there) ∉
      (Event.readingDescriptor plan.descriptor,t) :: (warnings d).map (fun event => (event,t)) := by
    simp [warnings]
  have last : (Event.wrote count path,there) ∉
      plan.outputs[k]?.toList.map (fun path => (Event.writing (plan.contents d).size path,o.tree)) := by
    simp
  rw [h.told,List.append_assoc] at split
  obtain ⟨middle,rfl,rest⟩ := splitBehind split first
  obtain ⟨later,done,_⟩ := splitBefore rest last
  obtain ⟨earlier,before,rfl,put⟩ := recordedPut h.recorded ⟨fun _ _ named => named,fun _ plain => plain⟩ done
  exact ⟨_,before,(List.append_assoc _ _ _).symm,put⟩

theorem writesLog (h : Writes deniable base plan t d k written moments o) : moments.map Prod.fst =
    .readingDescriptor plan.descriptor :: warnings d ++
      writeEvents (Catalog.ofDescriptor d).2.size (plan.contents d).size (plan.outputs.take k) ++
      plan.outputs[k]?.toList.map (.writing (plan.contents d).size) := by
  rw [h.told,← recordedEvents h.recorded]
  simp [Function.comp_def]

end

def announced (log : List Event) : List Path :=
  log.filterMap (fun event => match event with
    | .writing _ path => some path
    | _ => none)

def confirmed (log : List Event) : List Path :=
  log.filterMap (fun event => match event with
    | .wrote _ path => some path
    | _ => none)

theorem warningsUnwritten (d : Descriptor) : announced (warnings d) = [] ∧ confirmed (warnings d) = [] := by
  simp [announced,confirmed,warnings]

theorem writeEventsPaths (nodes size : Nat) (paths : List Path) :
    announced (writeEvents nodes size paths) = paths ∧ confirmed (writeEvents nodes size paths) = paths := by
  induction paths with
  | nil => exact ⟨rfl,rfl⟩
  | cons path more ih =>
      obtain ⟨early,late⟩ := ih
      constructor
      · exact congrArg (path :: ·) early
      · exact congrArg (path :: ·) late

section
variable {base : Location} {plan : Plan} {t : FileTree} {d : Descriptor} {k : Nat} {written moments : List Moment}
  {o : Outcome (Except Fault Report)}

theorem writesPaths (h : Writes deniable base plan t d k written moments o) :
    announced (moments.map Prod.fst) = plan.outputs.take k ++ plan.outputs[k]?.toList ∧
      confirmed (moments.map Prod.fst) = plan.outputs.take k := by
  obtain ⟨warnedEarly,warnedLate⟩ := warningsUnwritten d
  obtain ⟨early,late⟩ := writeEventsPaths (Catalog.ofDescriptor d).2.size (plan.contents d).size (plan.outputs.take k)
  rw [writesLog h]
  unfold announced confirmed at *
  cases plan.outputs[k]? with
  | none => simp [warnedEarly,warnedLate,early,late]
  | some path => simp [warnedEarly,warnedLate,early,late]

end

structure Recounted (deniable : Request.Deniable) (base : Location) (plan : Plan) (t : FileTree) (d : Descriptor) (k : Nat)
    (moments : List Moment) (o : Outcome (Except Fault Report)) : Prop where
  messages :
    let size := ((Catalog.ofDescriptor d).2.render plan.layout).utf8ByteSize
    let nodes := (d.nodes.map Node.name).eraseDups.length
    let writing := fun path : Path => "writing " ++ toString size ++ " bytes to " ++ path.text
    let wrote := fun path : Path => "wrote " ++ toString nodes ++ " nodes to " ++ path.text
    o.log.map Event.message = ("reading descriptor " ++ plan.descriptor.text) ::
      (repeats (d.nodes.map Node.name)).map
        (fun node => "duplicate node " ++ node ++ " in descriptor; keeping the last definition") ++
      (plan.outputs.take k).flatMap (fun path => [writing path,wrote path]) ++ plan.outputs[k]?.toList.map writing
  written : Written deniable base (plan.contents d) t (plan.outputs.take k) o.tree
  puts : ∀ front count path there back, moments = front ++ (.wrote count path,there) :: back →
    ∃ earlier before, front = earlier ++ [(.writing (plan.contents d).size path,before)] ∧
      Put deniable base (plan.contents d) t path before there
  ends : match plan.outputs[k]? with
    | none => o.value = .ok ⟨(d.nodes.map Node.name).eraseDups.length,plan.outputs⟩
    | some path => ∃ cause, o.value = .error (.fileAccess path .write cause) ∧
        Refused deniable base (plan.contents d) o.tree path cause

theorem writesRecounted {base : Location} {plan : Plan} {t : FileTree} {d : Descriptor} {k : Nat}
    {written moments : List Moment} {o : Outcome (Except Fault Report)} (h : (generate plan).Tells deniable base t moments o)
    (writes : Writes deniable base plan t d k written moments o) : Recounted deniable base plan t d k moments o where
  messages := by
    intro size nodes writing wrote
    have length : (plan.contents d).size = size := String.size_toByteArray
    have count : (Catalog.ofDescriptor d).2.size = nodes := catalogSize d
    rw [tellsLog h,writesLog writes,count,length]
    simp only [warnings,writeEvents,List.map_append,List.map_cons,List.map_map,List.map_flatMap]
    rfl
  written := recordedWritten writes.recorded
  puts _ _ _ _ _ split := writesPut writes split
  ends := by
    rw [← catalogSize]
    exact writes.ends

/- How the log counts the outputs: it confirms the report, and a failed write is announced but not confirmed. -/
inductive Counted (log : List Event) : Except Fault Report → Prop where
  | finished {report : Report} (begun : announced log = report.written) (done : confirmed log = report.written) :
      Counted log (.ok report)
  | stopped {path : Path} {cause : FileFault} (begun : announced log = confirmed log ++ [path]) :
      Counted log (.error (.fileAccess path .write cause))
  | unbegun {fault : Fault} (early : ∀ path cause, fault ≠ .fileAccess path .write cause) (begun : announced log = [])
      (done : confirmed log = []) : Counted log (.error fault)

theorem writesCounted {base : Location} {plan : Plan} {t : FileTree} {d : Descriptor} {k : Nat}
    {written moments : List Moment} {o : Outcome (Except Fault Report)}
    (writes : Writes deniable base plan t d k written moments o) :
    Counted (moments.map Prod.fst) o.value := by
  obtain ⟨begun,done⟩ := writesPaths writes
  have ends := writes.ends
  cases here : plan.outputs[k]? with
  | none =>
      rw [here] at ends begun
      have whole : plan.outputs.take k = plan.outputs := List.take_of_length_le (List.getElem?_eq_none_iff.1 here)
      rw [ends]
      rw [whole] at begun done
      exact .finished (begun.trans (List.append_nil _)) done
  | some path =>
      rw [here] at ends begun
      obtain ⟨cause,value,_⟩ := ends
      rw [value]
      refine .stopped ?_
      rw [begun,done]
      rfl

/- The log of a generation is an account of it. The descriptor comes first, then what it defines again, then the
outputs up to the first that fails; each that is written is the file with the one text at the moment it is said. -/
theorem generationRecounted {base : Location} {plan : Plan} {t : FileTree} {moments : List Moment}
    {o : Outcome (Except Fault Report)} (h : (generate plan).Tells deniable base t moments o) :
    o.log = moments.map Prod.fst ∧ (plan.outputs = [] → o.log = []) ∧
      (plan.outputs ≠ [] →
        (∃ fault, o.value = .error fault ∧ Unaccepted base plan.descriptor t fault ∧ o.tree = t ∧
          o.log.map Event.message = ["reading descriptor " ++ plan.descriptor.text]) ∨
        ∃ text d k, t.Holds base plan.descriptor text ∧ Descriptor.ofJson text = .ok d ∧
          Recounted deniable base plan t d k moments o) ∧
      Counted o.log o.value := by
  have log := tellsLog h
  by_cases none : plan.outputs = []
  · obtain ⟨rfl,value,_⟩ := generateUnset none h
    refine ⟨log,fun _ => log,fun some => absurd none some,?_⟩
    rw [log,value]
    exact .unbegun (by simp) rfl rfl
  · refine ⟨log,fun empty => absurd empty none,?_⟩
    rcases generateTells none h with ⟨fault,value,unaccepted,tree,rfl⟩ | ⟨text,d,k,written,holds,accepted,writes⟩
    · constructor
      · intro _
        refine .inl ⟨fault,value,unaccepted,tree,?_⟩
        rw [log]
        rfl
      · rw [log,value]
        refine .unbegun ?_ rfl rfl
        cases unaccepted <;> simp
    · constructor
      · exact fun _ => .inr ⟨text,d,k,holds,accepted,writesRecounted h writes⟩
      · rw [log]
        exact writesCounted writes

theorem twiceEntries : (Catalog.ofDescriptor twice).2.toList = [⟨"Node",["left","right"]⟩] := by
  rw [Catalog.ofDescriptorEntries]
  decide

theorem stoppedRecounted : ∃ moments,
    (generate stoppedPlan).Tells .none [] twiceTree moments ((generate stoppedPlan).run [] twiceTree) ∧
      ((generate stoppedPlan).run [] twiceTree).log.map Event.message =
        ["reading descriptor in","duplicate node Node in descriptor; keeping the last definition",
          "writing 25 bytes to out","wrote 1 nodes to out","writing 25 bytes to gone/out"] := by
  have failed : ((generate stoppedPlan).run [] twiceTree).value = .error (.fileAccess ⟨"gone/out"⟩ .write .notFound) := by
    rw [(generateRun (by decide) twiceHolds (spelledRead twice)).1]
    rfl
  obtain ⟨moments,tells⟩ := runsTells (runsRun .none [] (generate stoppedPlan) twiceTree)
  refine ⟨moments,tells,?_⟩
  obtain ⟨_,_,course,_⟩ := generationRecounted tells
  rcases course (by decide) with ⟨fault,value,unaccepted,_⟩ | ⟨text,d,k,holds,accepted,recounted⟩
  · rw [failed] at value
    cases unaccepted <;> simp at value
  · cases holdsUnique holds twiceHolds
    cases accepted.symm.trans (spelledRead twice)
    have ends := recounted.ends
    have one : k = 1 := by
      rcases k with _ | _ | k
      · obtain ⟨_,value,_⟩ := ends
        simp [failed] at value
      · rfl
      · cases failed.symm.trans ends
    have size : ((Catalog.ofDescriptor twice).2.render stoppedPlan.layout).utf8ByteSize = 25 := by
      rw [Catalog.render,Catalog.written,twiceEntries]
      rfl
    rw [recounted.messages,one,size]
    rfl

theorem windingConfirmed : ∃ moments o, (generate windingPlan).Tells .none [] windingTree moments o ∧
    ∃ front there back, moments = front ++ (.wrote 1 ⟨"l/../l"⟩,there) :: back ∧
      there.read [] ⟨"l/../l"⟩ = .error .notADirectory := by
  obtain ⟨moments,tells⟩ := runsTells (runsRun .none [] (generate windingPlan) windingTree)
  refine ⟨moments,_,tells,?_⟩
  have some : windingPlan.outputs ≠ [] := by decide
  have ran := generateRun some windingHolds (spelledRead lone)
  have done : ((generate windingPlan).run [] windingTree).value =
      .ok ⟨(Catalog.ofDescriptor lone).2.size,windingPlan.outputs⟩ := by
    rw [ran.1]
    rfl
  have unread : ((generate windingPlan).run [] windingTree).tree.read [] ⟨"l/../l"⟩ = .error .notADirectory := by
    rw [ran.2]
    rfl
  rcases generateTells some tells with ⟨fault,value,_⟩ | ⟨text,d,k,written,holds,accepted,writes⟩
  · cases done.symm.trans value
  · cases holdsUnique holds windingHolds
    cases accepted.symm.trans (spelledRead lone)
    cases k with
    | zero =>
        obtain ⟨_,value,_⟩ := writes.ends
        cases done.symm.trans value
    | succ k =>
        have recorded := writes.recorded
        have whole : windingPlan.outputs.take (k + 1) = [⟨"l/../l"⟩] := by simp [windingPlan]
        rw [whole] at recorded
        have told := writes.told
        have calm : warnings lone = [] := by decide
        have one : (Catalog.ofDescriptor lone).2.size = 1 := catalogSize lone
        cases recorded with
        | cons single others =>
            cases others
            rw [calm,one] at told
            exact ⟨[_,_],_,_,told,unread⟩

end SyntaxCatalog
