import SyntaxCatalog.Proofs.Program.Runs

/-! What reading a file comes to: the value that its text stands for, or a fault that names the path
and the step that failed. Reading leaves the tree as it is. -/
namespace SyntaxCatalog
open Program
variable {deniable : Request.Deniable} {base : Location} {t : FileTree} {path : Path}

theorem comesRead {after : FileTree} {answer : Except FileFault ByteArray}
    (h : Request.Comes deniable base t (.read path) answer after) :
    after = t ∧ ((∃ e, answer = .error e) ∨ answer = t.read base path) := by
  cases h with
  | performed =>
      rw [Request.performRead]
      exact ⟨rfl,.inr rfl⟩
  | unread e => exact ⟨rfl,.inl ⟨e,rfl⟩⟩

def FileTree.Holds (t : FileTree) (base : Location) (path : Path) (text : String) : Prop :=
  ∃ contents, t.read base path = .ok contents ∧ String.fromUTF8? contents = some text

theorem readTextRuns {o : Outcome (Except Fault String)} (h : (readText path).Runs deniable base t o) :
    o.tree = t ∧ ((∃ cause, o.value = .error (.fileAccess path .read cause)) ∨
      ∃ text, o.value = .ok text ∧ t.Holds base path text) := by
  obtain ⟨asked,rest,asking,goes,rfl⟩ := runsBind h
  obtain ⟨same,answers⟩ := comesRead (runsRequest asking)
  rw [same] at goes
  cases answer : asked.value with
  | error e =>
      rw [answer] at goes
      cases goes
      exact ⟨rfl,.inl ⟨e,rfl⟩⟩
  | ok contents =>
      rw [answer] at goes answers
      have there : t.read base path = .ok contents := by
        rcases answers with ⟨_,failed⟩ | found
        · cases failed
        · exact found.symm
      cases decoded : String.fromUTF8? contents with
      | none =>
          simp only [decoded] at goes
          cases goes
          exact ⟨rfl,.inl ⟨.notUtf8,rfl⟩⟩
      | some text =>
          simp only [decoded] at goes
          cases goes
          exact ⟨rfl,.inr ⟨text,rfl,contents,there,decoded⟩⟩

theorem readJsonRuns {α : Type} {event : Path → Event} {read : String → Except Json.Error α}
    {o : Outcome (Except Fault α)} (h : (readJson event read path).Runs deniable base t o) :
    o.tree = t ∧ ((∃ cause, o.value = .error (.fileAccess path .read cause)) ∨
      (∃ text cause, t.Holds base path text ∧ read text = .error cause ∧
        o.value = .error (.malformedInput path cause)) ∨
      ∃ text a, t.Holds base path text ∧ read text = .ok a ∧ o.value = .ok a) := by
  obtain ⟨told,rest,telling,goes,rfl⟩ := runsBind h
  rw [runsReport telling] at goes
  obtain ⟨found,finding,goes⟩ := runsAndThen goes
  obtain ⟨same,⟨cause,failed⟩ | ⟨text,done,holds⟩⟩ := readTextRuns finding
  · rw [failed,same] at goes
    exact ⟨goes.2,.inl ⟨cause,goes.1⟩⟩
  · rw [done,same] at goes
    obtain ⟨last,later,value,tree⟩ := goes
    rw [value,tree]
    cases accepted : read text with
    | error cause =>
        rw [accepted] at later
        cases later
        exact ⟨rfl,.inr (.inl ⟨text,cause,holds,accepted,rfl⟩)⟩
    | ok a =>
        rw [accepted] at later
        cases later
        exact ⟨rfl,.inr (.inr ⟨text,a,holds,accepted,rfl⟩)⟩

theorem reportAllRuns {events : List Event} {o : Outcome Unit} (h : (reportAll events).Runs deniable base t o) :
    o.tree = t := by
  induction events generalizing t o with
  | nil => cases h; rfl
  | cons event more ih =>
      obtain ⟨told,rest,telling,goes,rfl⟩ := runsBind h
      rw [runsReport telling] at goes
      have last := ih goes
      exact last

theorem cataloguedRuns {d : Descriptor} {o : Outcome Catalog} (h : (catalogued d).Runs deniable base t o) :
    o.value = (Catalog.ofDescriptor d).2 ∧ o.tree = t := by
  obtain ⟨told,rest,telling,goes,rfl⟩ := runsBind h
  rw [reportAllRuns telling] at goes
  cases goes
  exact ⟨rfl,rfl⟩

theorem buildCatalogRuns {o : Outcome (Except Fault Catalog)} (h : (buildCatalog path).Runs deniable base t o) :
    o.tree = t ∧ ((∃ cause, o.value = .error (.fileAccess path .read cause)) ∨
      (∃ text cause, t.Holds base path text ∧ Descriptor.ofJson text = .error cause ∧
        o.value = .error (.malformedInput path cause)) ∨
      ∃ text d, t.Holds base path text ∧ Descriptor.ofJson text = .ok d ∧
        o.value = .ok (Catalog.ofDescriptor d).2) := by
  obtain ⟨found,finding,goes⟩ := runsAndThen h
  obtain ⟨same,⟨cause,failed⟩ | ⟨text,cause,holds,refused,failed⟩ | ⟨text,d,holds,accepted,done⟩⟩ :=
    readJsonRuns finding
  · rw [failed,same] at goes
    exact ⟨goes.2,.inl ⟨cause,goes.1⟩⟩
  · rw [failed,same] at goes
    exact ⟨goes.2,.inr (.inl ⟨text,cause,holds,refused,goes.1⟩)⟩
  · rw [done,same] at goes
    obtain ⟨last,later,value,tree⟩ := goes
    obtain ⟨entered,rest,entering,goes,rfl⟩ := runsBind later
    obtain ⟨catalog,there⟩ := cataloguedRuns entering
    cases goes
    rw [value,tree]
    exact ⟨there,.inr (.inr ⟨text,d,holds,accepted,by rw [catalog]⟩)⟩

theorem decodedText (text : String) : String.fromUTF8? text.toUTF8 = some text := by
  have valid : text.toUTF8.IsValidUTF8 := text.isValidUTF8
  rw [String.fromUTF8?,dif_pos valid]
  rfl

theorem holdsText {text : String} (there : t.read base path = .ok text.toUTF8) : t.Holds base path text :=
  ⟨_,there,decodedText text⟩

def FileTree.text (t : FileTree) (base : Location) (path : Path) : Except FileFault String :=
  match t.read base path with
  | .error e => .error e
  | .ok contents =>
      match String.fromUTF8? contents with
      | some text => .ok text
      | none => .error .notUtf8

def FileTree.parsed {α : Type} (t : FileTree) (base : Location) (read : String → Except Json.Error α) (path : Path) :
    Except Fault α :=
  match t.text base path with
  | .error e => .error (.fileAccess path .read e)
  | .ok text =>
      match read text with
      | .error e => .error (.malformedInput path e)
      | .ok a => .ok a

theorem textHolds {text : String} : t.text base path = .ok text ↔ t.Holds base path text := by
  unfold FileTree.text FileTree.Holds
  cases t.read base path with
  | error e => simp
  | ok contents => cases decoded : String.fromUTF8? contents <;> simp [decoded]

theorem parsedOk {α : Type} {read : String → Except Json.Error α} {a : α} :
    t.parsed base read path = .ok a ↔ ∃ text, t.text base path = .ok text ∧ read text = .ok a := by
  unfold FileTree.parsed
  cases t.text base path with
  | error e => simp
  | ok text => cases accepted : read text <;> simp [accepted]

theorem parsedFault {α : Type} {read : String → Except Json.Error α} {fault : Fault} :
    t.parsed base read path = .error fault ↔
      (∃ cause, t.text base path = .error cause ∧ fault = .fileAccess path .read cause) ∨
      ∃ text cause, t.text base path = .ok text ∧ read text = .error cause ∧ fault = .malformedInput path cause := by
  unfold FileTree.parsed
  cases t.text base path with
  | error e => simp [eq_comm]
  | ok text => cases accepted : read text <;> simp [accepted,eq_comm]

theorem readTextText : (readText path).run base t = ⟨(t.text base path).mapError (.fileAccess path .read),[],t⟩ := by
  have asked := runRequest base (.read path) t
  rw [Request.performRead] at asked
  rw [readText,runBind,asked,FileTree.text]
  cases t.read base path with
  | error e => rfl
  | ok contents => cases decoded : String.fromUTF8? contents <;> simp only [decoded] <;> rfl

theorem readJsonParsed {α : Type} (event : Path → Event) (read : String → Except Json.Error α) :
    (readJson event read path).run base t = ⟨t.parsed base read path,[event path],t⟩ := by
  have found := @readTextText base t path
  rw [readJson,runBind,runReport]
  unfold FileTree.parsed
  dsimp only
  cases there : t.text base path with
  | error e =>
      rw [there] at found
      rw [runFailed found]
      rfl
  | ok text =>
      rw [there] at found
      rw [runAndThen found]
      cases accepted : read text <;> simp only [accepted] <;> rfl

theorem readDescriptorRun :
    (readDescriptor path).run base t = ⟨t.parsed base Descriptor.ofJson path,[.readingDescriptor path],t⟩ :=
  readJsonParsed .readingDescriptor Descriptor.ofJson

theorem readJsonRun {α : Type} {event : Path → Event} {read : String → Except Json.Error α} {text : String} {a : α}
    (holds : t.Holds base path text) (accepted : read text = .ok a) :
    (readJson event read path).run base t = ⟨.ok a,[event path],t⟩ := by
  rw [readJsonParsed,parsedOk.2 ⟨text,textHolds.2 holds,accepted⟩]

theorem reportAllRun (events : List Event) : (reportAll events).run base t = ⟨(),events,t⟩ := by
  induction events with
  | nil => rfl
  | cons event more ih =>
      rw [reportAll,runBind,runReport]
      simp [ih]

theorem buildCatalogRun {text : String} {d : Descriptor} (holds : t.Holds base path text)
    (accepted : Descriptor.ofJson text = .ok d) :
    (buildCatalog path).run base t = ⟨.ok (Catalog.ofDescriptor d).2,
      .readingDescriptor path :: (Catalog.ofDescriptor d).1.map .repeatedNode,t⟩ := by
  have found : (readDescriptor path).run base t = ⟨.ok d,[.readingDescriptor path],t⟩ := readJsonRun holds accepted
  rw [buildCatalog,runAndThen found]
  simp [catalogued,runBind,reportAllRun,runPure]

theorem buildCatalogUnread {fault : Fault} (failed : t.parsed base Descriptor.ofJson path = .error fault) :
    (buildCatalog path).run base t = ⟨.error fault,[.readingDescriptor path],t⟩ := by
  have found := @readDescriptorRun base t path
  rw [failed] at found
  exact runFailed found

end SyntaxCatalog
