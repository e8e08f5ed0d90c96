import SyntaxCatalog.Proofs.Generation.Outputs

/-! The order in which a generation makes its requests. It reads one text. Each output is then made in a file
of the generation's own, and this file is moved only when it holds all that the text is rendered to. -/
namespace SyntaxCatalog
open Program

/- How far a generation has come. Of its own file the contents are known unless a write was cut short. -/
inductive Stage where
  | unread
  | free (read : ByteArray)
  | filling (read : ByteArray) (file : Location) (part : Option ByteArray)

def Stage.read? : Stage → Option ByteArray
  | .unread => none
  | .free read | .filling read _ _ => some read

def Stage.Owns : Stage → Location → Prop
  | .filling _ file _, loc => loc = file
  | _, _ => False

def Plan.Renders (plan : Plan) (read written : ByteArray) : Prop :=
  ∃ text d, String.fromUTF8? read = some text ∧ Descriptor.ofJson text = .ok d ∧ written = plan.contents d

inductive Stage.Goes (plan : Plan) : Stage → (r : Request) → r.Answer → Stage → Prop where
  | told (stage : Stage) (event : Event) : Goes plan stage (.report event) () stage
  | asked (stage : Stage) (path : Path) (mode : Option Nat) : Goes plan stage (.modeOf path) mode stage
  | read (contents : ByteArray) : Goes plan .unread (.read plan.descriptor) (.ok contents) (.free contents)
  | unread (e : FileFault) : Goes plan .unread (.read plan.descriptor) (.error e) .unread
  | made (read : ByteArray) (dir : Path) (mode : Nat) (file : Location) :
      Goes plan (.free read) (.create dir mode) (.ok file) (.filling read file (some ByteArray.empty))
  | unmade (read : ByteArray) (dir : Path) (mode : Nat) (e : FileFault) :
      Goes plan (.free read) (.create dir mode) (.error e) (.free read)
  | set (read : ByteArray) (file : Location) (part : Option ByteArray) (mode : Nat) (answer : Except FileFault Unit) :
      Goes plan (.filling read file part) (.setMode file mode) answer (.filling read file part)
  | filled (read part contents : ByteArray) (file : Location) :
      Goes plan (.filling read file (some part)) (.append file contents) (.ok ()) (.filling read file (some (part ++ contents)))
  | cutShort (read part contents : ByteArray) (file : Location) (e : FileFault) :
      Goes plan (.filling read file (some part)) (.append file contents) (.error e) (.filling read file none)
  | moved {read part : ByteArray} {path : Path} (file : Location) (whole : plan.Renders read part)
      (member : path ∈ plan.outputs) : Goes plan (.filling read file (some part)) (.rename file path) (.ok ()) (.free read)
  | unmoved {read part : ByteArray} {path : Path} (file : Location) (whole : plan.Renders read part)
      (member : path ∈ plan.outputs) (e : FileFault) :
      Goes plan (.filling read file (some part)) (.rename file path) (.error e) (.filling read file (some part))
  | discarded (read : ByteArray) (file : Location) (part : Option ByteArray) :
      Goes plan (.filling read file part) (.discard file) () (.free read)

namespace Program
variable {α β ε : Type} {plan : Plan} {stage : Stage}

/- The program keeps to the order from this stage on, whatever the answers are. -/
def Obeys (plan : Plan) (post : α → Stage → Prop) : Program α → Stage → Prop
  | .done a, stage => post a stage
  | .ask r next, stage => ∀ answer, ∃ later, stage.Goes plan r answer later ∧ (next answer).Obeys plan post later

theorem obeysBind {p : Program α} {f : α → Program β} {mid : α → Stage → Prop} {post : β → Stage → Prop}
    (first : p.Obeys plan mid stage) (second : ∀ a later, mid a later → (f a).Obeys plan post later) :
    (p >>= f).Obeys plan post stage := by
  induction p generalizing stage with
  | done a => exact second a stage first
  | ask r next ih =>
      intro answer
      obtain ⟨later,goes,others⟩ := first answer
      exact ⟨later,goes,ih answer others⟩

theorem obeysAndThen {p : Program (Except ε α)} {next : α → Program (Except ε β)} {mid : Except ε α → Stage → Prop}
    {post : Except ε β → Stage → Prop} (first : p.Obeys plan mid stage)
    (failed : ∀ e later, mid (.error e) later → post (.error e) later)
    (second : ∀ a later, mid (.ok a) later → (next a).Obeys plan post later) :
    (p.andThen next).Obeys plan post stage := by
  refine obeysBind first ?_
  intro value later reached
  cases value with
  | error e => exact failed e later reached
  | ok a => exact second a later reached

def Ends (done : α → Stage → Prop) (failed : Stage → Prop) : Except ε α → Stage → Prop
  | .ok a, later => done a later
  | .error _, later => failed later

theorem obeysReport (event : Event) : (report event).Obeys plan (fun _ later => later = stage) stage :=
  fun _ => ⟨stage,.told stage event,rfl⟩

end Program

section
variable {plan : Plan} {path : Path} {read contents : ByteArray} {file : Location} {stage : Stage}

theorem readTextObeys : (readText plan.descriptor).Obeys plan
    (fun value stage => ∀ text, value = .ok text → ∃ read, stage = .free read ∧ String.fromUTF8? read = some text)
    .unread := by
  have asked : (request (.read plan.descriptor)).Obeys plan
      (fun (value : Except FileFault ByteArray) stage => ∀ read, value = .ok read → stage = .free read) .unread := by
    intro answer
    cases answer with
    | error e => exact ⟨.unread,.unread e,fun _ done => by cases done⟩
    | ok read => exact ⟨.free read,.read read,fun _ done => by cases done; rfl⟩
  refine obeysBind asked ?_
  intro value stage reached
  cases value with
  | error e => exact fun _ done => by cases done
  | ok read =>
      obtain rfl := reached read rfl
      dsimp only
      cases decoded : String.fromUTF8? read with
      | none => exact fun _ done => by cases done
      | some text =>
          rintro _ done
          cases done
          exact ⟨read,rfl,decoded⟩

theorem readDescriptorObeys : (readDescriptor plan.descriptor).Obeys plan
    (fun value stage => ∀ d, value = .ok d → ∃ read text, stage = .free read ∧
      String.fromUTF8? read = some text ∧ Descriptor.ofJson text = .ok d) .unread := by
  refine obeysBind (obeysReport _) ?_
  rintro _ _ rfl
  refine obeysAndThen readTextObeys (fun e later _ d done => by cases done) ?_
  intro text stage reached
  obtain ⟨read,rfl,decoded⟩ := reached text rfl
  cases accepted : Descriptor.ofJson text with
  | error e => exact fun _ done => by cases done
  | ok d =>
      rintro _ done
      cases done
      exact ⟨read,text,rfl,decoded,accepted⟩

theorem reportAllObeys (events : List Event) : (reportAll events).Obeys plan (fun _ later => later = stage) stage := by
  induction events with
  | nil => rfl
  | cons event more ih =>
      refine obeysBind (obeysReport event) ?_
      rintro _ _ rfl
      exact ih

theorem keepModeObeys {part : Option ByteArray} : (keepMode file path).Obeys plan
    (fun _ later => later = .filling read file part) (.filling read file part) := by
  intro mode
  refine ⟨_,.asked _ path mode,?_⟩
  cases mode with
  | none => rfl
  | some mode => exact fun answer => ⟨_,.set read file part mode answer,rfl⟩

theorem completeObeys (whole : plan.Renders read contents) (member : path ∈ plan.outputs) :
    (complete file path contents).Obeys plan
      (Ends (fun _ later => later = .free read) (fun later => ∃ part, later = .filling read file part))
      (.filling read file (some ByteArray.empty)) := by
  refine obeysAndThen keepModeObeys (fun _ later same => ⟨_,same⟩) ?_
  rintro _ _ rfl
  have filled : (request (.append file contents)).Obeys plan
      (Ends (fun _ later => later = .filling read file (some (ByteArray.empty ++ contents)))
        (fun later => later = .filling read file none)) (.filling read file (some ByteArray.empty)) := by
    intro answer
    cases answer with
    | error e => exact ⟨_,.cutShort read _ contents file e,rfl⟩
    | ok => exact ⟨_,.filled read _ contents file,rfl⟩
  rw [ByteArray.empty_append] at filled
  refine obeysAndThen filled (fun _ later same => ⟨_,same⟩) ?_
  rintro _ _ rfl answer
  cases answer with
  | error e => exact ⟨_,.unmoved file whole member e,_,rfl⟩
  | ok => exact ⟨_,.moved file whole member,rfl⟩

theorem replaceFileObeys (whole : plan.Renders read contents) (member : path ∈ plan.outputs) :
    (replaceFile path contents).Obeys plan (fun _ later => later = .free read) (.free read) := by
  have made : (request (.create path.directory plainMode)).Obeys plan
      (Ends (fun file later => later = .filling read file (some ByteArray.empty)) (fun later => later = .free read))
      (.free read) := by
    intro answer
    cases answer with
    | error e => exact ⟨_,.unmade read _ _ e,rfl⟩
    | ok file => exact ⟨_,.made read _ _ file,rfl⟩
  refine obeysAndThen made (fun _ later same => same) ?_
  rintro file _ rfl
  refine obeysBind (completeObeys whole member) ?_
  intro value later reached
  cases value with
  | ok => exact reached
  | error e =>
      obtain ⟨part,rfl⟩ := reached
      exact fun _ => ⟨_,.discarded read file part,rfl⟩

theorem writeFileObeys (whole : plan.Renders read contents) (member : path ∈ plan.outputs) :
    (writeFile path contents).Obeys plan (fun _ later => later = .free read) (.free read) := by
  refine obeysBind (obeysReport _) ?_
  rintro _ _ rfl
  refine obeysBind (replaceFileObeys whole member) ?_
  intro value later same
  cases value <;> exact same

theorem writeAllObeys {nodes : Nat} {text : String} {paths : List Path} (whole : plan.Renders read text.toUTF8)
    (members : ∀ path ∈ paths, path ∈ plan.outputs) :
    (writeAll nodes text paths).Obeys plan (fun _ later => later = .free read) (.free read) := by
  induction paths with
  | nil => rfl
  | cons path more ih =>
      refine obeysAndThen (writeFileObeys whole (members path List.mem_cons_self)) (fun _ later same => same) ?_
      rintro _ _ rfl
      refine obeysBind (obeysReport _) ?_
      rintro _ _ rfl
      have others := ih (fun other member => members other (List.mem_cons_of_mem _ member))
      exact obeysAndThen others (fun _ later same => same) (fun _ later same => same)

theorem buildCatalogObeys : (buildCatalog plan.descriptor).Obeys plan
    (fun value stage => ∀ catalog, value = .ok catalog → ∃ read d, stage = .free read ∧
      catalog = (Catalog.ofDescriptor d).2 ∧ plan.Renders read (plan.contents d)) .unread := by
  refine obeysAndThen readDescriptorObeys (fun _ _ _ _ done => by cases done) ?_
  intro d stage reached
  obtain ⟨read,text,rfl,decoded,accepted⟩ := reached d rfl
  have catalogued : (catalogued d).Obeys plan
      (fun catalog later => catalog = (Catalog.ofDescriptor d).2 ∧ later = .free read) (.free read) :=
    obeysBind (reportAllObeys _) (fun _ later same => ⟨rfl,same⟩)
  refine obeysBind catalogued ?_
  rintro _ _ ⟨rfl,rfl⟩ _ done
  cases done
  exact ⟨read,d,rfl,rfl,text,d,decoded,accepted,rfl⟩

theorem generateObeys (plan : Plan) : (generate plan).Obeys plan (fun _ _ => True) .unread := by
  unfold generate
  cases plan.validate with
  | error e => trivial
  | ok =>
      refine obeysAndThen buildCatalogObeys (fun _ _ _ => trivial) ?_
      intro catalog stage reached
      obtain ⟨read,d,rfl,rfl,whole⟩ := reached catalog rfl
      exact obeysAndThen (writeAllObeys whole (fun _ member => member)) (fun _ _ _ => trivial) (fun _ _ _ => trivial)

end
end SyntaxCatalog
