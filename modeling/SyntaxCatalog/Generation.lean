import SyntaxCatalog.Catalog.Json
import SyntaxCatalog.ConfigFile.Toml
import SyntaxCatalog.Descriptor.Json
import SyntaxCatalog.Fault
import SyntaxCatalog.Program

/-! Generating the outputs of a plan. The descriptor is accepted as a whole before anything is
written. Each output is then replaced in one step, in order, up to the first that fails. -/
namespace SyntaxCatalog

def Program.andThen {α β ε : Type} (p : Program (Except ε α)) (next : α → Program (Except ε β)) :
    Program (Except ε β) := do
  match ← p with
  | .error e => pure (.error e)
  | .ok a => next a

def readText (path : Path) : Program (Except Fault String) := do
  match ← Program.request (.read path) with
  | .error e => pure (.error (.fileAccess path .read e))
  | .ok contents =>
      match String.fromUTF8? contents with
      | some text => pure (.ok text)
      | none => pure (.error (.fileAccess path .read .notUtf8))

def readJson {α : Type} (event : Path → Event) (read : String → Except Json.Error α) (path : Path) :
    Program (Except Fault α) := do
  Program.report (event path)
  (readText path).andThen (fun text =>
    match read text with
    | .ok a => pure (.ok a)
    | .error e => pure (.error (.malformedInput path e)))

def readDescriptor : Path → Program (Except Fault Descriptor) := readJson .readingDescriptor Descriptor.ofJson

def readCatalog : Path → Program (Except Fault Catalog) := readJson .readingCatalog Catalog.ofJson

def readConfigFile (path : Path) : Program (Except Fault ConfigFile) :=
  (readText path).andThen (fun text =>
    match ConfigFile.ofToml text with
    | .ok file => pure (.ok file)
    | .error e => pure (.error (.configurationFile path e)))

def reportAll : List Event → Program Unit
  | [] => pure ()
  | event :: more => do
      Program.report event
      reportAll more

def catalogued (d : Descriptor) : Program Catalog := do
  let (repeated,catalog) := Catalog.ofDescriptor d
  reportAll (repeated.map .repeatedNode)
  pure catalog

def buildCatalog (path : Path) : Program (Except Fault Catalog) :=
  (readDescriptor path).andThen (fun d => do pure (.ok (← catalogued d)))

-- What any new file asks for; the mask of the tree takes away from it.
def plainMode : Nat := 0o666

def keepMode (file : Location) (path : Path) : Program (Except FileFault Unit) := do
  match ← Program.request (.modeOf path) with
  | some mode => Program.request (.setMode file mode)
  | none => pure (.ok ())

def complete (file : Location) (path : Path) (contents : ByteArray) : Program (Except FileFault Unit) :=
  (keepMode file path).andThen (fun _ =>
    (Program.request (.append file contents)).andThen (fun _ =>
      Program.request (.rename file path)))

/-- Replaces a file in one step: the contents go into a new file of the same directory, which then
takes the place of the old one. A new file that cannot be completed is discarded. -/
def replaceFile (path : Path) (contents : ByteArray) : Program (Except FileFault Unit) :=
  (Program.request (.create path.directory plainMode)).andThen (fun file => do
    match ← complete file path contents with
    | .ok () => pure (.ok ())
    | .error e =>
        Program.request (.discard file)
        pure (.error e))

def writeFile (path : Path) (contents : ByteArray) : Program (Except Fault Unit) := do
  Program.report (.writing contents.size path)
  match ← replaceFile path contents with
  | .ok () => pure (.ok ())
  | .error e => pure (.error (.fileAccess path .write e))

def writeAll (nodes : Nat) (text : String) : List Path → Program (Except Fault (List Path))
  | [] => pure (.ok [])
  | path :: more =>
      (writeFile path text.toUTF8).andThen (fun _ => do
        Program.report (.wrote nodes path)
        (writeAll nodes text more).andThen (fun written => pure (.ok (path :: written))))

structure Report where
  nodes : Nat
  written : List Path
  deriving DecidableEq, Repr

def Plan.validate (plan : Plan) : Except Fault Unit :=
  if plan.outputs.isEmpty then .error (.configuration "at least one output path is required") else .ok ()

def Settings.resolve (s : Settings) : Except Fault Plan := do
  s.plan.validate
  .ok s.plan

def generate (plan : Plan) : Program (Except Fault Report) :=
  match plan.validate with
  | .error e => pure (.error e)
  | .ok () =>
      (buildCatalog plan.descriptor).andThen (fun catalog =>
        (writeAll catalog.size (catalog.render plan.layout) plan.outputs).andThen (fun written =>
          pure (.ok ⟨catalog.size,written⟩)))

def readSettings (path : Path) : Program (Except Fault Settings) :=
  (readConfigFile path).andThen (fun file => pure (.ok (file.settings path)))

def Settings.overFile (s : Settings) (config : Option Path) : Program (Except Fault Settings) :=
  match config with
  | some path => (readSettings path).andThen (fun file => pure (.ok (file.merge s)))
  | none => pure (.ok (Settings.unset.merge s))

def Catalog.require (c : Catalog) (node : String) : Except Fault (List String) :=
  match c.get? node with
  | some parameters => .ok parameters
  | none => .error (.unknownNode node)

end SyntaxCatalog
