import SyntaxCatalog.Command.Diagnostics

/-! The command line. Requests are carried out one by one on the files of the machine, and events
are shown as they come. The machine does not tell the mode of a file, so none is kept here. -/
namespace SyntaxCatalog.CommandLine
open Command (LogFilter logLine)

def number (code : UInt32) : Nat := if code.toNat < Nat.pow 2 31 then code.toNat else Nat.pow 2 32 - code.toNat

def failure : IO.Error → Nat × String
  | .noFileOrDirectory _ code text | .inappropriateType _ code text | .invalidArgument _ code text
  | .permissionDenied _ code text | .resourceExhausted _ code text | .noSuchThing _ code text
  | .alreadyExists _ code text => (number code,text)
  | .otherError code text | .resourceBusy code text | .resourceVanished code text
  | .unsupportedOperation code text | .hardwareFault code text | .unsatisfiedConstraints code text
  | .illegalOperation code text | .protocolError code text | .timeExpired code text
  | .interrupted _ code text => (number code,text)
  | .unexpectedEof => (0,"unexpected end of file")
  | .userError text => (0,text)

def known : List FileFault :=
  [.notFound,.notADirectory,.isADirectory,.nameTooLong,.linkLoop,.busy,.invalidArgument]

def fileFault (e : IO.Error) : FileFault :=
  let (code,text) := failure e
  (known.find? (fun fault => fault.system.any (fun parts => parts.1 == code))).getD (.other text)

def attempt {α : Type} (action : IO α) : IO (Except FileFault α) := do
  match ← action.toBaseIO with
  | .ok a => pure (.ok a)
  | .error e => pure (.error (fileFault e))

def pathOf (loc : Location) : String := (FileTree.spelled loc).text

def createIn (dir : String) : IO Location := do
  let full ← IO.FS.realPath dir
  let suffix ← IO.rand 100000 999999
  let loc := FileTree.parts ⟨full.toString⟩ ++ [FileTree.temporaryStem ++ toString suffix]
  let _ ← IO.FS.Handle.mk (pathOf loc) .writeNew
  pure loc

def rights (mode : Nat) : IO.FileRight where
  user := access (mode / 64)
  group := access (mode / 8)
  other := access mode
where
  access (bits : Nat) : IO.AccessRight :=
    {read := bits / 4 % 2 == 1, write := bits / 2 % 2 == 1, execution := bits % 2 == 1}

def appendTo (file : String) (contents : ByteArray) : IO Unit := do
  let handle ← IO.FS.Handle.mk file .append
  handle.write contents
  handle.flush

def perform (filter : LogFilter) : (r : Request) → IO r.Answer
  | .read path => attempt (IO.FS.readBinFile path.text)
  | .modeOf _ => pure none
  | .create dir _ => attempt (createIn dir.text)
  | .setMode file mode => attempt (IO.setAccessRights (pathOf file) (rights mode))
  | .append file contents => attempt (appendTo (pathOf file) contents)
  | .rename file path => attempt (IO.FS.rename (pathOf file) path.text)
  | .discard file => do
      let _ ← attempt (IO.FS.removeFile (pathOf file))
      pure ()
  | .report event => if filter.shows event then IO.eprintln (logLine event) else pure ()

def carryOut {α : Type} (filter : LogFilter) : Program α → IO α
  | .done a => pure a
  | .ask r next => do
      let answer ← perform filter r
      carryOut filter (next answer)

end SyntaxCatalog.CommandLine

open SyntaxCatalog SyntaxCatalog.CommandLine SyntaxCatalog.Command in
def main (arguments : List String) : IO UInt32 := do
  let asked := (← IO.getEnv "RUST_LOG").getD ""
  for complaint in LogFilter.complaints asked do
    IO.eprintln complaint
  let ending ← carryOut (LogFilter.ofText asked) (Command.run arguments)
  IO.print ending.stdout
  match ending with
  | .usage => IO.eprintln "paramgen: these arguments are not understood; see paramgen --help"
  | _ => pure ()
  match ending.failureLine? with
  | some line => IO.eprintln line
  | none => pure ()
  pure ending.status.toUInt32
