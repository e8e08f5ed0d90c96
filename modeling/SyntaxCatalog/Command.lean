import SyntaxCatalog.Command.Help
import SyntaxCatalog.Generation

/-! Running a command: what it prints, how it ends, and what it does to files. -/
namespace SyntaxCatalog.Command

structure Finish where
  stdout : String
  result : Except Fault Unit

inductive Ending where
  | finished (finish : Finish)
  | usage
  | help (page : Page)

def Ending.status : Ending → Nat
  | .finished ⟨_,.ok ()⟩ => 0
  | .finished ⟨_,.error _⟩ => 1
  | .usage => 2
  | .help _ => 0

def Ending.stdout : Ending → String
  | .finished finish => finish.stdout
  | .usage => ""
  | .help page => page.text

def Ending.fault? : Ending → Option Fault
  | .finished ⟨_,.error fault⟩ => some fault
  | _ => none

def printing (p : Program (Except Fault String)) : Program Finish := do
  match ← p with
  | .ok text => pure ⟨text,.ok ()⟩
  | .error fault => pure ⟨"",.error fault⟩

def GenerateArguments.plan (a : GenerateArguments) : Program (Except Fault Plan) :=
  (a.flags.overFile a.config).andThen (fun s => pure s.resolve)

def runGenerate (a : GenerateArguments) : Program Finish :=
  printing (a.plan.andThen (fun plan =>
    if a.stdout then
      (buildCatalog plan.descriptor).andThen (fun catalog =>
        pure (.ok (catalog.render plan.layout ++ "\n")))
    else
      (generate plan).andThen (fun done => do
        Program.report (.generated done.nodes done.written.length)
        pure (.ok ""))))

def runLookup (map : Path) (node : String) : Program Finish :=
  printing ((readCatalog map).andThen (fun catalog =>
    pure ((catalog.require node).map (fun names => String.join (names.map (· ++ "\n"))))))

def Invocation.run : Invocation → Program Finish
  | .generate arguments => runGenerate arguments
  | .lookup map node => runLookup map node

def run (arguments : List String) : Program Ending :=
  match Invocation.ofArguments arguments with
  | .error .usage => pure .usage
  | .error (.help page) => pure (.help page)
  | .ok invocation => do pure (.finished (← invocation.run))

end SyntaxCatalog.Command
