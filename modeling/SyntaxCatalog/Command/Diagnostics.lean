import SyntaxCatalog.Command
import SyntaxCatalog.Command.LogFilter

/-! What a run shows beside its output, line by line: directives that were not understood, the
events that the filter lets through, and the fault that ended the run. -/
namespace SyntaxCatalog.Command

def Ending.failureLine? (ending : Ending) : Option String :=
  ending.fault?.map (fun fault => "Error: " ++ fault.detail)

def diagnostics (asked : String) (o : Outcome Ending) : List String :=
  LogFilter.complaints asked ++ (o.log.filter (LogFilter.ofText asked).shows).map logLine ++
    o.value.failureLine?.toList

end SyntaxCatalog.Command
