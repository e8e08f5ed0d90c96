import SyntaxCatalog.Command.Directive
import SyntaxCatalog.Text.Pieces
import SyntaxCatalog.Text.Terminal

/-! Which events are shown. Of several directives that fit an event, the one with the longest origin
decides; of two for one origin, the one that names a field. -/
namespace SyntaxCatalog.Command

abbrev LogFilter := List Directive

def LogFilter.add (filter : LogFilter) (d : Directive) : LogFilter :=
  filter.filter (fun old => old.origin != d.origin || old.field != d.field) ++ [d]

def LogFilter.directives (text : String) : List (List Char × Except Misreading (Option Directive)) :=
  ((Text.pieces ',' text.toList).filter (· ≠ [])).map (fun part => (part,Directive.ofText part))

-- What the environment asks for; the events of this program are shown from `info` on, whatever else is
-- asked for all of them.
def LogFilter.ofText (text : String) : LogFilter :=
  LogFilter.add (((LogFilter.directives text).filterMap meant).foldl LogFilter.add [])
    ⟨"paramgen",none,.info⟩
where
  meant : List Char × Except Misreading (Option Directive) → Option Directive
    | (_,.ok directive) => directive
    | (_,.error _) => none

def LogFilter.complaints (text : String) : List String :=
  (LogFilter.directives text).filterMap complaint
where
  complaint : List Char × Except Misreading (Option Directive) → Option String
    | (part,.error misreading) =>
        some ("ignoring `" ++ String.ofList part ++ "`: " ++ misreading.describe)
    | (_,.ok _) => none

def Directive.fits (d : Directive) (event : Event) : Bool :=
  d.origin.toList.isPrefixOf event.origin.toList && d.field.all (· == "message")

def Directive.closer (d old : Directive) : Bool :=
  old.origin.length < d.origin.length || (old.origin.length == d.origin.length && d.field.isSome)

def LogFilter.shows (filter : LogFilter) (event : Event) : Bool :=
  let closest := (filter.filter (·.fits event)).foldl (fun best d => match best with
    | some (old : Directive) => if d.closer old then some d else best
    | none => some d) none
  closest.any (·.threshold.shows event.level)

def levelName : Level → String
  | .debug => "DEBUG"
  | .info => "INFO"
  | .warn => "WARN"

def logLine (event : Event) : String :=
  levelName event.level ++ " " ++ event.origin ++ ": " ++ Text.forTerminal event.message

end SyntaxCatalog.Command
