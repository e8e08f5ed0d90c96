import SyntaxCatalog.Settings

/-! Command line arguments. They are read from left to right, and the first that asks for help or
cannot be understood decides. -/
namespace SyntaxCatalog.Command

inductive Page where
  | overview
  | generate
  | lookup
  | help
  deriving DecidableEq, Repr

inductive Stop where
  | help (page : Page)
  | usage
  deriving DecidableEq, Repr

structure GenerateArguments where
  config : Option Path
  flags : Settings
  stdout : Bool
  deriving DecidableEq, Repr

def GenerateArguments.unset : GenerateArguments := ⟨none,Settings.unset,false⟩

inductive Invocation where
  | generate (arguments : GenerateArguments)
  | lookup (map : Path) (node : String)
  deriving DecidableEq, Repr

inductive Setting where
  | config
  | baseDir
  | variant
  | descriptor
  | output
  deriving DecidableEq, Repr

inductive Switch where
  | pretty
  | stdout
  deriving DecidableEq, Repr

inductive Flag where
  | setting (name : Setting)
  | switch (name : Switch)
  | help
  deriving DecidableEq, Repr

def longFlags : List (String × Flag) :=
  [("config",.setting .config),("base-dir",.setting .baseDir),("variant",.setting .variant),
    ("descriptor",.setting .descriptor),("output",.setting .output),("pretty",.switch .pretty),
    ("stdout",.switch .stdout),("help",.help)]

def shortFlags : List (Char × Flag) :=
  [('c',.setting .config),('C',.setting .baseDir),('d',.setting .descriptor),('o',.setting .output),
    ('h',.help)]

def pathValue (value : String) : Except Stop Path :=
  if value.isEmpty then .error .usage else .ok ⟨value⟩

def once {α : Type} (old : Option α) (new : α) : Except Stop (Option α) :=
  if old.isSome then .error .usage else .ok (some new)

def GenerateArguments.set (a : GenerateArguments) (name : Setting) (value : String) :
    Except Stop GenerateArguments :=
  match name with
  | .config => do
      let config ← once a.config (← pathValue value)
      .ok {a with config}
  | .baseDir => do
      let baseDir ← once a.flags.baseDir (← pathValue value)
      .ok {a with flags := {a.flags with baseDir}}
  | .variant =>
      match Variant.names.lookup value with
      | some v => do
          let variant ← once a.flags.variant v
          .ok {a with flags := {a.flags with variant}}
      | none => .error .usage
  | .descriptor => do
      let descriptor ← once a.flags.descriptor (← pathValue value)
      .ok {a with flags := {a.flags with descriptor}}
  | .output => do
      let path ← pathValue value
      .ok {a with flags := {a.flags with outputs := a.flags.outputs ++ [path]}}

def GenerateArguments.turnOn (a : GenerateArguments) (name : Switch) : Except Stop GenerateArguments :=
  match name with
  | .pretty => do
      let layout ← once a.flags.layout .pretty
      .ok {a with flags := {a.flags with layout}}
  | .stdout => if a.stdout then .error .usage else .ok {a with stdout := true}

inductive Shape where
  | escape
  | long (name : String) (value : Option String)
  | short (letters : List Char)
  | plain

def shape (argument : String) : Shape :=
  match argument.toList with
  | ['-','-'] => .escape
  | '-' :: '-' :: rest =>
      match rest.dropWhile (· ≠ '=') with
      | [] => .long (String.ofList rest) none
      | _ :: value => .long (String.ofList (rest.takeWhile (· ≠ '='))) (some (String.ofList value))
  | '-' :: c :: rest => .short (c :: rest)
  | _ => .plain

-- Letters of one argument: switches up to an option, whose value may follow without a gap. What is
-- left over is an option that still waits for its value.
def cluster (a : GenerateArguments) : List Char → Except Stop (GenerateArguments × Option Setting)
  | [] => .ok (a,none)
  | c :: rest =>
      match shortFlags.lookup c with
      | some (.setting name) =>
          match rest with
          | [] => .ok (a,some name)
          | d :: value => do
              let a ← a.set name (String.ofList (if d = '=' then value else d :: value))
              .ok (a,none)
      | some (.switch name) => do
          let a ← a.turnOn name
          cluster a rest
      | some .help => .error (.help .generate)
      | none => .error .usage

def GenerateArguments.take (a : GenerateArguments) (argument : String) :
    Except Stop (GenerateArguments × Option Setting) :=
  match shape argument with
  | .short letters => cluster a letters
  | .long name value =>
      match longFlags.lookup name,value with
      | some (.setting name),some value => do
          let a ← a.set name value
          .ok (a,none)
      | some (.setting name),none => .ok (a,some name)
      | some (.switch name),none => do
          let a ← a.turnOn name
          .ok (a,none)
      | some .help,none => .error (.help .generate)
      | _,_ => .error .usage
  | .escape | .plain => .error .usage

def readGenerate (waiting : Option Setting) (a : GenerateArguments) :
    List String → Except Stop GenerateArguments
  | [] => if waiting.isSome then .error .usage else .ok a
  | argument :: rest =>
      match waiting,shape argument with
      | some name,.plain => do
          let a ← a.set name argument
          readGenerate none a rest
      | some _,_ => .error .usage
      | none,.escape => if rest.isEmpty then .ok a else .error .usage
      | none,_ => do
          let (a,waiting) ← a.take argument
          readGenerate waiting a rest

def askedFor (page : Page) : Shape → Stop
  | .short letters => if letters.head? == some 'h' then .help page else .usage
  | .long name value => if name == "help" && value.isNone then .help page else .usage
  | .escape | .plain => .usage

def readLookup (escaped : Bool) (found : List String) : List String → Except Stop Invocation
  | [] =>
      match found with
      | [map,node] => .ok (.lookup ⟨map⟩ node)
      | _ => .error .usage
  | argument :: rest =>
      let positional : Except Stop (List String) :=
        match found with
        | [] => if argument.isEmpty then .error .usage else .ok [argument]
        | [map] => .ok [map,argument]
        | _ => .error .usage
      match escaped,shape argument with
      | true,_ | false,.plain => do
          let found ← positional
          readLookup escaped found rest
      | false,.escape => readLookup true found rest
      | false,other => .error (askedFor .lookup other)

def readHelp : List String → Except Stop Invocation
  | [] => .error (.help .overview)
  | ["generate"] => .error (.help .generate)
  | ["lookup"] => .error (.help .lookup)
  | ["help"] => .error (.help .help)
  | _ => .error .usage

def Invocation.ofArguments : List String → Except Stop Invocation
  | [] => .ok (.generate GenerateArguments.unset)
  | argument :: rest =>
      match shape argument with
      | .escape => if rest.isEmpty then .ok (.generate GenerateArguments.unset) else .error .usage
      | .plain =>
          if argument = "generate" then (readGenerate none GenerateArguments.unset rest).map .generate
          else if argument = "lookup" then readLookup false [] rest
          else if argument = "help" then readHelp rest
          else .error .usage
      | other => .error (askedFor .overview other)

end SyntaxCatalog.Command
