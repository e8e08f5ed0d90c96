import SyntaxCatalog.FileTree

/-! Following paths through a file tree. Links are followed wherever a further part has to be found,
forty at the most on one way. -/
namespace SyntaxCatalog

inductive FileFault where
  | notFound
  | notADirectory
  | isADirectory
  | nameTooLong
  | linkLoop
  | busy
  | invalidArgument
  | embeddedNul
  | notUtf8
  | other (text : String)
  deriving DecidableEq, Repr

namespace FileTree

def longestName : Nat := 255
def longestPath : Nat := 4095
def mostLinks : Nat := 40

-- The parts of a path that name something. A slash at the end asks for a directory, as a dot does.
def parts (p : Path) : List String :=
  let all := p.cut.map String.ofList
  match all.getLast? with
  | some "" => all.filter (· ≠ "") ++ ["."]
  | _ => all.filter (· ≠ "")

def spelled (loc : Location) : Path := ⟨"/" ++ "/".intercalate loc⟩

def origin (base : Location) (p : Path) : Location := if p.isAbsolute then [] else base

def steps (t : FileTree) (follow : Location → List String → Except FileFault Location) :
    Location → List String → Except FileFault Location
  | here, [] => .ok here
  | here, part :: rest =>
      match t.get? here with
      | none => .error .notFound
      | some (.file _ _) => .error .notADirectory
      | some (.link _) => .error .notADirectory
      | some (.directory _) =>
          if part = "." then steps t follow here rest
          else if part = ".." then steps t follow here.dropLast rest
          else if longestName < part.utf8ByteSize then .error .nameTooLong
          else
            match t.get? (here ++ [part]) with
            | none => .error .notFound
            | some (.link target) => follow (origin here target) (parts target ++ rest)
            | some _ => steps t follow (here ++ [part]) rest

def walk (t : FileTree) : Nat → Location → List String → Except FileFault Location
  | 0 => steps t (fun _ _ => .error .linkLoop)
  | links + 1 => steps t (walk t links)

def refusal (nul : FileFault) (p : Path) : Option FileFault :=
  if p.text.toList.contains '\x00' then some nul
  else if p.text.isEmpty then some .notFound
  else if longestPath < p.text.utf8ByteSize then some .nameTooLong
  else none

def locate (t : FileTree) (base : Location) (p : Path) : Except FileFault Location :=
  match refusal .embeddedNul p with
  | some e => .error e
  | none => walk t mostLinks (origin base p) (parts p)

def read (t : FileTree) (base : Location) (p : Path) : Except FileFault ByteArray :=
  match t.locate base p with
  | .error e => .error e
  | .ok found =>
      match t.get? found with
      | some (.file contents _) => .ok contents
      | some (.directory _) => .error .isADirectory
      | _ => .error .notFound

def mode : FileEntry → Option Nat
  | .directory mode => some mode
  | .file _ mode => some mode
  | .link _ => none

def modeOf (t : FileTree) (base : Location) (p : Path) : Option Nat :=
  match t.locate base p with
  | .error _ => none
  | .ok found => t.get? found >>= mode

def directoryAt (t : FileTree) (base : Location) (p : Path) : Except FileFault Location :=
  match refusal .embeddedNul p with
  | some e => .error e
  | none => walk t mostLinks (origin base p) (parts p ++ ["."])

/-- The location that the last part of a path names, in the directory that the other parts lead to.
Nothing has to stand there yet, but the last part has to be a name of its own. -/
def target (t : FileTree) (base : Location) (p : Path) : Except FileFault Location :=
  match refusal .invalidArgument p with
  | some e => .error e
  | none =>
      let all := (p.cut.map String.ofList).filter (· ≠ "")
      let closed := p.text.toList.getLast? == some '/'
      match all.getLast? with
      | none => .error .busy
      | some name =>
          match walk t mostLinks (origin base p) (all.dropLast ++ ["."]) with
          | .error e => .error e
          | .ok dir =>
              if name = "." ∨ name = ".." then .error .busy
              else if longestName < name.utf8ByteSize then .error .nameTooLong
              else if closed then .error .notADirectory
              else .ok (dir ++ [name])

end FileTree
end SyntaxCatalog
