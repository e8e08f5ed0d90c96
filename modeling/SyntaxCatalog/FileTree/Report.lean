import SyntaxCatalog.FileTree.Walk
import SyntaxCatalog.Text.Quoted

/-! How failures of file operations are reported. -/
namespace SyntaxCatalog.FileFault

def system : FileFault → Option (Nat × String × String)
  | .notFound => some (2,"NotFound","No such file or directory")
  | .notADirectory => some (20,"NotADirectory","Not a directory")
  | .isADirectory => some (21,"IsADirectory","Is a directory")
  | .nameTooLong => some (36,"InvalidFilename","File name too long")
  | .linkLoop => some (40,"FilesystemLoop","Too many levels of symbolic links")
  | .busy => some (16,"ResourceBusy","Device or resource busy")
  | .invalidArgument => some (22,"InvalidInput","Invalid argument")
  | .embeddedNul | .notUtf8 | .other _ => none

def own : FileFault → String × String
  | .embeddedNul => ("InvalidInput","file name contained an unexpected NUL byte")
  | .notUtf8 => ("InvalidData","stream did not contain valid UTF-8")
  | .other text => ("Other",text)
  | _ => ("Other","")

def kind (e : FileFault) : String :=
  match e.system with
  | some (_,kind,_) => kind
  | none => e.own.1

def message (e : FileFault) : String :=
  match e.system with
  | some (code,_,text) => text ++ " (os error " ++ toString code ++ ")"
  | none => e.own.2

def detail (e : FileFault) : String :=
  match e.system with
  | some (code,kind,text) =>
      "Os \x7b code: " ++ toString code ++ ", kind: " ++ kind ++ ", message: " ++ Text.quoted text ++ " \x7d"
  | none =>
      "Error \x7b kind: " ++ e.own.1 ++ ", message: " ++ Text.quoted e.own.2 ++ " \x7d"

end SyntaxCatalog.FileFault
