import SyntaxCatalog.Path

/-! File trees. A tree says what stands at each location, and which permissions new entries do not get. The root
is always a directory. -/
namespace SyntaxCatalog

abbrev Location := List String

inductive FileEntry where
  | directory (mode : Nat)
  | file (contents : ByteArray) (mode : Nat)
  | link (target : Path)

structure FileTree where
  entries : List (Location × FileEntry)
  mask : Nat
  root : Nat

namespace FileTree

def holding (entries : List (Location × FileEntry)) : FileTree := ⟨entries,0o022,0o755⟩

def empty : FileTree := holding []

def masked (t : FileTree) (mode : Nat) : Nat := mode &&& (0o777 ^^^ (t.mask &&& 0o777))

def newDirectory : FileEntry := .directory (empty.masked 0o777)

def get? (t : FileTree) (loc : Location) : Option FileEntry :=
  match loc with
  | [] => some (.directory t.root)
  | _ => t.entries.lookup loc

def erase (t : FileTree) (loc : Location) : FileTree :=
  {t with entries := t.entries.filter (fun entry => entry.1 != loc)}

def placed (entries : List (Location × FileEntry)) (loc : Location) (entry : FileEntry) : List (Location × FileEntry) :=
  if (entries.lookup loc).isSome then entries.map (fun old => if old.1 == loc then (loc,entry) else old)
  else entries ++ [(loc,entry)]

def put (t : FileTree) (loc : Location) (entry : FileEntry) : FileTree :=
  match loc,entry with
  | [],.directory mode => {t with root := mode}
  | [],_ => t
  | _,_ => {t with entries := placed t.entries loc entry}

def below (t : FileTree) (loc : Location) : List (Location × FileEntry) :=
  let inside := t.entries.filter (fun entry => loc.isPrefixOf entry.1 && entry.1 != loc)
  (inside.map (fun entry => (entry.1.drop loc.length,entry.2))).mergeSort (fun a b => compare a.1 b.1 != .gt)

end FileTree
end SyntaxCatalog
