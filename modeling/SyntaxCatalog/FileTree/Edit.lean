import SyntaxCatalog.FileTree.Walk

/-! Changing a file tree: the operations by which a file is replaced, and those that build a tree. -/
namespace SyntaxCatalog.FileTree

def temporaryStem : String := ".parameter-names"

-- A name for a temporary file, longer than any that is in use.
def freshName (t : FileTree) (dir : Location) : String :=
  let used := t.entries.filterMap (fun entry =>
    if entry.1.dropLast == dir then entry.1.getLast?.map String.length else none)
  temporaryStem ++ String.ofList (List.replicate (max 6 (used.foldl max 0 - 15)) 'x')

def temporaryPath (base : Location) (dir : Path) : Path :=
  ((spelled base).join dir).join ⟨temporaryStem ++ "xxxxxx"⟩

def create (t : FileTree) (base : Location) (dir : Path) (mode : Nat) : Except FileFault (Location × FileTree) :=
  match refusal .embeddedNul (temporaryPath base dir),t.directoryAt base dir with
  | some e,_ => .error e
  | none,.error e => .error e
  | none,.ok found =>
      let temporary := found ++ [t.freshName found]
      .ok (temporary,t.put temporary (.file ByteArray.empty (t.masked mode)))

def setMode (t : FileTree) (loc : Location) (mode : Nat) : Except FileFault FileTree :=
  match t.get? loc with
  | some (.file contents _) => .ok (t.put loc (.file contents mode))
  | some (.directory _) => .ok (t.put loc (.directory mode))
  | _ => .error .notFound

def append (t : FileTree) (loc : Location) (contents : ByteArray) : Except FileFault FileTree :=
  match t.get? loc with
  | some (.file written mode) => .ok (t.put loc (.file (written ++ contents) mode))
  | some (.directory _) => .error .isADirectory
  | _ => .error .notFound

def rename (t : FileTree) (base : Location) (old : Location) (new : Path) : Except FileFault FileTree :=
  match t.target base new with
  | .error e => .error e
  | .ok found =>
      match t.get? old,t.get? found with
      | none,_ => .error .notFound
      | some _,some (.directory _) => .error .isADirectory
      | some entry,_ => .ok ((t.erase old).put found entry)

def makeDirectories (t : FileTree) (base : Location) (p : Path) : FileTree :=
  let all := parts p
  (List.range all.length).foldl (fun t n =>
    let way (parts : List String) := walk t mostLinks (origin base p) (parts ++ ["."])
    match way (all.take (n + 1)),way (all.take n),all[n]? with
    | .error .notFound,.ok dir,some name => t.put (dir ++ [name]) (.directory (t.masked 0o777))
    | _,_,_ => t) t

def landing (t : FileTree) : Nat → Location → Path → Except FileFault Location
  | 0, _, _ => .error .linkLoop
  | links + 1, base, p =>
      match t.target base p with
      | .error e => .error e
      | .ok found =>
          match t.get? found with
          | some (.link target) => landing t links found.dropLast target
          | _ => .ok found

def placeDirectory (t : FileTree) (base : Location) (p : Path) : FileTree := t.makeDirectories base p

def putAt (t : FileTree) (entry : Location → FileEntry) : Except FileFault Location → FileTree
  | .ok found => t.put found (entry found)
  | .error _ => t

def placeLink (t : FileTree) (base : Location) (p target : Path) : FileTree :=
  let t := t.makeDirectories base p.directory
  t.putAt (fun _ => .link target) (t.target base p)

def placeFile (t : FileTree) (base : Location) (p : Path) (contents : ByteArray) : FileTree :=
  let t := t.makeDirectories base p.directory
  t.putAt (fun found => .file contents ((t.get? found >>= mode).getD (t.masked 0o666)))
    (t.landing (mostLinks + 1) base p)

def changeMode (t : FileTree) (base : Location) (p : Path) (mode : Nat) : FileTree :=
  match t.locate base p with
  | .ok found => (t.setMode found mode).toOption.getD t
  | .error _ => t

def remove (t : FileTree) (base : Location) (p : Path) : FileTree :=
  match t.target base p,t.locate base p with
  | .ok found,_ | .error _,.ok found =>
      {t with entries := t.entries.filter (fun entry => !found.isPrefixOf entry.1)}
  | .error _,.error _ => t

end SyntaxCatalog.FileTree
