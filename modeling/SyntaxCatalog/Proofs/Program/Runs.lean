import SyntaxCatalog.Generation

/-! Runs of programs on a system that may deny some of the requests for files, for reasons that are not in the tree,
and may give new files any free name. The run that follows the tree alone is one of these runs, so what is said of
all of them holds of it as well. -/
namespace SyntaxCatalog

namespace Request
variable (base : Location) (t : FileTree)

theorem performRead (path : Path) : (read path).perform base t = (t.read base path,t) := by rfl

theorem performModeOf (path : Path) : (modeOf path).perform base t = (t.modeOf base path,t) := by rfl

theorem performCreate (dir : Path) (mode : Nat) :
    (create dir mode).perform base t = match t.create base dir mode with
    | .ok (file,made) => (.ok file,made)
    | .error e => (.error e,t) := by rfl

theorem performSetMode (file : Location) (mode : Nat) :
    (setMode file mode).perform base t = t.after (t.setMode file mode) := by rfl

theorem performAppend (file : Location) (contents : ByteArray) :
    (append file contents).perform base t = t.after (t.append file contents) := by rfl

theorem performRename (file : Location) (path : Path) :
    (rename file path).perform base t = t.after (t.rename base file path) := by rfl

abbrev Deniable := Request → Prop

def Deniable.none : Deniable := fun _ => False

end Request

/- What a request may come to in a tree. A denied request leaves the tree alone, but `append` may have written a part
of the contents before. Who asks for a mode and is denied is told of none. -/
inductive Request.Comes (deniable : Request.Deniable) (base : Location) (t : FileTree) :
    (r : Request) → r.Answer → FileTree → Prop where
  | performed (r : Request) : Comes deniable base t r (r.perform base t).1 (r.perform base t).2
  | created {dir : Path} {mode : Nat} {found : Location} {name : String} (there : t.directoryAt base dir = .ok found)
      (free : t.get? (found ++ [name]) = none) :
      Comes deniable base t (.create dir mode) (.ok (found ++ [name]))
        (t.put (found ++ [name]) (.file ByteArray.empty (t.masked mode)))
  | unread {path : Path} (e : FileFault) (may : deniable (.read path)) : Comes deniable base t (.read path) (.error e) t
  | untold {path : Path} (may : deniable (.modeOf path)) : Comes deniable base t (.modeOf path) none t
  | uncreated {dir : Path} {mode : Nat} (e : FileFault) (may : deniable (.create dir mode)) :
      Comes deniable base t (.create dir mode) (.error e) t
  | unset {file : Location} {mode : Nat} (e : FileFault) (may : deniable (.setMode file mode)) :
      Comes deniable base t (.setMode file mode) (.error e) t
  | cutShort {file : Location} {written front back : ByteArray} {mode : Nat} (there : t.get? file = some (.file written mode))
      (e : FileFault) (may : deniable (.append file (front ++ back))) :
      Comes deniable base t (.append file (front ++ back)) (.error e) (t.put file (.file (written ++ front) mode))
  | unwritten {file : Location} {contents : ByteArray} (e : FileFault) (may : deniable (.append file contents)) :
      Comes deniable base t (.append file contents) (.error e) t
  | unmoved {file : Location} {path : Path} (e : FileFault) (may : deniable (.rename file path)) :
      Comes deniable base t (.rename file path) (.error e) t

namespace Program
variable {deniable : Request.Deniable}

inductive Runs {α : Type} (deniable : Request.Deniable) (base : Location) :
    Program α → FileTree → Outcome α → Prop where
  | done (a : α) (t : FileTree) : Runs deniable base (.done a) t ⟨a,[],t⟩
  | ask {r : Request} {next : r.Answer → Program α} {t between : FileTree} {answer : r.Answer} {rest : Outcome α}
      (comes : r.Comes deniable base t answer between) (goes : Runs deniable base (next answer) between rest) :
      Runs deniable base (.ask r next) t ⟨rest.value,r.events ++ rest.log,rest.tree⟩

theorem runsRun {α : Type} (deniable : Request.Deniable) (base : Location) (p : Program α) (t : FileTree) :
    p.Runs deniable base t (p.run base t) := by
  induction p generalizing t with
  | done a => exact .done a t
  | ask r next ih => exact .ask (.performed r) (ih (r.perform base t).1 (r.perform base t).2)

theorem runsBind {α β : Type} {base : Location} {p : Program α} {f : α → Program β} {t : FileTree} {o : Outcome β}
    (h : (p >>= f).Runs deniable base t o) :
    ∃ first second, p.Runs deniable base t first ∧ (f first.value).Runs deniable base first.tree second ∧
      o = ⟨second.value,first.log ++ second.log,second.tree⟩ := by
  induction p generalizing t o with
  | done a => exact ⟨⟨a,[],t⟩,o,.done a t,h,rfl⟩
  | ask r next ih =>
      cases h with
      | ask comes goes =>
          obtain ⟨first,second,before,after,same⟩ := ih _ goes
          refine ⟨_,second,.ask comes before,after,?_⟩
          simp [same]

theorem runsRequest {base : Location} {r : Request} {t : FileTree} {o : Outcome r.Answer}
    (h : (request r).Runs deniable base t o) : r.Comes deniable base t o.value o.tree := by
  cases h with
  | ask comes goes =>
      cases goes
      exact comes

theorem runsReport {base : Location} {event : Event} {t : FileTree} {o : Outcome Unit}
    (h : (report event).Runs deniable base t o) : o.tree = t := by
  cases runsRequest h
  rfl

theorem runsAndThen {α β ε : Type} {base : Location} {p : Program (Except ε α)} {next : α → Program (Except ε β)}
    {t : FileTree} {o : Outcome (Except ε β)} (h : (p.andThen next).Runs deniable base t o) :
    ∃ first, p.Runs deniable base t first ∧ match first.value with
      | .error e => o.value = .error e ∧ o.tree = first.tree
      | .ok a => ∃ rest, (next a).Runs deniable base first.tree rest ∧ o.value = rest.value ∧ o.tree = rest.tree := by
  obtain ⟨first,second,before,after,rfl⟩ := runsBind h
  refine ⟨first,before,?_⟩
  cases found : first.value with
  | error e =>
      rw [found] at after
      cases after
      exact ⟨rfl,rfl⟩
  | ok a =>
      rw [found] at after
      exact ⟨second,after,rfl,rfl⟩

def Still {α : Type} (deniable : Request.Deniable) (base : Location) (p : Program α) : Prop :=
  ∀ ⦃t o⦄, p.Runs deniable base t o → o.tree = t

section
variable {α β ε : Type} {base : Location}

theorem stillPure (a : α) : Still deniable base (pure a) := by
  intro t o h
  cases h
  rfl

theorem stillBind {p : Program α} {f : α → Program β} (first : p.Still deniable base)
    (onward : ∀ a, (f a).Still deniable base) : Still deniable base (p >>= f) := by
  intro t o h
  obtain ⟨before,after,begun,goes,rfl⟩ := runsBind h
  exact (onward _ goes).trans (first begun)

theorem stillAndThen {p : Program (Except ε α)} {next : α → Program (Except ε β)} (first : p.Still deniable base)
    (onward : ∀ a, (next a).Still deniable base) : Still deniable base (p.andThen next) := by
  refine stillBind first ?_
  intro found
  cases found with
  | error e => exact stillPure _
  | ok a => exact onward a

end

section
variable (base : Location) (t : FileTree)

theorem runModeOf (path : Path) : (request (.modeOf path)).run base t = ⟨t.modeOf base path,[],t⟩ :=
  runRequest base (.modeOf path) t

theorem runCreate {dir : Path} {mode : Nat} {made : Location × FileTree} (h : t.create base dir mode = .ok made) :
    @run (Except FileFault Location) base (request (.create dir mode)) t = ⟨.ok made.1,[],made.2⟩ := by
  have asked := runRequest base (.create dir mode) t
  rw [Request.performCreate,h] at asked
  exact asked

theorem runUncreated {dir : Path} {mode : Nat} {e : FileFault} (h : t.create base dir mode = .error e) :
    @run (Except FileFault Location) base (request (.create dir mode)) t = ⟨.error e,[],t⟩ := by
  have asked := runRequest base (.create dir mode) t
  rw [Request.performCreate,h] at asked
  exact asked

theorem runSetMode {file : Location} {mode : Nat} {after : FileTree} (h : t.setMode file mode = .ok after) :
    @run (Except FileFault Unit) base (request (.setMode file mode)) t = ⟨.ok (),[],after⟩ := by
  have asked := runRequest base (.setMode file mode) t
  rw [Request.performSetMode,h] at asked
  exact asked

theorem runAppend {file : Location} {contents : ByteArray} {after : FileTree} (h : t.append file contents = .ok after) :
    @run (Except FileFault Unit) base (request (.append file contents)) t = ⟨.ok (),[],after⟩ := by
  have asked := runRequest base (.append file contents) t
  rw [Request.performAppend,h] at asked
  exact asked

theorem runRename {file : Location} {path : Path} {after : FileTree} (h : t.rename base file path = .ok after) :
    @run (Except FileFault Unit) base (request (.rename file path)) t = ⟨.ok (),[],after⟩ := by
  have asked := runRequest base (.rename file path) t
  rw [Request.performRename,h] at asked
  exact asked

theorem runUnmoved {file : Location} {path : Path} {e : FileFault} (h : t.rename base file path = .error e) :
    @run (Except FileFault Unit) base (request (.rename file path)) t = ⟨.error e,[],t⟩ := by
  have asked := runRequest base (.rename file path) t
  rw [Request.performRename,h] at asked
  exact asked

end

theorem runReport (base : Location) (event : Event) (t : FileTree) : (report event).run base t = ⟨(),[event],t⟩ := by rfl

theorem runAndThen {α β ε : Type} {base : Location} {p : Program (Except ε α)} {next : α → Program (Except ε β)}
    {t after : FileTree} {a : α} {log : List Event} (h : p.run base t = ⟨.ok a,log,after⟩) :
    (p.andThen next).run base t =
      ⟨((next a).run base after).value,log ++ ((next a).run base after).log,((next a).run base after).tree⟩ := by
  rw [andThen,runBind,h]

theorem runOnward {α β ε : Type} {base : Location} {p : Program (Except ε α)} {next : α → Program (Except ε β)}
    {t after last : FileTree} {a : α} {b : Except ε β} {log later : List Event} (first : p.run base t = ⟨.ok a,log,after⟩)
    (second : (next a).run base after = ⟨b,later,last⟩) : (p.andThen next).run base t = ⟨b,log ++ later,last⟩ := by
  rw [runAndThen first,second]

theorem runDone {α β ε : Type} {base : Location} {p : Program (Except ε α)} {next : α → Program (Except ε β)}
    {t : FileTree} {b : β} (h : ((p.andThen next).run base t).value = .ok b) :
    ∃ a, (p.run base t).value = .ok a ∧ ((next a).run base (p.run base t).tree).value = .ok b := by
  rw [andThen,runBind] at h
  dsimp only at h
  cases first : (p.run base t).value with
  | error e =>
      rw [first] at h
      cases h
  | ok a =>
      rw [first] at h
      exact ⟨a,rfl,h⟩

theorem runParts {α : Type} {base : Location} {p : Program α} {t after : FileTree} {a : α} (value : (p.run base t).value = a)
    (tree : (p.run base t).tree = after) : p.run base t = ⟨a,(p.run base t).log,after⟩ := by
  rw [← value,← tree]

theorem runFailed {α β ε : Type} {base : Location} {p : Program (Except ε α)} {next : α → Program (Except ε β)}
    {t after : FileTree} {e : ε} {log : List Event} (h : p.run base t = ⟨.error e,log,after⟩) :
    (p.andThen next).run base t = ⟨.error e,log,after⟩ := by
  rw [andThen,runBind,h]
  simp [runPure]

end Program
end SyntaxCatalog
