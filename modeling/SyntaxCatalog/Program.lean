import SyntaxCatalog.Event
import SyntaxCatalog.FileTree.Edit

/-! Programs that use files. A program is a tree of requests: each asks for one step and goes on
with the answer. Run on a file tree it gives a value, the events it reported, and the tree it left. -/
namespace SyntaxCatalog

inductive Request where
  | read (path : Path)
  | modeOf (path : Path)
  | create (dir : Path) (mode : Nat)
  | setMode (file : Location) (mode : Nat)
  | append (file : Location) (contents : ByteArray)
  | rename (file : Location) (path : Path)
  | discard (file : Location)
  | report (event : Event)

def Request.Answer : Request → Type
  | .read _ => Except FileFault ByteArray
  | .modeOf _ => Option Nat
  | .create _ _ => Except FileFault Location
  | .setMode _ _ | .append _ _ | .rename _ _ => Except FileFault Unit
  | .discard _ | .report _ => Unit

inductive Program (α : Type) where
  | done (value : α)
  | ask (request : Request) (next : request.Answer → Program α)

namespace Program

def bind {α β : Type} (p : Program α) (f : α → Program β) : Program β :=
  match p with
  | .done a => f a
  | .ask r next => .ask r (fun answer => (next answer).bind f)

instance : Monad Program where
  pure := .done
  bind := bind

def request (r : Request) : Program r.Answer := .ask r .done

def report (event : Event) : Program Unit := request (.report event)

end Program

def FileTree.after (t : FileTree) : Except FileFault FileTree → Except FileFault Unit × FileTree
  | .ok changed => (.ok (),changed)
  | .error e => (.error e,t)

def Request.perform (base : Location) : (r : Request) → FileTree → r.Answer × FileTree
  | .read path, t => (t.read base path,t)
  | .modeOf path, t => (t.modeOf base path,t)
  | .create dir mode, t =>
      match t.create base dir mode with
      | .ok (file,t) => (.ok file,t)
      | .error e => (.error e,t)
  | .setMode file mode, t => t.after (t.setMode file mode)
  | .append file contents, t => t.after (t.append file contents)
  | .rename file path, t => t.after (t.rename base file path)
  | .discard file, t => ((),t.erase file)
  | .report _, t => ((),t)

def Request.events : Request → List Event
  | .report event => [event]
  | _ => []

structure Outcome (α : Type) where
  value : α
  log : List Event
  tree : FileTree

namespace Program

def run {α : Type} (base : Location) : Program α → FileTree → Outcome α
  | .done a, t => ⟨a,[],t⟩
  | .ask r next, t =>
      let (answer,t) := r.perform base t
      let rest := (next answer).run base t
      {rest with log := r.events ++ rest.log}

theorem runPure {α : Type} (base : Location) (a : α) (t : FileTree) :
    (pure a : Program α).run base t = ⟨a,[],t⟩ := rfl

theorem runBind {α β : Type} (base : Location) (p : Program α) (f : α → Program β) (t : FileTree) :
    (p >>= f).run base t =
      let first := p.run base t
      let second := (f first.value).run base first.tree
      ⟨second.value,first.log ++ second.log,second.tree⟩ := by
  induction p generalizing t with
  | done a => rfl
  | ask r next ih =>
      have later := ih (r.perform base t).1 (r.perform base t).2
      simp only [Bind.bind] at later ⊢
      simp [bind,run,later]

theorem runRequest (base : Location) (r : Request) (t : FileTree) :
    (request r).run base t = ⟨(r.perform base t).1,r.events,(r.perform base t).2⟩ := by
  simp [request,run]

end Program
end SyntaxCatalog
