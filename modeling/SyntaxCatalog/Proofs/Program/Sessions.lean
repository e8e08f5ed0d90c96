import Mathlib.Logic.Function.Basic
import Mathlib.Logic.Relation
import SyntaxCatalog.Proofs.Program.Runs

/-! Programs that run at the same time on one tree. Each move is a single request of one of them, in any
order, and any of them may stop for good between two moves. What is appended may arrive in parts. -/
namespace SyntaxCatalog

def Request.Spares (taken : Location → Prop) : (r : Request) → r.Answer → Prop
  | .create _ _, .ok file => ¬taken file
  | _, _ => True

namespace Program
variable {α β ε : Type} {deniable : Request.Deniable} {taken : Location → Prop} {base : Location}

inductive Moves (deniable : Request.Deniable) (taken : Location → Prop) (base : Location) :
    Program α → FileTree → Program α → FileTree → Prop where
  | answered {r : Request} {next : r.Answer → Program α} {t after : FileTree} {answer : r.Answer}
      (comes : r.Comes deniable base t answer after) (spares : r.Spares taken answer) :
      Moves deniable taken base (.ask r next) t (next answer) after
  | inPart {file : Location} {front back : ByteArray} {next : Except FileFault Unit → Program α} {t after : FileTree}
      (written : t.append file front = .ok after) :
      Moves deniable taken base (.ask (.append file (front ++ back)) next) t (.ask (.append file back) next) after

inductive Onward (deniable : Request.Deniable) (taken : Location → Prop) (base : Location) :
    Program α → FileTree → Program α → FileTree → Prop where
  | still (p : Program α) (t : FileTree) : Onward deniable taken base p t p t
  | first {p q later : Program α} {t between after : FileTree} (move : p.Moves deniable taken base t q between)
      (others : Onward deniable taken base q between later after) : Onward deniable taken base p t later after

theorem movesBind {p later : Program α} {t after : FileTree} (f : α → Program β)
    (h : p.Moves deniable taken base t later after) : (p >>= f).Moves deniable taken base t (later >>= f) after := by
  cases h with
  | answered comes spares => exact .answered comes spares
  | inPart written => exact .inPart written

theorem onwardBind {p later : Program α} {t after : FileTree} (f : α → Program β)
    (h : p.Onward deniable taken base t later after) : (p >>= f).Onward deniable taken base t (later >>= f) after := by
  induction h with
  | still p t => exact .still _ t
  | first move _ ih => exact .first (movesBind f move) ih

theorem onwardThen {p between later : Program α} {t middle after : FileTree}
    (h : p.Onward deniable taken base t between middle) (others : between.Onward deniable taken base middle later after) :
    p.Onward deniable taken base t later after := by
  induction h with
  | still => exact others
  | first move _ ih => exact .first move (ih others)

theorem onwardRun (fresh : ∀ (t : FileTree) dir mode made, t.create base dir mode = .ok made → ¬taken made.1)
    (p : Program α) (t : FileTree) : p.Onward deniable taken base t (.done (p.run base t).value) (p.run base t).tree := by
  induction p generalizing t with
  | done a => exact .still _ t
  | ask r next ih =>
      have spares : r.Spares taken (r.perform base t).1 := by
        cases r with
        | create dir mode =>
            rw [Request.performCreate]
            cases made : t.create base dir mode with
            | ok file => exact fresh t dir mode file made
            | error e => trivial
        | _ => trivial
      exact .first (.answered (.performed r) spares) (ih _ _)

theorem onwardOn {p : Program α} {f : α → Program β} {a : α} {log : List Event} {later : Program β}
    {t between after : FileTree} (fresh : ∀ (t : FileTree) dir mode made, t.create base dir mode = .ok made → ¬taken made.1)
    (first : p.run base t = ⟨a,log,between⟩) (others : (f a).Onward deniable taken base between later after) :
    (p >>= f).Onward deniable taken base t later after := by
  have alone : p.Onward deniable taken base t _ _ := onwardRun fresh p t
  rw [first] at alone
  exact onwardThen (onwardBind f alone) others

end Program

/- What is left to do of each program; nothing is left of one that was stopped. -/
structure Session (ι α : Type) where
  tree : FileTree
  rest : ι → Option (Program α)

namespace Session
variable {ι α : Type} [DecidableEq ι]

inductive Step (deniable : Request.Deniable) (taken : Location → Prop) (base : ι → Location) :
    Session ι α → Session ι α → Prop where
  | moves {s : Session ι α} {i : ι} {p later : Program α} {after : FileTree} (running : s.rest i = some p)
      (move : p.Moves deniable taken (base i) s.tree later after) :
      Step deniable taken base s ⟨after,Function.update s.rest i (some later)⟩
  | stops (s : Session ι α) (i : ι) : Step deniable taken base s ⟨s.tree,Function.update s.rest i none⟩

def Reaches (deniable : Request.Deniable) (taken : Location → Prop) (base : ι → Location) :
    Session ι α → Session ι α → Prop :=
  Relation.ReflTransGen (Step deniable taken base)

theorem reachesOnward {deniable : Request.Deniable} {taken : Location → Prop} {base : ι → Location}
    {rest : ι → Option (Program α)} {i : ι} {p later : Program α} {t after : FileTree} (running : rest i = some p)
    (h : p.Onward deniable taken (base i) t later after) :
    Reaches deniable taken base ⟨t,rest⟩ ⟨after,Function.update rest i (some later)⟩ := by
  induction h generalizing rest with
  | still p t =>
      rw [Function.update_eq_self_iff.2 running.symm]
      exact .refl
  | @first p q later t between after move others ih =>
      have onward := ih (Function.update_self i (some q) rest)
      rw [Function.update_idem] at onward
      have step : Step deniable taken base ⟨t,rest⟩ ⟨between,Function.update rest i (some q)⟩ := .moves running move
      exact onward.head step

end Session
end SyntaxCatalog
