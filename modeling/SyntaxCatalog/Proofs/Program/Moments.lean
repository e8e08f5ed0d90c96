import SyntaxCatalog.Proofs.Program.Runs

/-! The moments of a run at which it reports: every event together with the tree that it is reported in. A run has
its moments and they tell its log, so whatever is said of runs can be said of the trees between the events as well. -/
namespace SyntaxCatalog

abbrev Moment := Event × FileTree

namespace Program
variable {deniable : Request.Deniable}

inductive Tells {α : Type} (deniable : Request.Deniable) (base : Location) :
    Program α → FileTree → List Moment → Outcome α → Prop where
  | done (a : α) (t : FileTree) : Tells deniable base (.done a) t [] ⟨a,[],t⟩
  | ask {r : Request} {next : r.Answer → Program α} {t between : FileTree} {answer : r.Answer} {moments : List Moment}
      {rest : Outcome α} (comes : r.Comes deniable base t answer between)
      (goes : Tells deniable base (next answer) between moments rest) :
      Tells deniable base (.ask r next) t (r.events.map (fun event => (event,t)) ++ moments)
        ⟨rest.value,r.events ++ rest.log,rest.tree⟩

theorem runsTells {α : Type} {base : Location} {p : Program α} {t : FileTree} {o : Outcome α}
    (h : p.Runs deniable base t o) : ∃ moments, p.Tells deniable base t moments o := by
  induction h with
  | done a t => exact ⟨[],.done a t⟩
  | ask comes _ ih =>
      obtain ⟨moments,goes⟩ := ih
      exact ⟨_,.ask comes goes⟩

theorem tellsRuns {α : Type} {base : Location} {p : Program α} {t : FileTree} {moments : List Moment} {o : Outcome α}
    (h : p.Tells deniable base t moments o) : p.Runs deniable base t o := by
  induction h with
  | done a t => exact .done a t
  | ask comes _ ih => exact .ask comes ih

theorem tellsLog {α : Type} {base : Location} {p : Program α} {t : FileTree} {moments : List Moment} {o : Outcome α}
    (h : p.Tells deniable base t moments o) : o.log = moments.map Prod.fst := by
  induction h with
  | done a t => rfl
  | ask comes _ ih => simp [ih,Function.comp_def]

theorem tellsBind {α β : Type} {base : Location} {p : Program α} {f : α → Program β} {t : FileTree}
    {moments : List Moment} {o : Outcome β} (h : (p >>= f).Tells deniable base t moments o) :
    ∃ front first back second, p.Tells deniable base t front first ∧
      (f first.value).Tells deniable base first.tree back second ∧ moments = front ++ back ∧
      o = ⟨second.value,first.log ++ second.log,second.tree⟩ := by
  induction p generalizing t moments o with
  | done a => exact ⟨[],⟨a,[],t⟩,moments,o,.done a t,h,rfl,rfl⟩
  | ask r next ih =>
      cases h with
      | ask comes goes =>
          obtain ⟨front,first,back,second,before,after,rfl,same⟩ := ih _ goes
          refine ⟨_,_,back,second,.ask comes before,after,?_,?_⟩
          · rw [List.append_assoc]
          · simp [same]

section
variable {α β ε : Type} {base : Location} {t : FileTree} {moments : List Moment}

theorem tellsRequest {r : Request} {o : Outcome r.Answer} (h : (request r).Tells deniable base t moments o) :
    moments = r.events.map (fun event => (event,t)) := by
  cases h with
  | ask comes goes =>
      cases goes
      exact List.append_nil _

theorem tellsReport {event : Event} {o : Outcome Unit} (h : (report event).Tells deniable base t moments o) :
    moments = [(event,t)] ∧ o.tree = t :=
  ⟨tellsRequest h,runsReport (tellsRuns h)⟩

theorem tellsAndThen {p : Program (Except ε α)} {next : α → Program (Except ε β)} {o : Outcome (Except ε β)}
    (h : (p.andThen next).Tells deniable base t moments o) :
    ∃ front first, p.Tells deniable base t front first ∧ match first.value with
      | .error e => moments = front ∧ o.value = .error e ∧ o.tree = first.tree
      | .ok a => ∃ back rest, (next a).Tells deniable base first.tree back rest ∧ moments = front ++ back ∧
          o.value = rest.value ∧ o.tree = rest.tree := by
  obtain ⟨front,first,back,second,before,after,rfl,rfl⟩ := tellsBind h
  refine ⟨front,first,before,?_⟩
  cases found : first.value with
  | error e =>
      rw [found] at after
      cases after
      exact ⟨List.append_nil front,rfl,rfl⟩
  | ok a =>
      rw [found] at after
      exact ⟨back,second,after,rfl,rfl,rfl⟩

theorem tellsMap {p : Program (Except ε α)} {f : α → β} {o : Outcome (Except ε β)}
    (h : (p.andThen (fun a => pure (.ok (f a)))).Tells deniable base t moments o) :
    ∃ first, p.Tells deniable base t moments first ∧ o.value = first.value.map f ∧ o.tree = first.tree := by
  obtain ⟨front,first,before,goes⟩ := tellsAndThen h
  cases found : first.value with
  | error e =>
      rw [found] at goes
      obtain ⟨rfl,value,tree⟩ := goes
      exact ⟨first,before,by rw [value,found]; rfl,tree⟩
  | ok a =>
      rw [found] at goes
      obtain ⟨back,rest,ends,rfl,value,tree⟩ := goes
      cases ends
      rw [List.append_nil]
      exact ⟨first,before,by rw [value,found]; rfl,tree⟩

def Quiet (deniable : Request.Deniable) (base : Location) (p : Program α) : Prop :=
  ∀ ⦃t moments o⦄, p.Tells deniable base t moments o → moments = []

theorem quietPure (a : α) : Quiet deniable base (pure a) := by
  intro t moments o h
  cases h
  rfl

theorem quietRequest {r : Request} (silent : r.events = []) : Quiet deniable base (request r) := by
  intro t moments o h
  rw [tellsRequest h,silent,List.map_nil]

theorem quietBind {p : Program α} {f : α → Program β} (first : p.Quiet deniable base)
    (onward : ∀ a, (f a).Quiet deniable base) : Quiet deniable base (p >>= f) := by
  intro t moments o h
  obtain ⟨front,before,back,after,begun,goes,rfl,rfl⟩ := tellsBind h
  rw [first begun,onward _ goes,List.append_nil]

theorem quietAndThen {p : Program (Except ε α)} {next : α → Program (Except ε β)} (first : p.Quiet deniable base)
    (onward : ∀ a, (next a).Quiet deniable base) : Quiet deniable base (p.andThen next) := by
  refine quietBind first ?_
  intro found
  cases found with
  | error e => exact quietPure _
  | ok a => exact onward a

end
end Program
end SyntaxCatalog
