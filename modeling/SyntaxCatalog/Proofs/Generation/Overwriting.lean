import SyntaxCatalog.Proofs.Generation.Destinations
import SyntaxCatalog.Proofs.Generation.Protocol
import SyntaxCatalog.Proofs.Program.Alike

/-! What earlier outputs contained is overwritten and never read. Two trees that differ in it alone are treated
alike, request by request: a generation reads its descriptor, and otherwise only looks into a file of its own. -/
namespace SyntaxCatalog
open FileTree Program

/- Two trees in which a generation goes on in the same way from this stage. -/
structure Parallel (base : Location) (plan : Plan) (stage : Stage) (t other : FileTree) : Prop where
  alike : t.Alike other
  own : ∀ file, stage.Owns file → t.get? file = other.get? file
  unread : stage.read? = none → t.read base plan.descriptor = other.read base plan.descriptor

structure SameWay {α : Type} (t other : FileTree) (one two : Outcome α) : Prop where
  value : two.value = one.value
  log : two.log = one.log
  kept : Kept t other one.tree two.tree

section
variable {deniable : Request.Deniable} {base : Location} {plan : Plan} {t other after next : FileTree}
  {stage later : Stage} {r : Request} {answer : r.Answer}

theorem goesSees (goes : stage.Goes plan r answer later) (parallel : Parallel base plan stage t other) :
    r.SeesSame base t other := by
  cases goes with
  | told | asked | made | unmade | discarded => trivial
  | read | unread => exact parallel.unread rfl
  | set | filled | cutShort | moved | unmoved => exact parallel.own _ rfl

theorem goesOwns (goes : stage.Goes plan r answer later) (comes : r.Comes deniable base t answer after) {file : Location}
    (own : later.Owns file) : stage.Owns file ∨ t.get? file = none := by
  cases goes with
  | told | asked | set | filled | cutShort | unmoved => exact .inl own
  | read | unread | unmade | moved | discarded => exact own.elim
  | made =>
      rcases comesCreate comes with ⟨_,failed,_⟩ | ⟨_,_,nothing,same,_⟩
      · cases failed
      · cases same
        cases own
        exact .inr nothing

theorem goesUnread (goes : stage.Goes plan r answer later) (comes : r.Comes deniable base t answer after)
    (nothing : later.read? = none) : stage.read? = none ∧ after = t := by
  cases goes with
  | told =>
      cases comes
      exact ⟨nothing,rfl⟩
  | asked => exact ⟨nothing,(comesModeOf comes).2⟩
  | unread => exact ⟨nothing,(comesRead comes).1⟩
  | read | made | unmade | set | filled | cutShort | moved | unmoved | discarded => cases nothing

theorem parallelOnward (goes : stage.Goes plan r answer later) (parallel : Parallel base plan stage t other)
    (one : r.Comes deniable base t answer after) (two : r.Comes deniable base other answer next)
    (kept : Kept t other after next) :
    Parallel base plan later after next := by
  refine ⟨kept.alike,?_,?_⟩
  · intro file own
    rcases goesOwns goes one own with before | nothing
    · exact kept.same file (parallel.own file before)
    · exact kept.same file (nothing.trans (alikeNone parallel.alike nothing).symm)
  · intro nothing
    obtain ⟨before,same⟩ := goesUnread goes one nothing
    obtain ⟨_,again⟩ := goesUnread goes two nothing
    rw [same,again]
    exact parallel.unread before

variable {α : Type} {p : Program α} {post : α → Stage → Prop}

theorem runParallel (obeys : p.Obeys plan post stage) (parallel : Parallel base plan stage t other) :
    SameWay t other (p.run base t) (p.run base other) := by
  induction p generalizing stage t other with
  | done a => exact ⟨rfl,rfl,keptStill parallel.alike⟩
  | ask r next ih =>
      obtain ⟨later,goes,others⟩ := obeys (r.perform base t).1
      obtain ⟨same,kept⟩ := Request.performAlike parallel.alike (goesSees goes parallel)
      have two : r.Comes .none base other (r.perform base other).1 (r.perform base other).2 := .performed r
      rw [same] at two
      have rest := ih _ others (parallelOnward goes parallel (.performed r) two kept)
      simp only [run,same]
      exact ⟨rest.value,by rw [rest.log],kept.trans rest.kept⟩

theorem runsParallel (obeys : p.Obeys plan post stage) (parallel : Parallel base plan stage t other) {one : Outcome α}
    (h : p.Runs deniable base t one) : ∃ two, p.Runs deniable base other two ∧ SameWay t other one two := by
  induction h generalizing stage other with
  | done a t => exact ⟨_,.done a other,rfl,rfl,keptStill parallel.alike⟩
  | ask comes _ ih =>
      obtain ⟨later,goes,others⟩ := obeys _
      obtain ⟨next,again,kept⟩ := Request.comesAlike parallel.alike (goesSees goes parallel) comes
      obtain ⟨two,runs,rest⟩ := ih others (parallelOnward goes parallel comes again kept)
      exact ⟨_,.ask again runs,rest.value,by rw [rest.log],kept.trans rest.kept⟩

end

/- The trees are the same but for what earlier outputs contain: files that stand at outputs of the plan, and
of which none is the descriptor's. -/
structure EarlierOutputs (base : Location) (plan : Plan) (t other : FileTree) : Prop where
  alike : t.Alike other
  outputs : ∀ loc, t.get? loc ≠ other.get? loc → ∃ path ∈ plan.outputs, t.target base path = .ok loc
  apart : ∀ loc, t.get? loc ≠ other.get? loc → t.locate base plan.descriptor ≠ .ok loc

structure Unaffected (one two : Outcome (Except Fault Report)) : Prop where
  value : two.value = one.value
  log : two.log = one.log
  mask : two.tree.mask = one.tree.mask
  tree : ∀ report, one.value = .ok report → ∀ loc, two.tree.get? loc = one.tree.get? loc

section
variable {deniable : Request.Deniable} {base : Location} {plan : Plan} {t other : FileTree} {report : Report}

theorem generatedFiles {o : Outcome (Except Fault Report)} (h : (generate plan).Runs deniable base t o)
    (done : o.value = .ok report) : ∃ text d, t.Holds base plan.descriptor text ∧ Descriptor.ofJson text = .ok d ∧
      ∀ path ∈ plan.outputs, ∃ loc mode, t.target base path = .ok loc ∧
        o.tree.get? loc = some (.file (plan.contents d) mode) := by
  obtain ⟨value,log,tree⟩ := o
  have course := generateRuns h
  cases done
  cases course with
  | finished holds accepted written => exact ⟨_,_,holds,accepted,fun path => writtenFile written⟩

variable (earlier : EarlierOutputs base plan t other)
include earlier

theorem descriptorSame : t.read base plan.descriptor = other.read base plan.descriptor := by
  refine readAlike earlier.alike (fun loc located => Classical.byContradiction (fun different => ?_))
  exact earlier.apart loc different located

theorem parallelStart : Parallel base plan .unread t other :=
  ⟨earlier.alike,fun _ own => own.elim,fun _ => descriptorSame earlier⟩

theorem sameWayUnaffected {one two : Outcome (Except Fault Report)} (first : (generate plan).Runs deniable base t one)
    (second : (generate plan).Runs deniable base other two) (way : SameWay t other one two) : Unaffected one two := by
  refine ⟨way.value,way.log,way.kept.alike.mask.symm,?_⟩
  intro report done loc
  by_cases same : t.get? loc = other.get? loc
  · exact (way.kept.same loc same).symm
  · obtain ⟨path,member,target⟩ := earlier.outputs loc same
    obtain ⟨text,d,⟨contents,read,decoded⟩,accepted,files⟩ := generatedFiles first done
    obtain ⟨text',d',holds',accepted',files'⟩ := generatedFiles second (way.value.trans done)
    have again : other.Holds base plan.descriptor text := ⟨contents,(descriptorSame earlier).symm.trans read,decoded⟩
    cases holdsUnique again holds'
    cases accepted.symm.trans accepted'
    obtain ⟨_,mode,here,one⟩ := files path member
    obtain ⟨_,mode',here',two⟩ := files' path member
    rw [← targetAlike earlier.alike] at here'
    cases target.symm.trans here
    cases target.symm.trans here'
    rcases way.kept.alike.entries loc with equal | ⟨_,_,_,there,there'⟩
    · exact equal.symm
    · cases one.symm.trans there
      cases two.symm.trans there'
      rw [one,two]

end

/- A generation is not affected by what its outputs contained before: neither when the trees alone decide, nor
on a system that may deny requests, where whatever comes of the one tree may come of the other. -/
theorem earlierOutputsIgnored {base : Location} {plan : Plan} {t other : FileTree}
    (earlier : EarlierOutputs base plan t other) :
    Unaffected ((generate plan).run base t) ((generate plan).run base other) ∧
      ∀ deniable one, (generate plan).Runs deniable base t one →
        ∃ two, (generate plan).Runs deniable base other two ∧ Unaffected one two := by
  have start := parallelStart earlier
  constructor
  · exact sameWayUnaffected earlier (runsRun .none base _ t) (runsRun .none base _ other)
      (runParallel (generateObeys plan) start)
  · intro deniable one first
    obtain ⟨two,second,way⟩ := runsParallel (generateObeys plan) start first
    exact ⟨two,second,sameWayUnaffected earlier first second way⟩

def staleTree (stale : String) : FileTree :=
  .holding [(["in"],.file (String.ofList twice.spelled).toUTF8 0o644),(["out"],.file stale.toUTF8 0o600)]

def stalePlan : Plan := ⟨⟨"in"⟩,[⟨"out"⟩,⟨"./out"⟩],.compact⟩

theorem staleElsewhere (old new : String) {loc : Location} (elsewhere : loc ≠ ["out"]) :
    (staleTree old).get? loc = (staleTree new).get? loc := by
  cases loc with
  | nil => rfl
  | cons first rest =>
      have apart : (first :: rest == ["out"]) = false := beq_eq_false_iff_ne.2 elsewhere
      simp only [staleTree,holding,get?,List.lookup_cons,apart]

theorem staleEarlier (old new : String) : EarlierOutputs [] stalePlan (staleTree old) (staleTree new) := by
  have only : ∀ loc, (staleTree old).get? loc ≠ (staleTree new).get? loc → loc = ["out"] :=
    fun loc different => Classical.byContradiction (fun elsewhere => different (staleElsewhere old new elsewhere))
  refine ⟨⟨rfl,?_⟩,?_,?_⟩
  · intro loc
    by_cases here : loc = ["out"]
    · subst here
      exact .inr ⟨_,_,_,rfl,rfl⟩
    · exact .inl (staleElsewhere old new here)
  · intro loc different
    obtain rfl := only loc different
    exact ⟨⟨"out"⟩,List.mem_cons_self,rfl⟩
  · intro loc different located
    obtain rfl := only loc different
    have there : (staleTree old).locate [] stalePlan.descriptor = .ok ["in"] := rfl
    simp [there] at located

theorem staleHolds (stale : String) : (staleTree stale).Holds [] ⟨"in"⟩ (String.ofList twice.spelled) := holdsText rfl

theorem staleIgnored : EarlierOutputs [] stalePlan (staleTree "\x7b\x7d") (staleTree "old") ∧
    ((generate stalePlan).run [] (staleTree "old")).value =
      .ok ⟨(Catalog.ofDescriptor twice).2.size,stalePlan.outputs⟩ ∧
    ((generate stalePlan).run [] (staleTree "old")).log = ((generate stalePlan).run [] (staleTree "\x7b\x7d")).log ∧
    ∀ loc, ((generate stalePlan).run [] (staleTree "old")).tree.get? loc =
      ((generate stalePlan).run [] (staleTree "\x7b\x7d")).tree.get? loc := by
  have done : ((generate stalePlan).run [] (staleTree "\x7b\x7d")).value =
      .ok ⟨(Catalog.ofDescriptor twice).2.size,stalePlan.outputs⟩ := by
    rw [(generateRun (by decide) (staleHolds _) (spelledRead twice)).1]
    rfl
  have earlier := staleEarlier "\x7b\x7d" "old"
  have same := (earlierOutputsIgnored earlier).1
  exact ⟨earlier,same.value.trans done,same.log,same.tree _ done⟩

end SyntaxCatalog
