import SyntaxCatalog.Proofs.Generation.Moves
import SyntaxCatalog.Proofs.Generation.Regeneration

/-! Generations that run at the same time. Every destination stays as it was until it is replaced as a whole,
and nobody ever reads a part of an output, wherever any of the generations stops. -/
namespace SyntaxCatalog
open FileTree Program

structure Launch (ι : Type) where
  deniable : Request.Deniable
  tree : FileTree
  base : ι → Location
  plan : ι → Plan

namespace Launch
variable {ι : Type} [DecidableEq ι]

abbrev Run (ι : Type) : Type := Session ι (Except Fault Report)

def session (start : Launch ι) : Run ι := ⟨start.tree,fun i => some (generate (start.plan i))⟩

def Destination (start : Launch ι) (loc : Location) : Prop :=
  ∃ i, ∃ path ∈ (start.plan i).outputs, start.tree.target (start.base i) path = .ok loc

def Reaches (start : Launch ι) : Run ι → Run ι → Prop := Session.Reaches start.deniable start.Destination start.base

/- On the way to this session a generation has read its descriptor, as these bytes. -/
def HasRead (start : Launch ι) (s : Run ι) (i : ι) (read : ByteArray) : Prop :=
  ∃ (earlier : Run ι) (next : Except FileFault ByteArray → Program (Except Fault Report)),
    start.Reaches start.session earlier ∧ earlier.rest i = some (.ask (.read (start.plan i).descriptor) next) ∧
    earlier.tree.read (start.base i) (start.plan i).descriptor = .ok read ∧
    start.Reaches ⟨earlier.tree,Function.update earlier.rest i (some (next (.ok read)))⟩ s

def Made (start : Launch ι) (seen : ι → Option ByteArray) (loc : Location) (contents : ByteArray) : Prop :=
  ∃ i, ∃ path ∈ (start.plan i).outputs, ∃ read, start.tree.target (start.base i) path = .ok loc ∧
    seen i = some read ∧ (start.plan i).Renders read contents

structure Sound (start : Launch ι) (s : Run ι) (stage : ι → Stage) : Prop where
  obeys : ∀ i p, s.rest i = some p → p.Obeys (start.plan i) (fun _ _ => True) (stage i)
  passages : SamePassages start.tree s.tree
  fits : ∀ i, (stage i).Fits s.tree
  spared : ∀ i file, (stage i).Owns file → ¬start.Destination file
  apart : ∀ i j file, (stage i).Owns file → (stage j).Owns file → i = j
  whole : ∀ loc, start.Destination loc → s.tree.get? loc = start.tree.get? loc ∨
    ∃ contents mode, start.Made (fun i => (stage i).read?) loc contents ∧ s.tree.get? loc = some (.file contents mode)
  seen : ∀ i read, (stage i).read? = some read → start.HasRead s i read

variable {start : Launch ι} {s after : Run ι} {stage : ι → Stage}

theorem hasReadOnward {i : ι} {read : ByteArray} (h : start.HasRead s i read)
    (step : Session.Step start.deniable start.Destination start.base s after) : start.HasRead after i read := by
  obtain ⟨earlier,next,before,about,found,reached⟩ := h
  exact ⟨earlier,next,before,about,found,reached.tail step⟩

omit [DecidableEq ι] in
theorem madeMore {seen more : ι → Option ByteArray} (grows : ∀ i read, seen i = some read → more i = some read)
    {loc : Location} {contents : ByteArray} (h : start.Made seen loc contents) : start.Made more loc contents := by
  obtain ⟨i,path,member,read,target,known,renders⟩ := h
  exact ⟨i,path,member,read,target,grows i read known,renders⟩

theorem soundStart : start.Sound start.session (fun _ => .unread) where
  obeys i p running := by
    cases running
    exact generateObeys (start.plan i)
  passages _ := rfl
  fits _ := trivial
  spared _ _ own := own.elim
  apart _ _ _ own := own.elim
  whole _ _ := .inl rfl
  seen _ _ none := by cases none

section
variable {i : ι} {tree : FileTree} {later : Stage} (sound : start.Sound s stage)
  (respects : Respects start.Destination (start.base i) (start.plan i) s.tree (stage i) tree later)
include sound respects

theorem untouched {j : ι} (other : j ≠ i) {file : Location} (own : (stage j).Owns file) :
    tree.get? file = s.tree.get? file := by
  have foreign : ¬(stage i).Owns file := fun mine => other (sound.apart j i file own mine)
  rcases respects.others file foreign with same | ⟨nothing,_⟩ | ⟨path,member,_,_,_,target,_⟩
  · exact same
  · exact absurd nothing (fitsStands (sound.fits j) own)
  · exact absurd ⟨i,path,member,targetSame sound.passages.symm target⟩ (sound.spared j file own)

theorem stillApart {j : ι} (other : j ≠ i) {file : Location} (own : later.Owns file) : ¬(stage j).Owns file := by
  intro theirs
  rcases respects.owns file own with mine | ⟨nothing,_⟩
  · exact other (sound.apart j i file theirs mine)
  · exact fitsStands (sound.fits j) theirs nothing

theorem stillWhole {loc : Location} (destination : start.Destination loc) :
    tree.get? loc = start.tree.get? loc ∨ ∃ contents mode,
      start.Made (fun j => (Function.update stage i later j).read?) loc contents ∧
        tree.get? loc = some (.file contents mode) := by
  have grows : ∀ j read, (stage j).read? = some read → (Function.update stage i later j).read? = some read :=
    fun j => (Function.forall_update_iff stage
      (fun j now => ∀ read, (stage j).read? = some read → now.read? = some read)).2
        ⟨respects.read,fun _ _ _ known => known⟩ j
  have foreign : ¬(stage i).Owns loc := fun own => sound.spared i loc own destination
  rcases respects.others loc foreign with same | ⟨_,free⟩ | ⟨path,member,read,contents,mode,target,known,renders,there⟩
  · rcases sound.whole loc destination with old | ⟨contents,mode,made,there⟩
    · exact .inl (same.trans old)
    · exact .inr ⟨contents,mode,madeMore grows made,same.trans there⟩
  · exact absurd destination free
  · have now : (Function.update stage i later i).read? = some read := by rw [Function.update_self,known]
    exact .inr ⟨contents,mode,⟨i,path,member,read,targetSame sound.passages.symm target,now,renders⟩,there⟩

theorem soundMove {p : Program (Except Fault Report)} (obeys : p.Obeys (start.plan i) (fun _ _ => True) later)
    (step : Session.Step start.deniable start.Destination start.base s ⟨tree,Function.update s.rest i (some p)⟩)
    (seen : ∀ read, later.read? = some read → start.HasRead ⟨tree,Function.update s.rest i (some p)⟩ i read) :
    start.Sound ⟨tree,Function.update s.rest i (some p)⟩ (Function.update stage i later) where
  obeys j q running := by
    dsimp only at running
    by_cases here : j = i
    · subst here
      rw [Function.update_self] at running ⊢
      cases running
      exact obeys
    · rw [Function.update_of_ne here] at running ⊢
      exact sound.obeys j q running
  passages loc := (sound.passages loc).trans (respects.passages loc)
  fits := (Function.forall_update_iff stage (fun _ now => now.Fits tree)).2
    ⟨respects.fits,fun j other => fitsSame (sound.fits j) (fun _ own => untouched sound respects other own)⟩
  spared := by
    refine (Function.forall_update_iff stage (fun _ now => ∀ file, now.Owns file → ¬start.Destination file)).2
      ⟨?_,fun j _ => sound.spared j⟩
    intro file own
    rcases respects.owns file own with mine | ⟨_,free⟩
    · exact sound.spared i file mine
    · exact free
  apart j k file one two := by
    by_cases first : j = i <;> by_cases second : k = i
    · rw [first,second]
    · subst first
      rw [Function.update_self] at one
      rw [Function.update_of_ne second] at two
      exact absurd two (stillApart sound respects second one)
    · subst second
      rw [Function.update_self] at two
      rw [Function.update_of_ne first] at one
      exact absurd one (stillApart sound respects first two)
    · rw [Function.update_of_ne first] at one
      rw [Function.update_of_ne second] at two
      exact sound.apart j k file one two
  whole _ destination := stillWhole sound respects destination
  seen := (Function.forall_update_iff stage (fun j now => ∀ read, now.read? = some read → start.HasRead _ j read)).2
    ⟨seen,fun j _ read known => hasReadOnward (sound.seen j read known) step⟩

end

theorem soundStop (i : ι) (sound : start.Sound s stage) : start.Sound ⟨s.tree,Function.update s.rest i none⟩ stage := by
  have step : Session.Step start.deniable start.Destination start.base s ⟨s.tree,Function.update s.rest i none⟩ := .stops s i
  refine ⟨?_,sound.passages,sound.fits,sound.spared,sound.apart,sound.whole,
    fun j read known => hasReadOnward (sound.seen j read known) step⟩
  refine (Function.forall_update_iff s.rest (fun j left => ∀ p, left = some p →
    p.Obeys (start.plan j) (fun _ _ => True) (stage j))).2 ⟨?_,fun j _ => sound.obeys j⟩
  intro p left
  cases left

theorem soundStep (unlinked : ∀ i, ∀ path ∈ (start.plan i).outputs, start.tree.Unlinked (start.base i) path)
    (reached : start.Reaches start.session s) (sound : start.Sound s stage)
    (step : Session.Step start.deniable start.Destination start.base s after) : ∃ stage, start.Sound after stage := by
  cases step with
  | @moves i p later tree running move =>
      have obeys := sound.obeys i p running
      have there : ∀ path ∈ (start.plan i).outputs, s.tree.Unlinked (start.base i) path :=
        fun path member => unlinkedSame sound.passages (unlinked i path member)
      have step := Session.Step.moves running move
      cases move with
      | answered comes spares =>
          obtain ⟨later,goes,onward⟩ := obeys _
          have respects := goesRespects goes comes spares (sound.fits i) there
          refine ⟨_,soundMove sound respects onward step ?_⟩
          intro read known
          rcases goesRead goes comes known with old | ⟨next,asks,goesOn,same,found⟩
          · exact hasReadOnward (sound.seen i read old) step
          · rw [asks] at running
            rw [goesOn,same]
            exact ⟨s,next,reached,running,found,.refl⟩
      | @inPart file front _ _ _ _ written =>
          obtain ⟨read,part,here,onward⟩ := obeysInPart obeys
          have respects : Respects start.Destination (start.base i) (start.plan i) s.tree (stage i) tree
              (.filling read file (some (part ++ front))) := by
            have fits := sound.fits i
            rw [here] at fits ⊢
            exact inPartRespects fits written
          refine ⟨_,soundMove sound respects onward step ?_⟩
          intro again known
          refine hasReadOnward (sound.seen i again ?_) step
          rw [here]
          exact known
  | stops i => exact ⟨stage,soundStop i sound⟩

theorem soundReached (unlinked : ∀ i, ∀ path ∈ (start.plan i).outputs, start.tree.Unlinked (start.base i) path)
    (reached : start.Reaches start.session s) : ∃ stage, start.Sound s stage := by
  induction reached with
  | refl => exact ⟨_,soundStart⟩
  | tail before step ih =>
      obtain ⟨stage,sound⟩ := ih
      exact soundStep unlinked before sound step

/- However the generations are interleaved, and wherever any of them stops: a destination holds what it held
at the start, or the whole output of one of them. Whoever reads there reads the one or the other. -/
theorem destinationsWhole (unlinked : ∀ i, ∀ path ∈ (start.plan i).outputs, start.tree.Unlinked (start.base i) path)
    (reached : start.Reaches start.session s) :
    ∃ seen : ι → Option ByteArray, (∀ i read, seen i = some read → start.HasRead s i read) ∧
      ∀ loc, start.Destination loc →
        (s.tree.get? loc = start.tree.get? loc ∨
          ∃ contents mode, start.Made seen loc contents ∧ s.tree.get? loc = some (.file contents mode)) ∧
        ∀ base path contents, s.tree.locate base path = .ok loc → s.tree.read base path = .ok contents →
          (∃ mode, start.tree.get? loc = some (.file contents mode)) ∨ start.Made seen loc contents := by
  obtain ⟨stage,sound⟩ := soundReached unlinked reached
  refine ⟨fun i => (stage i).read?,sound.seen,?_⟩
  intro loc destination
  have whole := sound.whole loc destination
  refine ⟨whole,?_⟩
  intro base path contents located read
  rw [FileTree.read,located] at read
  rcases whole with old | ⟨written,mode,made,there⟩
  · simp only [old] at read
    split at read
    · rename_i stands
      cases read
      exact .inl ⟨_,stands⟩
    · cases read
    · cases read
  · simp only [there] at read
    cases read
    exact .inr made

def crowd : Launch Bool where
  deniable := .none
  tree := .holding [(["in"],.file (String.ofList twice.spelled).toUTF8 0o644),(["out"],.file "old".toUTF8 0o600)]
  base _ := []
  plan
    | true => ⟨⟨"in"⟩,[⟨"out"⟩],.pretty⟩
    | false => ⟨⟨"in"⟩,[⟨"./out"⟩],.compact⟩

theorem crowdHolds : crowd.tree.Holds [] ⟨"in"⟩ (String.ofList twice.spelled) := holdsText rfl

theorem crowdDestination {loc : Location} (h : crowd.Destination loc) : loc = ["out"] := by
  obtain ⟨i,path,member,target⟩ := h
  cases i with
  | true =>
      obtain rfl := List.mem_singleton.1 member
      cases target
      rfl
  | false =>
      obtain rfl := List.mem_singleton.1 member
      cases target
      rfl

theorem crowdFresh (i : Bool) (t : FileTree) (dir : Path) (mode : Nat) (made : Location × FileTree)
    (h : t.create (crowd.base i) dir mode = .ok made) : ¬crowd.Destination made.1 := by
  intro destination
  obtain ⟨found,name,here,long⟩ := createLong h
  rw [crowdDestination destination] at here
  obtain ⟨_,same⟩ := List.append_inj' (show [] ++ ["out"] = found ++ [name] from here) rfl
  cases same
  revert long
  decide

theorem crowdRoom : ∃ made, crowd.tree.create [] ⟨"."⟩ plainMode = .ok made := by
  have there : (crowd.tree.create [] ⟨"."⟩ plainMode).isOk = true := rfl
  cases made : crowd.tree.create [] ⟨"."⟩ plainMode with
  | ok file => exact ⟨file,rfl⟩
  | error e =>
      rw [made] at there
      cases there

theorem crowdFile {entry : FileEntry} (there : crowd.tree.get? ["out"] = some entry) : entry = .file "old".toUTF8 0o600 := by
  cases there
  rfl

theorem crowdOffers : crowd.tree.Offers [] ⟨"out"⟩ ["out"] := by
  have dir : Path.directory ⟨"out"⟩ = ⟨"."⟩ := by decide
  refine ⟨?_,rfl,?_⟩
  · rw [dir]
    exact crowdRoom
  · intro mode directory
    cases crowdFile directory

theorem crowdUnlinked (i : Bool) : ∀ path ∈ (crowd.plan i).outputs, crowd.tree.Unlinked (crowd.base i) path := by
  intro path member loc link target there
  rw [crowdDestination ⟨i,path,member,target⟩] at there
  cases crowdFile there

theorem crowdThrough : ∃ report mode,
    (generate (crowd.plan true)).Onward crowd.deniable crowd.Destination (crowd.base true) crowd.tree (.done (.ok report))
      (crowd.tree.put ["out"] (.file ((crowd.plan true).contents twice) mode)) := by
  have wrote : ((crowd.plan true).writes twice).run (crowd.base true) crowd.tree = ⟨.ok (crowd.plan true).outputs,_,_⟩ :=
    writeAllOnward (writeFileRun crowdOffers) rfl
  have alone : (generate (crowd.plan true)).Onward crowd.deniable crowd.Destination (crowd.base true) crowd.tree _ _ :=
    onwardRun (crowdFresh true) (generate (crowd.plan true)) crowd.tree
  rw [generateWhole (by decide) crowdHolds (spelledRead twice) wrote] at alone
  exact ⟨_,_,alone⟩

theorem crowdCut (contents : ByteArray) (mode : Nat) :
    ∃ rest file half mode', (generate (crowd.plan false)).Onward crowd.deniable crowd.Destination (crowd.base false)
      (crowd.tree.put ["out"] (.file contents mode)) rest ((crowd.tree.put ["out"] (.file contents mode)).put file
        (.file (((crowd.plan false).contents twice).extract 0 half) mode')) ∧
      file ≠ [] ∧ half = ((crowd.plan false).contents twice).size / 2 := by
  have same := offersPassages crowdOffers (crowdUnlinked true ⟨"out"⟩ List.mem_cons_self) contents mode
  have dir : Path.directory ⟨"./out"⟩ = ⟨"."⟩ := by decide
  obtain ⟨made,room⟩ := createSame same crowdRoom
  have inside := (createFree room).1
  have holds : (crowd.tree.put ["out"] (.file contents mode)).Holds [] ⟨"in"⟩ (String.ofList twice.spelled) := holdsText rfl
  rw [← dir] at room
  obtain ⟨rest,mode',cut⟩ := generateCut (crowdFresh false) (rfl : (crowd.plan false).outputs = [⟨"./out"⟩]) holds
    (spelledRead twice) room (Nat.div_le_self _ 2)
  exact ⟨rest,made.1,_,mode',cut,inside,rfl⟩

theorem crowdWhole : ∃ s report, crowd.Reaches crowd.session s ∧ s.rest true = some (.done (.ok report)) ∧
    s.rest false = none ∧
    (∃ file mode, s.tree.get? file = some (.file (((crowd.plan false).contents twice).extract 0
      (((crowd.plan false).contents twice).size / 2)) mode)) ∧
    (s.tree.get? ["out"] = crowd.tree.get? ["out"] ∨ ∃ seen contents mode, crowd.Made seen ["out"] contents ∧
      s.tree.get? ["out"] = some (.file contents mode)) := by
  obtain ⟨report,mode,through⟩ := crowdThrough
  obtain ⟨rest,file,_,mode',cut,inside,rfl⟩ := crowdCut ((crowd.plan true).contents twice) mode
  have first := Session.reachesOnward (rfl : crowd.session.rest true = some (generate (crowd.plan true))) through
  have waiting : Function.update crowd.session.rest true (some (.done (.ok report))) false =
      some (generate (crowd.plan false)) := Function.update_of_ne (by decide) _ _
  have reached : crowd.Reaches crowd.session _ := (first.trans (Session.reachesOnward waiting cut)).tail (.stops _ false)
  obtain ⟨seen,_,whole⟩ := destinationsWhole crowdUnlinked reached
  have destination : crowd.Destination ["out"] := ⟨true,⟨"out"⟩,List.mem_cons_self,rfl⟩
  refine ⟨_,report,reached,?_,?_,⟨file,mode',getPut _ inside _⟩,?_⟩
  · dsimp only
    rw [Function.update_of_ne (by decide),Function.update_of_ne (by decide),Function.update_self]
  · dsimp only
    rw [Function.update_self]
  · rcases (whole _ destination).1 with old | new
    · exact .inl old
    · exact .inr ⟨seen,new⟩

end Launch
end SyntaxCatalog
