import SyntaxCatalog.Proofs.Generation.Regeneration

/-! What several writes do to a tree when nothing but the tree decides, as a function of the tree. They follow one
another up to the first that its tree does not allow. -/
namespace SyntaxCatalog
open FileTree Program

def FileTree.replaceEach (t : FileTree) (base : Location) (contents : ByteArray) (paths : List Path) :
    Except FileFault FileTree :=
  paths.foldlM (fun t path => t.replace base path contents) t

structure FileTree.Stops (t : FileTree) (base : Location) (contents : ByteArray) (paths : List Path) (k : Nat) (path : Path)
    (cause : FileFault) (left : FileTree) : Prop where
  here : paths[k]? = some path
  before : t.replaceEach base contents (paths.take k) = .ok left
  refused : left.replace base path contents = .error cause

section
variable {base : Location} {t after last left : FileTree} {path first : Path} {paths more : List Path}
  {contents : ByteArray} {cause : FileFault} {k : Nat}

theorem replaceEachCons (one : t.replace base first contents = .ok after) :
    t.replaceEach base contents (first :: more) = after.replaceEach base contents more := by
  rw [replaceEach,List.foldlM_cons,one]
  rfl

theorem replaceEachRefused (one : t.replace base first contents = .error cause) :
    t.replaceEach base contents (first :: more) = .error cause := by
  rw [replaceEach,List.foldlM_cons,one]
  rfl

theorem replaceEachFirst (all : t.replaceEach base contents (first :: more) = .ok last) :
    ∃ after, t.replace base first contents = .ok after ∧ after.replaceEach base contents more = .ok last := by
  cases one : t.replace base first contents with
  | error cause =>
      rw [replaceEachRefused one] at all
      cases all
  | ok after =>
      rw [replaceEachCons one] at all
      exact ⟨after,rfl,all⟩

theorem replaceEachOrStops (t : FileTree) (base : Location) (contents : ByteArray) (paths : List Path) :
    (∃ last, t.replaceEach base contents paths = .ok last) ∨
      ∃ k path cause left, t.Stops base contents paths k path cause left := by
  induction paths generalizing t with
  | nil => exact .inl ⟨t,rfl⟩
  | cons first more ih =>
      cases one : t.replace base first contents with
      | error cause => exact .inr ⟨0,first,cause,t,rfl,rfl,one⟩
      | ok after =>
          rcases ih after with ⟨last,all⟩ | ⟨k,path,cause,left,here,before,refused⟩
          · exact .inl ⟨last,(replaceEachCons one).trans all⟩
          · exact .inr ⟨k + 1,path,cause,left,here,(replaceEachCons one).trans before,refused⟩

theorem replaceEachTake (all : t.replaceEach base contents paths = .ok last) (here : paths[k]? = some path) :
    ∃ left after, t.replaceEach base contents (paths.take k) = .ok left ∧ left.replace base path contents = .ok after := by
  induction paths generalizing t k with
  | nil => cases here
  | cons first more ih =>
      obtain ⟨between,one,others⟩ := replaceEachFirst all
      cases k with
      | zero =>
          cases here
          exact ⟨t,between,rfl,one⟩
      | succ k =>
          obtain ⟨left,after,before,onward⟩ := ih others here
          exact ⟨left,after,(replaceEachCons one).trans before,onward⟩

theorem stopsNever (all : t.replaceEach base contents paths = .ok last)
    (stops : t.Stops base contents paths k path cause left) : False := by
  obtain ⟨other,after,before,onward⟩ := replaceEachTake all stops.here
  cases before.symm.trans stops.before
  cases onward.symm.trans stops.refused

theorem replaceEachWritten (deniable : Request.Deniable) (all : t.replaceEach base contents paths = .ok last) :
    Written deniable base contents t paths last := by
  induction paths generalizing t with
  | nil =>
      cases all
      exact .nil last
  | cons first more ih =>
      obtain ⟨after,one,others⟩ := replaceEachFirst all
      have wrote := writeFileReplaced one
      have runs := runsRun deniable base (writeFile first contents) t
      rw [wrote] at runs
      exact .cons runs rfl (ih others)

end

section
variable {base : Location} {t last left : FileTree} {text : String} {path : Path} {paths : List Path}
  {cause : FileFault} {k : Nat}

theorem writeAllReplaced (nodes : Nat) (all : t.replaceEach base text.toUTF8 paths = .ok last) :
    (writeAll nodes text paths).run base t = ⟨.ok paths,writeEvents nodes text.toUTF8.size paths,last⟩ := by
  induction paths generalizing t with
  | nil =>
      cases all
      rfl
  | cons first more ih =>
      obtain ⟨after,one,others⟩ := replaceEachFirst all
      exact writeAllOnward (writeFileReplaced one) (ih others)

theorem writeAllStopped (nodes : Nat) (stops : t.Stops base text.toUTF8 paths k path cause left) :
    (writeAll nodes text paths).run base t = ⟨.error (.fileAccess path .write cause),
      writeEvents nodes text.toUTF8.size (paths.take k) ++ [.writing text.toUTF8.size path],left⟩ := by
  obtain ⟨here,before,refused⟩ := stops
  induction paths generalizing t k with
  | nil => cases here
  | cons first more ih =>
      cases k with
      | zero =>
          cases here
          cases before
          exact runFailed (writeFileRefused refused)
      | succ k =>
          obtain ⟨after,one,others⟩ := replaceEachFirst before
          have stopped := ih here others
          rw [writeAll,runAndThen (writeFileReplaced one),runBind,runReport]
          simp only [runFailed stopped]
          rfl

end
end SyntaxCatalog
