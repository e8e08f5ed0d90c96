import SyntaxCatalog.Proofs.Generation.Protocol
import SyntaxCatalog.Proofs.Generation.Success
import SyntaxCatalog.Proofs.Generation.Lookup
import SyntaxCatalog.Proofs.Program.Sessions

/-! What one move of a generation does to a tree that others use as well. Its own file stands where nobody
else looks, so others see a move only when it puts a complete output in its place. -/
namespace SyntaxCatalog
open FileTree Program

def Stage.Fits (t : FileTree) : Stage → Prop
  | .filling _ file part => file ≠ [] ∧ ∃ contents mode, t.get? file = some (.file contents mode) ∧
      ∀ known, part = some known → contents = known
  | _ => True

/- What a generation does to the tree in one move, as far as others are concerned. -/
structure Respects (taken : Location → Prop) (base : Location) (plan : Plan) (t : FileTree) (stage : Stage)
    (after : FileTree) (later : Stage) : Prop where
  passages : SamePassages t after
  fits : later.Fits after
  owns : ∀ file, later.Owns file → stage.Owns file ∨ t.get? file = none ∧ ¬taken file
  others : ∀ loc, ¬stage.Owns loc → after.get? loc = t.get? loc ∨ t.get? loc = none ∧ ¬taken loc ∨
    ∃ path ∈ plan.outputs, ∃ read written mode, t.target base path = .ok loc ∧ later.read? = some read ∧
      plan.Renders read written ∧ after.get? loc = some (.file written mode)
  read : ∀ read, stage.read? = some read → later.read? = some read

section
variable {deniable : Request.Deniable} {taken : Location → Prop} {base file : Location} {plan : Plan}
  {t after : FileTree} {stage later : Stage} {read contents : ByteArray} {part : Option ByteArray} {mode : Nat}

theorem respectsSame (fits : later.Fits t) (owns : ∀ file, later.Owns file → stage.Owns file)
    (read : ∀ read, stage.read? = some read → later.read? = some read) :
    Respects taken base plan t stage t later :=
  ⟨fun _ => rfl,fits,fun file own => .inl (owns file own),fun _ _ => .inl rfl,read⟩

theorem respectsMade (inside : file ≠ []) (nothing : t.get? file = none) (spares : ¬taken file) :
    Respects taken base plan t (.free read) (t.put file (.file ByteArray.empty mode))
      (.filling read file (some ByteArray.empty)) := by
  refine ⟨passagesFresh inside nothing _ _,⟨inside,_,_,getPut t inside _,?_⟩,?_,?_,fun _ known => known⟩
  · exact fun _ same => Option.some.inj same
  · rintro _ rfl
    exact .inr ⟨nothing,spares⟩
  · intro loc _
    by_cases here : loc = file
    · subst here
      exact .inr (.inl ⟨nothing,spares⟩)
    · exact .inl (getPutOther t _ here)

theorem respectsPut (inside : file ≠ []) {old : ByteArray} {before : Nat} {known : Option ByteArray}
    (there : t.get? file = some (.file old before)) (knows : ∀ known, part = some known → contents = known) :
    Respects taken base plan t (.filling read file known) (t.put file (.file contents mode)) (.filling read file part) := by
  have passages : SamePassages t (t.put file (.file contents mode)) := passagesPut inside rfl (by rw [there]; rfl)
  exact ⟨passages,⟨inside,_,_,getPut t inside _,knows⟩,fun _ own => .inl own,
    fun loc other => .inl (getPutOther t _ other),fun _ known => known⟩

theorem passagesDrop (inside : file ≠ []) (there : t.get? file = some (.file contents mode)) :
    SamePassages t (t.erase file) := by
  intro loc
  by_cases here : loc = file
  · subst here
    rw [getErase t inside,there]
    rfl
  · rw [getEraseOther t here]

theorem respectsDropped (inside : file ≠ []) (there : t.get? file = some (.file contents mode)) :
    Respects taken base plan t (.filling read file part) (t.erase file) (.free read) :=
  ⟨passagesDrop inside there,trivial,fun _ none => none.elim,fun _ other => .inl (getEraseOther t other),
    fun _ known => known⟩

theorem respectsMoved {path : Path} (inside : file ≠ []) (there : t.get? file = some (.file contents mode))
    (whole : plan.Renders read contents) (member : path ∈ plan.outputs) (unlinked : t.Unlinked base path)
    (moved : t.rename base file path = .ok after) :
    Respects taken base plan t (.filling read file part) after (.free read) := by
  obtain ⟨found,target,plain,rfl⟩ := renameMoves there moved
  have proper := targetInside target
  have dropped := passagesDrop inside there
  have nothing := (dropped found).symm.trans (passageNone plain (fun link => unlinked found link target))
  refine ⟨fun loc => (dropped loc).trans (passagesPut proper rfl nothing loc),trivial,fun _ none => none.elim,?_,
    fun _ known => known⟩
  intro loc other
  by_cases here : loc = found
  · subst here
    exact .inr (.inr ⟨path,member,read,contents,mode,target,rfl,whole,getPut _ proper _⟩)
  · exact .inl ((getPutOther _ _ here).trans (getEraseOther t other))

theorem goesRespects {r : Request} {answer : r.Answer} (goes : stage.Goes plan r answer later)
    (comes : r.Comes deniable base t answer after) (spares : r.Spares taken answer) (fits : stage.Fits t)
    (unlinked : ∀ path ∈ plan.outputs, t.Unlinked base path) : Respects taken base plan t stage after later := by
  cases goes with
  | told stage event =>
      cases comes
      exact respectsSame fits (fun _ own => own) (fun _ known => known)
  | asked stage path mode =>
      rw [(comesModeOf comes).2]
      exact respectsSame fits (fun _ own => own) (fun _ known => known)
  | read contents =>
      rw [(comesRead comes).1]
      exact respectsSame trivial (fun _ own => own) (fun _ known => by cases known)
  | unread e =>
      rw [(comesRead comes).1]
      exact respectsSame trivial (fun _ own => own) (fun _ known => known)
  | made read dir new file =>
      rcases comesCreate comes with ⟨e,failed,_⟩ | ⟨_,inside,nothing,same,left⟩
      · cases failed
      · cases same
        rw [left]
        exact respectsMade inside nothing spares
  | unmade read dir new e =>
      rcases comesCreate comes with ⟨e,_,left⟩ | ⟨_,_,_,done,_⟩
      · rw [left]
        exact respectsSame trivial (fun _ own => own) (fun _ known => known)
      · cases done
  | set read file part new answer =>
      obtain ⟨inside,contents,mode,there,knows⟩ := fits
      rcases comesSetFile there comes with ⟨e,_,left⟩ | ⟨_,left⟩
      · rw [left]
        exact respectsSame ⟨inside,contents,mode,there,knows⟩ (fun _ own => own) (fun _ known => known)
      · rw [left]
        exact respectsPut inside there knows
  | filled read part more file =>
      obtain ⟨inside,contents,mode,there,knows⟩ := fits
      rcases comesAppendFile there comes with ⟨e,failed,_⟩ | ⟨_,left⟩
      · cases failed
      · rw [left,knows part rfl]
        exact respectsPut inside there (fun _ same => Option.some.inj same)
  | cutShort read part more file e =>
      obtain ⟨inside,contents,mode,there,_⟩ := fits
      rcases comesAppendFile there comes with ⟨_,_,left | ⟨part,left⟩⟩ | ⟨done,_⟩
      · rw [left]
        exact respectsSame ⟨inside,contents,mode,there,fun _ unknown => by cases unknown⟩ (fun _ own => own)
          (fun _ known => known)
      · rw [left]
        exact respectsPut inside there (fun _ unknown => by cases unknown)
      · cases done
  | moved file whole member =>
      obtain ⟨inside,contents,mode,there,knows⟩ := fits
      obtain rfl := knows _ rfl
      rcases comesMoveFile comes with ⟨e,failed,_⟩ | ⟨_,moved⟩
      · cases failed
      · exact respectsMoved inside there whole member (unlinked _ member) moved
  | unmoved file whole member e =>
      rcases comesMoveFile comes with ⟨_,_,left⟩ | ⟨done,_⟩
      · rw [left]
        exact respectsSame fits (fun _ own => own) (fun _ known => known)
      · cases done
  | discarded read file part =>
      obtain ⟨inside,contents,mode,there,_⟩ := fits
      rw [discardRuns comes]
      exact respectsDropped inside there

theorem obeysInPart {α : Type} {front back : ByteArray} {next : Except FileFault Unit → Program α} {post : α → Stage → Prop}
    (h : (Program.ask (.append file (front ++ back)) next).Obeys plan post stage) :
    ∃ read part, stage = .filling read file (some part) ∧
      (Program.ask (.append file back) next).Obeys plan post (.filling read file (some (part ++ front))) := by
  obtain ⟨later,goes,filled⟩ := h (.ok ())
  cases goes with
  | filled read part =>
      refine ⟨read,part,rfl,?_⟩
      intro answer
      cases answer with
      | error e =>
          obtain ⟨later,goes,others⟩ := h (.error e)
          cases goes with
          | cutShort => exact ⟨_,.cutShort read _ back file e,others⟩
      | ok =>
          rw [← ByteArray.append_assoc] at filled
          exact ⟨_,.filled read _ back file,filled⟩

theorem inPartRespects {part front : ByteArray} (fits : (Stage.filling read file (some part)).Fits t)
    (written : t.append file front = .ok after) :
    Respects taken base plan t (.filling read file (some part)) after (.filling read file (some (part ++ front))) := by
  obtain ⟨inside,contents,mode,there,knows⟩ := fits
  obtain rfl := knows part rfl
  rw [append,there] at written
  cases written
  exact respectsPut inside there (fun _ same => Option.some.inj same)

theorem goesRead {α : Type} {r : Request} {answer : r.Answer} {next : r.Answer → Program α}
    (goes : stage.Goes plan r answer later) (comes : r.Comes deniable base t answer after) (known : later.read? = some read) :
    stage.read? = some read ∨ ∃ onward : Except FileFault ByteArray → Program α,
      Program.ask r next = .ask (.read plan.descriptor) onward ∧ next answer = onward (.ok read) ∧ after = t ∧
      t.read base plan.descriptor = .ok read := by
  cases goes with
  | read contents =>
      cases known
      obtain ⟨same,⟨e,failed⟩ | found⟩ := comesRead comes
      · cases failed
      · exact .inr ⟨next,rfl,rfl,same,found.symm⟩
  | _ => exact .inl known

theorem fitsSame (fits : stage.Fits t) (same : ∀ file, stage.Owns file → after.get? file = t.get? file) :
    stage.Fits after := by
  cases stage with
  | unread => trivial
  | free => trivial
  | filling read file part =>
      obtain ⟨inside,contents,mode,there,knows⟩ := fits
      exact ⟨inside,contents,mode,(same file rfl).trans there,knows⟩

theorem fitsStands (fits : stage.Fits t) (own : stage.Owns file) : t.get? file ≠ none := by
  cases stage with
  | unread => exact own.elim
  | free => exact own.elim
  | filling read file part =>
      obtain ⟨_,contents,mode,there,_⟩ := fits
      rw [own,there]
      simp

end

/- Files that are cut short are really there on the way: a generation may be found with any part of its
first output written. -/
section
variable {deniable : Request.Deniable} {taken : Location → Prop} {base file : Location} {t after : FileTree}
  {path : Path} {contents : ByteArray} {mode n : Nat} {made : Location × FileTree}

theorem appendCut (inside : file ≠ []) (nothing : t.get? file = none) (fits : n ≤ contents.size) :
    ∃ rest : Program (Except FileFault Unit),
      @Onward (Except FileFault Unit) deniable taken base (request (.append file contents))
      (t.put file (.file ByteArray.empty mode)) rest (t.put file (.file (contents.extract 0 n) mode)) := by
  have written : (t.put file (.file ByteArray.empty mode)).append file (contents.extract 0 n) =
      .ok (t.put file (.file (ByteArray.empty ++ contents.extract 0 n) mode)) := appendPut inside nothing
  rw [ByteArray.empty_append] at written
  have cut : contents = contents.extract 0 n ++ contents.extract n contents.size := by
    rw [← ByteArray.extract_eq_extract_append_extract n (Nat.zero_le n) fits,ByteArray.extract_zero_size]
  have whole : (request (.append file contents) : Program (Except FileFault Unit)) =
      .ask (.append file (contents.extract 0 n ++ contents.extract n contents.size)) .done := by
    rw [← cut]
    rfl
  rw [whole]
  exact ⟨_,.first (.inPart written) (.still _ _)⟩

variable (fresh : ∀ (t : FileTree) dir mode made, t.create base dir mode = .ok made → ¬taken made.1)
include fresh

theorem writeFileCut (room : t.create base path.directory plainMode = .ok made) (fits : n ≤ contents.size) :
    ∃ rest mode, (writeFile path contents).Onward deniable taken base t rest
      (t.put made.1 (.file (contents.extract 0 n) mode)) := by
  obtain ⟨inside,free,left⟩ := createFree room
  have kept : (keepMode made.1 path).run base made.2 =
      ⟨.ok (),[],t.put made.1 (.file ByteArray.empty ((t.modeOf base path).getD (t.masked plainMode)))⟩ := by
    rw [left]
    exact keepModeRun inside free
  obtain ⟨rest,filled⟩ := @appendCut deniable taken base made.1 t contents
    ((t.modeOf base path).getD (t.masked plainMode)) n inside free fits
  exact ⟨_,_,onwardOn fresh (runReport base _ t) (onwardBind _ (onwardOn fresh (runCreate base t room)
    (onwardBind _ (onwardOn fresh kept (onwardBind _ filled)))))⟩

theorem generateCut {plan : Plan} {more : List Path} {text : String} {d : Descriptor} (outputs : plan.outputs = path :: more)
    (holds : t.Holds base plan.descriptor text) (accepted : Descriptor.ofJson text = .ok d)
    (room : t.create base path.directory plainMode = .ok made) (fits : n ≤ (plan.contents d).size) :
    ∃ rest mode, (generate plan).Onward deniable taken base t rest
      (t.put made.1 (.file ((plan.contents d).extract 0 n) mode)) := by
  obtain ⟨rest,mode,wrote⟩ := writeFileCut fresh room fits
  have some : plan.outputs ≠ [] := by simp [outputs]
  rw [generate,validateSome some,outputs]
  exact ⟨_,mode,onwardOn fresh (buildCatalogRun holds accepted) (onwardBind _ (onwardBind _ wrote))⟩

end

end SyntaxCatalog
