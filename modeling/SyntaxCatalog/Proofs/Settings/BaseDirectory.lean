import SyntaxCatalog.Proofs.FileTree.Joining
import SyntaxCatalog.Proofs.Settings.Resolution

/-! Base directories. A file is replaced within the directory in which its name is looked up, and what a configuration
file says is taken from its own directory, as far as one lookup reaches. -/
namespace SyntaxCatalog
open FileTree SyntaxCatalog.Path Program

/- What a relative path means once it is joined to the path of a directory, when so many links lead there. -/
structure Joined (t : FileTree) (base dir : Location) (d : Path) (used : Nat) : Prop where
  leads : ∀ r : Path, r.isAbsolute = false → r.text ≠ "" → UpToLimits (t.locate base (d.join r)) (t.locate dir r)
    (walk t (mostLinks - used) dir (parts r) = .error .linkLoop) (longestPath < (d.join r).text.utf8ByteSize)
  names : ∀ r : Path, r.isAbsolute = false → r.text ≠ "" → UpToLimits (t.target base (d.join r)) (t.target dir r)
    (walk t (mostLinks - used) dir ((FileTree.names r).dropLast ++ ["."]) = .error .linkLoop)
    (longestPath < (d.join r).text.utf8ByteSize)
  empty : t.locate base (d.join ⟨""⟩) = .ok dir

structure Houses (t : FileTree) (base dir : Location) (p : Path) (name : String) (dots : List String) : Prop where
  leads : ∃ left, left ≤ mostLinks ∧ t.locate base p = walk t left dir (name :: dots)
  names : ∀ loc, t.target base p = .ok loc ↔
    p.cut.getLast? = some name.toList ∧ name.utf8ByteSize ≤ longestName ∧ loc = dir ++ [name]

structure TakenFrom (d : Path) (s : Settings) : Prop where
  base : s.baseDir = some d
  resolved : s.resolve = .ok s.plan
  descriptor : ∀ r, s.descriptor = some r → s.plan.descriptor = d.join r
  outputs : s.outputs ≠ [] → s.plan.outputs = s.outputs.map d.join

theorem settingsTaken (file : ConfigFile) (p : Path) : TakenFrom p.directory (file.settings p) where
  base := congrArg some (Settings.baseDirectorySame p)
  resolved := Settings.resolvePlan _
  descriptor r found := by
    rw [(Settings.planResolves _).given r found,← Settings.baseDirectorySame]
    rfl
  outputs some := by
    rw [(Settings.planResolves _).listed some,← Settings.baseDirectorySame]
    rfl

section
variable {t : FileTree} {base : Location} {p : Path}

theorem readSettingsTaken {s : Settings} (h : ((readSettings p).run base t).value = .ok s) :
    TakenFrom p.directory s ∧ ∃ found, t.locate base p = .ok found := by
  obtain ⟨file,read,rest⟩ := runDone h
  cases rest
  obtain ⟨text,first,_⟩ := runDone read
  refine ⟨settingsTaken file p,?_⟩
  rw [readTextText,FileTree.text,FileTree.read] at first
  cases located : t.locate base p with
  | error e =>
      rw [located] at first
      cases first
  | ok found => exact ⟨found,rfl⟩

theorem createdIn {mode : Nat} {made : Location × FileTree} (h : t.create base p mode = .ok made) :
    t.directoryAt base p = .ok made.1.dropLast := by
  obtain ⟨_,found,there,rfl⟩ := createDirectory.1 h
  rw [there,List.dropLast_concat]

end

theorem directoryJoined {t : FileTree} {base dir : Location} {p : Path} {front behind : List (List Char)}
    {own : List Char} (h : p.Ends front own behind) (fits : refusal .embeddedNul p = none)
    (found : t.directoryAt base p.directory = .ok dir) {used : Nat} (few : used ≤ mostLinks)
    (way : walk t used (origin base p) (namesOf front ++ ["."]) = .ok dir) : Joined t base dir p.directory used := by
  rw [← directoryWalk h] at way
  exact ⟨fun _ => locateJoined found few way,fun _ => targetJoined found few way,emptyJoined h fits found⟩

/- The directory of a path, as it is taken both for a new file and for a base directory, is the one to which the parts
before the last name lead. The name is looked up there, and so are the relative paths of a configuration file. -/
theorem directoryHolds {p : Path} {name : String} (last : p.lastName = some name) :
    ConfigFile.baseDirectory p = p.directory ∧ p.directory.text ≠ "" ∧
      (∀ contents, ∃ next, writeFile p contents =
        .ask (.report (.writing contents.size p)) (fun _ => .ask (.create p.directory plainMode) next)) ∧
      ∃ before dots, parts p = before ++ name :: dots ∧ (∀ part ∈ dots, part = ".") ∧ ∀ t base,
        (∀ mode made, t.create base p.directory mode = .ok made →
          t.directoryAt base p.directory = .ok made.1.dropLast) ∧
        (refusal .embeddedNul p = none →
          t.directoryAt base p.directory = walk t mostLinks (origin base p) (before ++ ["."])) ∧
        (refusal .embeddedNul p = none → ∀ e, t.directoryAt base p.directory = .error e → t.locate base p = .error e) ∧
        (∀ s, ((readSettings p).run base t).value = .ok s → TakenFrom p.directory s ∧ refusal .embeddedNul p = none ∧
          ∃ dir, t.directoryAt base p.directory = .ok dir) ∧
        ∀ dir, refusal .embeddedNul p = none → t.directoryAt base p.directory = .ok dir →
          Houses t base dir p name dots ∧ ∀ used, used ≤ mostLinks →
            walk t used (origin base p) (before ++ ["."]) = .ok dir → Joined t base dir p.directory used := by
  obtain ⟨front,behind,ends⟩ := lastNameEnds last
  obtain ⟨dots,all,whole⟩ := endsParts ends
  have spelled : String.ofList name.toList = name := String.ofList_toList
  refine ⟨Settings.baseDirectorySame p,directoryFilled ends,fun _ => ⟨_,rfl⟩,namesOf front,dots,by rw [whole,spelled],all,?_⟩
  intro t base
  refine ⟨fun _ _ => createdIn,fun fits => directoryFound ends fits,fun fits _ => locateStuck ends fits,?_,?_⟩
  · intro s read
    obtain ⟨taken,found,located⟩ := readSettingsTaken read
    obtain ⟨fits,_⟩ := locateLeads.1 located
    refine ⟨taken,fits,?_⟩
    cases there : t.directoryAt base p.directory with
    | error e => cases (locateStuck ends fits there).symm.trans located
    | ok dir => exact ⟨dir,rfl⟩
  · intro dir fits found
    refine ⟨⟨?_,?_⟩,fun used few way => directoryJoined ends fits found few way⟩
    · rw [← spelled]
      exact locateHeld ends fits whole found
    · intro loc
      rw [targetHeld ends fits found,spelled]

def circularText : String := "descriptor = \"l/in.json\"\noutputs = [\"\"]\n"

def circularTree : FileTree :=
  .holding [(["d"],newDirectory),(["d","l"],.link ⟨"."⟩),(["d","m"],.link ⟨"l/l/l"⟩),(["d","n"],.link ⟨"m/m/m"⟩),
    (["d","o"],.link ⟨"n/n/n"⟩),(["d","in.json"],.file ByteArray.empty 0o644),
    (["d","c.toml"],.file circularText.toUTF8 0o644),(["l"],.link ⟨"d"⟩)]

theorem circularRead {p : Path} (there : circularTree.read [] p = .ok circularText.toUTF8) :
    ((readSettings p).run [] circularTree).value = .ok ⟨some p.directory,none,some ⟨"l/in.json"⟩,[⟨""⟩],none⟩ := by
  have accepted : (ConfigFile.ofToml circularText).toOption = some ⟨some ⟨"l/in.json"⟩,some [⟨""⟩],none,none⟩ := by
    decide +kernel
  have read : ((readConfigFile p).run [] circularTree).value = .ok ⟨some ⟨"l/in.json"⟩,some [⟨""⟩],none,none⟩ := by
    rw [readConfigFileRun (holdsText there)]
    cases found : ConfigFile.ofToml circularText with
    | error e => simp [found,Except.toOption] at accepted
    | ok file =>
        rw [found,Except.toOption,Option.some.injEq] at accepted
        rw [accepted]
        rfl
  rw [readSettings,runAndThen (runParts read rfl),← Settings.baseDirectorySame]
  rfl

theorem windingDirectoryHolds : Path.lastName ⟨"l/./../l//c.toml"⟩ = some "c.toml" ∧
    (∃ s, ((readSettings ⟨"l/./../l//c.toml"⟩).run [] circularTree).value = .ok s ∧ TakenFrom ⟨"l/./../l"⟩ s) ∧
      circularTree.directoryAt [] ⟨"l/./../l"⟩ = .ok ["d"] ∧
      circularTree.locate ["d"] ⟨"l/in.json"⟩ = .ok ["d","in.json"] ∧
      circularTree.target ["d"] ⟨"out.json"⟩ = .ok ["d","out.json"] := by
  have last : Path.lastName ⟨"l/./../l//c.toml"⟩ = some "c.toml" := by decide
  have directory : Path.directory ⟨"l/./../l//c.toml"⟩ = ⟨"l/./../l"⟩ := by decide
  have read := @circularRead ⟨"l/./../l//c.toml"⟩ (by decide +kernel)
  have there : circularTree.directoryAt [] ⟨"l/./../l"⟩ = .ok ["d"] := by decide +kernel
  obtain ⟨_,_,_,before,dots,_,_,held⟩ := directoryHolds last
  obtain ⟨_,way,_,settings,found⟩ := held circularTree []
  rw [directory] at way settings found
  obtain ⟨taken,_⟩ := settings _ read
  obtain ⟨_,joined⟩ := found ["d"] rfl there
  have names := joined mostLinks (Nat.le_refl _) ((way rfl).symm.trans there)
  have whole : Path.join ⟨"l/./../l"⟩ ⟨"l/in.json"⟩ = ⟨"l/./../l/l/in.json"⟩ := by decide
  have beside : Path.join ⟨"l/./../l"⟩ ⟨"out.json"⟩ = ⟨"l/./../l/out.json"⟩ := by decide
  have located := names.leads ⟨"l/in.json"⟩ rfl (by decide)
  have targeted := names.names ⟨"out.json"⟩ rfl (by decide)
  rw [whole] at located
  rw [beside] at targeted
  exact ⟨last,⟨_,read,taken⟩,there,located.found (by decide +kernel),targeted.found (by decide +kernel)⟩

def dotted (n : Nat) : Path := ⟨String.ofList (Text.glue '/' (List.replicate (n + 1) ['.']))⟩

theorem dottedLonger (n : Nat) : (dotted (n + 1)).text = "./" ++ (dotted n).text := by
  rw [← String.toList_inj,String.toList_append]
  simp [dotted,List.replicate_succ,Text.glueCons]

theorem dottedSize (n : Nat) : (dotted n).text.utf8ByteSize = 2 * n + 1 := by
  induction n with
  | zero => decide
  | succ n ih =>
      have first : "./".utf8ByteSize = 2 := by decide
      rw [dottedLonger,String.utf8ByteSize_append,ih,first]
      omega

theorem dottedFits {n : Nat} (short : 2 * n + 1 ≤ longestPath) (nul : FileFault) : refusal nul (dotted n) = none := by
  have size := dottedSize n
  refine refusalNone.2 ⟨?_,?_,by omega⟩
  · clear short size
    induction n with
    | zero => decide
    | succ n ih =>
        have first : '\x00' ∉ "./".toList := by decide
        rw [dottedLonger,String.toList_append,List.mem_append,not_or]
        exact ⟨first,ih⟩
  · intro empty
    rw [empty] at size
    have none : "".utf8ByteSize = 0 := by decide
    omega

theorem dottedCut (n : Nat) : (dotted n).cut = List.replicate (n + 1) ['.'] := by
  rw [dotted,Path.cut,String.toList_ofList]
  refine Text.piecesGlue (by simp) ?_
  intro part member
  rw [List.eq_of_mem_replicate member]
  decide

theorem dottedRelative (n : Nat) : (dotted n).isAbsolute = false := by
  rw [dotted,isAbsolute,String.toList_ofList,List.replicate_succ]
  cases n <;> rfl

theorem dottedHere {t : FileTree} {here : Location} {mode n : Nat} (inside : t.get? here = some (.directory mode))
    (short : 2 * n + 1 ≤ longestPath) : t.locate here (dotted n) = .ok here := by
  have spelled : parts (dotted n) = List.replicate n "." ++ ["."] := by
    rw [partsSolid (by simp [dottedCut,List.getLast?_replicate]),FileTree.names,dottedCut]
    simp [List.replicate_succ']
  have origin : origin here (dotted n) = here := by rw [FileTree.origin,dottedRelative]; rfl
  rw [locate,dottedFits short,spelled,origin]
  calc walk t mostLinks here (List.replicate n "." ++ ["."])
      = walk t mostLinks here ["."] := walkDots t mostLinks here [] (fun _ => List.eq_of_mem_replicate)
    _ = .ok here := walkDot inside []

theorem dottedTooLong {t : FileTree} {base : Location} {d : Path} {n : Nat} (clean : '\x00' ∉ d.text.toList)
    (filled : d.text ≠ "") (longest : 2 * n + 1 = longestPath) : t.locate base (d.join (dotted n)) = .error .nameTooLong := by
  have size := dottedSize n
  have relative := dottedRelative n
  have longer := joinLonger relative filled
  have own := dottedFits (Nat.le_of_eq longest) .embeddedNul
  obtain ⟨_,some,_⟩ := refusalNone.1 own
  rcases joinRefused relative filled clean some .embeddedNul with same | ⟨refused,_⟩
  · obtain ⟨_,_,short⟩ := refusalNone.1 (same.trans own)
    omega
  · rw [locate,refused]

/- A joined path does not always name what the path names from there: there may be a link too many, there may be nothing
that an empty path names, and there may be no room for a longer path. -/
theorem joinedUnlike : Path.lastName ⟨"d/o/c.toml"⟩ = some "c.toml" ∧
    (∃ s, ((readSettings ⟨"d/o/c.toml"⟩).run [] circularTree).value = .ok s ∧ s.baseDir = some ⟨"d/o"⟩ ∧
      s.descriptor = some ⟨"l/in.json"⟩ ∧ s.outputs = [⟨""⟩]) ∧
    circularTree.directoryAt [] ⟨"d/o"⟩ = .ok ["d"] ∧
    (circularTree.locate ["d"] ⟨"l/in.json"⟩ = .ok ["d","in.json"] ∧
      circularTree.locate [] (Path.join ⟨"d/o"⟩ ⟨"l/in.json"⟩) = .error .linkLoop) ∧
    (circularTree.locate ["d"] ⟨""⟩ = .error .notFound ∧
      circularTree.locate [] (Path.join ⟨"d/o"⟩ ⟨""⟩) = .ok ["d"]) ∧
    (circularTree.locate ["d"] (dotted 2047) = .ok ["d"] ∧
      circularTree.locate [] (Path.join ⟨"d/o"⟩ (dotted 2047)) = .error .nameTooLong) := by
  have read := @circularRead ⟨"d/o/c.toml"⟩ (by decide +kernel)
  have directory : Path.directory ⟨"d/o/c.toml"⟩ = ⟨"d/o"⟩ := by decide
  rw [directory] at read
  refine ⟨by decide,⟨_,read,rfl,rfl,rfl⟩,by decide +kernel,by decide +kernel,by decide +kernel,?_,?_⟩
  · exact dottedHere rfl (by decide)
  · exact dottedTooLong (by decide) (by decide) (by decide)

end SyntaxCatalog
