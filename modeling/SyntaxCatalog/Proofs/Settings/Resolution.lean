import SyntaxCatalog.Proofs.ConfigFile.Acceptance
import SyntaxCatalog.Proofs.Generation.Outputs

/-! Settings resolved into plans. Every path of a plan lies under the one base directory, whether it was given or is
a default of the variant; and as each variant has outputs, there is nothing at which a resolution could fail. -/
namespace SyntaxCatalog

theorem Path.joinAbsolute {p : Path} (h : p.isAbsolute = true) (base : Path) : base.join p = p := by
  rw [Path.join,h]
  rfl

namespace Settings

structure Resolves (s : Settings) (plan : Plan) : Prop where
  filled : plan.outputs ≠ []
  given : ∀ path, s.descriptor = some path → plan.descriptor = (s.baseDir.getD ⟨"."⟩).join path
  ungiven : s.descriptor = none → plan.descriptor = ((s.variant.getD .main).plan (s.baseDir.getD ⟨"."⟩)).descriptor
  listed : s.outputs ≠ [] → plan.outputs = s.outputs.map (s.baseDir.getD ⟨"."⟩).join
  unlisted : s.outputs = [] → plan.outputs = ((s.variant.getD .main).plan (s.baseDir.getD ⟨"."⟩)).outputs
  layout : plan.layout = s.layout.getD .compact

theorem variantFilled (v : Variant) (base : Path) : (v.plan base).outputs ≠ [] := by
  cases v <;> simp [Variant.plan,Variant.outputs]

theorem planResolves (s : Settings) : Resolves s s.plan where
  filled := by
    by_cases none : s.outputs = []
    · simpa [plan,none] using variantFilled (s.variant.getD .main) s.base
    · simp [plan,none]
  given path found := by simp [plan,found,base]
  ungiven none := by simp [plan,none,base]
  listed some := by simp [plan,some,base]
  unlisted none := by simp [plan,none,base]
  layout := rfl

theorem resolvesUnique {s : Settings} {one other : Plan} (h : Resolves s one) (h' : Resolves s other) : one = other := by
  have descriptor : one.descriptor = other.descriptor := by
    cases found : s.descriptor with
    | none => rw [h.ungiven found,h'.ungiven found]
    | some path => rw [h.given path found,h'.given path found]
  have outputs : one.outputs = other.outputs := by
    by_cases none : s.outputs = []
    · rw [h.unlisted none,h'.unlisted none]
    · rw [h.listed none,h'.listed none]
  have layout : one.layout = other.layout := h.layout.trans h'.layout.symm
  obtain ⟨_,_,_⟩ := one
  cases descriptor
  cases outputs
  cases layout
  rfl

theorem resolvePlan (s : Settings) : s.resolve = .ok s.plan := by
  rw [resolve,validateSome s.planResolves.filled]
  rfl

theorem resolveIff {s : Settings} {plan : Plan} : s.resolve = .ok plan ↔ Resolves s plan := by
  rw [resolvePlan,Except.ok.injEq]
  constructor
  · rintro rfl
    exact s.planResolves
  · exact resolvesUnique s.planResolves

theorem resolveSame {s other : Settings} (h : Resolves other s.plan) : other.resolve = s.resolve :=
  (resolveIff.2 h).trans s.resolvePlan.symm

theorem resolveVariant {s : Settings} (descriptor : s.descriptor ≠ none) (outputs : s.outputs ≠ []) (v : Option Variant) :
    {s with variant := v}.resolve = s.resolve :=
  resolveSame {s.planResolves with
    ungiven := fun none => absurd none descriptor
    unlisted := fun none => absurd none outputs}

theorem resolveBase {s : Settings} (descriptor : ∃ path, s.descriptor = some path ∧ path.isAbsolute = true)
    (outputs : s.outputs ≠ []) (absolute : ∀ path ∈ s.outputs, path.isAbsolute = true) (dir : Option Path) :
    {s with baseDir := dir}.resolve = s.resolve := by
  obtain ⟨own,found,standing⟩ := descriptor
  have itself : ∀ base : Path, s.outputs.map base.join = s.outputs := by
    intro base
    calc s.outputs.map base.join = s.outputs.map id :=
          List.map_congr_left (fun path member => Path.joinAbsolute (absolute path member) base)
      _ = s.outputs := List.map_id s.outputs
  refine resolveSame ⟨s.planResolves.filled,?_,?_,?_,?_,s.planResolves.layout⟩
  · intro path same
    cases found.symm.trans same
    rw [s.planResolves.given own found,Path.joinAbsolute standing,Path.joinAbsolute standing]
  · intro none
    cases found.symm.trans none
  · intro some
    rw [s.planResolves.listed some,itself,itself]
  · exact fun none => absurd none outputs

theorem overFileRun {loc : Location} {t : FileTree} {path : Path} {file : ConfigFile} (s : Settings)
    (read : ((readConfigFile path).run loc t).value = .ok file) :
    ((s.overFile (some path)).run loc t).value = .ok ((file.settings path).merge s) := by
  have first := Program.runParts read rfl
  have settings : (readSettings path).run loc t = ⟨.ok (file.settings path),_,_⟩ := Program.runOnward first rfl
  rw [overFile,Program.runAndThen settings]
  rfl

theorem baseDirectorySame (path : Path) : ConfigFile.baseDirectory path = path.directory := by
  unfold ConfigFile.baseDirectory Path.directory
  cases path.parent with
  | none => rfl
  | some dir => by_cases empty : dir.text = "" <;> simp [Option.filter,empty]

theorem emptyListResolved {s : Settings} {path : Path} {file : ConfigFile} (empty : file.outputs = some [])
    (unset : s.outputs = []) : ((file.settings path).merge s).plan.outputs =
      (((s.variant <|> file.variant).getD .main).plan (s.baseDir.getD path.directory)).outputs := by
  have none : ((file.settings path).merge s).outputs = [] := by simp [merge,ConfigFile.settings,empty,unset]
  have directory : ((file.settings path).merge s).baseDir.getD ⟨"."⟩ = s.baseDir.getD path.directory := by
    rw [merge,ConfigFile.settings,baseDirectorySame]
    cases s.baseDir <;> rfl
  rw [(planResolves _).unlisted none,directory]
  rfl

/- Settings resolve in all cases, and into one plan. -/
theorem settingsResolved (s : Settings) :
    (∃ plan, s.resolve = .ok plan) ∧ (∀ plan, s.resolve = .ok plan ↔ Resolves s plan) ∧
      (∀ loc t path file, ((readConfigFile path).run loc t).value = .ok file → file.outputs = some [] → s.outputs = [] →
        ∃ layered plan, ((s.overFile (some path)).run loc t).value = .ok layered ∧ layered.resolve = .ok plan ∧
          plan.outputs = (((s.variant <|> file.variant).getD .main).plan (s.baseDir.getD path.directory)).outputs) ∧
      (s.descriptor ≠ none → s.outputs ≠ [] → ∀ v, {s with variant := v}.resolve = s.resolve) ∧
      ((∃ path, s.descriptor = some path ∧ path.isAbsolute = true) → s.outputs ≠ [] →
        (∀ path ∈ s.outputs, path.isAbsolute = true) → ∀ dir, {s with baseDir := dir}.resolve = s.resolve) := by
  refine ⟨⟨_,s.resolvePlan⟩,fun _ => resolveIff,?_,resolveVariant,resolveBase⟩
  intro loc t path file read empty unset
  exact ⟨_,_,s.overFileRun read,resolvePlan _,emptyListResolved empty unset⟩

def emptyListText : String := "outputs = []\nvariant = \"main-and-test\"\n"

def emptyListTree : FileTree :=
  .holding [(["quoter"],FileTree.newDirectory),(["quoter","paramgen.toml"],.file emptyListText.toUTF8 0o644)]

def absolute : Settings := ⟨some ⟨"quoter"⟩,some .main,some ⟨"/in.json"⟩,[⟨"/a.json"⟩,⟨"/b/"⟩],none⟩

theorem emptyListRead : ((readConfigFile ⟨"quoter/paramgen.toml"⟩).run [] emptyListTree).value =
    .ok ⟨none,some [],none,some .mainAndTest⟩ := by
  have holds : emptyListTree.Holds [] ⟨"quoter/paramgen.toml"⟩ emptyListText := holdsText rfl
  have accepted : (ConfigFile.ofToml emptyListText).toOption = some ⟨none,some [],none,some .mainAndTest⟩ := by decide +kernel
  rw [readConfigFileRun holds]
  cases found : ConfigFile.ofToml emptyListText with
  | error e => simp [found,Except.toOption] at accepted
  | ok file =>
      rw [found,Except.toOption,Option.some.injEq] at accepted
      rw [accepted]
      rfl

theorem absoluteResolved :
    (∃ layered plan, ((unset.overFile (some ⟨"quoter/paramgen.toml"⟩)).run [] emptyListTree).value = .ok layered ∧
      layered.resolve = .ok plan ∧ plan.outputs =
        [⟨"quoter/src/main/resources/parameter-names.json"⟩,⟨"quoter/src/test/resources/parameter-names.json"⟩]) ∧
      absolute.resolve = .ok ⟨⟨"/in.json"⟩,[⟨"/a.json"⟩,⟨"/b/"⟩],.compact⟩ ∧
      {absolute with variant := some .mainAndTest}.resolve = absolute.resolve ∧
      {absolute with baseDir := none}.resolve = absolute.resolve := by
  obtain ⟨_,plans,_,same,free⟩ := settingsResolved absolute
  obtain ⟨_,_,listed,_⟩ := settingsResolved unset
  obtain ⟨layered,plan,read,resolved,outputs⟩ := listed [] emptyListTree ⟨"quoter/paramgen.toml"⟩ _ emptyListRead rfl rfl
  refine ⟨⟨layered,plan,read,resolved,outputs.trans (by decide)⟩,?_,?_,?_⟩
  · refine (plans _).2 ⟨by decide,?_,nofun,fun _ => rfl,nofun,rfl⟩
    rintro path ⟨⟩
    rfl
  · exact same (by decide) (by decide) _
  · exact free ⟨_,rfl,by decide⟩ (by decide) (by decide) _

end Settings
end SyntaxCatalog
