import SyntaxCatalog.Proofs.Generation.Reading
import SyntaxCatalog.Proofs.Toml.Value

/-! Which documents are configuration, and what they set. A document is taken key by key, and since its names are
distinct each key decides one setting by itself: the order of the keys does not matter, nor how a table is written. -/
namespace SyntaxCatalog
open Toml (Item Key Table Value Chooses Lists)

namespace Toml

def PathValue (value : Value) (path : Path) : Prop := value = .scalar (.string path.text)

def Sets {α : Type} (entries : List (String × Value)) (key : String) (means : Value → α → Prop)
    (before after : Option α) : Prop :=
  (key ∉ entries.map Prod.fst ∧ after = before) ∨ ∃ value a, (key,value) ∈ entries ∧ means value a ∧ after = some a

def Under {α : Type} (entries : List (String × Value)) (key : String) (means : Value → α → Prop) : Option α → Prop
  | none => key ∉ entries.map Prod.fst
  | some a => ∃ value, (key,value) ∈ entries ∧ means value a

section
variable {α : Type} {entries : List (String × Value)} {name key : String} {value : Value} {means : Value → α → Prop}
  {before after : Option α}

theorem setsOwn : Sets [(key,value)] key means before after ↔ ∃ a, means value a ∧ after = some a := by
  simp [Sets]

theorem setsOther (other : name ≠ key) : Sets [(name,value)] key means before after ↔ after = before := by
  simp [Sets,other.symm]

theorem setsNothing : Sets [] key means before after ↔ after = before := by
  simp [Sets]

theorem setsCons (new : name ∉ entries.map Prod.fst) : Sets ((name,value) :: entries) key means before after ↔
    ∃ between, Sets [(name,value)] key means before between ∧ Sets entries key means between after := by
  by_cases same : name = key
  · subst same
    have free : ∀ value, (name,value) ∉ entries := fun value there => new (List.mem_map.2 ⟨_,there,rfl⟩)
    simp only [setsOwn]
    simp [Sets,free,new]
  · have other : key ≠ name := fun h => same h.symm
    simp only [setsOther same]
    simp [Sets,other]

theorem setsUnder : Sets entries key means none after ↔ Under entries key means after := by
  cases after <;> simp [Sets,Under]

theorem underExists (distinct : (entries.map Prod.fst).Nodup) :
    (∃ after, Under entries key means after) ↔ ∀ value, (key,value) ∈ entries → ∃ a, means value a := by
  constructor
  · rintro ⟨_ | a,under⟩ value member
    · exact absurd (List.mem_map.2 ⟨_,member,rfl⟩) under
    · obtain ⟨other,there,meant⟩ := under
      cases List.inj_on_of_nodup_map distinct there member rfl
      exact ⟨a,meant⟩
  · intro all
    by_cases there : key ∈ entries.map Prod.fst
    · obtain ⟨⟨_,value⟩,member,rfl⟩ := List.mem_map.1 there
      obtain ⟨a,meant⟩ := all value member
      exact ⟨some a,value,member,meant⟩
    · exact ⟨none,there⟩

theorem underPerm {others : List (String × Value)} (same : others.Perm entries) :
    Under others key means after ↔ Under entries key means after := by
  cases after <;> simp [Under,same.mem_iff]

end
end Toml

namespace ConfigFile
open Toml (PathValue Sets Under setsOwn setsOther setsNothing setsCons setsUnder underExists underPerm)

structure Makes (entries : List (String × Value)) (before after : ConfigFile) : Prop where
  known : ∀ entry ∈ entries, entry.1 ∈ keys
  descriptor : Sets entries "descriptor" PathValue before.descriptor after.descriptor
  outputs : Sets entries "outputs" (Lists PathValue) before.outputs after.outputs
  layout : Sets entries "format" (Chooses layoutNames) before.layout after.layout
  variant : Sets entries "variant" (Chooses Variant.names) before.variant after.variant

/- The documented shape of a configuration: what may stand in it, and under which keys. -/
structure Shaped (entries : List (String × Value)) : Prop where
  known : ∀ entry ∈ entries, entry.1 ∈ ["descriptor","outputs","format","variant"]
  descriptor : ∀ value, ("descriptor",value) ∈ entries → ∃ path, PathValue value path
  outputs : ∀ value, ("outputs",value) ∈ entries → ∃ paths, Lists PathValue value paths
  layout : ∀ value, ("format",value) ∈ entries →
    ∃ layout : Json.Layout, Chooses [("compact",.compact),("pretty",.pretty)] value layout
  variant : ∀ value, ("variant",value) ∈ entries →
    ∃ variant : Variant, Chooses [("main",.main),("main-and-test",.mainAndTest)] value variant

structure Documented (entries : List (String × Value)) (file : ConfigFile) : Prop where
  known : ∀ entry ∈ entries, entry.1 ∈ ["descriptor","outputs","format","variant"]
  descriptor : Under entries "descriptor" PathValue file.descriptor
  outputs : Under entries "outputs" (Lists PathValue) file.outputs
  layout : Under entries "format" (Chooses [("compact",.compact),("pretty",.pretty)]) file.layout
  variant : Under entries "variant" (Chooses [("main",.main),("main-and-test",.mainAndTest)]) file.variant

theorem makesDocumented {entries : List (String × Value)} {file : ConfigFile} :
    Makes entries empty file ↔ Documented entries file :=
  ⟨fun h => ⟨h.known,setsUnder.1 h.descriptor,setsUnder.1 h.outputs,setsUnder.1 h.layout,setsUnder.1 h.variant⟩,
    fun h => ⟨h.known,setsUnder.2 h.descriptor,setsUnder.2 h.outputs,setsUnder.2 h.layout,setsUnder.2 h.variant⟩⟩

theorem documentedShaped {entries : List (String × Value)} (distinct : (entries.map Prod.fst).Nodup) :
    (∃ file, Documented entries file) ↔ Shaped entries := by
  constructor
  · rintro ⟨file,h⟩
    exact ⟨h.known,(underExists distinct).1 ⟨_,h.descriptor⟩,(underExists distinct).1 ⟨_,h.outputs⟩,
      (underExists distinct).1 ⟨_,h.layout⟩,(underExists distinct).1 ⟨_,h.variant⟩⟩
  · intro h
    obtain ⟨descriptor,one⟩ := (underExists distinct).2 h.descriptor
    obtain ⟨outputs,two⟩ := (underExists distinct).2 h.outputs
    obtain ⟨layout,three⟩ := (underExists distinct).2 h.layout
    obtain ⟨variant,four⟩ := (underExists distinct).2 h.variant
    exact ⟨⟨descriptor,outputs,layout,variant⟩,h.known,one,two,three,four⟩

theorem documentedPerm {entries others : List (String × Value)} {file : ConfigFile} (same : others.Perm entries) :
    Documented others file ↔ Documented entries file :=
  ⟨fun h => ⟨fun _ member => h.known _ (same.mem_iff.2 member),(underPerm same).1 h.descriptor,
      (underPerm same).1 h.outputs,(underPerm same).1 h.layout,(underPerm same).1 h.variant⟩,
    fun h => ⟨fun _ member => h.known _ (same.mem_iff.1 member),(underPerm same).2 h.descriptor,
      (underPerm same).2 h.outputs,(underPerm same).2 h.layout,(underPerm same).2 h.variant⟩⟩

section
variable {before after : ConfigFile} {name : String} {value : Value} {entries : List (String × Value)}

theorem makesNothing : Makes [] before after ↔ after = before := by
  constructor
  · intro h
    have descriptor := setsNothing.1 h.descriptor
    have outputs := setsNothing.1 h.outputs
    have layout := setsNothing.1 h.layout
    have variant := setsNothing.1 h.variant
    cases before
    cases after
    cases descriptor
    cases outputs
    cases layout
    cases variant
    rfl
  · rintro rfl
    exact ⟨nofun,setsNothing.2 rfl,setsNothing.2 rfl,setsNothing.2 rfl,setsNothing.2 rfl⟩

theorem makesCons (new : name ∉ entries.map Prod.fst) :
    Makes ((name,value) :: entries) before after ↔ ∃ between, Makes [(name,value)] before between ∧ Makes entries between after := by
  constructor
  · intro h
    obtain ⟨descriptor,oneDescriptor,descriptors⟩ := (setsCons new).1 h.descriptor
    obtain ⟨outputs,oneOutputs,moreOutputs⟩ := (setsCons new).1 h.outputs
    obtain ⟨layout,oneLayout,layouts⟩ := (setsCons new).1 h.layout
    obtain ⟨variant,oneVariant,variants⟩ := (setsCons new).1 h.variant
    have first : ∀ entry ∈ [(name,value)], entry.1 ∈ keys := by
      intro entry member
      exact h.known entry (List.mem_singleton.1 member ▸ List.mem_cons_self)
    refine ⟨⟨descriptor,outputs,layout,variant⟩,⟨first,oneDescriptor,oneOutputs,oneLayout,oneVariant⟩,?_⟩
    exact ⟨fun entry member => h.known entry (List.mem_cons_of_mem _ member),descriptors,moreOutputs,layouts,variants⟩
  · rintro ⟨between,first,others⟩
    refine ⟨?_,(setsCons new).2 ⟨_,first.descriptor,others.descriptor⟩,(setsCons new).2 ⟨_,first.outputs,others.outputs⟩,
      (setsCons new).2 ⟨_,first.layout,others.layout⟩,(setsCons new).2 ⟨_,first.variant,others.variant⟩⟩
    intro entry member
    rcases List.mem_cons.1 member with rfl | member
    · exact first.known _ List.mem_cons_self
    · exact others.known entry member

end

theorem pathItemIff {place : Toml.Span} {item : Item} {path : Path} :
    pathItem place item = .ok path ↔ PathValue item.value path := by
  have text := @Toml.stringItemIff place item "path string" path.text
  unfold pathItem
  rw [PathValue,← text]
  cases Toml.stringItem "path string" place item with
  | error e => simp [Except.map]
  | ok found =>
      cases path
      simp [Except.map]

theorem mapIff {α β ε : Type} {r : Except ε α} {f : α → β} {b : β} : r.map f = .ok b ↔ ∃ a, r = .ok a ∧ b = f a := by
  cases r <;> simp [Except.map,eq_comm]

theorem fileIff {file other : ConfigFile} : file = other ↔ file.descriptor = other.descriptor ∧
    file.outputs = other.outputs ∧ file.layout = other.layout ∧ file.variant = other.variant := by
  cases file
  cases other
  simp

theorem makesOne {before after : ConfigFile} {name : String} {value : Value} : Makes [(name,value)] before after ↔
    name ∈ keys ∧ Sets [(name,value)] "descriptor" PathValue before.descriptor after.descriptor ∧
      Sets [(name,value)] "outputs" (Lists PathValue) before.outputs after.outputs ∧
      Sets [(name,value)] "format" (Chooses layoutNames) before.layout after.layout ∧
      Sets [(name,value)] "variant" (Chooses Variant.names) before.variant after.variant :=
  ⟨fun h => ⟨h.known _ List.mem_cons_self,h.descriptor,h.outputs,h.layout,h.variant⟩,
    fun ⟨known,descriptor,outputs,layout,variant⟩ =>
      ⟨fun _ member => List.mem_singleton.1 member ▸ known,descriptor,outputs,layout,variant⟩⟩

theorem takeIff {before after : ConfigFile} {key : Key} {item : Item} :
    before.take key item = .ok after ↔ Makes [(key.name,item.value)] before after := by
  obtain ⟨descriptor,outputs,layout,variant⟩ :
      "descriptor" ∈ keys ∧ "outputs" ∈ keys ∧ "format" ∈ keys ∧ "variant" ∈ keys := by decide
  rw [makesOne]
  unfold take
  dsimp only
  split
  · rename_i same
    simp only [same,mapIff,pathItemIff,fileIff,setsOwn,setsOther,ne_eq,String.reduceEq,not_false_eq_true]
    constructor
    · rintro ⟨path,meant,own,others⟩
      exact ⟨descriptor,⟨path,meant,own⟩,others⟩
    · rintro ⟨_,⟨path,meant,own⟩,others⟩
      exact ⟨path,meant,own,others⟩
  · split
    · rename_i same
      simp only [same,mapIff,Toml.listItemIff fun _ _ _ => pathItemIff,fileIff,setsOwn,setsOther,ne_eq,String.reduceEq,
        not_false_eq_true]
      constructor
      · rintro ⟨paths,meant,first,own,others⟩
        exact ⟨outputs,first,⟨paths,meant,own⟩,others⟩
      · rintro ⟨_,first,⟨paths,meant,own⟩,others⟩
        exact ⟨paths,meant,first,own,others⟩
    · split
      · rename_i same
        simp only [same,mapIff,Toml.choiceItemIff,fileIff,setsOwn,setsOther,ne_eq,String.reduceEq,not_false_eq_true]
        constructor
        · rintro ⟨found,meant,first,second,own,last⟩
          exact ⟨layout,first,second,⟨found,meant,own⟩,last⟩
        · rintro ⟨_,first,second,⟨found,meant,own⟩,last⟩
          exact ⟨found,meant,first,second,own,last⟩
      · split
        · rename_i same
          simp only [same,mapIff,Toml.choiceItemIff,fileIff,setsOwn,setsOther,ne_eq,String.reduceEq,not_false_eq_true]
          constructor
          · rintro ⟨found,meant,first,second,third,own⟩
            exact ⟨variant,first,second,third,found,meant,own⟩
          · rintro ⟨_,first,second,third,found,meant,own⟩
            exact ⟨found,meant,first,second,third,own⟩
        · rename_i one two three four
          have unknown : key.name ∉ keys := by simp [keys,one,two,three,four]
          simp only [unknown,false_and,reduceCtorEq]

theorem foldMakes {table : Table} {before after : ConfigFile} (distinct : table.names.Nodup) :
    table.foldlM (fun file entry => file.take entry.1 entry.2) before = .ok after ↔
      Makes (Toml.fields table) before after := by
  induction table generalizing before with
  | nil =>
      show Except.ok before = .ok after ↔ _
      rw [Toml.fields,makesNothing,Except.ok.injEq,eq_comm]
  | cons entry more ih =>
      obtain ⟨new,others⟩ := List.nodup_cons.1 distinct
      rw [Toml.fields,makesCons (by rwa [Toml.fieldsNames])]
      simp only [← takeIff,← ih others]
      rw [List.foldlM_cons]
      cases before.take entry.1 entry.2 <;> simp [bind,Except.bind]

theorem ofTomlTable {text : String} {table : Table} {file : ConfigFile} (parsed : Toml.root text = some table) :
    ofToml text = .ok file ↔ ofTable table = .ok file := by
  unfold ofToml
  rw [parsed]
  dsimp only
  cases ofTable table <;> simp

theorem ofTomlIff {text : String} {table : Table} {file : ConfigFile} (parsed : Toml.root text = some table) :
    ofToml text = .ok file ↔ Documented (Toml.fields table) file := by
  rw [ofTomlTable parsed,← makesDocumented]
  exact foldMakes (Toml.rootNodup parsed)

end ConfigFile

theorem readConfigFileRun {base : Location} {t : FileTree} {path : Path} {text : String} (holds : t.Holds base path text) :
    (readConfigFile path).run base t = ⟨(ConfigFile.ofToml text).mapError (.configurationFile path),[],t⟩ := by
  have found := @readTextText base t path
  rw [textHolds.2 holds] at found
  refine Program.runOnward found ?_
  cases ConfigFile.ofToml text <;> rfl

/- A document is accepted exactly if it has the documented shape, and then the configuration is what it says. Neither
the order of its keys nor the way in which its tables are written has a part in this. -/
theorem configurationAccepted {text : String} {table : Table} (parsed : Toml.root text = some table) :
    ((∃ file, ConfigFile.ofToml text = .ok file) ↔ ConfigFile.Shaped (Toml.fields table)) ∧
      (∀ file, ConfigFile.ofToml text = .ok file ↔ ConfigFile.Documented (Toml.fields table) file) ∧
      (∀ other respelled, Toml.root other = some respelled → (Toml.fields respelled).Perm (Toml.fields table) →
        ∀ file, ConfigFile.ofToml other = .ok file ↔ ConfigFile.ofToml text = .ok file) ∧
      ∀ base t path, t.Holds base path text → ∀ file,
        ((readConfigFile path).run base t).value = .ok file ↔ ConfigFile.Documented (Toml.fields table) file := by
  have reads : ∀ file, ConfigFile.ofToml text = .ok file ↔ ConfigFile.Documented (Toml.fields table) file :=
    fun file => ConfigFile.ofTomlIff parsed
  have distinct : ((Toml.fields table).map Prod.fst).Nodup := by
    rw [Toml.fieldsNames]
    exact Toml.rootNodup parsed
  refine ⟨?_,reads,?_,?_⟩
  · simp only [reads]
    exact ConfigFile.documentedShaped distinct
  · intro other respelled readable same file
    rw [reads,ConfigFile.ofTomlIff readable]
    exact ConfigFile.documentedPerm same
  · intro base t path holds file
    rw [← reads,readConfigFileRun holds]
    cases ConfigFile.ofToml text <;> simp [Except.mapError]

def mixedText : String := "outputs = [\"a\", \"b\"]\nvariant.main = []\n[format.pretty]\n"

theorem mixedAccepted : ∃ table, Toml.root mixedText = some table ∧
    ConfigFile.Documented (Toml.fields table) ⟨none,some [⟨"a"⟩,⟨"b"⟩],some .pretty,some .main⟩ := by
  have readable : (Toml.root mixedText).isSome := by decide +kernel
  obtain ⟨table,parsed⟩ := Option.isSome_iff_exists.1 readable
  have accepted : (ConfigFile.ofToml mixedText).toOption = some ⟨none,some [⟨"a"⟩,⟨"b"⟩],some .pretty,some .main⟩ := by
    decide +kernel
  refine ⟨table,parsed,((configurationAccepted parsed).2.1 _).1 ?_⟩
  cases found : ConfigFile.ofToml mixedText with
  | error e => simp [found,Except.toOption] at accepted
  | ok file => simpa [found,Except.toOption] using accepted

end SyntaxCatalog
