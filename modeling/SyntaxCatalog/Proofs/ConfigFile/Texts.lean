import SyntaxCatalog.ConfigFile.Json
import SyntaxCatalog.Proofs.ConfigFile.Parts
import SyntaxCatalog.Proofs.Json.Refusing
import SyntaxCatalog.Proofs.Toml.Naming
import SyntaxCatalog.Proofs.Toml.Writing

/-! A configuration as text, in two formats. The keys that are present may come in any order and the strings may be
escaped in any way of the format: both readers come to the same configuration, and refuse a document with one more key. -/
namespace SyntaxCatalog.ConfigFile
open Toml (Value PathValue Chooses Lists)

def keyed (order : List Part) : List (String × Part) := order.map (fun part => (part.key,part))

def TomlText (order : List Part) (text : List Char) : Prop :=
  Toml.LinesText (PartText Toml.Literal Toml.ArrayText) (keyed order) text

def JsonText (order : List Part) (text : List Char) : Prop :=
  Json.ObjectText (PartText Json.Literal Json.ListText) (keyed order) text

/- Lines for parts, and then the beginning of a line or of a table for another key. What follows it is left open. -/
inductive TomlWith (front : List Part) (name : String) : List Char → Prop where
  | line {text indent opener blank key rest : List Char} (begun : TomlText front text) (lead : Toml.Blanks indent)
      (opens : Toml.Opener opener) (inside : Toml.Blanks blank) (named : Toml.KeyText name key) (apart : Toml.Apart rest) :
      TomlWith front name (text ++ (indent ++ (opener ++ (blank ++ (key ++ rest)))))

inductive JsonWith (front : List Part) (name : String) : List Char → Prop where
  | member {first : Bool} {lead text blank key rest : List Char} (left : Json.Blanks lead)
      (begun : Json.Begun (Json.Member (PartText Json.Literal Json.ListText)) first (keyed front) text)
      (inside : Json.Blanks blank) (named : Json.Literal name key) :
      JsonWith front name (lead ++ '{' :: (text ++ (blank ++ key ++ rest)))

theorem Part.known (part : Part) : part.key ∈ keys := by
  cases part <;> simp [key,keys]

def Part.value : Part → Value
  | .descriptor path => .scalar (.string path.text)
  | .outputs paths => .array (paths.map (fun path => .scalar (.string path.text)))
  | .layout found => .scalar (.string (layoutWord found))
  | .variant found => .scalar (.string (variantWord found))

def valued (order : List Part) : List (String × Value) := (keyed order).map (fun pair => (pair.1,pair.2.value))

theorem valuedNames (order : List Part) : (valued order).map Prod.fst = order.map Part.key := by
  simp [valued,keyed]

theorem partReads {part : Part} {text : List Char} (h : PartText Toml.Literal Toml.ArrayText part text) :
    Toml.Reads (Toml.value Toml.deepest) part.value text := by
  cases part with
  | descriptor path => exact Toml.literalReads h _
  | outputs paths =>
      have each : ∀ (path : Path) text, Toml.Literal path.text text →
          Toml.Reads (Toml.value 78) (.scalar (.string path.text)) text := fun _ _ literal => Toml.literalReads literal _
      exact Toml.arrayReads (Toml.arrayMap each h)
  | layout found => exact Toml.literalReads h _
  | variant found => exact Toml.literalReads h _

theorem linesReads {order : List Part} {text : List Char} (h : TomlText order text) :
    Toml.LinesText (Toml.Reads (Toml.value Toml.deepest)) (valued order) text := by
  have each : ∀ part text, PartText Toml.Literal Toml.ArrayText part text →
      Toml.Reads (Toml.value Toml.deepest) part.value text := fun _ _ => partReads
  exact Toml.linesMap each h

theorem partMakes (file : ConfigFile) (part : Part) : Makes [(part.key,part.value)] file (part.set file) := by
  rw [makesOne]
  have other {α : Type} {name key : String} {v : Value} {means : Value → α → Prop} {found : Option α} (apart : name ≠ key) :
      Toml.Sets [(name,v)] key means found found := (Toml.setsOther apart).2 rfl
  cases part with
  | descriptor path =>
      dsimp only [Part.key]
      exact ⟨by decide,Toml.setsOwn.2 ⟨path,rfl,rfl⟩,other (by decide),other (by decide),other (by decide)⟩
  | outputs paths =>
      have meant : Lists PathValue (Part.outputs paths).value paths := by
        refine ⟨_,rfl,?_⟩
        rw [List.forall₂_map_left_iff]
        exact List.forall₂_same.2 (fun _ _ => rfl)
      dsimp only [Part.key]
      exact ⟨by decide,other (by decide),Toml.setsOwn.2 ⟨paths,meant,rfl⟩,other (by decide),other (by decide)⟩
  | layout found =>
      dsimp only [Part.key]
      exact ⟨by decide,other (by decide),other (by decide),Toml.setsOwn.2 ⟨found,.named (layoutWordKnown found),rfl⟩,
        other (by decide)⟩
  | variant found =>
      dsimp only [Part.key]
      exact ⟨by decide,other (by decide),other (by decide),other (by decide),
        Toml.setsOwn.2 ⟨found,.named (variantWordKnown found),rfl⟩⟩

theorem orderMakes {order : List Part} (distinct : (order.map Part.key).Nodup) (file : ConfigFile) :
    Makes (valued order) file (gathered file order) := by
  induction order generalizing file with
  | nil => exact makesNothing.2 rfl
  | cons part order ih =>
      obtain ⟨new,unique⟩ := List.nodup_cons.1 distinct
      rw [← valuedNames] at new
      exact (makesCons new).2 ⟨_,partMakes file part,ih unique _⟩

theorem tomlRead {order : List Part} {text : List Char} (h : TomlText order text)
    (distinct : (order.map Part.key).Nodup) : ofToml (String.ofList text) = .ok (gathered empty order) := by
  obtain ⟨table,parsed,same⟩ := Toml.rootRead (linesReads h) (by rwa [valuedNames])
  rw [ofTomlIff parsed,same]
  exact makesDocumented.1 (orderMakes distinct empty)

theorem tomlForeign {front : List Part} {name : String} {text : List Char} (h : TomlWith front name text)
    (distinct : (front.map Part.key).Nodup) (unknown : name ∉ ["descriptor","outputs","format","variant"]) :
    ∃ e, ofToml (String.ofList text) = .error e := by
  cases read : ofToml (String.ofList text) with
  | error e => exact ⟨e,rfl⟩
  | ok file =>
      cases parsed : Toml.root (String.ofList text) with
      | none =>
          unfold ofToml at read
          rw [parsed] at read
          cases read
      | some table =>
          have there : name ∈ table.names := by
            cases h with
            | line begun lead opens inside named apart =>
                exact Toml.rootNamed (linesReads begun) (by rwa [valuedNames]) lead opens inside named apart parsed
          rw [← Toml.fieldsNames] at there
          obtain ⟨entry,member,rfl⟩ := List.mem_map.1 there
          exact absurd (((ofTomlIff parsed).1 read).known entry member) unknown

def Fields.with (state : Fields) (part : Part) : Fields := ⟨part.key :: state.seen,part.set state.file⟩

def Goes (state : Fields) (key : String) (part : Part) (next : Fields) : Prop :=
  key = part.key ∧ part.key ∉ state.seen ∧ next = state.with part

theorem literalStart {s : String} {text : List Char} (h : Json.Literal s text) : 'n' ∉ text.head? := by
  cases h with
  | quoted spelled => exact nofun

theorem listStart {α : Type} {item : α → List Char → Prop} {as : List α} {text : List Char}
    (h : Json.ListText item as text) : 'n' ∉ text.head? := by
  cases h with
  | empty only => exact nofun
  | filled series => exact nofun

theorem pathReads {path : Path} {text : List Char} (h : Json.Literal path.text text) : Json.Reads pathReader path text :=
  Json.mapReads Path.mk (Json.stringReads "path string" h)

theorem fieldReads {state : Fields} {part : Part} (new : part.key ∉ state.seen) {text : List Char}
    (h : PartText Json.Literal Json.ListText part text) :
    ∃ reader, record.field state part.key = .value reader ∧ Json.Reads reader (state.with part) text := by
  have unseen : state.seen.contains part.key = false := by simpa using new
  have wanted {reader : Text.Reader Json.Fault Fields} (own : state.reader part.key = some reader) :
      record.field state part.key = .value reader := by
    simp [record,own,new]
  cases part with
  | descriptor path =>
      have read := Json.nullableReads (pathReads h) (literalStart h)
      exact ⟨_,wanted rfl,Json.mapReads _ read⟩
  | outputs paths =>
      have read := Json.nullableReads (Json.listReads (Json.bracketedImp (fun _ _ => pathReads) h)) (listStart h)
      exact ⟨_,wanted rfl,Json.mapReads _ read⟩
  | layout found =>
      have read := Json.nullableReads (Json.choiceReads h (layoutWordKnown found)) (literalStart h)
      exact ⟨_,wanted rfl,Json.mapReads _ read⟩
  | variant found =>
      have read := Json.nullableReads (Json.choiceReads h (variantWordKnown found)) (literalStart h)
      exact ⟨_,wanted rfl,Json.mapReads _ read⟩

theorem recordEnters : Json.Enters record.field (PartText Json.Literal Json.ListText) Goes := by
  rintro state next key part text ⟨rfl,new,rfl⟩ written
  exact fieldReads new written

theorem orderCourse {order : List Part} (distinct : (order.map Part.key).Nodup) (state : Fields)
    (new : ∀ part ∈ order, part.key ∉ state.seen) :
    ∃ last, Json.Course Goes state (keyed order) last ∧ last.file = gathered state.file order := by
  induction order generalizing state with
  | nil => exact ⟨state,.done state,rfl⟩
  | cons part order ih =>
      obtain ⟨apart,unique⟩ := List.nodup_cons.1 distinct
      have unseen : ∀ other ∈ order, other.key ∉ (state.with part).seen := by
        intro other member seen
        rcases List.mem_cons.1 seen with same | seen
        · exact apart (List.mem_map.2 ⟨other,member,same⟩)
        · exact new other (List.mem_cons_of_mem part member) seen
      obtain ⟨last,course,all⟩ := ih unique (state.with part) unseen
      exact ⟨last,.member ⟨rfl,new part List.mem_cons_self,rfl⟩ course,all⟩

theorem jsonRead {order : List Part} {before text after : List Char} (h : JsonText order text)
    (distinct : (order.map Part.key).Nodup) (left : Json.Blanks before) (right : Json.Blanks after) :
    ofJson (String.ofList (before ++ text ++ after)) = .ok (gathered empty order) := by
  obtain ⟨last,course,all⟩ := orderCourse distinct record.start (fun _ _ => List.not_mem_nil)
  have written : Json.RecordText record (PartText Json.Literal Json.ListText) Goes (gathered empty order) text :=
    ⟨_,last,h,course,congrArg Except.ok all⟩
  have reads : Json.Reads record.reader (gathered empty order) text :=
    ⟨Json.recordStart written,fun left _ => Json.recordRead recordEnters written left _⟩
  exact Json.parseRead reads left right

theorem fieldForeign {name : String} (unknown : name ∉ keys) (state : Fields) :
    record.field state name = .refuse (.unknownField name keys) := by
  simp only [keys,List.mem_cons,List.not_mem_nil,or_false,not_or] at unknown
  simp [record,Fields.reader,unknown]

theorem jsonForeign {front : List Part} {name : String} {text : List Char} (h : JsonWith front name text)
    (distinct : (front.map Part.key).Nodup) (unknown : name ∉ ["descriptor","outputs","format","variant"]) :
    ∃ e, ofJson (String.ofList text) = .error e := by
  cases h with
  | @member first lead text blank key rest left begun inside named =>
      obtain ⟨last,course,_⟩ := orderCourse distinct record.start (fun _ _ => List.not_mem_nil)
      obtain ⟨mark,leads,through⟩ := Json.membersBegun recordEnters begun course
      have found : Json.nextKey first (mark ++ (blank ++ key ++ rest)) = .ok (some name,rest) := by
        have read := Json.nextKeyRead leads inside named rest
        rwa [List.append_assoc,List.append_assoc,← List.append_assoc blank] at read
      have refused := Json.membersForeign found (fieldForeign unknown last)
      have solid : Json.isBlank '{' = false := rfl
      refine Json.parseRefused (e := Json.refusedKey (.unknownField name keys) rest) ?_
      change record.read _ = _
      rw [String.toList_ofList,Json.Record.read,Json.skipBlankBlanks left,Json.skipBlankSolid solid]
      simp only [↓reduceIte,through,refused]

def writtenToml (order : List Part) : List Char :=
  (keyed order).flatMap (fun pair => Toml.writtenLine pair.1 (writtenPart Toml.writtenString Toml.writtenArray pair.2))

def writtenJson (layout : Json.Layout) (order : List Part) : List Char :=
  layout.object 0 ((keyed order).map
    (fun pair => layout.member pair.1 (writtenPart Json.writtenString (layout.enclosed 1 '[' ']') pair.2)))

theorem tomlWritten (order : List Part) : TomlText order (writtenToml order) := by
  have plain : ∀ name ∈ keys, name.toList ≠ [] ∧ name.toList.all Toml.isBare = true := by decide
  have bare : ∀ pair ∈ keyed order, Toml.KeyText pair.1 pair.1.toList := by
    intro pair member
    obtain ⟨part,_,rfl⟩ := List.mem_map.1 member
    obtain ⟨some,all⟩ := plain part.key part.known
    exact .bare some (List.all_eq_true.1 all)
  refine Toml.linesWritten (keyed order) bare (fun pair _ => ?_)
  exact partWritten Toml.literalWritten (fun paths => Toml.arrayWritten paths (fun path _ => Toml.literalWritten path.text)) pair.2

theorem jsonWritten (layout : Json.Layout) (order : List Part) : JsonText order (writtenJson layout order) := by
  refine Json.objectWritten layout 0 (keyed order) (fun pair _ => ?_)
  refine partWritten Json.literalWritten (fun paths => ?_) pair.2
  exact Json.enclosedWritten layout 1 '[' ']' paths (fun path _ => Json.literalWritten path.text)

/- A configuration is read from either of its texts, whatever the order of its keys, and from neither of them once
there is another key: a line or a table in the one, a member in the other, anywhere among the rest. -/
theorem textsRead {file : ConfigFile} {order : List Part} (same : order.Perm file.parts) :
    (∀ text, TomlText order text → ofToml (String.ofList text) = .ok file) ∧
      (∀ before text after, Json.Blanks before → JsonText order text → Json.Blanks after →
        ofJson (String.ofList (before ++ text ++ after)) = .ok file) ∧
      TomlText order (writtenToml order) ∧ (∀ layout, JsonText order (writtenJson layout order)) ∧
      ∀ front back, order = front ++ back → ∀ name ∉ ["descriptor","outputs","format","variant"],
        (∀ text, TomlWith front name text → ∃ e, ofToml (String.ofList text) = .error e) ∧
        ∀ text, JsonWith front name text → ∃ e, ofJson (String.ofList text) = .error e := by
  have distinct := orderNodup same
  have whole := orderGathered same
  refine ⟨?_,?_,tomlWritten order,fun layout => jsonWritten layout order,?_⟩
  · intro text written
    rw [tomlRead written distinct,whole]
  · intro before text after left written right
    rw [jsonRead written distinct left right,whole]
  · rintro front back rfl name unknown
    rw [List.map_append] at distinct
    have early := (List.nodup_append.1 distinct).1
    exact ⟨fun text extended => tomlForeign extended early unknown,fun text extended => jsonForeign extended early unknown⟩

def oddFile : ConfigFile :=
  ⟨some ⟨"a\"b\\c\n"⟩,some [⟨""⟩,⟨"\x01\x7f"⟩,⟨"😀"⟩],some .pretty,some .mainAndTest⟩

theorem oddRead :
    ofToml (String.ofList (writtenToml oddFile.parts.reverse)) = .ok oddFile ∧
      ofJson (String.ofList (writtenJson .compact oddFile.parts.reverse)) = .ok oddFile ∧
      ∃ e, ofToml (String.ofList (writtenToml oddFile.parts.reverse ++ ("output".toList ++ " = []".toList))) = .error e := by
  obtain ⟨toml,json,written,object,foreign⟩ := textsRead (List.reverse_perm oddFile.parts)
  have read := json [] _ [] Json.blanksNil (object .compact) Json.blanksNil
  rw [List.nil_append,List.append_nil] at read
  have key : Toml.KeyText "output" "output".toList := .bare (by decide) (List.all_eq_true.1 (by decide))
  have apart : Toml.Apart " = []".toList := by
    rintro _ ⟨⟩
    rfl
  have another := TomlWith.line written Toml.blanksNil .line Toml.blanksNil key apart
  rw [List.nil_append,List.nil_append,List.nil_append] at another
  obtain ⟨refused,_⟩ := foreign oddFile.parts.reverse [] (List.append_nil _).symm "output" (by decide)
  exact ⟨toml _ written,read,refused _ another⟩

end SyntaxCatalog.ConfigFile
