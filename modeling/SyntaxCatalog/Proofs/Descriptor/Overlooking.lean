import SyntaxCatalog.Proofs.Descriptor.Acceptance
import SyntaxCatalog.Proofs.Generation.Protocol
import SyntaxCatalog.Proofs.Json.Overlooking

/-! What a descriptor does not say. Fields that are not asked for may come and go, in any of its records and
with anything inside, and the descriptor that is read remains the same. Only their keys have to be texts. -/
namespace SyntaxCatalog
open Json

/- Texts that differ in other fields than `name`, in other fields than `name` and `attributes`, and in other
fields than `nodes`, each with the records that are held inside. -/
def Attribute.Differs : List Char → List Char → Prop := RecordDiffers ["name"] (fun _ => Eq)

def Node.PartDiffers (key : String) : List Char → List Char → Prop :=
  if key = "attributes" then ListDiffers Attribute.Differs else Eq

def Node.Differs : List Char → List Char → Prop := RecordDiffers ["name","attributes"] PartDiffers

def Descriptor.Differs : List Char → List Char → Prop := RecordDiffers ["nodes"] (fun _ => ListDiffers Node.Differs)

def Attribute.Adds : List Char → List Char → Prop := RecordAdds ["name"] (fun _ _ _ => False)

def Node.PartAdds (key : String) (old new : List Char) : Prop := key = "attributes" ∧ ListAdds Attribute.Adds old new

def Node.Adds : List Char → List Char → Prop := RecordAdds ["name","attributes"] PartAdds

def Descriptor.Adds : List Char → List Char → Prop := RecordAdds ["nodes"] (fun _ => ListAdds Node.Adds)

def Alike (differs : List Char → List Char → Prop) (text other : String) : Prop :=
  ∃ body body', Document Raw body text ∧ Document Raw body' other ∧ differs body body'

section
variable {text other : List Char}

theorem attributeKept {a : Attribute} (h : AttributeText a text) (differs : Attribute.Differs text other) :
    AttributeText a other := by
  refine singleText.1 (recordKept attributeFollows ?_ (fun _ _ => literalValue) ?_ (singleText.2 h) differs)
  · exact fun name member => ⟨"",(List.mem_singleton.1 member).symm⟩
  · rintro b text _ here rfl
    exact here

theorem attributeValue (a : Attribute) (text : List Char) (h : AttributeText a text) : Value text :=
  partsValue (fun _ _ => literalValue) h

theorem partValue (part : Node.Part) (text : List Char) (h : part.Text text) : Value text := by
  cases part with
  | name s => exact literalValue h
  | attributes found => exact listValue attributeValue h

theorem partKept (part : Node.Part) (text other : List Char) (h : part.Text text)
    (differs : Node.PartDiffers part.key text other) : part.Text other := by
  cases part with
  | name s =>
      obtain rfl : text = other := differs
      exact h
  | attributes found => exact listKept attributeValue (fun _ _ _ => attributeKept) h differs

theorem nodeKept {node : Node} (h : NodeText node text) (differs : Node.Differs text other) : NodeText node other := by
  refine recordKept nodeFollows ?_ partValue partKept h differs
  intro name member
  rcases List.mem_cons.1 member with rfl | later
  · exact ⟨.name "",rfl⟩
  · exact ⟨.attributes [],(List.mem_singleton.1 later).symm⟩

theorem nodeValue (node : Node) (text : List Char) (h : NodeText node text) : Value text := by
  obtain ⟨parts,_,written⟩ := h
  exact partsValue partValue written

theorem nodesValue (nodes : List Node) (text : List Char) (h : ListText NodeText nodes text) : Value text :=
  listValue nodeValue h

theorem descriptorKept {d : Descriptor} (h : DescriptorText d text) (differs : Descriptor.Differs text other) :
    DescriptorText d other := by
  refine singleText.1 (recordKept descriptorFollows ?_ nodesValue ?_ (singleText.2 h) differs)
  · exact fun name member => ⟨[],(List.mem_singleton.1 member).symm⟩
  · exact fun nodes _ _ here change => listKept nodeValue (fun _ _ _ => nodeKept) here change

theorem descriptorValue (d : Descriptor) (text : List Char) (h : DescriptorText d text) : Value text :=
  partsValue nodesValue h

theorem descriptorAdds (h : Descriptor.Adds text other) : Descriptor.Differs text other := by
  have attributes : ∀ old new, Attribute.Adds old new → Attribute.Differs old new :=
    fun _ _ adds => recordAdds (fun _ _ => rfl) (fun _ _ _ never => never.elim) adds
  have parts : ∀ key old new, Node.PartAdds key old new → Node.PartDiffers key old new := by
    rintro _ old new ⟨rfl,adds⟩
    exact listAdds (fun _ => .same _) attributes adds
  have still : ∀ key text, Node.PartDiffers key text text := by
    intro key text
    unfold Node.PartDiffers
    split
    · exact .same text
    · rfl
  have nodes : ∀ old new, Node.Adds old new → Node.Differs old new := fun _ _ adds => recordAdds still parts adds
  exact recordAdds (fun _ _ => .same _) (fun _ _ _ adds => listAdds (fun _ => .same _) nodes adds) h

end

theorem documentKept {α : Type} {form : α → List Char → Prop} {differs : List Char → List Char → Prop}
    (values : ∀ a text, form a text → Value text) (keeps : ∀ a text other, form a text → differs text other → form a other)
    {a : α} {text other : String} (h : Document form a text) (alike : Alike differs text other) : Document form a other := by
  obtain ⟨before,written,after,left,here,right,whole⟩ := h
  obtain ⟨_,_,⟨before',body,after',left',⟨there,rfl⟩,right',again⟩,⟨front,new,back,leftNew,⟨_,rfl⟩,rightNew,wholeNew⟩,
    change⟩ := alike
  have value := values a written here
  have same := whole.symm.trans again
  simp only [List.append_assoc] at same
  have behind := blanksSplit left left' (valueSolid value after) (valueSolid there after') same
  obtain ⟨rfl,_⟩ := valueSplit value there (blanksEnd right) (blanksEnd right') behind
  exact ⟨front,new,back,leftNew,keeps a written new here change,rightNew,wholeNew⟩

theorem descriptorAlike {text other : String} {d : Descriptor} (accepted : Descriptor.ofJson text = .ok d)
    (alike : Alike Descriptor.Differs text other) : Descriptor.ofJson other = .ok d :=
  (descriptorAccepted other d).2
    (documentKept descriptorValue (fun _ _ _ => descriptorKept) ((descriptorAccepted text d).1 accepted) alike)

theorem rendersText {plan : Plan} {text : String} {d : Descriptor} (accepted : Descriptor.ofJson text = .ok d)
    (written : ByteArray) : plan.Renders text.toUTF8 written ↔ written = plan.contents d := by
  constructor
  · rintro ⟨text',d',decoded,accepted',rfl⟩
    cases decoded.symm.trans (decodedText text)
    cases accepted'.symm.trans accepted
    rfl
  · rintro rfl
    exact ⟨text,d,decodedText text,accepted,rfl⟩

/- Two documents that differ only in what is not asked for stand for one descriptor, so they lead to the same
catalog, the same warnings and the same outputs. -/
theorem overlookedSame {text other : String} {d : Descriptor} (accepted : Descriptor.ofJson text = .ok d) :
    (Alike Descriptor.Differs text other → Descriptor.ofJson other = .ok d ∧
      (∀ base path t t', t.Holds base path text → t'.Holds base path other → ∃ c events,
        (buildCatalog path).run base t = ⟨.ok c,events,t⟩ ∧ (buildCatalog path).run base t' = ⟨.ok c,events,t'⟩) ∧
      ∀ (plan : Plan) written, plan.Renders text.toUTF8 written ↔ plan.Renders other.toUTF8 written) ∧
    (Alike Descriptor.Adds text other → Descriptor.ofJson other = .ok d) := by
  constructor
  · intro alike
    have again := descriptorAlike accepted alike
    refine ⟨again,?_,fun plan written => (rendersText accepted written).trans (rendersText again written).symm⟩
    intro base path t t' holds holds'
    exact ⟨_,_,buildCatalogRun holds accepted,buildCatalogRun holds' again⟩
  · rintro ⟨body,body',here,there,adds⟩
    exact descriptorAlike accepted ⟨body,body',here,there,descriptorAdds adds⟩

def bare : Descriptor := ⟨[⟨"A",[⟨"x"⟩]⟩]⟩

def bareAttribute : List Char := rawObject [("name",writtenString "x")]
def bareNode : List Char := rawObject [("name",writtenString "A"),("attributes",rawList [bareAttribute])]
def bareText : List Char := rawObject [("nodes",rawList [bareNode])]

def aside : List Char :=
  rawObject [("nodes",rawList [['n','u','l','l']]),("name",['n','u','l','l']),("attributes",rawList [rawObject []])]

def looseAttribute : List Char := rawObject [("note",aside),("name",writtenString "x"),("note",aside)]
def looseNode : List Char := rawObject [("attributes",rawList [looseAttribute]),("note",aside),("name",writtenString "A")]
def looseText : List Char := rawObject [("name",aside),("nodes",rawList [looseNode]),("attributes",aside)]

def notedAttribute : List Char := rawObject [("name",writtenString "x"),("note",aside)]
def notedNode : List Char := rawObject [("name",writtenString "A"),("attributes",rawList [notedAttribute])]
def notedText : List Char := rawObject [("nodes",rawList [notedNode])]

theorem nameValue (s : String) : Value (writtenString s) := literalValue (literalWritten s)

theorem membersValue {fields : List (String × List Char)} {text : List Char} (h : ObjectText Raw fields text) : Value text :=
  objectValue (fun _ _ raw => raw.1) h

theorem singleItem {text : List Char} (h : Value text) : ListText Raw [text] (rawList [text]) := rawListText (by simpa using h)

theorem singleValue {text : List Char} (h : Value text) : Value (rawList [text]) := listValue (fun _ _ raw => raw.1) (singleItem h)

theorem asideValue : Value aside := by
  have null : Value ['n','u','l','l'] := .scalar .null
  have empty : Value (rawObject []) := membersValue (rawObjectText (by simp))
  exact membersValue (rawObjectText (by simp [null,singleValue null,singleValue empty]))

theorem bareFields : ObjectText Raw [("name",writtenString "x")] bareAttribute := rawObjectText (by simp [nameValue])

theorem bareNodeFields : ObjectText Raw [("name",writtenString "A"),("attributes",rawList [bareAttribute])] bareNode :=
  rawObjectText (by simp [nameValue,singleValue (membersValue bareFields)])

theorem bareTextFields : ObjectText Raw [("nodes",rawList [bareNode])] bareText :=
  rawObjectText (by simp [singleValue (membersValue bareNodeFields)])

theorem looseFields : ObjectText Raw [("note",aside),("name",writtenString "x"),("note",aside)] looseAttribute :=
  rawObjectText (by simp [asideValue,nameValue])

theorem looseNodeFields :
    ObjectText Raw [("attributes",rawList [looseAttribute]),("note",aside),("name",writtenString "A")] looseNode :=
  rawObjectText (by simp [asideValue,nameValue,singleValue (membersValue looseFields)])

theorem looseTextFields :
    ObjectText Raw [("name",aside),("nodes",rawList [looseNode]),("attributes",aside)] looseText :=
  rawObjectText (by simp [asideValue,singleValue (membersValue looseNodeFields)])

theorem notedFields : ObjectText Raw [("name",writtenString "x"),("note",aside)] notedAttribute :=
  rawObjectText (by simp [asideValue,nameValue])

theorem notedNodeFields : ObjectText Raw [("name",writtenString "A"),("attributes",rawList [notedAttribute])] notedNode :=
  rawObjectText (by simp [nameValue,singleValue (membersValue notedFields)])

theorem notedTextFields : ObjectText Raw [("nodes",rawList [notedNode])] notedText :=
  rawObjectText (by simp [singleValue (membersValue notedNodeFields)])

theorem looseDiffers : Descriptor.Differs bareText looseText := by
  have differs : Attribute.Differs bareAttribute looseAttribute :=
    .object bareFields looseFields (.cons ⟨rfl,rfl⟩ .nil) (.refl _)
  have found : ListDiffers Attribute.Differs (rawList [bareAttribute]) (rawList [looseAttribute]) :=
    .items (singleItem (membersValue bareFields)) (singleItem (membersValue looseFields)) (.cons differs .nil)
  have kept : List.Forall₂ (FieldDiffers Node.PartDiffers) [("name",writtenString "A"),("attributes",rawList [bareAttribute])]
      [("name",writtenString "A"),("attributes",rawList [looseAttribute])] := .cons ⟨rfl,rfl⟩ (.cons ⟨rfl,found⟩ .nil)
  have node : Node.Differs bareNode looseNode := .object bareNodeFields looseNodeFields kept (.swap _ _ [])
  have nodes : ListDiffers Node.Differs (rawList [bareNode]) (rawList [looseNode]) :=
    .items (singleItem (membersValue bareNodeFields)) (singleItem (membersValue looseNodeFields)) (.cons node .nil)
  have whole : List.Forall₂ (FieldDiffers fun _ => ListDiffers Node.Differs) [("nodes",rawList [bareNode])]
      [("nodes",rawList [looseNode])] := .cons ⟨rfl,nodes⟩ .nil
  exact .object bareTextFields looseTextFields whole (.refl _)

theorem notedAdds : Descriptor.Adds bareText notedText := by
  have unknown : "note" ∉ ["name"] := by decide
  have adds : Attribute.Adds bareAttribute notedAttribute :=
    @RecordAdds.here _ _ [("name",writtenString "x")] [] "note" aside _ _ unknown bareFields notedFields
  have found : ListAdds Attribute.Adds (rawList [bareAttribute]) (rawList [notedAttribute]) :=
    @ListAdds.item _ [] [] _ _ _ _ adds (singleItem (membersValue bareFields)) (singleItem (membersValue notedFields))
  have own : "attributes" ∈ ["name","attributes"] := by decide
  have node : Node.Adds bareNode notedNode :=
    @RecordAdds.inside _ _ [("name",writtenString "A")] [] _ _ _ _ _ own ⟨rfl,found⟩ bareNodeFields notedNodeFields
  have nodes : ListAdds Node.Adds (rawList [bareNode]) (rawList [notedNode]) :=
    @ListAdds.item _ [] [] _ _ _ _ node (singleItem (membersValue bareNodeFields)) (singleItem (membersValue notedNodeFields))
  have last : "nodes" ∈ ["nodes"] := by decide
  exact @RecordAdds.inside _ _ [] [] _ _ _ _ _ last nodes bareTextFields notedTextFields

theorem looseSame :
    Alike Descriptor.Differs (String.ofList bareText) (String.ofList looseText) ∧
      Descriptor.ofJson (String.ofList looseText) = .ok bare ∧
    Alike Descriptor.Adds (String.ofList bareText) (String.ofList notedText) ∧
      Descriptor.ofJson (String.ofList notedText) = .ok bare := by
  have accepted : Descriptor.ofJson (String.ofList bareText) = .ok bare := spelledRead bare
  have document : ∀ {text : List Char}, Value text → Document Raw text (String.ofList text) :=
    fun value => ⟨[],_,[],blanksNil,⟨value,rfl⟩,blanksNil,by simp⟩
  have loose : Alike Descriptor.Differs (String.ofList bareText) (String.ofList looseText) :=
    ⟨_,_,document (membersValue bareTextFields),document (membersValue looseTextFields),looseDiffers⟩
  have noted : Alike Descriptor.Adds (String.ofList bareText) (String.ofList notedText) :=
    ⟨_,_,document (membersValue bareTextFields),document (membersValue notedTextFields),notedAdds⟩
  exact ⟨loose,((overlookedSame accepted).1 loose).1,noted,(overlookedSame accepted).2 noted⟩

/- A key that is a string by the grammar and stands for no text: half of a pair of surrogates. -/
def halfKey : List Char := ['"','\\','u','d','8','0','0','"']

def halfText : String := String.ofList ("\x7b\"nodes\":[],".toList ++ halfKey ++ ":0\x7d".toList)

theorem halfKeyString : Scalar halfKey := by
  have half : Mark ['\\','u','d','8','0','0'] := .number (.digits rfl rfl rfl rfl)
  exact @Scalar.string ['\\','u','d','8','0','0'] (.cons half .nil)

theorem halfKeyUnread (s : String) : ¬Literal s halfKey := by
  intro literal
  have read := readStringRead "" literal blanksNil []
  have unread : (readString "" ([] ++ halfKey ++ [])).toOption = none := by decide +kernel
  rw [read] at unread
  cases unread

/- Keys are read before it is known whether they count, so the text is one value and no descriptor. -/
theorem halfFieldRefused :
    Descriptor.ofJson "\x7b\"nodes\":[]\x7d" = .ok ⟨[]⟩ ∧ Scalar halfKey ∧ (∀ s, ¬Literal s halfKey) ∧
      Document (fun _ => Value) () halfText ∧ ∀ d, Descriptor.ofJson halfText ≠ .ok d := by
  have grammatical : (parse pass halfText).toOption = some () := by decide +kernel
  have refused : (Descriptor.ofJson halfText).toOption = none := by decide +kernel
  refine ⟨spelledRead ⟨[]⟩,halfKeyString,halfKeyUnread,?_,?_⟩
  · cases passed : parse pass halfText with
    | ok => exact (parseDocument passTakes (fun _ _ => passReads) halfText ()).1 passed
    | error e =>
        rw [passed] at grammatical
        cases grammatical
  · intro d accepted
    rw [accepted] at refused
    cases refused

end SyntaxCatalog
