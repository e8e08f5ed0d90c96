import SyntaxCatalog.Descriptor.Json
import SyntaxCatalog.Proofs.Json.Records

/-! The texts of descriptors: which are accepted, and for which descriptor each of them stands. An
attribute, a node and the descriptor itself are records, so each may be an object or a list. -/
namespace SyntaxCatalog
open Json

inductive Node.Part where
  | name (s : String)
  | attributes (found : List Attribute)

def Node.Part.key : Node.Part → String
  | .name _ => "name"
  | .attributes _ => "attributes"

def AttributeText (a : Attribute) : List Char → Prop := PartsText (fun _ => "name") Literal [a.name]

def Node.Part.Text : Node.Part → List Char → Prop
  | .name s => Literal s
  | .attributes found => ListText AttributeText found

inductive Node.Parts : List Node.Part → Node → Prop where
  | short (s : String) : Node.Parts [.name s] ⟨s,[]⟩
  | full (s : String) (found : List Attribute) : Node.Parts [.name s,.attributes found] ⟨s,found⟩

def NodeText (node : Node) (text : List Char) : Prop :=
  ∃ parts, Node.Parts parts node ∧ PartsText Node.Part.key Node.Part.Text parts text

def DescriptorText (d : Descriptor) : List Char → Prop := PartsText (fun _ => "nodes") (ListText NodeText) [d.nodes]

def Node.schema : Schema Node.Fields Node.Part where
  key := Node.Part.key
  set
    | state, .name s => ⟨some s,state.attributes⟩
    | state, .attributes found => ⟨state.name,some found⟩
  holds state key := ("name" == key && state.name.isSome) || ("attributes" == key && state.attributes.isSome)

def Node.places : List (String × Slot Node.Fields) := ["name","attributes"].zip Node.record.slots

theorem attributeFollows : Follows Attribute.record (single String "name") Literal
    [("name",⟨fun _ => (string "a string").map some,false⟩)] (fun own a => own = [a.name]) := by
  refine singleFollows rfl rfl (fun _ _ => rfl) ?_ ?_ (stringTakes _) (fun _ _ => stringReads _)
  · intro s a
    cases a
    simp [Attribute.record]
  · simp [Attribute.record]

theorem attributeTakes : Takes Attribute.record.reader AttributeText :=
  takesImp (followsTakes attributeFollows) (fun _ _ => singleText.1)

theorem attributeReads {a : Attribute} {text : List Char} (h : AttributeText a text) :
    Reads Attribute.record.reader a text := followsReads attributeFollows (singleText.2 h)

theorem attributesReads {found : List Attribute} {text : List Char} (h : ListText AttributeText found text) :
    Reads (list Attribute.record.reader) found text := listReads (bracketedImp (fun _ _ => attributeReads) h)

theorem partKeys (s : String) (found : List Attribute) : (Node.Part.name s).key ≠ (Node.Part.attributes found).key := by
  simp [Node.Part.key]

theorem nodePlaces {key : String} {slot : Slot Node.Fields} (member : (key,slot) ∈ Node.places) :
    (key = "name" ∧ slot = ⟨fun state => (string "a string").map (fun name => ⟨some name,state.attributes⟩),false⟩) ∨
      (key = "attributes" ∧
        slot = ⟨fun state => (list Attribute.record.reader).map (fun found => ⟨state.name,some found⟩),true⟩) := by
  rcases List.mem_cons.1 member with name | later
  · exact .inl (Prod.mk.inj name)
  · exact .inr (Prod.mk.inj (List.mem_singleton.1 later))

theorem nodeFollows : Follows Node.record Node.schema Node.Part.Text Node.places Node.Parts where
  kept state part key := by
    cases part with
    | name s => cases own : ("name" == key) <;> simp [Node.schema,Node.Part.key,own]
    | attributes found => cases own : ("attributes" == key) <;> simp [Node.schema,Node.Part.key,own]
  swaps := by
    intro state b c other
    cases b <;> cases c <;> first | rfl | exact absurd rfl other
  start key := by simp [Node.schema,Node.record]
  slots := rfl
  place part := by
    cases part with
    | name s => exact ⟨_,List.mem_cons_self⟩
    | attributes found => exact ⟨_,List.mem_cons_of_mem _ List.mem_cons_self⟩
  once := by
    intro state key slot member unset
    rcases nodePlaces member with ⟨rfl,rfl⟩ | ⟨rfl,rfl⟩
    · have empty : state.name.isSome = false := by simpa [Node.schema] using unset
      simp [Node.record,empty]
    · have empty : state.attributes.isSome = false := by simpa [Node.schema] using unset
      simp [Node.record,empty]
  again := by
    intro state key slot member set
    rcases nodePlaces member with ⟨rfl,rfl⟩ | ⟨rfl,rfl⟩
    · have full : state.name.isSome = true := by simpa [Node.schema] using set
      exact ⟨.duplicateField "name",by simp [Node.record,full]⟩
    · have full : state.attributes.isSome = true := by simpa [Node.schema] using set
      exact ⟨.duplicateField "attributes",by simp [Node.record,full]⟩
  other := by
    intro state key unknown
    have name : key ≠ "name" := fun same => unknown (.name "") same.symm
    have attributes : key ≠ "attributes" := fun same => unknown (.attributes []) same.symm
    simp [Node.record,name,attributes]
  takes := by
    intro key slot state member
    rcases nodePlaces member with ⟨rfl,rfl⟩ | ⟨rfl,rfl⟩
    · refine takesImp (mapTakes _ (stringTakes _)) ?_
      rintro next text ⟨s,written,rfl⟩
      exact ⟨.name s,rfl,written,rfl⟩
    · refine takesImp (mapTakes _ (listTakes attributeTakes)) ?_
      rintro next text ⟨found,written,rfl⟩
      exact ⟨.attributes found,rfl,written,rfl⟩
  reads := by
    intro slot part state text member written
    cases part with
    | name s =>
        rcases nodePlaces member with ⟨_,rfl⟩ | ⟨same,_⟩
        · exact mapReads _ (stringReads _ written)
        · exact absurd same (partKeys s [])
    | attributes found =>
        rcases nodePlaces member with ⟨same,_⟩ | ⟨_,rfl⟩
        · exact absurd same.symm (partKeys "" found)
        · exact mapReads _ (attributesReads written)
  made := by
    intro own node made
    cases made with
    | short s =>
        have filled : Node.schema.Filled Node.places [.name s] := .slot (S := Node.schema) (b := .name s) (.short rfl)
        exact ⟨filled,by simp,rfl⟩
    | full s found =>
        have filled : Node.schema.Filled Node.places [.name s,.attributes found] :=
          .slot (S := Node.schema) (b := .name s) (.slot (S := Node.schema) (b := .attributes found) .all)
        exact ⟨filled,by simp [Node.schema,Node.Part.key],rfl⟩
  inObject := by
    intro parts node unique whole
    match parts with
    | [] => cases whole
    | [.name s] =>
        cases whole
        exact ⟨_,.short s,.refl _⟩
    | [.attributes found] => cases whole
    | [.name s,.attributes found] =>
        cases whole
        exact ⟨_,.full s found,.refl _⟩
    | [.attributes found,.name s] =>
        cases whole
        exact ⟨_,.full s found,.swap _ _ []⟩
    | [.name s,.name t] | [.attributes found,.attributes others] => simp [Node.schema,Node.Part.key] at unique
    -- Two of three parts are of one kind, and so have one key.
    | b :: c :: d :: others => cases b <;> cases c <;> cases d <;> simp [Node.schema,Node.Part.key] at unique
  inList := by
    intro parts node filled whole
    rcases Schema.filledCons filled with ⟨_,never⟩ | ⟨b,others,rfl,name,tail⟩
    · cases never
    · cases b with
      | attributes found => exact absurd name.symm (partKeys "" found)
      | name s =>
          rcases Schema.filledCons tail with ⟨rfl,_⟩ | ⟨c,more,rfl,attributes,last⟩
          · cases whole
            exact .short s
          · cases c with
            | name t => exact absurd attributes (partKeys t [])
            | attributes found =>
                cases Schema.filledNil last
                cases whole
                exact .full s found

theorem nodeTakes : Takes Node.record.reader NodeText := followsTakes nodeFollows

theorem nodeReads {node : Node} {text : List Char} (h : NodeText node text) : Reads Node.record.reader node text :=
  followsReads nodeFollows h

theorem nodesReads {nodes : List Node} {text : List Char} (h : ListText NodeText nodes text) :
    Reads (list Node.record.reader) nodes text := listReads (bracketedImp (fun _ _ => nodeReads) h)

theorem descriptorFollows : Follows Descriptor.record (single (List Node) "nodes") (ListText NodeText)
    [("nodes",⟨fun _ => (list Node.record.reader).map some,false⟩)] (fun own d => own = [d.nodes]) := by
  refine singleFollows rfl rfl (fun _ _ => rfl) ?_ ?_ (listTakes nodeTakes) (fun _ _ => nodesReads)
  · intro nodes d
    cases d
    simp [Descriptor.record]
  · simp [Descriptor.record]

theorem descriptorAccepted (text : String) (d : Descriptor) :
    Descriptor.ofJson text = .ok d ↔ Document DescriptorText d text := by
  have takes : Takes Descriptor.record.reader DescriptorText :=
    takesImp (followsTakes descriptorFollows) (fun _ _ => singleText.1)
  exact parseDocument takes (fun _ _ written => followsReads descriptorFollows (singleText.2 written)) text d

def Attribute.spelled (a : Attribute) : List Char :=
  Layout.compact.object 0 ([("name",a.name)].map (fun pair => Layout.compact.member pair.1 (writtenString pair.2)))

def Node.Part.spelled : Node.Part → List Char
  | .name s => writtenString s
  | .attributes found => Layout.compact.enclosed 0 '[' ']' (found.map Attribute.spelled)

def Node.spelled (node : Node) : List Char :=
  Layout.compact.object 0 ([("name",.name node.name),("attributes",.attributes node.attributes)].map
    (fun pair => Layout.compact.member pair.1 (Part.spelled pair.2)))

def Node.listed (nodes : List Node) : List Char := Layout.compact.enclosed 0 '[' ']' (nodes.map Node.spelled)

def Descriptor.spelled (d : Descriptor) : List Char :=
  Layout.compact.object 0 ([("nodes",d.nodes)].map (fun pair => Layout.compact.member pair.1 (Node.listed pair.2)))

theorem attributeSpelled (a : Attribute) : AttributeText a a.spelled :=
  partsWritten .compact 0 [a.name] (fun s _ => literalWritten s)

theorem partSpelled (part : Node.Part) : part.Text part.spelled := by
  cases part with
  | name s => exact literalWritten s
  | attributes found => exact enclosedWritten .compact 0 '[' ']' found (fun a _ => attributeSpelled a)

theorem nodeSpelled (node : Node) : NodeText node node.spelled :=
  ⟨_,.full node.name node.attributes,
    partsWritten .compact 0 [.name node.name,.attributes node.attributes] (fun part _ => partSpelled part)⟩

theorem nodesListed (nodes : List Node) : ListText NodeText nodes (Node.listed nodes) :=
  enclosedWritten .compact 0 '[' ']' nodes (fun node _ => nodeSpelled node)

theorem descriptorSpelled (d : Descriptor) : DescriptorText d d.spelled :=
  partsWritten .compact 0 [d.nodes] (fun nodes _ => nodesListed nodes)

theorem spelledRead (d : Descriptor) : Descriptor.ofJson (String.ofList d.spelled) = .ok d := by
  have read := parseRead (followsReads descriptorFollows (singleText.2 (descriptorSpelled d))) blanksNil blanksNil
  rwa [List.nil_append,List.append_nil] at read

end SyntaxCatalog
