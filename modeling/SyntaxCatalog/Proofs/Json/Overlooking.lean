import Mathlib.Data.List.Perm.Basic
import SyntaxCatalog.Proofs.Json.Records
import SyntaxCatalog.Proofs.Json.Splitting

/-! Records whose other fields differ. Such a record is looked at as the text that it is, one field after
another and each value as it stands. What it holds under the keys that count is all that matters. -/
namespace SyntaxCatalog.Json

def Raw (value text : List Char) : Prop := Value text ∧ text = value

def FieldHolds {β : Type} (key : β → String) (value : β → List Char → Prop) (b : β) (field : String × List Char) : Prop :=
  key b = field.1 ∧ value b field.2

def FieldFits {α : Type} (value : α → List Char → Prop) : String × α → String × List Char → Prop :=
  FieldHolds Prod.fst (fun pair => value pair.2)

def FieldDiffers (part : String → List Char → List Char → Prop) (old new : String × List Char) : Prop :=
  old.1 = new.1 ∧ part old.1 old.2 new.2

theorem rawStart (value text : List Char) (h : Raw value text) : ∃ c more, text = c :: more ∧ isBlank c = false ∧ c ≠ ']' :=
  valueStart h.1

theorem memberStart {α : Type} {value : α → List Char → Prop} (pair : String × α) (text : List Char)
    (h : Member value pair text) : ∃ c more, text = c :: more ∧ isBlank c = false ∧ c ≠ '}' := by
  cases h with
  | pair literal =>
      cases literal
      exact ⟨'"',_,rfl,rfl,by decide⟩

section
variable {α : Type} {item value : α → List Char → Prop}

theorem itemsSplit (values : ∀ a text, item a text → Value text) {as : List α} {raws : List (List Char)} {text : List Char}
    (h : ListText item as text) (raw : ListText Raw raws text) : List.Forall₂ item as raws := by
  refine bracketedSplit (fun a text here => valueStart (values a text here)) rawStart ?_ (.inl rfl) h raw
  rintro a b text _ rest behind here ⟨there,rfl⟩ right right' same
  obtain ⟨rfl,rest⟩ := valueSplit (values a text here) there right right' same
  exact ⟨here,rest⟩

theorem membersSplit (values : ∀ a text, value a text → Value text) {pairs : List (String × α)}
    {fields : List (String × List Char)} {text : List Char} (h : ObjectText value pairs text)
    (raw : ObjectText Raw fields text) :
    List.Forall₂ (FieldFits value) pairs fields := by
  refine bracketedSplit memberStart memberStart ?_ (.inr rfl) h raw
  rintro _ _ text other rest behind here there right right' same
  cases here with
  | @pair key a name before after text literal left gap here =>
      cases there with
      | @pair key' v name' before' after' text' literal' left' gap' there =>
          obtain ⟨there,rfl⟩ := there
          simp only [List.append_assoc,List.cons_append] at same
          obtain ⟨rfl,behindKey⟩ := literalSplit literal literal' same
          have behindColon := (List.cons.inj (blanksSplit left left' ⟨':',_,rfl,rfl⟩ ⟨':',_,rfl,rfl⟩ behindKey)).2
          have behindGap := blanksSplit gap gap' (valueSolid (values a text here) rest) (valueSolid there behind) behindColon
          obtain ⟨rfl,last⟩ := valueSplit (values a text here) there right right' behindGap
          exact ⟨⟨rfl,here⟩,last⟩

end

section
variable {α β : Type} {item : α → List Char → Prop} {other : β → List Char → Prop} {fits : α → β → Prop}
  (imp : ∀ a b text, fits a b → other b text → item a text)
include imp

theorem seriesAlong {as : List α} {bs : List β} {body : List Char} (h : Series other bs body) (along : List.Forall₂ fits as bs) :
    Series item as body := by
  induction h generalizing as with
  | one left here right =>
      cases along with
      | cons fit others =>
          cases others
          exact .one left (imp _ _ _ fit here) right
  | more left here right _ ih =>
      cases along with
      | cons fit others => exact .more left (imp _ _ _ fit here) right (ih others)

theorem bracketedAlong {opener closer : Char} {as : List α} {bs : List β} {text : List Char}
    (h : Bracketed opener closer other bs text) (along : List.Forall₂ fits as bs) : Bracketed opener closer item as text := by
  cases h with
  | empty only =>
      cases along
      exact .empty only
  | filled series => exact .filled (seriesAlong imp series along)

end

theorem itemsAlong {α : Type} {item : α → List Char → Prop} {as : List α} {raws : List (List Char)} {text : List Char}
    (raw : ListText Raw raws text) (along : List.Forall₂ item as raws) : ListText item as text := by
  refine bracketedAlong ?_ raw along
  rintro a _ text here ⟨_,rfl⟩
  exact here

theorem membersAlong {α : Type} {value : α → List Char → Prop} {pairs : List (String × α)}
    {fields : List (String × List Char)} {text : List Char} (raw : ObjectText Raw fields text)
    (along : List.Forall₂ (FieldFits value) pairs fields) :
    ObjectText value pairs text := by
  refine bracketedAlong ?_ raw along
  rintro ⟨key,a⟩ ⟨_,v⟩ text ⟨rfl,here⟩ member
  cases member with
  | pair literal left gap raw =>
      obtain ⟨_,rfl⟩ := raw
      exact .pair literal left gap here

theorem fieldsValues {fields : List (String × List Char)} {text : List Char} (h : ObjectText Raw fields text) :
    ∀ field ∈ fields, Value field.2 := by
  have along := membersSplit (fun _ _ raw => raw.1) h h
  exact fun field member => (List.forall₂_same.1 along field member).2.1

inductive InPlaces (part : String → List Char → List Char → Prop) : List String → List (List Char) → List (List Char) → Prop where
  | same (known : List String) (items : List (List Char)) : InPlaces part known items items
  | next {key : String} {known : List String} {old new : List Char} {items others : List (List Char)}
      (here : part key old new) (behind : InPlaces part known items others) :
      InPlaces part (key :: known) (old :: items) (new :: others)

/- The same known fields in any order, with values that differ as the parts do, and any other fields around them. -/
inductive RecordDiffers (known : List String) (part : String → List Char → List Char → Prop) :
    List Char → List Char → Prop where
  | same (text : List Char) : RecordDiffers known part text text
  | object {fields moved others : List (String × List Char)} {text other : List Char} (before : ObjectText Raw fields text)
      (after : ObjectText Raw others other)
      (kept : List.Forall₂ (FieldDiffers part) (fields.filter (·.1 ∈ known)) moved)
      (order : moved.Perm (others.filter (·.1 ∈ known))) : RecordDiffers known part text other
  | list {items others : List (List Char)} {text other : List Char} (before : ListText Raw items text)
      (after : ListText Raw others other) (kept : InPlaces part known items others) : RecordDiffers known part text other

inductive ListDiffers (item : List Char → List Char → Prop) : List Char → List Char → Prop where
  | same (text : List Char) : ListDiffers item text text
  | items {items others : List (List Char)} {text other : List Char} (before : ListText Raw items text)
      (after : ListText Raw others other) (each : List.Forall₂ item items others) : ListDiffers item text other

theorem keptAlong {α β γ : Type} {first : α → β → Prop} {second : β → γ → Prop} {whole : α → γ → Prop}
    (keeps : ∀ a b c, first a b → second b c → whole a c) {as : List α} {bs : List β} {cs : List γ}
    (h : List.Forall₂ first as bs) (h' : List.Forall₂ second bs cs) : List.Forall₂ whole as cs := by
  induction h generalizing cs with
  | nil =>
      cases h'
      exact .nil
  | cons here _ ih =>
      cases h' with
      | cons there others => exact .cons (keeps _ _ _ here there) (ih others)

theorem listKept {α : Type} {form : α → List Char → Prop} {item : List Char → List Char → Prop}
    (values : ∀ a text, form a text → Value text) (keeps : ∀ a text other, form a text → item text other → form a other)
    {as : List α} {text other : List Char} (h : ListText form as text) (differs : ListDiffers item text other) :
    ListText form as other := by
  cases differs with
  | same => exact h
  | items before after each =>
      have along := itemsSplit values h before
      exact itemsAlong after (keptAlong keeps along each)

section
variable {σ α β : Type} {S : Schema σ β} {value : β → List Char → Prop} {places : List (String × Slot σ)}
  {r : Record σ α} {makes : List β → α → Prop} {known : List String} {part : String → List Char → List Char → Prop}

theorem wantedValue (values : ∀ b text, value b text → Value text) (found : Option β) (text : List Char)
    (h : Wanted value found text) : Value text := by
  cases found with
  | none => exact h
  | some b => exact values b text h

theorem partsValue (values : ∀ b text, value b text → Value text) {key : β → String} {parts : List β} {text : List Char}
    (h : PartsText key value parts text) : Value text := by
  cases h with
  | object members => exact objectValue (wantedValue values) members
  | list items => exact listValue values items

theorem partsFields {key : β → String} (own : ∀ b, key b ∈ known) (named : ∀ name ∈ known, ∃ b, key b = name)
    {pairs : List (String × Option β)} {fields : List (String × List Char)} (keyed : ∀ pair ∈ pairs, Keyed key pair)
    (along : List.Forall₂ (FieldFits (Wanted value)) pairs fields) :
    List.Forall₂ (FieldHolds key value) (partsOf pairs) (fields.filter (·.1 ∈ known)) := by
  induction along with
  | nil => exact .nil
  | @cons pair field pairs fields here others ih =>
      obtain ⟨first,later⟩ := List.forall_mem_cons.1 keyed
      obtain ⟨name,found⟩ := pair
      obtain ⟨same,written⟩ := here
      cases found with
      | none =>
          have absent : field.1 ∉ known := by
            intro member
            obtain ⟨b,here⟩ := named _ member
            exact first b (here.trans same.symm)
          simpa [absent] using ih later
      | some b =>
          have here : key b = field.1 := (show name = key b from first).symm.trans same
          have present : field.1 ∈ known := here ▸ own b
          simpa [present] using List.Forall₂.cons ⟨here,written⟩ (ih later)

theorem fieldsParts {key : β → String} (own : ∀ b, key b ∈ known) {parts : List β} {fields : List (String × List Char)}
    (values : ∀ field ∈ fields, Value field.2)
    (along : List.Forall₂ (FieldHolds key value) parts (fields.filter (·.1 ∈ known))) :
    ∃ pairs, List.Forall₂ (FieldFits (Wanted value)) pairs fields ∧
      (∀ pair ∈ pairs, Keyed key pair) ∧ partsOf pairs = parts := by
  induction fields generalizing parts with
  | nil =>
      cases along
      exact ⟨[],.nil,by simp,rfl⟩
  | cons field fields ih =>
      obtain ⟨first,later⟩ := List.forall_mem_cons.1 values
      by_cases present : field.1 ∈ known
      · rw [List.filter_cons_of_pos (by simpa using present)] at along
        cases along with
        | @cons b _ parts _ here others =>
            obtain ⟨pairs,fit,keyed,same⟩ := ih later others
            refine ⟨(field.1,some b) :: pairs,.cons ⟨rfl,here.2⟩ fit,?_,by rw [partsOfPart,same]⟩
            exact List.forall_mem_cons.2 ⟨here.1.symm,keyed⟩
      · rw [List.filter_cons_of_neg (by simpa using present)] at along
        obtain ⟨pairs,fit,keyed,same⟩ := ih later along
        refine ⟨(field.1,none) :: pairs,.cons ⟨rfl,first⟩ fit,?_,by rw [partsOfOther,same]⟩
        refine List.forall_mem_cons.2 ⟨?_,keyed⟩
        intro b same
        exact present (same ▸ own b)

theorem filledPlaces (keeps : ∀ b text other, value b text → part (S.key b) text other → value b other) {parts : List β}
    (filled : S.Filled places parts) {items others : List (List Char)} (along : List.Forall₂ value parts items)
    (kept : InPlaces part (places.map Prod.fst) items others) : List.Forall₂ value parts others := by
  induction filled generalizing items others with
  | all =>
      cases along
      cases kept
      exact .nil
  | short =>
      cases along
      cases kept
      exact .nil
  | slot filled ih =>
      cases along with
      | cons here later =>
          cases kept with
          | same => exact .cons here later
          | next differs behind => exact .cons (keeps _ _ _ here differs) (ih later behind)

theorem fieldKept (keeps : ∀ b text other, value b text → part (S.key b) text other → value b other) (b : β)
    (old new : String × List Char) (here : FieldHolds S.key value b old) (differs : FieldDiffers part old new) :
    FieldHolds S.key value b new := by
  obtain ⟨same,written⟩ := here
  obtain ⟨same',change⟩ := differs
  exact ⟨same.trans same',keeps b _ _ written (same ▸ change)⟩

theorem recordKept (f : Follows r S value places makes) (named : ∀ name ∈ places.map Prod.fst, ∃ b, S.key b = name)
    (values : ∀ b text, value b text → Value text)
    (keeps : ∀ b text other, value b text → part (S.key b) text other → value b other) {a : α} {text other : List Char}
    (h : Made S value makes a text) (differs : RecordDiffers (places.map Prod.fst) part text other) :
    Made S value makes a other := by
  have own : ∀ b, S.key b ∈ places.map Prod.fst := by
    intro b
    obtain ⟨slot,member⟩ := f.place b
    exact List.mem_map.2 ⟨_,member,rfl⟩
  obtain ⟨parts,made,written⟩ := h
  refine ⟨parts,made,?_⟩
  cases differs with
  | same => exact written
  | object before after kept order =>
      cases written with
      | list items =>
          obtain ⟨_,opener,_⟩ := bracketedRemainder items
          obtain ⟨_,opener',_⟩ := bracketedRemainder before
          cases opener.symm.trans opener'
      | object members keyed held =>
          have there := partsFields own named keyed (membersSplit (wantedValue values) members before)
          -- The parts go along with their fields, first to the new values and then to the new order.
          have moved := keptAlong (fieldKept keeps) there kept
          obtain ⟨placed,along,same⟩ := List.perm_comp_forall₂ order.symm moved.flip
          obtain ⟨pairs,fit,keyed',rfl⟩ := fieldsParts own (fieldsValues after) along.flip
          exact .object (membersAlong after fit) keyed' (same.trans held)
  | list before after kept =>
      cases written with
      | object members =>
          obtain ⟨_,opener,_⟩ := bracketedRemainder members
          obtain ⟨_,opener',_⟩ := bracketedRemainder before
          cases opener.symm.trans opener'
      | list items =>
          obtain ⟨filled,_⟩ := f.made made
          exact .list (itemsAlong after (filledPlaces keeps filled (itemsSplit values items before) kept))

end

inductive RecordAdds (known : List String) (part : String → List Char → List Char → Prop) : List Char → List Char → Prop where
  | here {front back : List (String × List Char)} {key : String} {value text other : List Char} (unknown : key ∉ known)
      (before : ObjectText Raw (front ++ back) text) (after : ObjectText Raw (front ++ (key,value) :: back) other) :
      RecordAdds known part text other
  | inside {front back : List (String × List Char)} {key : String} {old new text other : List Char}
      (own : key ∈ known) (adds : part key old new) (before : ObjectText Raw (front ++ (key,old) :: back) text)
      (after : ObjectText Raw (front ++ (key,new) :: back) other) : RecordAdds known part text other
  | inList {keys others : List String} {key : String} {front back : List (List Char)} {old new text other : List Char}
      (place : known = keys ++ key :: others) (aligned : front.length = keys.length) (adds : part key old new)
      (before : ListText Raw (front ++ old :: back) text) (after : ListText Raw (front ++ new :: back) other) :
      RecordAdds known part text other

inductive ListAdds (item : List Char → List Char → Prop) : List Char → List Char → Prop where
  | item {front back : List (List Char)} {old new text other : List Char} (adds : item old new)
      (before : ListText Raw (front ++ old :: back) text) (after : ListText Raw (front ++ new :: back) other) :
      ListAdds item text other

section
variable {known : List String} {adds part : String → List Char → List Char → Prop} {text other : List Char}

theorem forallAmong {α : Type} {rel : α → α → Prop} (same : ∀ a, rel a a) {a b : α} (here : rel a b) (front back : List α) :
    List.Forall₂ rel (front ++ a :: back) (front ++ b :: back) := by
  induction front with
  | nil => exact .cons here (List.forall₂_same.2 fun c _ => same c)
  | cons c front ih => exact .cons (same c) ih

theorem inPlacesAmong (same : ∀ key text, part key text text) {keys others : List String} {key : String}
    {front back : List (List Char)} {old new : List Char} (aligned : front.length = keys.length) (here : part key old new) :
    InPlaces part (keys ++ key :: others) (front ++ old :: back) (front ++ new :: back) := by
  induction keys generalizing front with
  | nil =>
      obtain rfl := List.length_eq_zero_iff.1 aligned
      exact .next here (.same _ _)
  | cons name keys ih =>
      cases front with
      | nil => cases aligned
      | cons item front => exact .next (same name item) (ih (Nat.succ.inj aligned))

theorem recordAdds (same : ∀ key text, part key text text) (imp : ∀ key old new, adds key old new → part key old new)
    (h : RecordAdds known adds text other) : RecordDiffers known part text other := by
  have still : ∀ field : String × List Char, FieldDiffers part field field := fun field => ⟨rfl,same field.1 field.2⟩
  cases h with
  | @here front back key value _ _ unknown before after =>
      refine .object before after (List.forall₂_same.2 fun field _ => still field) (.of_eq ?_)
      simp [unknown]
  | @inside front back key old new _ _ own deeper before after =>
      have change : FieldDiffers part (key,old) (key,new) := ⟨rfl,imp key old new deeper⟩
      have kept := forallAmong still change (front.filter (·.1 ∈ known)) (back.filter (·.1 ∈ known))
      refine .object before after ?_ (.refl _)
      simpa [own] using kept
  | inList place aligned deeper before after =>
      subst place
      exact .list before after (inPlacesAmong same aligned (imp _ _ _ deeper))

theorem listAdds {adds item : List Char → List Char → Prop} (same : ∀ text, item text text)
    (imp : ∀ old new, adds old new → item old new) (h : ListAdds adds text other) : ListDiffers item text other := by
  cases h with
  | item deeper before after => exact .items before after (forallAmong same (imp _ _ deeper) _ _)

end

def rawObject (fields : List (String × List Char)) : List Char :=
  Layout.compact.object 0 (fields.map (fun field => Layout.compact.member field.1 field.2))

def rawList (items : List (List Char)) : List Char := Layout.compact.enclosed 0 '[' ']' items

theorem rawObjectText {fields : List (String × List Char)} (values : ∀ field ∈ fields, Value field.2) :
    ObjectText Raw fields (rawObject fields) :=
  enclosedWritten .compact 0 '{' '}' fields (fun field member => memberWritten .compact field.1 ⟨values field member,rfl⟩)

theorem rawListText {items : List (List Char)} (values : ∀ item ∈ items, Value item) : ListText Raw items (rawList items) := by
  have written : ListText Raw items (Layout.compact.enclosed 0 '[' ']' (items.map id)) :=
    enclosedWritten .compact 0 '[' ']' items (fun item member => ⟨values item member,rfl⟩)
  rwa [List.map_id] at written

end SyntaxCatalog.Json
