import SyntaxCatalog.Proofs.Json.Passing
import SyntaxCatalog.Proofs.Json.Writing

/-! Records in both of their forms. An object holds the parts of a record under their keys, in any order
and among other keys, whose values are passed over; a list holds the same parts in their own order. -/
namespace SyntaxCatalog.Json
open Text (Reader)

def Wanted {β : Type} (value : β → List Char → Prop) : Option β → List Char → Prop
  | some part => value part
  | none => Value

def Keyed {β : Type} (key : β → String) : String × Option β → Prop
  | (name,some part) => name = key part
  | (name,none) => ∀ part, key part ≠ name

def partsOf {β : Type} (pairs : List (String × Option β)) : List β := pairs.filterMap Prod.snd

@[simp] theorem partsOfNil {β : Type} : partsOf ([] : List (String × Option β)) = [] := rfl

@[simp] theorem partsOfPart {β : Type} (name : String) (b : β) (pairs : List (String × Option β)) :
    partsOf ((name,some b) :: pairs) = b :: partsOf pairs := rfl

@[simp] theorem partsOfOther {β : Type} (name : String) (pairs : List (String × Option β)) :
    partsOf ((name,none) :: pairs) = partsOf pairs := rfl

inductive PartsText {β : Type} (key : β → String) (value : β → List Char → Prop) (parts : List β) : List Char → Prop where
  | object {pairs : List (String × Option β)} {text : List Char} (members : ObjectText (Wanted value) pairs text)
      (keyed : ∀ pair ∈ pairs, Keyed key pair) (held : (partsOf pairs).Perm parts) :
      PartsText key value parts text
  | list {text : List Char} (items : ListText value parts text) : PartsText key value parts text

/- How the parts of a record are put together: each is set once, and a state knows the keys it holds. -/
structure Schema (σ β : Type) where
  key : β → String
  set : σ → β → σ
  holds : σ → String → Bool

namespace Schema
variable {σ β : Type} (S : Schema σ β)

def gathered (start : σ) (parts : List β) : σ := parts.foldl S.set start

inductive Steps : σ → String → Option β → σ → Prop where
  | part {state : σ} {b : β} (new : S.holds state (S.key b) = false) : Steps state (S.key b) (some b) (S.set state b)
  | other {state : σ} {key : String} (unknown : ∀ b, S.key b ≠ key) : Steps state key none state

inductive Filled : List (String × Slot σ) → List β → Prop where
  | all : Filled [] []
  | short {key : String} {slot : Slot σ} {more : List (String × Slot σ)} (optional : slot.optional = true) :
      Filled ((key,slot) :: more) []
  | slot {slot : Slot σ} {more : List (String × Slot σ)} {b : β} {parts : List β} (others : Filled more parts) :
      Filled ((S.key b,slot) :: more) (b :: parts)

def Fresh (state : σ) (parts : List β) : Prop :=
  (parts.map S.key).Nodup ∧ ∀ b ∈ parts, S.holds state (S.key b) = false

def Kept : Prop := ∀ state b key, S.holds (S.set state b) key = (S.key b == key || S.holds state key)

def Swaps : Prop := ∀ state b c, S.key b ≠ S.key c → S.set (S.set state b) c = S.set (S.set state c) b

variable {S}

theorem freshCons (kept : S.Kept) {state : σ} {b : β} {parts : List β} :
    S.Fresh state (b :: parts) ↔ S.holds state (S.key b) = false ∧ S.Fresh (S.set state b) parts := by
  simp only [Fresh,List.map_cons,List.nodup_cons,List.mem_map,List.forall_mem_cons,kept state b,Bool.or_eq_false_iff,
    beq_eq_false_iff_ne]
  constructor
  · rintro ⟨⟨absent,unique⟩,new,others⟩
    exact ⟨new,unique,fun c member => ⟨fun same => absent ⟨c,member,same.symm⟩,others c member⟩⟩
  · rintro ⟨new,unique,others⟩
    refine ⟨⟨?_,unique⟩,new,fun c member => (others c member).2⟩
    rintro ⟨c,member,same⟩
    exact (others c member).1 same.symm

theorem courseIff (kept : S.Kept) {pairs : List (String × Option β)} {state last : σ} :
    Course S.Steps state pairs last ↔ (∀ pair ∈ pairs, Keyed S.key pair) ∧
      S.Fresh state (partsOf pairs) ∧ last = S.gathered state (partsOf pairs) := by
  induction pairs generalizing state with
  | nil =>
      constructor
      · intro course
        cases course
        exact ⟨by simp,⟨by simp,by simp⟩,rfl⟩
      · rintro ⟨_,_,rfl⟩
        exact .done _
  | cons pair pairs ih =>
      constructor
      · intro course
        cases course with
        | member here others =>
            obtain ⟨keyed,fresh,rfl⟩ := ih.1 others
            cases here with
            | part new =>
                rw [List.forall_mem_cons,partsOfPart]
                exact ⟨⟨rfl,keyed⟩,(freshCons kept).2 ⟨new,fresh⟩,rfl⟩
            | other unknown =>
                rw [List.forall_mem_cons,partsOfOther]
                exact ⟨⟨unknown,keyed⟩,fresh,rfl⟩
      · rw [List.forall_mem_cons]
        rintro ⟨⟨own,keyed⟩,fresh,rfl⟩
        obtain ⟨name,found⟩ := pair
        cases found with
        | none =>
            rw [partsOfOther] at fresh ⊢
            exact .member (.other own) (ih.2 ⟨keyed,fresh,rfl⟩)
        | some b =>
            have same : name = S.key b := own
            subst same
            rw [partsOfPart] at fresh ⊢
            obtain ⟨new,fresh⟩ := (freshCons kept).1 fresh
            exact .member (.part new) (ih.2 ⟨keyed,fresh,rfl⟩)

theorem equalOfKey {parts : List β} (unique : (parts.map S.key).Nodup) {b c : β} (left : b ∈ parts) (right : c ∈ parts)
    (same : S.key b = S.key c) : b = c := by
  induction parts with
  | nil => cases left
  | cons part parts ih =>
      obtain ⟨absent,unique⟩ := List.nodup_cons.1 unique
      rcases List.mem_cons.1 left with rfl | first
      · rcases List.mem_cons.1 right with rfl | later
        · rfl
        · exact absurd (List.mem_map.2 ⟨c,later,same.symm⟩) absent
      · rcases List.mem_cons.1 right with rfl | later
        · exact absurd (List.mem_map.2 ⟨b,first,same⟩) absent
        · exact ih unique first later

theorem gatheredPerm (swaps : S.Swaps) {parts own : List β} (perm : parts.Perm own) (unique : (parts.map S.key).Nodup)
    (start : σ) : S.gathered start parts = S.gathered start own := by
  refine perm.foldl_eq' ?_ start
  intro b left c right state
  by_cases same : S.key b = S.key c
  · rw [equalOfKey unique left right same]
  · exact swaps state b c same

theorem filledCons {key : String} {slot : Slot σ} {places : List (String × Slot σ)} {parts : List β}
    (h : S.Filled ((key,slot) :: places) parts) :
    (parts = [] ∧ slot.optional = true) ∨ ∃ b others, parts = b :: others ∧ S.key b = key ∧ S.Filled places others := by
  generalize whole : (key,slot) :: places = all at h
  cases h with
  | all => cases whole
  | short optional =>
      cases whole
      exact .inl ⟨rfl,optional⟩
  | slot others =>
      cases whole
      exact .inr ⟨_,_,rfl,rfl,others⟩

theorem filledNil {parts : List β} (h : S.Filled [] parts) : parts = [] := by
  cases h
  rfl

end Schema

section
variable {σ α β : Type} {S : Schema σ β} {value : β → List Char → Prop} {places : List (String × Slot σ)}

theorem endListTakes {cs rest : List Char} (h : endList cs = .ok rest) : ∃ blank, Blanks blank ∧ cs = blank ++ ']' :: rest := by
  unfold endList at h
  split at h
  · cases h
  · rename_i start
    obtain ⟨blank,only,rfl⟩ := skipBlankTakes start
    split at h
    · rename_i closer
      cases h
      exact ⟨blank,only,by rw [closer]⟩
    · split at h
      · split at h
        · split at h <;> cases h
        · cases h
      · cases h

theorem endListRead {blank : List Char} (only : Blanks blank) (rest : List Char) : endList (blank ++ ']' :: rest) = .ok rest := by
  have close : isBlank ']' = false := rfl
  simp [endList,skipBlankBlanks only,skipBlankSolid close]

theorem slotsTakes (takes : ∀ key slot state, (key,slot) ∈ places → Takes (slot.reader state)
      (fun next text => ∃ b, S.key b = key ∧ value b text ∧ next = S.set state b))
    {short : Nat → Mismatch} {index : Nat} {state last : σ} {cs rest : List Char}
    (h : slots short (places.map Prod.snd) index state cs = .ok (last,rest)) :
    ∃ parts text, Remainder ']' value (index == 0) parts text ∧ S.Filled places parts ∧
      last = S.gathered state parts ∧ cs = text ++ rest := by
  induction places generalizing index state cs with
  | nil =>
      cases ended : endList cs with
      | error e => simp [slots,ended,Except.map] at h
      | ok more =>
          simp only [List.map_nil,slots,ended,Except.map] at h
          cases h
          obtain ⟨blank,only,rfl⟩ := endListTakes ended
          exact ⟨[],_,.closed _ only,.all,rfl,by simp⟩
  | cons place places ih =>
      obtain ⟨key,slot⟩ := place
      simp only [List.map_cons,slots] at h
      split at h
      · cases h
      · rename_i closed
        obtain ⟨blank,only,rfl⟩ := nextElementOver closed
        split at h
        · rename_i optional
          cases h
          exact ⟨[],_,.closed _ only,.short optional,rfl,by simp⟩
        · cases h
      · rename_i next
        obtain ⟨lead,blank,leads,only,rfl⟩ := nextElementTakes next
        split at h
        · cases h
        · rename_i read
          obtain ⟨before,text,left,⟨b,same,here,rfl⟩,rfl⟩ := takes key slot state List.mem_cons_self read
          obtain ⟨parts,others,remains,filled,rfl,rfl⟩ :=
            ih (fun key slot state member => takes key slot state (List.mem_cons_of_mem _ member)) h
          have later : ((index + 1) == 0) = false := by simp
          rw [later] at remains
          subst same
          refine ⟨b :: parts,_,remainderNext leads (blanksAppend only left) here remains,.slot filled,rfl,?_⟩
          simp only [List.append_assoc]

theorem slotsRead (reads : ∀ slot b state text, (S.key b,slot) ∈ places → value b text → Reads (slot.reader state) (S.set state b) text)
    (short : Nat → Mismatch) {index : Nat} {parts : List β} {text : List Char} (filled : S.Filled places parts)
    (h : Remainder ']' value (index == 0) parts text) (state : σ) (rest : List Char) :
    slots short (places.map Prod.snd) index state (text ++ rest) = .ok (S.gathered state parts,rest) := by
  induction filled generalizing index text state with
  | all =>
      obtain ⟨blank,only,rfl⟩ := remainderNil h
      simp [slots,endListRead only,Except.map,Schema.gathered]
  | short optional =>
      obtain ⟨blank,only,rfl⟩ := remainderNil h
      simp [slots,nextElementClosed _ only,optional,Schema.gathered]
  | @slot slot places b parts filled ih =>
      obtain ⟨lead,before,here,tail,leads,left,written,others,rfl⟩ := remainderCons h
      have read := reads slot b state here List.mem_cons_self written
      have ends : Ends (tail ++ rest) := remainderEnds (.inl rfl) others rest
      obtain ⟨c,more,split,solid,other⟩ := read.start
      have taken := read.run blanksNil ends
      rw [List.nil_append] at taken
      have next := nextElementRead leads left solid other (more ++ (tail ++ rest))
      have later : Remainder ']' value ((index + 1) == 0) parts tail := by simpa using others
      have behind := ih (fun slot b state text member => reads slot b state text (List.mem_cons_of_mem _ member)) later
        (S.set state b)
      rw [split] at taken ⊢
      simp only [List.append_assoc,List.cons_append] at next taken ⊢
      simp only [List.map_cons,slots,next,taken,behind]
      rfl

/- A record follows a schema if it reads each key as the slot at its place, once, and passes over the
other keys. `makes` tells which parts, in their own order, make which value. -/
structure Follows (r : Record σ α) (S : Schema σ β) (value : β → List Char → Prop) (places : List (String × Slot σ))
    (makes : List β → α → Prop) : Prop where
  kept : S.Kept
  swaps : S.Swaps
  start : ∀ key, S.holds r.start key = false
  slots : r.slots = places.map Prod.snd
  place : ∀ b, ∃ slot, (S.key b,slot) ∈ places
  once : ∀ {state key slot}, (key,slot) ∈ places → S.holds state key = false → r.field state key = .value (slot.reader state)
  again : ∀ {state key slot}, (key,slot) ∈ places → S.holds state key = true → ∃ cause, r.field state key = .refuse cause
  other : ∀ {state key}, (∀ b, S.key b ≠ key) → r.field state key = .value (pass.map (fun _ => state))
  takes : ∀ key slot state, (key,slot) ∈ places →
    Takes (slot.reader state) (fun next text => ∃ b, S.key b = key ∧ value b text ∧ next = S.set state b)
  reads : ∀ slot b state text, (S.key b,slot) ∈ places → value b text → Reads (slot.reader state) (S.set state b) text
  made : ∀ {own a}, makes own a → S.Filled places own ∧ (own.map S.key).Nodup ∧ r.finish (S.gathered r.start own) = .ok a
  inObject : ∀ {parts a}, (parts.map S.key).Nodup → r.finish (S.gathered r.start parts) = .ok a →
    ∃ own, makes own a ∧ parts.Perm own
  inList : ∀ {parts a}, S.Filled places parts → r.finish (S.gathered r.start parts) = .ok a → makes parts a

variable {r : Record σ α} {makes : List β → α → Prop}

def Made (S : Schema σ β) (value : β → List Char → Prop) (makes : List β → α → Prop) (a : α) (text : List Char) : Prop :=
  ∃ own, makes own a ∧ PartsText S.key value own text

theorem followsLeaves (f : Follows r S value places makes) : Leaves r.field (Wanted value) S.Steps := by
  intro state key reader wanted
  by_cases known : ∃ b, S.key b = key
  · obtain ⟨b,rfl⟩ := known
    obtain ⟨slot,member⟩ := f.place b
    cases held : S.holds state (S.key b) with
    | true =>
        obtain ⟨cause,refused⟩ := f.again member held
        rw [refused] at wanted
        cases wanted
    | false =>
        rw [f.once member held] at wanted
        cases wanted
        refine takesImp (f.takes _ slot state member) ?_
        rintro next text ⟨c,same,written,rfl⟩
        rw [← same] at held ⊢
        exact ⟨some c,written,.part held⟩
  · have unknown : ∀ b, S.key b ≠ key := fun b same => known ⟨b,same⟩
    rw [f.other unknown] at wanted
    cases wanted
    refine takesImp (mapTakes (fun _ => state) passTakes) ?_
    rintro next text ⟨_,written,rfl⟩
    exact ⟨none,written,.other unknown⟩

theorem followsEnters (f : Follows r S value places makes) : Enters r.field (Wanted value) S.Steps := by
  intro state next key found text step written
  cases step with
  | @part b new =>
      obtain ⟨slot,member⟩ := f.place b
      exact ⟨_,f.once member new,f.reads slot b state text member written⟩
  | other unknown => exact ⟨_,f.other unknown,mapReads (fun _ => state) (passReads written)⟩

theorem completeTakes {last : σ} {behind rest : List Char} {a : α} (h : r.complete (last,behind) = .ok (a,rest)) :
    r.finish last = .ok a ∧ rest = behind := by
  have same := completeRest h
  simp only [Record.complete] at h
  split at h
  · rename_i whole
    cases h
    exact ⟨whole,same⟩
  · cases h

theorem followsTakes (f : Follows r S value places makes) : Takes r.reader (Made S value makes) := by
  intro cs a rest h
  change r.read cs = .ok (a,rest) at h
  unfold Record.read at h
  split at h
  · cases h
  · rename_i begin
    obtain ⟨before,blank,rfl⟩ := skipBlankTakes begin
    split at h
    · rename_i opener
      split at h
      · cases h
      · rename_i found read
        obtain ⟨last,behind⟩ := found
        obtain ⟨whole,rfl⟩ := completeTakes h
        obtain ⟨pairs,text,remains,course,rfl⟩ := membersTakes (followsLeaves f) read
        obtain ⟨keyed,⟨unique,_⟩,rfl⟩ := (Schema.courseIff f.kept).1 course
        obtain ⟨own,made,perm⟩ := f.inObject unique whole
        exact ⟨before,_,blank,⟨own,made,.object (remainderBracketed remains) keyed perm⟩,by simp [opener]⟩
    · split at h
      · rename_i opener
        split at h
        · cases h
        · rename_i found read
          obtain ⟨last,behind⟩ := found
          obtain ⟨whole,rfl⟩ := completeTakes h
          rw [f.slots] at read
          obtain ⟨parts,text,remains,filled,rfl,rfl⟩ := slotsTakes f.takes read
          exact ⟨before,_,blank,⟨parts,f.inList filled whole,.list (remainderBracketed remains)⟩,by simp [opener]⟩
      · cases h

theorem madeObject (f : Follows r S value places makes) {own : List β} {a : α} {text : List Char}
    {pairs : List (String × Option β)} (made : makes own a) (members : ObjectText (Wanted value) pairs text)
    (keyed : ∀ pair ∈ pairs, Keyed S.key pair) (held : (partsOf pairs).Perm own) :
    RecordText r (Wanted value) S.Steps a text := by
  obtain ⟨_,unique,whole⟩ := f.made made
  have unique' : ((partsOf pairs).map S.key).Nodup := (held.map S.key).nodup_iff.2 unique
  have fresh : S.Fresh r.start (partsOf pairs) := ⟨unique',fun b _ => f.start (S.key b)⟩
  have course := (Schema.courseIff f.kept).2 ⟨keyed,fresh,rfl⟩
  rw [Schema.gatheredPerm f.swaps held unique'] at course
  exact ⟨_,_,members,course,whole⟩

theorem followsRead (f : Follows r S value places makes) {a : α} {text blank : List Char} (h : Made S value makes a text)
    (left : Blanks blank) (rest : List Char) : r.read (blank ++ text ++ rest) = .ok (a,rest) := by
  obtain ⟨own,made,written⟩ := h
  cases written with
  | object members keyed held => exact recordRead (followsEnters f) (madeObject f made members keyed held) left rest
  | list items =>
      obtain ⟨filled,_,whole⟩ := f.made made
      obtain ⟨inside,rfl,remains⟩ := bracketedRemainder items
      have solid : isBlank '[' = false := rfl
      have front : Remainder ']' value ((0 : Nat) == 0) own inside := remains
      have read := slotsRead f.reads r.short filled front r.start rest
      rw [← f.slots] at read
      simp [Record.read,skipBlankBlanks left,skipBlankSolid solid,read,Record.complete,whole]

theorem followsReads (f : Follows r S value places makes) {a : α} {text : List Char} (h : Made S value makes a text) :
    Reads r.reader a text where
  start := by
    obtain ⟨own,made,written⟩ := h
    cases written with
    | object members keyed held => exact recordStart (madeObject f made members keyed held)
    | list items => exact bracketedStart rfl (by decide) items
  run left _ := followsRead f h left _

theorem partsWritten {key : β → String} {write : β → List Char} (layout : Layout) (depth : Nat) (parts : List β)
    (written : ∀ b ∈ parts, value b (write b)) :
    PartsText key value parts (layout.object depth (parts.map (fun b => layout.member (key b) (write b)))) := by
  have each : ∀ pair ∈ parts.map (fun b => (key b,some b)), Wanted value pair.2 ((pair.2.map write).getD []) := by
    intro pair member
    obtain ⟨b,own,rfl⟩ := List.mem_map.1 member
    exact written b own
  have members := @objectWritten _ (Wanted value) (fun found => (found.map write).getD []) layout depth _ each
  rw [List.map_map] at members
  refine .object members ?_ ?_
  · intro pair member
    obtain ⟨b,_,rfl⟩ := List.mem_map.1 member
    rfl
  · rw [partsOf,List.filterMap_map]
    exact .of_eq List.filterMap_some

end

def single (β : Type) (key : String) : Schema (Option β) β where
  key _ := key
  set _ b := some b
  holds state name := key == name && state.isSome

theorem singleFollows {α β : Type} [Nonempty β] {r : Record (Option β) α} {key : String} {reader : Reader Fault β} {part : α → β}
    {value : β → List Char → Prop} {cause : Mismatch} (start : r.start = none)
    (slots : r.slots = [⟨fun _ => reader.map some,false⟩])
    (field : ∀ state name, r.field state name = if name = key then
      if state.isSome then .refuse cause else .value (reader.map some) else .value (pass.map (fun _ => state)))
    (finish : ∀ b a, r.finish (some b) = .ok a ↔ b = part a) (incomplete : ∀ a, r.finish none ≠ .ok a)
    (takes : Takes reader value) (reads : ∀ b text, value b text → Reads reader b text) :
    Follows r (single β key) value [(key,⟨fun _ => reader.map some,false⟩)] (fun own a => own = [part a]) where
  kept state b name := by simpa [single] using fun same _ => same
  swaps state b c other := absurd rfl other
  start name := by simp [single,start]
  slots := slots
  place _ := ⟨_,List.mem_singleton.2 rfl⟩
  once := by
    intro state name slot member unset
    cases List.mem_singleton.1 member
    have empty : state.isSome = false := by simpa [single] using unset
    simp [field,empty]
  again := by
    intro state name slot member set
    cases List.mem_singleton.1 member
    have full : state.isSome = true := by simpa [single] using set
    exact ⟨cause,by simp [field,full]⟩
  other := by
    intro state name unknown
    obtain ⟨b⟩ := ‹Nonempty β›
    have other : name ≠ key := fun same => unknown b same.symm
    simp [field,other]
  takes := by
    intro name slot state member
    cases List.mem_singleton.1 member
    refine takesImp (mapTakes some takes) ?_
    rintro next text ⟨b,written,rfl⟩
    exact ⟨b,rfl,written,rfl⟩
  reads := by
    intro slot b state text member written
    cases List.mem_singleton.1 member
    exact mapReads some (reads b text written)
  made := by
    rintro own a rfl
    exact ⟨.slot .all,by simp,(finish _ a).2 rfl⟩
  inObject := by
    intro parts a unique whole
    refine ⟨[part a],rfl,?_⟩
    match parts with
    | [] => exact absurd (start ▸ whole) (incomplete a)
    | [b] => rw [(finish b a).1 whole]
    | b :: c :: others => simp [single] at unique
  inList := by
    intro parts a filled whole
    rcases Schema.filledCons filled with ⟨_,never⟩ | ⟨b,others,rfl,_,tail⟩
    · cases never
    · cases Schema.filledNil tail
      rw [(finish b a).1 whole]

theorem singleText {α β : Type} {key : String} {value : β → List Char → Prop} {part : α → β} {a : α} {text : List Char} :
    Made (single β key) value (fun own a => own = [part a]) a text ↔ PartsText (fun _ => key) value [part a] text := by
  constructor
  · rintro ⟨own,rfl,written⟩
    exact written
  · intro written
    exact ⟨_,rfl,written⟩

end SyntaxCatalog.Json
