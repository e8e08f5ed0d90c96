import SyntaxCatalog.ConfigFile.Toml
import SyntaxCatalog.Proofs.Toml.Keys

/-! What a document says, without the way in which it is written: headers, dotted keys and braces all make tables,
and the tables under a repeated header are an array. The readers of configuration see no more than that. -/
namespace SyntaxCatalog.Toml

inductive Value where
  | scalar (value : Scalar)
  | array (items : List Value)
  | table (entries : List (String × Value))

mutual
def Item.value : Item → Value
  | .scalar value _ => .scalar value
  | .array items _ => .array (values items)
  | .table _ entries _ => .table (fields entries)
  | .tables items => .array (values items)

def values : List Item → List Value
  | [] => []
  | item :: more => item.value :: values more

def fields : List (Key × Item) → List (String × Value)
  | [] => []
  | entry :: more => (entry.1.name,entry.2.value) :: fields more
end

theorem fieldsNames (t : Table) : (fields t).map Prod.fst = t.names := by
  induction t with
  | nil => rfl
  | cons entry more ih => exact congrArg (entry.1.name :: ·) ih

inductive Chooses {α : Type} (choices : List (String × α)) : Value → α → Prop where
  | named {name : String} {a : α} (known : choices.lookup name = some a) : Chooses choices (.scalar (.string name)) a
  | keyed {name : String} {a : α} {under : Value} (known : choices.lookup name = some a)
      (bare : under = .table [] ∨ under = .array []) : Chooses choices (.table [(name,under)]) a

def Lists {α : Type} (means : Value → α → Prop) (value : Value) (as : List α) : Prop :=
  ∃ items, value = .array items ∧ List.Forall₂ means items as

section
variable {α : Type} {choices : List (String × α)} {a : α}

theorem choosesScalar {value : Scalar} :
    Chooses choices (.scalar value) a ↔ ∃ name, value = .string name ∧ choices.lookup name = some a := by
  constructor
  · intro h
    cases h with
    | named known => exact ⟨_,rfl,known⟩
  · rintro ⟨name,rfl,known⟩
    exact .named known

theorem choosesTable {entries : List (String × Value)} :
    Chooses choices (.table entries) a ↔ ∃ name under, entries = [(name,under)] ∧ choices.lookup name = some a ∧
      (under = .table [] ∨ under = .array []) := by
  constructor
  · intro h
    cases h with
    | keyed known bare => exact ⟨_,_,rfl,known,bare⟩
  · rintro ⟨name,under,rfl,known,bare⟩
    exact .keyed known bare

theorem choosesArray {items : List Value} : ¬ Chooses choices (.array items) a := nofun

end

section
variable {α : Type} {place : Span} {item : Item}

theorem stringItemIff {expected text : String} :
    stringItem expected place item = .ok text ↔ item.value = .scalar (.string text) := by
  cases item with
  | scalar value span => cases value <;> simp [stringItem,Item.value]
  | array items span => simp [stringItem,Item.value]
  | table origin entries span => simp [stringItem,Item.value]
  | tables items => simp [stringItem,Item.value]

theorem nothingIff : nothing place item = .ok () ↔ item.value = .table [] ∨ item.value = .array [] := by
  cases item with
  | scalar value span => simp [nothing,Item.value]
  | array items span => cases items <;> simp [nothing,Item.value,values]
  | table origin entries span => cases entries <;> simp [nothing,Item.value,fields]
  | tables items => cases items <;> simp [nothing,Item.value,values]

theorem chosenIff {choices : List (String × α)} {name : String} {a : α} :
    chosen choices name place = .ok a ↔ choices.lookup name = some a := by
  unfold chosen
  cases choices.lookup name <;> simp

theorem keyedIff {choices : List (String × α)} {origin : Origin} {key : Key} {under : Item} {span : Option Span} {a : α} :
    choiceItem choices place (.table origin [(key,under)] span) = .ok a ↔
      choices.lookup key.name = some a ∧ nothing place under = .ok () := by
  rw [← @chosenIff α key.span]
  unfold choiceItem
  dsimp only
  cases chosen choices key.name key.span with
  | error e => simp
  | ok b => cases nothing place under <;> simp [Except.map]

theorem choiceItemIff {choices : List (String × α)} {a : α} :
    choiceItem choices place item = .ok a ↔ Chooses choices item.value a := by
  cases item with
  | scalar value span => cases value <;> simp [choiceItem,Item.value,choosesScalar,chosenIff]
  | array items span => simp [choiceItem,Item.value,choosesArray]
  | tables items => simp [choiceItem,Item.value,choosesArray]
  | table origin entries span =>
      rw [Item.value,choosesTable]
      rcases entries with _ | ⟨⟨key,under⟩,_ | ⟨second,more⟩⟩
      · simp [choiceItem,fields]
      · rw [keyedIff,nothingIff]
        simp [fields,eq_comm]
      · simp [choiceItem,fields]

section
variable {read : Span → Item → Except Fault α} {means : Value → α → Prop} {as : List α}

theorem eachItemIff (reads : ∀ place item a, read place item = .ok a ↔ means item.value a) {items : List Item} :
    eachItem read place items = .ok as ↔ List.Forall₂ means (values items) as := by
  induction items generalizing as with
  | nil => simp [eachItem,values,eq_comm]
  | cons item more ih =>
      rw [values,List.forall₂_cons_left_iff]
      simp only [← reads (item.span.getD place) item,← ih]
      rw [eachItem]
      cases read (item.span.getD place) item with
      | error e => simp [bind,Except.bind]
      | ok a => cases eachItem read place more <;> simp [bind,Except.bind,eq_comm]

theorem listItemIff (reads : ∀ place item a, read place item = .ok a ↔ means item.value a) :
    listItem read place item = .ok as ↔ Lists means item.value as := by
  cases item with
  | scalar value span => simp [listItem,Lists,Item.value]
  | table origin entries span => simp [listItem,Lists,Item.value]
  | array items span => simp [listItem,Lists,Item.value,eachItemIff reads]
  | tables items => simp [listItem,Lists,Item.value,eachItemIff reads]

end
end
end SyntaxCatalog.Toml
