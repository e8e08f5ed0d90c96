import SyntaxCatalog.Decimal.Binary64

/-! Documents as tables. A table keeps its keys in the order in which they were written, and every
part keeps the stretch of text it was written in. -/
namespace SyntaxCatalog.Toml

-- A stretch of text, by the number of bytes that remain from its start and after its end.
structure Span where
  start : Nat
  stop : Nat
  deriving DecidableEq, Repr

structure Key where
  name : String
  span : Span
  deriving DecidableEq, Repr

inductive Scalar where
  | string (text : String)
  | integer (value : Int)
  | float (value : Decimal.Binary64)
  | boolean (value : Bool)
  | datetime
  deriving DecidableEq, Repr

inductive Origin where
  | header
  | implied
  | dotted
  | braces
  deriving DecidableEq, Repr

inductive Item where
  | scalar (value : Scalar) (span : Span)
  | array (items : List Item) (span : Span)
  | table (origin : Origin) (entries : List (Key × Item)) (span : Option Span)
  | tables (items : List Item)

abbrev Table := List (Key × Item)

def Item.span : Item → Option Span
  | .scalar _ span => some span
  | .array _ span => some span
  | .table _ _ span => span
  | .tables items =>
      match items.head?,items.getLast? with
      | some (.table _ _ (some first)),some (.table _ _ (some last)) => some ⟨first.start,last.stop⟩
      | _,_ => none

namespace Table

def item? (t : Table) (name : String) : Option Item :=
  (List.find? (fun entry => entry.1.name == name) t).map Prod.snd

def replace (t : Table) (name : String) (item : Item) : Table :=
  t.map (fun entry => if entry.1.name == name then (entry.1,item) else entry)

def erase (t : Table) (name : String) : Table := t.filter (fun entry => entry.1.name != name)

end Table

-- Whether a path may pass through a table: a dotted key only through tables that no header or braces
-- have closed, a header through all but those between braces.
def Origin.admits (origin : Origin) (dotted : Bool) : Bool :=
  match origin with
  | .implied | .dotted => true
  | .header => !dotted
  | .braces => false

def Table.within {α : Type} (dotted : Bool) (edit : Origin → Table → Option (α × Table)) :
    List Key → Origin → Table → Option (α × Table)
  | [], here, t => edit here t
  | key :: path, _, t =>
      match t.item? key.name with
      | none => do
          let fresh := if dotted then Origin.dotted else Origin.implied
          let (a,inner) ← within dotted edit path fresh []
          some (a,t ++ [(key,.table fresh inner none)])
      | some (.table origin inner span) =>
          if origin.admits dotted then do
            let (a,inner) ← within dotted edit path origin inner
            some (a,Table.replace t key.name (.table origin inner span))
          else none
      | some (.tables items) =>
          match items.getLast? with
          | some (.table origin inner span) => do
              let (a,inner) ← within dotted edit path origin inner
              some (a,Table.replace t key.name (.tables (items.dropLast ++ [.table origin inner span])))
          | _ => none
      | some _ => none

/-- Puts a value under a dotted key. A key is written once, and the table that takes it is either
the one the path starts from or one that only dotted keys have made. -/
def Table.put (t : Table) (here : Origin) (path : List Key) (key : Key) (item : Item) : Option Table :=
  (t.within true add path here).map Prod.snd
where
  add (origin : Origin) (inner : Table) : Option (Unit × Table) :=
    if (origin == .dotted) == path.isEmpty || (Table.item? inner key.name).isSome then none
    else some ((),inner ++ [(key,item)])

structure Draft where
  root : Table
  path : List Key
  repeated : Bool
  table : Table
  span : Option Span

def Draft.start : Draft := ⟨[],[],false,[],none⟩

def Draft.add (d : Draft) (path : List Key) (key : Key) (item : Item) : Option Draft := do
  let table ← d.table.put .header path key item
  some {d with table,span := extended}
where
  extended : Option Span :=
    match d.span,item.span with
    | some header,some value => some ⟨header.start,value.stop⟩
    | _,_ => d.span

def Draft.finish (d : Draft) : Option Table :=
  match d.path.getLast? with
  | none => some d.table
  | some key => (d.root.within false (place key) d.path.dropLast .header).map Prod.snd
where
  place (key : Key) (_ : Origin) (t : Table) : Option (Unit × Table) :=
    let closed := Item.table .header d.table d.span
    match t.item? key.name with
    | none => some ((),t ++ [(key,if d.repeated then .tables [closed] else closed)])
    | some (.tables items) =>
        if d.repeated then some ((),Table.replace t key.name (.tables (items ++ [closed]))) else none
    | some _ => none

-- Opens the table of a header. A table that longer headers have implied may still be opened, and then
-- moves to the end of its parent.
def Draft.enter (d : Draft) (path : List Key) (repeated : Bool) (span : Span) : Option Draft := do
  let root ← d.finish
  let key ← path.getLast?
  let (table,root) ← Table.within false (claim key) path.dropLast .header root
  some ⟨root,path,repeated,table,some span⟩
where
  claim (key : Key) (_ : Origin) (t : Table) : Option (Table × Table) :=
    match t.item? key.name with
    | none => some ([],if repeated then t ++ [(key,.tables [])] else t)
    | some (.table .implied inner _) => if repeated then none else some (inner,Table.erase t key.name)
    | some (.tables _) => if repeated then some ([],t) else none
    | some _ => none

end SyntaxCatalog.Toml
