import Mathlib.Data.List.Perm.Basic
import Mathlib.Data.List.Nodup
import SyntaxCatalog.Toml.Document

/-! The names of the topmost table. Every step of reading adds at most the first name of the key that it is about,
so names are distinct at the end and none that was read is lost. -/
namespace SyntaxCatalog.Toml

def Table.names (t : Table) : List String := t.map (fun entry => entry.1.name)

def grown (names : List String) (name : String) : List String := if name ∈ names then names else names ++ [name]

section
variable {names : List String} {name other : String}

theorem grownOld (old : name ∈ names) : grown names name = names := if_pos old

theorem grownNew (new : name ∉ names) : grown names name = names ++ [name] := if_neg new

theorem memGrown : other ∈ grown names name ↔ other ∈ names ∨ other = name := by
  unfold grown
  split
  · rename_i old
    exact ⟨.inl,fun either => either.elim id (fun same => same ▸ old)⟩
  · simp

theorem grownNodup (distinct : names.Nodup) : (grown names name).Nodup := by
  unfold grown
  split
  · exact distinct
  · rename_i new
    exact distinct.append (List.nodup_singleton name) (List.disjoint_singleton.2 new)

theorem grownAgain : grown (grown names name) name = grown names name := grownOld (memGrown.2 (.inr rfl))

theorem grownMoved (distinct : names.Nodup) (old : name ∈ names) :
    (grown (names.filter (· != name)) name).Perm (grown names name) := by
  have gone : name ∉ names.filter (· != name) := by simp
  rw [grownOld old,grownNew gone]
  refine (List.perm_ext_iff_of_nodup ?_ distinct).2 ?_
  · exact (distinct.filter _).append (List.nodup_singleton name) (List.disjoint_singleton.2 gone)
  · intro other
    by_cases same : other = name <;> simp [same,old]

end

namespace Table
variable {t after : Table} {name : String} {item : Item}

theorem replaceNames : (t.replace name item).names = t.names := by
  unfold replace names
  rw [List.map_map]
  refine List.map_congr_left ?_
  intro entry _
  dsimp only [Function.comp]
  split <;> rfl

theorem eraseNames : (t.erase name).names = t.names.filter (· != name) := by
  unfold erase names
  rw [List.filter_map]
  rfl

theorem itemNone : t.item? name = none ↔ name ∉ t.names := by
  simp [item?,names]

theorem itemSome (there : t.item? name = some item) : name ∈ t.names := by
  by_contra missing
  rw [itemNone.2 missing] at there
  cases there

theorem appendNames {key : Key} : names (t ++ [(key,item)]) = t.names ++ [key.name] := List.map_append

theorem withinNames {α : Type} {dotted : Bool} {edit : Origin → Table → Option (α × Table)} {key : Key} {path : List Key}
    {here : Origin} {a : α} (h : t.within dotted edit (key :: path) here = some (a,after)) :
    after.names = grown t.names key.name := by
  unfold within at h
  split at h
  · rename_i nothing
    simp only [bind,Option.bind_eq_some_iff] at h
    obtain ⟨_,_,same⟩ := h
    cases same
    rw [appendNames,grownNew (itemNone.1 nothing)]
  · rename_i there
    split at h
    · simp only [bind,Option.bind_eq_some_iff] at h
      obtain ⟨_,_,same⟩ := h
      cases same
      rw [replaceNames,grownOld (itemSome there)]
    · cases h
  · rename_i there
    split at h
    · simp only [bind,Option.bind_eq_some_iff] at h
      obtain ⟨_,_,same⟩ := h
      cases same
      rw [replaceNames,grownOld (itemSome there)]
    · cases h
  · cases h

theorem putNames {here : Origin} {path : List Key} {key : Key} (h : t.put here path key item = some after) :
    after.names = grown t.names (path.headD key).name := by
  obtain ⟨⟨_,_⟩,inside,rfl⟩ := Option.map_eq_some_iff.1 h
  cases path with
  | nil =>
      simp only [within,put.add] at inside
      split at inside
      · cases inside
      · rename_i free
        cases inside
        have new : t.item? key.name = none := by
          cases found : t.item? key.name with
          | none => rfl
          | some there => simp [found] at free
        exact appendNames.trans (grownNew (itemNone.1 new)).symm
  | cons head path => exact withinNames inside

end Table

/- The names that the topmost table would have if the document ended here. -/
def Draft.names (d : Draft) : List String :=
  match d.path with
  | [] => d.table.names
  | head :: _ => grown d.root.names head.name

namespace Draft
variable {d next : Draft} {path : List Key} {key : Key} {item : Item} {repeated : Bool} {span : Span}

theorem finishNames {t : Table} (h : d.finish = some t) : t.names = d.names := by
  unfold finish at h
  unfold names
  cases whole : d.path with
  | nil =>
      rw [whole] at h
      cases h
      rfl
  | cons head more =>
      rw [whole] at h
      cases last : (head :: more).getLast? with
      | none => simp at last
      | some key =>
          rw [last] at h
          obtain ⟨⟨_,_⟩,inside,rfl⟩ := Option.map_eq_some_iff.1 h
          cases more with
          | cons second more => exact Table.withinNames inside
          | nil =>
              cases last
              simp only [List.dropLast_singleton,Table.within,finish.place] at inside
              split at inside
              · rename_i nothing
                cases inside
                exact Table.appendNames.trans (grownNew (Table.itemNone.1 nothing)).symm
              · rename_i there
                split at inside
                · cases inside
                  exact Table.replaceNames.trans (grownOld (Table.itemSome there)).symm
                · cases inside
              · cases inside

theorem enterNames (distinct : d.names.Nodup) (h : d.enter path repeated span = some next) :
    ∃ head rest, path = head :: rest ∧ next.names.Perm (grown d.names head.name) := by
  simp only [enter,bind,Option.bind_eq_some_iff] at h
  obtain ⟨root,closed,last,here,⟨table,left⟩,inside,same⟩ := h
  cases same
  have finished := finishNames closed
  rw [← finished] at distinct ⊢
  cases path with
  | nil => cases here
  | cons head more =>
      refine ⟨head,more,rfl,?_⟩
      show (grown left.names head.name).Perm _
      cases more with
      | cons second more =>
          rw [Table.withinNames inside,grownAgain]
      | nil =>
          obtain rfl : head = last := Option.some.inj here
          simp only [List.dropLast_singleton,Table.within,enter.claim] at inside
          split at inside
          · rename_i nothing
            have new := Table.itemNone.1 nothing
            cases inside
            split
            · rw [Table.appendNames,← grownNew new,grownAgain]
            · exact .refl _
          · rename_i there
            split at inside
            · cases inside
            · cases inside
              rw [Table.eraseNames]
              exact grownMoved distinct (Table.itemSome there)
          · split at inside
            · cases inside
              exact .refl _
            · cases inside
          · cases inside

theorem addNames (h : d.add path key item = some next) :
    next.names = if d.path = [] then grown d.names (path.headD key).name else d.names := by
  simp only [add,bind,Option.bind_eq_some_iff] at h
  obtain ⟨table,put,same⟩ := h
  cases same
  unfold names
  cases d.path with
  | nil => exact Table.putNames put
  | cons head more => rfl

end Draft

structure Kept (names later : List String) : Prop where
  distinct : later.Nodup
  kept : names ⊆ later

section
variable {d next : Draft} {cs rest : List Char} {path : List Key} {repeated : Bool}

theorem lineKept (distinct : d.names.Nodup) (h : line d cs = some (next,rest)) : Kept d.names next.names := by
  unfold line at h
  split at h
  · simp only [bind,Option.bind_eq_some_iff] at h
    obtain ⟨_,entered,_,_,same⟩ := h
    cases same
    obtain ⟨head,_,_,names⟩ := Draft.enterNames distinct entered
    exact ⟨names.nodup_iff.2 (grownNodup distinct),fun name old => names.mem_iff.2 (memGrown.2 (.inl old))⟩
  · split at h
    · cases h
    · simp only [bind,Option.bind_eq_some_iff] at h
      obtain ⟨_,_,_,_,_,added,same⟩ := h
      cases same
      have names := Draft.addNames added
      split at names
      · rw [names]
        exact ⟨grownNodup distinct,fun name old => memGrown.2 (.inl old)⟩
      · rw [names]
        exact ⟨distinct,fun name old => old⟩

theorem documentKept {last : Draft} (distinct : d.names.Nodup) (h : document d cs = some last) :
    Kept d.names last.names := by
  fun_induction document d cs with
  | case1 =>
      cases h
      exact ⟨distinct,fun name old => old⟩
  | case2 => cases h
  | case3 d _ _ _ _ _ _ _ ih => exact ih distinct h
  | case4 => cases h
  | case5 d _ c rest _ _ next more read ih =>
      have first := lineKept distinct read
      have others := ih first.distinct h
      exact ⟨others.distinct,fun name old => others.kept (first.kept old)⟩

end

theorem rootNodup {text : String} {t : Table} (h : root text = some t) : t.names.Nodup := by
  simp only [root,bind,Option.bind_eq_some_iff] at h
  obtain ⟨d,read,closed⟩ := h
  have start : Draft.start.names.Nodup := List.nodup_nil
  rw [Draft.finishNames closed]
  exact (documentKept start read).distinct

end SyntaxCatalog.Toml
