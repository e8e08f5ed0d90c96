import SyntaxCatalog.Proofs.FileTree.View

/-! Ways through a tree. A way that ends in a directory depends only on the directories and links of
the tree, so edits of files leave it alone; a way to a file is such a way with one name behind it. -/
namespace SyntaxCatalog.FileTree

/- One step for each part of a path, with the number of links that may still be followed. -/
inductive Leads (t : FileTree) : Nat → Location → List String → Location → Prop where
  | here (n : Nat) (loc : Location) : Leads t n loc [] loc
  | dot {n mode : Nat} {here found : Location} {rest : List String} (inside : t.get? here = some (.directory mode))
      (others : Leads t n here rest found) : Leads t n here ("." :: rest) found
  | up {n mode : Nat} {here found : Location} {rest : List String} (inside : t.get? here = some (.directory mode))
      (others : Leads t n here.dropLast rest found) : Leads t n here (".." :: rest) found
  | into {n mode : Nat} {here found : Location} {part : String} {rest : List String} {entry : FileEntry}
      (inside : t.get? here = some (.directory mode)) (named : part ≠ "." ∧ part ≠ "..")
      (short : ¬longestName < part.utf8ByteSize) (stands : t.get? (here ++ [part]) = some entry)
      (plain : ∀ target, entry ≠ .link target) (others : Leads t n (here ++ [part]) rest found) :
      Leads t n here (part :: rest) found
  | link {n mode : Nat} {here found : Location} {part : String} {rest : List String} {target : Path}
      (inside : t.get? here = some (.directory mode)) (named : part ≠ "." ∧ part ≠ "..")
      (short : ¬longestName < part.utf8ByteSize) (stands : t.get? (here ++ [part]) = some (.link target))
      (others : Leads t n (origin here target) (parts target ++ rest) found) :
      Leads t (n + 1) here (part :: rest) found

theorem stepsLeads {t : FileTree} {n : Nat} {follow : Location → List String → Except FileFault Location}
    (linked : ∀ here parts found, follow here parts = .ok found → ∃ m, n = m + 1 ∧ Leads t m here parts found)
    {here found : Location} {parts : List String} (h : steps t follow here parts = .ok found) :
    Leads t n here parts found := by
  induction parts generalizing here with
  | nil => cases h; exact .here n _
  | cons part rest ih =>
      simp only [steps] at h
      split at h
      · cases h
      · cases h
      · cases h
      · rename_i inside
        split at h
        · rename_i same
          subst same
          exact .dot inside (ih h)
        · rename_i dot
          split at h
          · rename_i same
            subst same
            exact .up inside (ih h)
          · rename_i up
            split at h
            · cases h
            · rename_i short
              split at h
              · cases h
              · rename_i stands
                obtain ⟨m,same,others⟩ := linked _ _ _ h
                subst same
                exact .link inside ⟨dot,up⟩ short stands others
              · rename_i plain stands
                exact .into inside ⟨dot,up⟩ short stands plain (ih h)

theorem walkLeads {t : FileTree} {n : Nat} {here found : Location} {parts : List String}
    (h : walk t n here parts = .ok found) : Leads t n here parts found := by
  induction n generalizing here parts found with
  | zero => exact stepsLeads (fun _ _ _ refused => by cases refused) h
  | succ n ih => exact stepsLeads (fun _ _ _ onward => ⟨n,rfl,ih onward⟩) h

theorem leadsSteps {t : FileTree} {n : Nat} {here found : Location} {parts : List String}
    (h : Leads t n here parts found) {follow : Location → List String → Except FileFault Location}
    (linked : ∀ m here parts found, n = m + 1 → Leads t m here parts found → follow here parts = .ok found) :
    steps t follow here parts = .ok found := by
  induction h with
  | here => rfl
  | dot inside _ ih => simp [steps,inside,ih linked]
  | up inside _ ih => simp [steps,inside,ih linked]
  | into inside named short stands plain _ ih =>
      simp only [steps,inside,named.1,named.2,short,if_false,stands]
      exact ih linked
  | link inside named short stands others _ =>
      simp only [steps,inside,named.1,named.2,short,if_false,stands]
      exact linked _ _ _ _ rfl others

theorem leadsWalk {t : FileTree} {n : Nat} {here found : Location} {parts : List String}
    (h : Leads t n here parts found) : walk t n here parts = .ok found := by
  induction n generalizing here parts found with
  | zero => exact leadsSteps h (fun _ _ _ _ none => by cases none)
  | succ n ih =>
      refine leadsSteps h (fun m here parts found same others => ?_)
      cases same
      exact ih others

theorem leadsInside {t : FileTree} {n : Nat} {here found : Location} {part : String} {rest : List String}
    (h : Leads t n here (part :: rest) found) : ∃ mode, t.get? here = some (.directory mode) := by
  cases h with
  | dot inside => exact ⟨_,inside⟩
  | up inside => exact ⟨_,inside⟩
  | into inside => exact ⟨_,inside⟩
  | link inside => exact ⟨_,inside⟩

theorem lastOfRest {part : String} {rest : List String} (h : (part :: rest).getLast? = some ".")
    (named : part ≠ ".") : rest.getLast? = some "." := by
  cases rest with
  | nil => exact absurd (by simpa using h) named
  | cons next rest => simpa using h

theorem leadsDirectory {t : FileTree} {n : Nat} {here found : Location} {parts : List String}
    (h : Leads t n here parts found) (last : parts.getLast? = some ".") :
    ∃ mode, t.get? found = some (.directory mode) := by
  induction h with
  | here => cases last
  | @dot n mode here found rest inside others ih =>
      cases rest with
      | nil => cases others; exact ⟨mode,inside⟩
      | cons next rest => exact ih (by simpa using last)
  | up inside others ih => exact ih (lastOfRest last (by decide))
  | into inside named short stands plain others ih => exact ih (lastOfRest last named.1)
  | link inside named short stands others ih =>
      have later := lastOfRest last named.1
      exact ih (by rw [List.getLast?_append,later]; rfl)

theorem leadsAppend {t : FileTree} {n : Nat} {here dir found : Location} {parts rest : List String}
    (h : Leads t n here parts dir) (last : parts.getLast? = some ".") (onward : ∀ m, Leads t m dir rest found) :
    Leads t n here (parts.dropLast ++ rest) found := by
  induction h with
  | here => cases last
  | @dot n mode here dir behind inside others ih =>
      cases behind with
      | nil => cases others; exact onward n
      | cons next behind => exact .dot inside (ih (by simpa using last) onward)
  | up inside others ih =>
      have later := lastOfRest last (by decide)
      rw [List.dropLast_cons_of_ne_nil (by rintro rfl; cases later)]
      exact .up inside (ih later onward)
  | into inside named short stands plain others ih =>
      have later := lastOfRest last named.1
      rw [List.dropLast_cons_of_ne_nil (by rintro rfl; cases later)]
      exact .into inside named short stands plain (ih later onward)
  | @link n mode here dir part behind target inside named short stands others ih =>
      have later := lastOfRest last named.1
      have more : behind ≠ [] := by
        rintro rfl
        cases later
      have goes := ih (by rw [List.getLast?_append,later]; rfl) onward
      rw [List.dropLast_append_of_ne_nil more,List.append_assoc] at goes
      rw [List.dropLast_cons_of_ne_nil more]
      exact .link inside named short stands goes

theorem leadsCut {t : FileTree} {n : Nat} {here found : Location} {front : List String} {name : String}
    (h : Leads t n here (front ++ [name]) found) (named : name ≠ "." ∧ name ≠ "..") :
    ∃ dir, Leads t n here (front ++ ["."]) dir := by
  generalize whole : front ++ [name] = all at h
  induction h generalizing front with
  | here => simp at whole
  | @dot n mode here found rest inside others ih =>
      cases front with
      | nil => exact absurd (List.cons.inj whole).1 named.1
      | cons part front =>
          obtain ⟨rfl,behind⟩ := List.cons.inj whole
          obtain ⟨dir,way⟩ := ih behind
          exact ⟨dir,.dot inside way⟩
  | @up n mode here found rest inside others ih =>
      cases front with
      | nil => exact absurd (List.cons.inj whole).1 named.2
      | cons part front =>
          obtain ⟨rfl,behind⟩ := List.cons.inj whole
          obtain ⟨dir,way⟩ := ih behind
          exact ⟨dir,.up inside way⟩
  | @into n mode here found part rest entry inside own short stands plain others ih =>
      cases front with
      | nil => exact ⟨here,.dot inside (.here n here)⟩
      | cons first front =>
          obtain ⟨rfl,behind⟩ := List.cons.inj whole
          obtain ⟨dir,way⟩ := ih behind
          exact ⟨dir,.into inside own short stands plain way⟩
  | @link n mode here found part rest target inside own short stands others ih =>
      cases front with
      | nil => exact ⟨here,.dot inside (.here (n + 1) here)⟩
      | cons first front =>
          obtain ⟨rfl,behind⟩ := List.cons.inj whole
          have longer : (parts target ++ front) ++ [name] = parts target ++ rest :=
            (List.append_assoc _ _ _).trans (congrArg (parts target ++ ·) behind)
          obtain ⟨dir,way⟩ := ih longer
          rw [List.append_assoc] at way
          exact ⟨dir,.link inside own short stands way⟩

/- What a way may pass through: a directory, or a link with its target. -/
def passage : Option FileEntry → Option (Option Path)
  | some (.directory _) => some none
  | some (.link target) => some (some target)
  | _ => none

def SamePassages (t other : FileTree) : Prop := ∀ loc, passage (t.get? loc) = passage (other.get? loc)

theorem SamePassages.symm {t other : FileTree} (same : SamePassages t other) : SamePassages other t :=
  fun loc => (same loc).symm

theorem passageNone {t : FileTree} {loc : Location} (plain : ∀ mode, t.get? loc ≠ some (.directory mode))
    (unlinked : ∀ target, t.get? loc ≠ some (.link target)) : passage (t.get? loc) = none := by
  cases there : t.get? loc with
  | none => rfl
  | some entry =>
      cases entry with
      | directory mode => exact absurd there (plain mode)
      | file => rfl
      | link target => exact absurd there (unlinked target)

theorem passageDirectory {t other : FileTree} (same : SamePassages t other) {loc : Location} {mode : Nat}
    (h : t.get? loc = some (.directory mode)) : ∃ mode, other.get? loc = some (.directory mode) := by
  have here := same loc
  rw [h] at here
  cases stands : other.get? loc with
  | none => rw [stands] at here; cases here
  | some entry =>
      rw [stands] at here
      cases entry with
      | directory mode => exact ⟨mode,rfl⟩
      | file => cases here
      | link => cases here

theorem passageLink {t other : FileTree} (same : SamePassages t other) {loc : Location} {target : Path}
    (h : t.get? loc = some (.link target)) : other.get? loc = some (.link target) := by
  have here := same loc
  rw [h] at here
  cases stands : other.get? loc with
  | none => rw [stands] at here; cases here
  | some entry =>
      rw [stands] at here
      cases entry with
      | directory mode => cases here
      | file => cases here
      | link found => cases here; rfl

theorem leadsSame {t other : FileTree} (same : SamePassages t other) {n : Nat} {here found : Location}
    {parts : List String} (h : Leads t n here parts found) (last : parts.getLast? = some ".") :
    Leads other n here parts found := by
  induction h with
  | here => cases last
  | @dot n mode here found rest inside others ih =>
      obtain ⟨_,there⟩ := passageDirectory same inside
      cases rest with
      | nil => cases others; exact .dot there (.here n here)
      | cons next rest => exact .dot there (ih (by simpa using last))
  | up inside others ih =>
      obtain ⟨_,there⟩ := passageDirectory same inside
      exact .up there (ih (lastOfRest last (by decide)))
  | @into n mode here found part rest entry inside named short stands plain others ih =>
      obtain ⟨_,there⟩ := passageDirectory same inside
      have later := lastOfRest last named.1
      -- The way goes on behind this part, so a directory stands there in both trees.
      obtain ⟨mode,directory⟩ : ∃ mode, t.get? (here ++ [part]) = some (.directory mode) := by
        cases rest with
        | nil => cases later
        | cons next rest => exact leadsInside others
      obtain ⟨mode,directory⟩ := passageDirectory same directory
      exact .into there named short directory (fun _ isLink => by cases isLink) (ih later)
  | link inside named short stands others ih =>
      obtain ⟨_,there⟩ := passageDirectory same inside
      have later := lastOfRest last named.1
      exact .link there named short (passageLink same stands) (ih (by rw [List.getLast?_append,later]; rfl))

end SyntaxCatalog.FileTree
