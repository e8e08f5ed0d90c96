import SyntaxCatalog.Proofs.FileTree.Ways

/-! Ways that go on from a directory. Whatever is looked up behind a directory is looked up from there, with the links
that are left; where there is no way to the directory, there is none to anything behind it. -/
namespace SyntaxCatalog.FileTree

section
variable {t : FileTree} {n mode : Nat} {here : Location} (inside : t.get? here = some (.directory mode))
include inside

theorem walkDot (rest : List String) : walk t n here ("." :: rest) = walk t n here rest := by
  cases n <;> simp [walk,steps,inside]

theorem walkUp (rest : List String) : walk t n here (".." :: rest) = walk t n here.dropLast rest := by
  cases n <;> simp [walk,steps,inside]

variable {part : String} (named : part ≠ "." ∧ part ≠ "..") (short : ¬longestName < part.utf8ByteSize)
include named short

theorem walkInto {entry : FileEntry} (stands : t.get? (here ++ [part]) = some entry)
    (plain : ∀ target, entry ≠ .link target) (rest : List String) :
    walk t n here (part :: rest) = walk t n (here ++ [part]) rest := by
  cases n <;> simp [walk,steps,inside,named,short,stands]

theorem walkLink {target : Path} (stands : t.get? (here ++ [part]) = some (.link target)) (rest : List String) :
    walk t (n + 1) here (part :: rest) = walk t n (origin here target) (parts target ++ rest) := by
  simp [walk,steps,inside,named,short,stands]

end

theorem leadsThrough {t : FileTree} {n : Nat} {here dir : Location} {front : List String}
    (h : Leads t n here (front ++ ["."]) dir) : ∃ used, used ≤ n ∧
      ∀ left rest, walk t (used + left) here (front ++ rest) = walk t left dir rest := by
  generalize whole : front ++ ["."] = all at h
  induction h generalizing front with
  | here => simp at whole
  | @dot n mode here dir behind inside others ih =>
      cases front with
      | nil =>
          cases whole
          cases others
          exact ⟨0,Nat.zero_le n,fun left rest => by rw [Nat.zero_add,List.nil_append]⟩
      | cons part front =>
          obtain ⟨rfl,behind⟩ := List.cons.inj whole
          obtain ⟨used,few,onward⟩ := ih behind
          exact ⟨used,few,fun left rest => (walkDot inside _).trans (onward left rest)⟩
  | @up n mode here dir behind inside others ih =>
      cases front with
      | nil => exact absurd (List.cons.inj whole).1 (by decide)
      | cons part front =>
          obtain ⟨rfl,behind⟩ := List.cons.inj whole
          obtain ⟨used,few,onward⟩ := ih behind
          exact ⟨used,few,fun left rest => (walkUp inside _).trans (onward left rest)⟩
  | @into n mode here dir part behind entry inside own short stands plain others ih =>
      cases front with
      | nil => exact absurd (List.cons.inj whole).1.symm own.1
      | cons first front =>
          obtain ⟨rfl,behind⟩ := List.cons.inj whole
          obtain ⟨used,few,onward⟩ := ih behind
          exact ⟨used,few,fun left rest => (walkInto inside own short stands plain _).trans (onward left rest)⟩
  | @link n mode here dir part behind target inside own short stands others ih =>
      cases front with
      | nil => exact absurd (List.cons.inj whole).1.symm own.1
      | cons first front =>
          obtain ⟨rfl,behind⟩ := List.cons.inj whole
          have longer : (parts target ++ front) ++ ["."] = parts target ++ (front ++ ["."]) := List.append_assoc _ _ _
          obtain ⟨used,few,onward⟩ := ih (longer.trans (congrArg (parts target ++ ·) behind))
          refine ⟨used + 1,Nat.succ_le_succ few,?_⟩
          intro left rest
          calc walk t (used + 1 + left) here (first :: front ++ rest)
              = walk t (used + left + 1) here (first :: (front ++ rest)) := by rw [Nat.add_right_comm]; rfl
            _ = walk t (used + left) (origin here target) (parts target ++ (front ++ rest)) :=
                walkLink inside own short stands _
            _ = walk t left dir rest := by rw [← List.append_assoc,onward]

theorem stepsStuck {t : FileTree} {follow : Location → List String → Except FileFault Location} {rest : List String}
    (some : rest ≠ []) (linked : ∀ here front, (∃ dir, follow here (front ++ ["."]) = .ok dir) ∨
      follow here (front ++ rest) = follow here (front ++ ["."])) (here : Location) (front : List String) :
    (∃ dir, steps t follow here (front ++ ["."]) = .ok dir) ∨
      steps t follow here (front ++ rest) = steps t follow here (front ++ ["."]) := by
  induction front generalizing here with
  | nil =>
      obtain ⟨part,rest,rfl⟩ := List.exists_cons_of_ne_nil some
      simp only [List.nil_append,steps]
      split
      · exact .inr rfl
      · exact .inr rfl
      · exact .inr rfl
      · exact .inl ⟨here,rfl⟩
  | cons part front ih =>
      simp only [List.cons_append,steps]
      split
      · exact .inr rfl
      · exact .inr rfl
      · exact .inr rfl
      · split
        · exact ih _
        · split
          · exact ih _
          · split
            · exact .inr rfl
            · split
              · exact .inr rfl
              · rw [← List.append_assoc,← List.append_assoc]
                exact linked _ _
              · exact ih _

theorem walkStuck (t : FileTree) (n : Nat) (here : Location) (front : List String) {rest : List String} (some : rest ≠ []) :
    (∃ dir, walk t n here (front ++ ["."]) = .ok dir) ∨ walk t n here (front ++ rest) = walk t n here (front ++ ["."]) := by
  induction n generalizing here front with
  | zero => exact stepsStuck some (fun _ _ => .inr rfl) here front
  | succ n ih => exact stepsStuck some ih here front

theorem walkDots (t : FileTree) (n : Nat) (here : Location) (front : List String) {dots : List String}
    (all : ∀ part ∈ dots, part = ".") : walk t n here (front ++ (dots ++ ["."])) = walk t n here (front ++ ["."]) := by
  rcases walkStuck t n here front (List.concat_ne_nil "." dots) with ⟨dir,found⟩ | same
  · obtain ⟨_,inside⟩ := leadsDirectory (walkLeads found) (by simp)
    obtain ⟨used,few,onward⟩ := leadsThrough (walkLeads found)
    obtain ⟨left,rfl⟩ := Nat.exists_eq_add_of_le few
    rw [onward,onward]
    induction dots with
    | nil => rfl
    | cons dot dots ih =>
        obtain ⟨rfl,others⟩ := List.forall_mem_cons.1 all
        exact (walkDot inside _).trans (ih others)
  · exact same

theorem stepsFewer {t : FileTree} {few more : Location → List String → Except FileFault Location}
    (linked : ∀ here parts, few here parts = .error .linkLoop ∨ few here parts = more here parts)
    (here : Location) (parts : List String) :
    steps t few here parts = .error .linkLoop ∨ steps t few here parts = steps t more here parts := by
  induction parts generalizing here with
  | nil => exact .inr rfl
  | cons part rest ih =>
      simp only [steps]
      split
      · exact .inr rfl
      · exact .inr rfl
      · exact .inr rfl
      · split
        · exact ih _
        · split
          · exact ih _
          · split
            · exact .inr rfl
            · split
              · exact .inr rfl
              · exact linked _ _
              · exact ih _

theorem walkFewer {t : FileTree} {few more : Nat} (h : few ≤ more) (here : Location) (parts : List String) :
    walk t few here parts = .error .linkLoop ∨ walk t few here parts = walk t more here parts := by
  induction few generalizing more here parts with
  | zero =>
      cases more with
      | zero => exact .inr rfl
      | succ more => exact stepsFewer (fun _ _ => .inl rfl) here parts
  | succ few ih =>
      obtain ⟨more,rfl⟩ := Nat.exists_eq_add_of_le' h
      exact stepsFewer (fun here parts => ih (Nat.le_add_left few more) here parts) here parts

end SyntaxCatalog.FileTree
