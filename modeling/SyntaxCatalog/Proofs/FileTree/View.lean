import SyntaxCatalog.FileTree.Edit

/-! What stands in a tree after an edit. An entry that is put stands at its own location and nothing
else changes; erasing an entry that was put where nothing stood gives the very tree of before. -/
namespace SyntaxCatalog.FileTree

theorem lookupReplacedOther {entries : List (Location × FileEntry)} {loc other : Location} (entry : FileEntry)
    (different : other ≠ loc) :
    (entries.map (fun old => if old.1 == loc then (loc,entry) else old)).lookup other = entries.lookup other := by
  induction entries with
  | nil => rfl
  | cons old rest ih =>
      obtain ⟨place,there⟩ := old
      have apart : (other == loc) = false := beq_eq_false_iff_ne.2 different
      by_cases here : place = loc
      · subst here
        simpa [List.lookup_cons,apart] using ih
      · have kept : (place == loc) = false := beq_eq_false_iff_ne.2 here
        simp only [List.map_cons,kept,Bool.false_eq_true,if_false,List.lookup_cons,ih]

theorem lookupReplaced {entries : List (Location × FileEntry)} {loc : Location} (entry : FileEntry)
    (present : (entries.lookup loc).isSome = true) :
    (entries.map (fun old => if old.1 == loc then (loc,entry) else old)).lookup loc = some entry := by
  induction entries with
  | nil => cases present
  | cons old rest ih =>
      obtain ⟨place,there⟩ := old
      by_cases here : place = loc
      · subst here
        simp
      · have kept : (place == loc) = false := beq_eq_false_iff_ne.2 here
        have apart : (loc == place) = false := beq_eq_false_iff_ne.2 (Ne.symm here)
        simp only [List.lookup_cons,apart] at present
        simp only [List.map_cons,kept,Bool.false_eq_true,if_false,List.lookup_cons,apart,ih present]

theorem getLookup (t : FileTree) {loc : Location} (inside : loc ≠ []) : t.get? loc = t.entries.lookup loc := by
  cases loc with
  | nil => exact absurd rfl inside
  | cons name loc => rfl

theorem lookupPlaced (entries : List (Location × FileEntry)) (loc : Location) (entry : FileEntry) :
    (placed entries loc entry).lookup loc = some entry := by
  unfold placed
  split
  · rename_i present
    exact lookupReplaced entry present
  · rename_i absent
    have nothing : entries.lookup loc = none := Option.not_isSome_iff_eq_none.1 absent
    simp [List.lookup_append,nothing]

theorem lookupPlacedOther (entries : List (Location × FileEntry)) {loc other : Location} (entry : FileEntry)
    (different : other ≠ loc) : (placed entries loc entry).lookup other = entries.lookup other := by
  unfold placed
  split
  · exact lookupReplacedOther entry different
  · simp [List.lookup_append,List.lookup_cons,beq_eq_false_iff_ne.2 different]

theorem putInside (t : FileTree) {loc : Location} (inside : loc ≠ []) (entry : FileEntry) :
    t.put loc entry = {t with entries := placed t.entries loc entry} := by
  cases loc with
  | nil => exact absurd rfl inside
  | cons name loc => rfl

theorem maskPut (t : FileTree) (loc : Location) (entry : FileEntry) : (t.put loc entry).mask = t.mask := by
  unfold put
  split <;> rfl

theorem getPut (t : FileTree) {loc : Location} (inside : loc ≠ []) (entry : FileEntry) :
    (t.put loc entry).get? loc = some entry := by
  rw [putInside t inside,getLookup _ inside]
  exact lookupPlaced t.entries loc entry

theorem getPutRoot (t : FileTree) (entry : FileEntry) :
    (t.put [] entry).get? [] = match entry with
      | .directory mode => some (.directory mode)
      | _ => t.get? [] := by
  cases entry <;> rfl

theorem getPutOther (t : FileTree) {loc other : Location} (entry : FileEntry) (different : other ≠ loc) :
    (t.put loc entry).get? other = t.get? other := by
  cases loc with
  | nil =>
      rw [getLookup _ different,getLookup _ different]
      cases entry <;> rfl
  | cons name loc =>
      cases other with
      | nil => rfl
      | cons first other => exact lookupPlacedOther t.entries entry different

theorem lookupFree {t : FileTree} {loc : Location} (inside : loc ≠ []) (nothing : t.get? loc = none) :
    t.entries.lookup loc = none := by
  rw [← getLookup t inside,nothing]

theorem lookupNone {t : FileTree} {loc : Location} (nothing : t.entries.lookup loc = none) :
    ∀ old ∈ t.entries, (old.1 == loc) = false := by
  intro old member
  rw [List.lookup_eq_none_iff] at nothing
  have apart := nothing old member
  rw [beq_eq_false_iff_ne]
  intro same
  simp [same] at apart

theorem putAbsent {t : FileTree} {loc : Location} (inside : loc ≠ []) (nothing : t.get? loc = none) (entry : FileEntry) :
    t.put loc entry = {t with entries := t.entries ++ [(loc,entry)]} := by
  rw [putInside t inside,placed,lookupFree inside nothing]
  rfl

theorem putPut {t : FileTree} {loc : Location} (inside : loc ≠ []) (nothing : t.get? loc = none) (old new : FileEntry) :
    (t.put loc old).put loc new = t.put loc new := by
  have absent := lookupFree inside nothing
  have apart := lookupNone absent
  have kept : t.entries.map (fun entry => if entry.1 == loc then (loc,new) else entry) = t.entries := by
    conv => rhs; rw [← List.map_id t.entries]
    apply List.map_congr_left
    intro entry member
    rw [apart entry member]
    rfl
  have present : ((t.entries ++ [(loc,old)]).lookup loc).isSome = true := by
    simp [List.lookup_append,absent]
  rw [putAbsent inside nothing,putAbsent inside nothing,putInside _ inside]
  dsimp only
  rw [placed,if_pos present,List.map_append,kept]
  simp

theorem erasePut {t : FileTree} {loc : Location} (inside : loc ≠ []) (nothing : t.get? loc = none) (entry : FileEntry) :
    (t.put loc entry).erase loc = t := by
  have apart := lookupNone (lookupFree inside nothing)
  have kept : t.entries.filter (fun entry => entry.1 != loc) = t.entries := by
    rw [List.filter_eq_self]
    intro old member
    rw [bne,apart old member]
    rfl
  rw [putAbsent inside nothing]
  simp [erase,kept]

theorem getErase (t : FileTree) {loc : Location} (inside : loc ≠ []) : (t.erase loc).get? loc = none := by
  rw [getLookup _ inside,List.lookup_eq_none_iff]
  intro old member
  have kept := (List.mem_filter.1 member).2
  simpa [bne_comm] using kept

theorem getEraseOther (t : FileTree) {loc other : Location} (different : other ≠ loc) :
    (t.erase loc).get? other = t.get? other := by
  cases other with
  | nil => rfl
  | cons name other =>
      rw [getLookup _ (by simp),getLookup _ (by simp)]
      simp only [erase]
      induction t.entries with
      | nil => rfl
      | cons old rest ih =>
          obtain ⟨place,there⟩ := old
          by_cases here : place = loc
          · subst here
            simpa [List.lookup_cons,beq_eq_false_iff_ne.2 different] using ih
          · simp only [List.filter_cons,bne_iff_ne.2 here,if_true,List.lookup_cons,ih]

/- An entry stands alone at its location when the list of the tree says nothing else of it. -/
def Stands (t : FileTree) (loc : Location) (entry : FileEntry) : Prop :=
  (loc,entry) ∈ t.entries ∧ ∀ old ∈ t.entries, old.1 = loc → old.2 = entry

theorem putStands (t : FileTree) {loc : Location} (inside : loc ≠ []) (entry : FileEntry) :
    (t.put loc entry).Stands loc entry := by
  rw [putInside t inside,Stands]
  dsimp only
  unfold placed
  split
  · rename_i present
    have known : ∃ old ∈ t.entries, old.1 = loc := by
      obtain ⟨there,found⟩ := Option.isSome_iff_exists.1 present
      obtain ⟨front,back,split,_⟩ := List.lookup_eq_some_iff.1 found
      exact ⟨(loc,there),by simp [split],rfl⟩
    obtain ⟨old,member,here⟩ := known
    refine ⟨List.mem_map.2 ⟨old,member,by simp [here]⟩,?_⟩
    intro new member same
    obtain ⟨old,_,rfl⟩ := List.mem_map.1 member
    split at same <;> simp_all
  · rename_i absent
    have apart := lookupNone (Option.not_isSome_iff_eq_none.1 absent)
    refine ⟨by simp,?_⟩
    intro old member same
    rcases List.mem_append.1 member with before | new
    · simpa [same] using apart old before
    · rw [List.mem_singleton.1 new]

theorem standsPut {t : FileTree} {loc other : Location} {entry new : FileEntry} (h : t.Stands loc entry)
    (inside : other ≠ []) (different : loc ≠ other) : (t.put other new).Stands loc entry := by
  obtain ⟨present,alone⟩ := h
  rw [putInside t inside,Stands]
  dsimp only
  unfold placed
  split
  · refine ⟨List.mem_map.2 ⟨_,present,by simp [different]⟩,?_⟩
    intro old member same
    obtain ⟨before,known,rfl⟩ := List.mem_map.1 member
    split at same
    · exact absurd same.symm different
    · rename_i elsewhere
      rw [if_neg elsewhere]
      exact alone before known same
  · refine ⟨List.mem_append_left _ present,?_⟩
    intro old member same
    rcases List.mem_append.1 member with before | added
    · exact alone old before same
    · rw [List.mem_singleton.1 added] at same
      exact absurd same.symm different

theorem standsGet {t : FileTree} {loc : Location} {entry : FileEntry} (inside : loc ≠ []) (h : t.Stands loc entry) :
    t.get? loc = some entry := by
  obtain ⟨present,alone⟩ := h
  rw [getLookup t inside]
  cases found : t.entries.lookup loc with
  | none => simpa using lookupNone found _ present
  | some there =>
      obtain ⟨front,back,split,_⟩ := List.lookup_eq_some_iff.1 found
      rw [← alone (loc,there) (by simp [split]) rfl]

theorem putSame {t : FileTree} {loc : Location} {entry : FileEntry} (inside : loc ≠ []) (h : t.Stands loc entry) :
    t.put loc entry = t := by
  obtain ⟨present,alone⟩ := h
  have known : (t.entries.lookup loc).isSome = true := by
    rw [Option.isSome_iff_ne_none]
    intro absent
    simpa using lookupNone absent _ present
  have kept : t.entries.map (fun old => if old.1 == loc then (loc,entry) else old) = t.entries := by
    conv => rhs; rw [← List.map_id t.entries]
    apply List.map_congr_left
    rintro ⟨place,there⟩ member
    by_cases here : place = loc
    · subst here
      obtain rfl : there = entry := alone _ member rfl
      simp
    · simp [here]
  rw [putInside t inside,placed,if_pos known,kept]

theorem leFoldlMax (lengths : List Nat) (start : Nat) :
    start ≤ lengths.foldl max start ∧ ∀ n ∈ lengths, n ≤ lengths.foldl max start := by
  induction lengths generalizing start with
  | nil => simp
  | cons length rest ih =>
      obtain ⟨least,each⟩ := ih (max start length)
      simp only [List.foldl_cons,List.forall_mem_cons]
      exact ⟨by omega,by omega,each⟩

theorem freshNameLength (t : FileTree) (dir : Location) :
    (t.freshName dir).length = 16 + max 6 ((t.entries.filterMap (fun entry =>
      if entry.1.dropLast == dir then entry.1.getLast?.map String.length else none)).foldl max 0 - 15) := by
  have stem : temporaryStem.length = 16 := rfl
  simp [freshName,String.length_append,stem]

theorem freshNameAbsent (t : FileTree) (dir : Location) : t.get? (dir ++ [t.freshName dir]) = none := by
  rw [getLookup t (by simp),List.lookup_eq_none_iff]
  intro old member
  rw [bne_iff_ne]
  intro same
  have used : (t.freshName dir).length ∈ t.entries.filterMap (fun entry =>
      if entry.1.dropLast == dir then entry.1.getLast?.map String.length else none) := by
    rw [List.mem_filterMap]
    exact ⟨old,member,by simp [← same]⟩
  have bound := (leFoldlMax _ 0).2 _ used
  rw [freshNameLength] at bound
  omega

end SyntaxCatalog.FileTree
