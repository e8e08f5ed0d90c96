import SyntaxCatalog.Proofs.Json.Taking

/-! What is refused after a good beginning. The items before the flaw are read as they would be in a whole
text, so a flaw needs to be known only at the place where it stands. -/
namespace SyntaxCatalog.Json

inductive Begun {α : Type} (item : α → List Char → Prop) : Bool → List α → List Char → Prop where
  | start : Begun item true [] []
  | behind {as : List α} {body : List Char} (series : Series item as body) : Begun item false as (body ++ [','])

section
variable {α : Type} {item : Text.Reader Fault α} {first : Bool} {cs rest : List Char} {e : Fault}

theorem elementsRefused (refused : nextElement first cs = .error e) : elements item first cs = .error e := by
  rw [elements]
  split
  all_goals simp_all

theorem elementsUnread {middle : List Char} (next : nextElement first cs = .ok (true,middle))
    (unread : item.run middle = .error e) : elements item first cs = .error e := by
  rw [elements]
  split
  · simp_all
  · simp_all
  · rename_i found
    rw [next] at found
    cases found
    split
    · simp_all
    · simp_all

theorem nextElementComma {lead before : List Char} (h : Lead false lead) (left : Blanks before) (rest : List Char) :
    ∃ e, nextElement false (lead ++ before ++ ']' :: rest) = .error e := by
  cases h with
  | comma around =>
      have comma : isBlank ',' = false := rfl
      have close : isBlank ']' = false := rfl
      exact ⟨_,by simp [nextElement,skipBlankBlanks around,skipBlankSolid comma,skipBlankBlanks left,skipBlankSolid close]; rfl⟩

theorem elementsBegun {as : List α} {front : List Char} (h : Begun (Reads item) first as front) :
    ∃ lead, Lead first lead ∧ ∀ rest, elements item true (front ++ rest) =
      (elements item first (lead ++ rest)).map (fun read => (as ++ read.1,read.2)) := by
  cases h with
  | start =>
      refine ⟨[],.start,fun rest => ?_⟩
      cases elements item true ([] ++ rest) <;> rfl
  | behind series =>
      obtain ⟨blank,only,through⟩ := elementsThrough series .start
      refine ⟨blank ++ [','],.comma only,fun rest => ?_⟩
      simpa only [List.nil_append,List.append_assoc,List.cons_append] using through (.inl rfl) rest

theorem readListOpen {blank : List Char} (left : Blanks blank) (cs : List Char) :
    readList item (blank ++ '[' :: cs) = elements item true cs := by
  have solid : isBlank '[' = false := rfl
  simp [readList,skipBlankBlanks left,skipBlankSolid solid]

end

section
variable {σ α : Type} {field : σ → String → Field σ} {first : Bool} {state : σ} {cs : List Char} {e : Fault}

theorem membersRefused (refused : nextKey first cs = .error e) : members field first state cs = .error e := by
  rw [members]
  split
  all_goals simp_all

theorem membersUnread {key : String} {reader : Text.Reader Fault σ} {afterKey afterColon : List Char}
    (found : nextKey first cs = .ok (some key,afterKey)) (wanted : field state key = .value reader)
    (sep : colon afterKey = .ok afterColon) (unread : reader.run afterColon = .error e) :
    members field first state cs = .error e := by
  rw [members]
  split
  · simp_all
  · simp_all
  · rename_i named
    rw [found] at named
    cases named
    simp only [wanted]
    split
    · simp_all
    · rename_i parted
      rw [sep] at parted
      cases parted
      split
      · simp_all
      · simp_all

theorem membersForeign {key : String} {afterKey : List Char} {cause : Mismatch}
    (found : nextKey first cs = .ok (some key,afterKey)) (unwanted : field state key = .refuse cause) :
    members field first state cs = .error (refusedKey cause afterKey) := by
  rw [members]
  split
  all_goals simp_all

theorem nextKeyComma {lead before : List Char} (h : Lead false lead) (left : Blanks before) (rest : List Char) :
    ∃ e, nextKey false (lead ++ before ++ '}' :: rest) = .error e := by
  cases h with
  | comma around =>
      have comma : isBlank ',' = false := rfl
      have close : isBlank '}' = false := rfl
      exact ⟨_,by simp [nextKey,skipBlankBlanks around,skipBlankSolid comma,skipBlankBlanks left,skipBlankSolid close]; rfl⟩

theorem membersBegun {value : α → List Char → Prop} {goes : σ → String → α → σ → Prop}
    (enters : Enters field value goes) {pairs : List (String × α)} {front : List Char}
    (h : Begun (Member value) first pairs front) {last : σ} (course : Course goes state pairs last) :
    ∃ lead, Lead first lead ∧ ∀ rest, members field true state (front ++ rest) = members field first last (lead ++ rest) := by
  cases h with
  | start =>
      cases course
      exact ⟨[],.start,fun rest => rfl⟩
  | behind series =>
      obtain ⟨blank,only,through⟩ := membersThrough enters series course .start
      refine ⟨blank ++ [','],.comma only,fun rest => ?_⟩
      simpa only [List.nil_append,List.append_assoc,List.cons_append] using through (.inl rfl) rest

theorem readObjectOpen {blank : List Char} (left : Blanks blank) (expected : String) (start : σ) (cs : List Char) :
    readObject expected field start (blank ++ '{' :: cs) = members field true start cs := by
  have solid : isBlank '{' = false := rfl
  simp [readObject,skipBlankBlanks left,skipBlankSolid solid]

end

theorem parseRefused {α : Type} {reader : Text.Reader Fault α} {text : String} {e : Fault}
    (refused : reader.run text.toList = .error e) : ∃ error, parse reader text = .error error := by
  unfold parse
  rw [refused]
  exact ⟨_,rfl⟩

theorem parseTrailing {α : Type} {reader : Text.Reader Fault α} {text : String} {a : α} {rest : List Char}
    (read : reader.run text.toList = .ok (a,rest)) (more : ¬ Blanks rest) : ∃ error, parse reader text = .error error := by
  cases parsed : parse reader text with
  | error error => exact ⟨error,rfl⟩
  | ok b =>
      obtain ⟨last,again,nothing⟩ := parseRuns parsed
      cases read.symm.trans again
      obtain ⟨blank,only,same⟩ := skipBlankTakes nothing
      rw [List.append_nil] at same
      exact absurd (same ▸ only) more

end SyntaxCatalog.Json
