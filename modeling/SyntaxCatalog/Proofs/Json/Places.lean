import SyntaxCatalog.Proofs.Json.Splitting
import SyntaxCatalog.Proofs.Json.Writing
import SyntaxCatalog.Text.Blank

/-! Where the characters of a text stand: in a string literal or outside of them all. A literal of the grammar is
entered at its first quote and left at its last one. So the layouts can be told apart by the blanks outside only. -/
namespace SyntaxCatalog.Json
open Text (hexValue)

inductive Place where
  | outside
  | inside
  | escaping
  deriving DecidableEq, Repr

namespace Place

def next : Place → Char → Place
  | .outside, c => if c = '"' then .inside else .outside
  | .inside, c => if c = '"' then .outside else if c = '\\' then .escaping else .inside
  | .escaping, _ => .inside

def behind (p : Place) (cs : List Char) : Place := cs.foldl next p

theorem behindAppend (p : Place) (front back : List Char) : p.behind (front ++ back) = (p.behind front).behind back :=
  List.foldl_append

end Place

def places (p : Place) : List Char → List (Char × Place)
  | [] => []
  | c :: cs => (c,p) :: places (p.next c) cs

theorem placesAppend (p : Place) (front back : List Char) :
    places p (front ++ back) = places p front ++ places (p.behind front) back := by
  induction front generalizing p with
  | nil => rfl
  | cons c front ih => exact congrArg ((c,p) :: ·) (ih (p.next c))

theorem placesChars (p : Place) (cs : List Char) : (places p cs).map Prod.fst = cs := by
  induction cs generalizing p with
  | nil => rfl
  | cons c cs ih => exact congrArg (c :: ·) (ih (p.next c))

theorem markChar {p : Place} {cs : List Char} {mark : Char × Place} (h : mark ∈ places p cs) : mark.1 ∈ cs := by
  have member := List.mem_map_of_mem (f := Prod.fst) h
  rwa [placesChars] at member

def isSpace (mark : Char × Place) : Bool := mark.2 = .outside && Text.blank mark.1

def withoutSpaces (p : Place) (cs : List Char) : List Char :=
  ((places p cs).filter (fun mark => !isSpace mark)).map Prod.fst

def stripped (cs : List Char) : List Char := withoutSpaces .outside cs

theorem withoutSpacesPlaces (p : Place) (cs : List Char) :
    places p (withoutSpaces p cs) = (places p cs).filter (fun mark => !isSpace mark) := by
  induction cs generalizing p with
  | nil => rfl
  | cons c cs ih =>
      have later := ih (p.next c)
      unfold withoutSpaces at later ⊢
      cases space : isSpace (c,p) with
      | false =>
          rw [places,List.filter_cons_of_pos (by simp [space]),List.map_cons,places,later]
      | true =>
          obtain ⟨rfl,blank⟩ : p = .outside ∧ Text.blank c = true := by simpa [isSpace] using space
          have quote : c ≠ '"' := by
            rintro rfl
            cases blank
          rw [Place.next,if_neg quote] at later
          rw [places,List.filter_cons_of_neg (by simp [space]),Place.next,if_neg quote,later]

theorem strippedSpaces (cs : List Char) : ∀ mark ∈ places .outside (stripped cs), isSpace mark = false := by
  intro mark member
  rw [stripped,withoutSpacesPlaces] at member
  simpa using (List.mem_filter.1 member).2

theorem strippedAppend {front : List Char} (closed : Place.outside.behind front = .outside) (back : List Char) :
    stripped (front ++ back) = stripped front ++ stripped back := by
  unfold stripped withoutSpaces
  rw [placesAppend,closed,List.filter_append,List.map_append]

example : stripped "[ \"a\\\" b\" ,\n\"\" ]".toList = "[\"a\\\" b\",\"\"]".toList := by decide

structure Within (text : List Char) : Prop where
  stays : Place.inside.behind text = .inside
  inside : ∀ mark ∈ places .inside text, mark.2 ≠ .outside
  visible : ∀ c ∈ text, 0x20 ≤ c.toNat

theorem withinAppend {front back : List Char} (first : Within front) (second : Within back) : Within (front ++ back) where
  stays := by rw [Place.behindAppend,first.stays,second.stays]
  inside := by
    rw [placesAppend,first.stays]
    exact List.forall_mem_append.2 ⟨first.inside,second.inside⟩
  visible := List.forall_mem_append.2 ⟨first.visible,second.visible⟩

theorem withinPlain {c : Char} (quote : c ≠ '"') (escape : c ≠ '\\') (visible : 0x20 ≤ c.toNat) : Within [c] where
  stays := by simp [Place.behind,Place.next,quote,escape]
  inside := by simp [places]
  visible := by simpa using visible

theorem withinEscaped {letter : Char} (visible : 0x20 ≤ letter.toNat) : Within ['\\',letter] where
  stays := by simp [Place.behind,Place.next]
  inside := by simp [places,Place.next]
  visible := by simp [visible]

theorem hexDigitPlain {c : Char} {n : Nat} (h : hexValue c = some n) : c ≠ '"' ∧ c ≠ '\\' ∧ 0x20 ≤ c.toNat := by
  have bounds : '0' ≤ c ∧ c ≤ '9' ∨ 'a' ≤ c ∧ c ≤ 'f' ∨ 'A' ≤ c ∧ c ≤ 'F' := by
    unfold hexValue at h
    split at h
    · exact .inl ‹_›
    · split at h
      · exact .inr (.inl ‹_›)
      · split at h
        · exact .inr (.inr ‹_›)
        · cases h
  refine ⟨?_,?_,?_⟩
  · rintro rfl
    revert bounds
    decide
  · rintro rfl
    revert bounds
    decide
  · have low : ∀ d : Char, 0x20 ≤ d.toNat → d ≤ c → 0x20 ≤ c.toNat := fun d visible above => Nat.le_trans visible above
    rcases bounds with ⟨above,_⟩ | ⟨above,_⟩ | ⟨above,_⟩
    · exact low _ (by decide) above
    · exact low _ (by decide) above
    · exact low _ (by decide) above

theorem withinDigit {c : Char} {n : Nat} (h : hexValue c = some n) : Within [c] :=
  withinPlain (hexDigitPlain h).1 (hexDigitPlain h).2.1 (hexDigitPlain h).2.2

theorem withinQuad {n : Nat} {digits : List Char} (four : Quad n digits) : Within digits := by
  cases four with
  | digits first second third fourth =>
      have front := withinAppend (withinDigit first) (withinDigit second)
      have back := withinAppend (withinDigit third) (withinDigit fourth)
      exact withinAppend front back

theorem shortVisible {letter c : Char} (h : shortEscape letter = some c) : 0x20 ≤ letter.toNat := by
  unfold shortEscape at h
  split at h
  case h_9 => cases h
  all_goals decide

theorem withinMark {text : List Char} (h : Mark text) : Within text := by
  cases h with
  | plain quote escape visible => exact withinPlain quote escape visible
  | short named => exact withinEscaped (shortVisible named)
  | number four =>
      have lead : Within ['\\','u'] := withinEscaped (by decide)
      exact withinAppend lead (withinQuad four)

theorem withinMarks {text : List Char} (h : Marks text) : Within text := by
  induction h with
  | nil => exact ⟨rfl,nofun,nofun⟩
  | cons head _ ih => exact withinAppend (withinMark head) ih

/- A text that ends outside of its literals, and what is left of it without its spaces. Its control characters are
line feeds outside. -/
structure Tightens (text plain : List Char) : Prop where
  closed : Place.outside.behind text = .outside
  tight : stripped text = plain
  feeds : ∀ mark ∈ places .outside text, mark.1.toNat < 0x20 → mark = ('\n',.outside)

theorem tightensAppend {front back plain other : List Char} (first : Tightens front plain) (second : Tightens back other) :
    Tightens (front ++ back) (plain ++ other) where
  closed := by rw [Place.behindAppend,first.closed,second.closed]
  tight := by rw [strippedAppend first.closed,first.tight,second.tight]
  feeds := by
    rw [placesAppend,first.closed]
    exact List.forall_mem_append.2 ⟨first.feeds,second.feeds⟩

theorem tightensSpaces {text plain : List Char} (h : Tightens text plain) :
    ∀ mark ∈ places .outside plain, isSpace mark = false := by
  rw [← h.tight]
  exact strippedSpaces text

theorem tightensVisible {text plain : List Char} (h : Tightens text plain) : ∀ c ∈ plain, 0x20 ≤ c.toNat := by
  rw [← h.tight]
  intro c member
  obtain ⟨mark,kept,rfl⟩ := List.mem_map.1 member
  obtain ⟨listed,solid⟩ := List.mem_filter.1 kept
  by_contra low
  rw [h.feeds mark listed (Nat.not_le.1 low)] at solid
  cases solid

theorem tightensNil : Tightens [] [] := ⟨rfl,rfl,nofun⟩

theorem tightensOwn {text : List Char} (closed : Place.outside.behind text = .outside)
    (solid : ∀ mark ∈ places .outside text, isSpace mark = false) (visible : ∀ c ∈ text, 0x20 ≤ c.toNat) :
    Tightens text text where
  closed := closed
  tight := by
    have kept : (places .outside text).filter (fun mark => !isSpace mark) = places .outside text :=
      List.filter_eq_self.2 (fun mark member => by simp [solid mark member])
    rw [stripped,withoutSpaces,kept,placesChars]
  feeds mark member low := absurd low (Nat.not_lt.2 (visible mark.1 (markChar member)))

def signs : List Char := ['{','}','[',']',':',',']

theorem tightensSign {c : Char} (sign : c ∈ signs) : Tightens [c] [c] := by
  have plain : signs.all (fun c => c ≠ '"' && !Text.blank c && 0x20 ≤ c.toNat) = true := by decide
  have here := List.all_eq_true.1 plain c sign
  simp only [Bool.and_eq_true,decide_eq_true_eq,Bool.not_eq_true'] at here
  obtain ⟨⟨quote,solid⟩,visible⟩ := here
  exact tightensOwn (by simp [Place.behind,Place.next,quote]) (by simp [places,isSpace,solid]) (by simpa using visible)

theorem tightensQuoted {body : List Char} (marks : Marks body) : Tightens ('"' :: body ++ ['"']) ('"' :: body ++ ['"']) := by
  have within := withinMarks marks
  have opened : Place.outside.behind ['"'] = .inside := rfl
  rw [← List.singleton_append,List.append_assoc]
  refine tightensOwn ?_ ?_ ?_
  · rw [Place.behindAppend,opened,Place.behindAppend,within.stays]
    rfl
  · rw [placesAppend,opened,placesAppend,within.stays]
    have first : ∀ mark ∈ places .outside ['"'], isSpace mark = false := by decide
    have last : ∀ mark ∈ places .inside ['"'], isSpace mark = false := by decide
    have middle : ∀ mark ∈ places .inside body, isSpace mark = false := by
      intro mark member
      simp [isSpace,within.inside mark member]
    exact List.forall_mem_append.2 ⟨first,List.forall_mem_append.2 ⟨middle,last⟩⟩
  · have quote : ∀ c ∈ ['"'], 0x20 ≤ c.toNat := by simp
    exact List.forall_mem_append.2 ⟨quote,List.forall_mem_append.2 ⟨within.visible,quote⟩⟩

theorem tightensString (s : String) : Tightens (writtenString s) (writtenString s) :=
  tightensQuoted (spelledMarks (spelledEscaped s.toList))

theorem tightensSpace : Tightens [' '] [] := ⟨rfl,rfl,by simp [places]⟩

theorem tightensFeed : Tightens ['\n'] [] := ⟨rfl,rfl,by simp [places]⟩

theorem tightensIndent (width : Nat) : Tightens (List.replicate width ' ') [] := by
  induction width with
  | zero => exact tightensNil
  | succ width ih => exact tightensAppend tightensSpace ih

variable (layout : Layout)

theorem tightensGap (depth : Nat) : Tightens (layout.gap depth) (Layout.compact.gap depth) := by
  cases layout with
  | compact => exact tightensNil
  | pretty => exact tightensAppend tightensFeed (tightensIndent (2 * depth))

theorem tightensColon : Tightens layout.colon Layout.compact.colon := by
  have colon : Tightens [':'] [':'] := tightensSign (by decide)
  cases layout with
  | compact => exact colon
  | pretty => exact tightensAppend colon tightensSpace

section
variable {α : Type} {write plain : α → List Char} (depth : Nat)

theorem tightensItems {as : List α} (each : ∀ a ∈ as, Tightens (write a) (plain a)) :
    Tightens ((as.map write).flatMap (fun item => ',' :: layout.gap depth ++ item))
      ((as.map plain).flatMap (fun item => ',' :: Layout.compact.gap depth ++ item)) := by
  induction as with
  | nil => exact tightensNil
  | cons a as ih =>
      obtain ⟨first,others⟩ := List.forall_mem_cons.1 each
      have comma : Tightens [','] [','] := tightensSign (by decide)
      exact tightensAppend (tightensAppend (tightensAppend comma (tightensGap layout depth)) first) (ih others)

theorem tightensEnclosed {opener closer : Char} (left : opener ∈ signs) (right : closer ∈ signs)
    {as : List α} (each : ∀ a ∈ as, Tightens (write a) (plain a)) :
    Tightens (layout.enclosed depth opener closer (as.map write))
      (Layout.compact.enclosed depth opener closer (as.map plain)) := by
  cases as with
  | nil => exact tightensAppend (tightensSign left) (tightensSign right)
  | cons a as =>
      obtain ⟨first,others⟩ := List.forall_mem_cons.1 each
      have front := tightensAppend (tightensAppend (tightensSign left) (tightensGap layout (depth + 1))) first
      have items := tightensItems layout (depth + 1) others
      exact tightensAppend (tightensAppend (tightensAppend front items) (tightensGap layout depth)) (tightensSign right)

theorem tightensObject {as : List α} (each : ∀ a ∈ as, Tightens (write a) (plain a)) :
    Tightens (layout.object depth (as.map write)) (Layout.compact.object depth (as.map plain)) :=
  tightensEnclosed layout depth (by decide) (by decide) each

theorem tightensStrings (names : List String) : Tightens (layout.strings depth names) (Layout.compact.strings depth names) :=
  tightensEnclosed layout depth (by decide) (by decide) (fun name _ => tightensString name)

end

theorem tightensMember (key : String) {value plain : List Char} (here : Tightens value plain) :
    Tightens (layout.member key value) (Layout.compact.member key plain) :=
  tightensAppend (tightensAppend (tightensString key) (tightensColon layout)) here

theorem enclosedLast (depth : Nat) (opener closer : Char) (items : List (List Char)) :
    (layout.enclosed depth opener closer items).getLast? = some closer := by
  cases items with
  | nil => rfl
  | cons item items => exact List.getLast?_concat

end SyntaxCatalog.Json
