import SyntaxCatalog.Catalog.Json
import SyntaxCatalog.Proofs.Catalog.Insertion
import SyntaxCatalog.Proofs.Json.Refusing
import SyntaxCatalog.Proofs.Json.Writing

/-! The texts of catalogs: which are accepted, and as which catalog. An object of lists of strings stands for
its members entered one after another, and nothing else is accepted. -/
namespace SyntaxCatalog.Catalog
open Json

def Entry.pair (entry : Entry) : String × List String := (entry.node,entry.parameters)

def CatalogText (entries : List Entry) : List Char → Prop := ObjectText (ListText Literal) (entries.map Entry.pair)

def goes (c : Catalog) (node : String) (parameters : List String) (next : Catalog) : Prop :=
  next = (c.insert node parameters).2

theorem courseInsertAll (c : Catalog) (entries : List Entry) :
    Course goes c (entries.map Entry.pair) (c.insertAll entries) := by
  induction entries generalizing c with
  | nil => exact .done c
  | cons entry rest ih =>
      have here : goes c entry.node entry.parameters (c.insert entry.node entry.parameters).2 := rfl
      exact .member here (ih (c.insert entry.node entry.parameters).2)

theorem courseEntries {c last : Catalog} {pairs : List (String × List String)} (h : Course goes c pairs last) :
    ∃ entries, pairs = entries.map Entry.pair ∧ last = c.insertAll entries := by
  induction h with
  | done c => exact ⟨[],rfl,rfl⟩
  | @member c next last node parameters pairs here _ ih =>
      obtain ⟨entries,rfl,rfl⟩ := ih
      cases here
      exact ⟨⟨node,parameters⟩ :: entries,rfl,rfl⟩

theorem readerEnters : Enters (fun (c : Catalog) node =>
    .value ((list (string "a string")).map (fun names => (c.insert node names).2))) (ListText Literal) goes := by
  intro c next node parameters text step written
  have names : ListText (Reads (string "a string")) parameters text :=
    bracketedImp (fun _ _ literal => stringReads _ literal) written
  subst step
  exact ⟨_,rfl,mapReads _ (listReads names)⟩

theorem readerLeaves : Leaves (fun (c : Catalog) node =>
    .value ((list (string "a string")).map (fun names => (c.insert node names).2))) (ListText Literal) goes := by
  intro c node reader wanted
  cases wanted
  exact mapTakes _ (listTakes (stringTakes _))

theorem readerReads {entries : List Entry} {text : List Char} (h : CatalogText entries text) :
    Reads reader (empty.insertAll entries) text :=
  objectReads readerEnters _ h (courseInsertAll empty entries)

theorem readerTakes : Takes reader (fun c text => ∃ entries, CatalogText entries text ∧ c = empty.insertAll entries) := by
  refine takesImp (objectTakes readerLeaves _ empty) ?_
  rintro c text ⟨pairs,written,course⟩
  obtain ⟨entries,rfl,rfl⟩ := courseEntries course
  exact ⟨entries,written,rfl⟩

theorem ofJsonIff (text : String) (c : Catalog) :
    ofJson text = .ok c ↔ ∃ entries, Document CatalogText entries text ∧ c = empty.insertAll entries := by
  have whole := parseDocument readerTakes (fun c body ⟨_,written,same⟩ => same ▸ readerReads written) text c
  refine whole.trans ⟨?_,?_⟩
  · rintro ⟨before,body,after,left,⟨entries,written,same⟩,right,split⟩
    exact ⟨entries,⟨before,body,after,left,written,right,split⟩,same⟩
  · rintro ⟨entries,⟨before,body,after,left,written,right,split⟩,same⟩
    exact ⟨before,body,after,left,⟨entries,written,same⟩,right,split⟩

inductive ListFlaw : List Char → Prop where
  | kind {c : Char} {rest : List Char} (solid : isBlank c = false) (other : c ≠ '[') : ListFlaw (c :: rest)
  | item {first : Bool} {names : List String} {front before rest : List Char} {c : Char}
      (begun : Begun Literal first names front) (left : Blanks before) (solid : isBlank c = false) (other : c ≠ '"')
      (open_ : c ≠ ']') : ListFlaw ('[' :: front ++ before ++ c :: rest)
  | comma {names : List String} {front before rest : List Char} (begun : Begun Literal false names front)
      (left : Blanks before) : ListFlaw ('[' :: front ++ before ++ ']' :: rest)

inductive Flaw : List Char → Prop where
  | kind {c : Char} {rest : List Char} (solid : isBlank c = false) (other : c ≠ '{') : Flaw (c :: rest)
  | value {first : Bool} {entries : List Entry} {key : String} {front before name middle after flaw : List Char}
      (begun : Begun (Member (ListText Literal)) first (entries.map Entry.pair) front) (left : Blanks before)
      (literal : Literal key name) (beforeColon : Blanks middle) (afterColon : Blanks after) (inside : ListFlaw flaw) :
      Flaw ('{' :: front ++ before ++ name ++ middle ++ ':' :: after ++ flaw)
  | comma {entries : List Entry} {front before rest : List Char}
      (begun : Begun (Member (ListText Literal)) false (entries.map Entry.pair) front) (left : Blanks before) :
      Flaw ('{' :: front ++ before ++ '}' :: rest)
  | trailing {entries : List Entry} {body rest : List Char} (whole : CatalogText entries body) (more : ¬ Blanks rest) :
      Flaw (body ++ rest)

theorem listFlawRefused {blank flaw : List Char} (left : Blanks blank) (h : ListFlaw flaw) :
    ∃ e, readList (string "a string") (blank ++ flaw) = .error e := by
  have begunReads {first : Bool} {names : List String} {front : List Char} (begun : Begun Literal first names front) :
      Begun (Reads (string "a string")) first names front := by
    cases begun with
    | start => exact .start
    | behind series => exact .behind (seriesImp (fun _ _ => stringReads _) series)
  cases h with
  | kind solid other => exact ⟨_,by simp [readList,skipBlankBlanks left,skipBlankSolid solid,other]; rfl⟩
  | @item first names front before rest c begun around solid other open_ =>
      obtain ⟨lead,leads,through⟩ := elementsBegun (begunReads begun)
      have next := nextElementRead leads around solid open_ rest
      have unread : (string "a string").run (c :: rest) = .error (unexpected "a string" (c :: rest)) := by
        show readString "a string" (c :: rest) = _
        simp [readString,skipBlankSolid solid,other]
      simp only [List.append_assoc,List.cons_append] at next ⊢
      rw [readListOpen left,through,elementsUnread next unread]
      exact ⟨_,rfl⟩
  | @comma names front before rest begun around =>
      obtain ⟨lead,leads,through⟩ := elementsBegun (begunReads begun)
      obtain ⟨e,refused⟩ := nextElementComma leads around rest
      simp only [List.append_assoc,List.cons_append] at refused ⊢
      rw [readListOpen left,through,elementsRefused refused]
      exact ⟨_,rfl⟩

theorem flawRefused {before flaw : List Char} {text : String} (left : Blanks before) (h : Flaw flaw)
    (split : text.toList = before ++ flaw) : ∃ e, ofJson text = .error e := by
  cases h with
  | @kind c rest solid other =>
      have refused : reader.run text.toList =
          .error (unexpected "a map of node names to lists of parameter names" (c :: rest)) := by
        rw [split]
        simp only [reader,object,readObject,skipBlankBlanks left,skipBlankSolid solid,if_neg other]
      exact parseRefused refused
  | @value first entries key front around name middle after flaw begun left' literal beforeColon afterColon inside =>
      obtain ⟨lead,leads,through⟩ := membersBegun readerEnters begun (courseInsertAll empty entries)
      have found := nextKeyRead leads left' literal (middle ++ ':' :: (after ++ flaw))
      have sep := colonRead beforeColon (after ++ flaw)
      obtain ⟨e,unread⟩ := listFlawRefused afterColon inside
      have unread : ((list (string "a string")).map
          (fun names => ((empty.insertAll entries).insert key names).2)).run (after ++ flaw) = .error e := by
        simp only [Text.Reader.map,list,unread]
      have refused : reader.run text.toList = .error e := by
        rw [split]
        show readObject _ _ _ _ = _
        simp only [List.append_assoc,List.cons_append] at found ⊢
        rw [readObjectOpen left,through]
        exact membersUnread found rfl sep unread
      exact parseRefused refused
  | @comma entries front around rest begun left' =>
      obtain ⟨lead,leads,through⟩ := membersBegun readerEnters begun (courseInsertAll empty entries)
      obtain ⟨e,refused⟩ := nextKeyComma leads left' rest
      have refused : reader.run text.toList = .error e := by
        rw [split]
        show readObject _ _ _ _ = _
        simp only [List.append_assoc,List.cons_append] at refused ⊢
        rw [readObjectOpen left,through]
        exact membersRefused refused
      exact parseRefused refused
  | @trailing entries body rest whole more =>
      have read := readObjectRead readerEnters "a map of node names to lists of parameter names" whole
        (courseInsertAll empty entries) left rest
      rw [List.append_assoc,← split] at read
      exact parseTrailing read more

/- A text is accepted just in case it is an object of lists of strings, and its members are entered in their
order: the first of a key decides the place and the last of a key the parameters. Flaws are refused. -/
theorem catalogAccepted (text : String) :
    (∀ c, ofJson text = .ok c ↔ ∃ entries, Document CatalogText entries text ∧ c = empty.insertAll entries) ∧
    (∀ c entries, Document CatalogText entries text → ofJson text = .ok c →
      c.nodes = (entries.map Entry.node).eraseDups ∧ ∀ name,
        c.get? name = (entries.reverse.find? (fun entry => entry.node == name)).map Entry.parameters) ∧
    (∀ before flaw, Blanks before → Flaw flaw → text.toList = before ++ flaw → ∃ e, ofJson text = .error e) := by
  refine ⟨ofJsonIff text,?_,fun before flaw left h split => flawRefused left h split⟩
  intro c entries written read
  have whole := (ofJsonIff text _).2 ⟨entries,written,rfl⟩
  cases read.symm.trans whole
  exact ⟨insertAllNodes entries,insertAllLast entries⟩

def spellingsText : String := "\x7b\"a\":[\"x\"],\"b\":[],\"\\u0061\":[\"y\"]\x7d"

def flawedText : String := "\x7b\"a\":[\"x\"],\"b\":[null]\x7d"

theorem plainMember : Member (ListText Literal) ("a",["x"]) "\"a\":[\"x\"]".toList :=
  .pair (literalWritten "a") blanksNil blanksNil (stringsWritten .compact 1 ["x"])

theorem spellingsDocument : Document CatalogText [⟨"a",["x"]⟩,⟨"b",[]⟩,⟨"a",["y"]⟩] spellingsText := by
  have four : Quad 97 ['0','0','6','1'] := .digits (w := 0) (x := 0) (y := 6) (z := 1) rfl rfl rfl rfl
  have spelled : Spelled "a".toList ("\\u0061".toList ++ []) := .cons (.number four rfl rfl) .nil
  have named : Literal "a" "\"\\u0061\"".toList := .quoted spelled
  have second : Member (ListText Literal) ("b",[]) "\"b\":[]".toList :=
    .pair (literalWritten "b") blanksNil blanksNil (stringsWritten .compact 1 [])
  have third : Member (ListText Literal) ("a",["y"]) "\"\\u0061\":[\"y\"]".toList :=
    .pair named blanksNil blanksNil (stringsWritten .compact 1 ["y"])
  have members :=
    Series.more blanksNil plainMember blanksNil (.more blanksNil second blanksNil (.one blanksNil third blanksNil))
  exact ⟨[],_,[],blanksNil,.filled members,blanksNil,rfl⟩

theorem spellingsReplace :
    (∃ c, ofJson spellingsText = .ok c ∧ c.nodes = ["a","b"] ∧ c.get? "a" = some ["y"]) ∧
      ∃ e, ofJson flawedText = .error e := by
  constructor
  · obtain ⟨accepted,answers,_⟩ := catalogAccepted spellingsText
    have read := (accepted _).2 ⟨_,spellingsDocument,rfl⟩
    obtain ⟨places,last⟩ := answers _ _ spellingsDocument read
    exact ⟨_,read,places,last "a"⟩
  · have front : Begun (Member (ListText Literal)) false ([⟨"a",["x"]⟩].map Entry.pair) "\"a\":[\"x\"],".toList :=
      .behind (.one blanksNil plainMember blanksNil)
    have item : ListFlaw "[null]\x7d".toList := .item .start blanksNil (c := 'n') rfl (by decide) (by decide)
    have flaw := Flaw.value front blanksNil (literalWritten "b") blanksNil blanksNil item
    exact (catalogAccepted flawedText).2.2 [] _ blanksNil flaw rfl

end SyntaxCatalog.Catalog
