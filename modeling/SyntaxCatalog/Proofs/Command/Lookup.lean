import SyntaxCatalog.Proofs.Catalog.Representation
import SyntaxCatalog.Proofs.Command.Printing
import SyntaxCatalog.Proofs.Text.Lines

/-! What a lookup prints. Every parameter name is followed by a line feed, and nothing in a name is escaped; so the
names come back from the lines just in case none of them holds a line feed of its own. -/
namespace SyntaxCatalog
open FileTree Program

namespace Command

def printedNames (names : List String) : String := String.join (names.map (· ++ "\n"))

def printedLines (stdout : String) : List String := (Text.lines stdout.toList).map String.ofList

theorem printedStacked (names : List String) : (printedNames names).toList = Text.stacked (names.map String.toList) := by
  simp [printedNames,Text.stacked,String.toList_join,List.flatMap_map]

theorem printedEach (names : List String) : printedLines (printedNames names) =
    names.flatMap (fun name => (Text.pieces '\n' name.toList).map String.ofList) := by
  rw [printedLines,printedStacked,Text.linesStacked,List.flatMap_map,List.map_flatMap]

theorem printedOwn {names : List String} :
    printedLines (printedNames names) = names ↔ ∀ name ∈ names, '\n' ∉ name.toList := by
  have lines : Text.lines (Text.stacked (names.map String.toList)) = names.map String.toList ↔
      ∀ text ∈ names.map String.toList, '\n' ∉ text := Text.linesIff
  rw [List.forall_mem_map] at lines
  rw [← lines,printedLines,printedStacked]
  constructor
  · intro same
    conv => rhs; rw [← same]
    simp
  · intro same
    rw [same]
    simp

theorem printedCount {names : List String} :
    (printedLines (printedNames names)).length = names.length ↔ ∀ name ∈ names, '\n' ∉ name.toList := by
  constructor
  · intro count
    rw [printedLines,printedStacked,List.length_map] at count
    have whole : ∀ text ∈ names.map String.toList, '\n' ∉ text :=
      Text.wholeOfCount (by rw [count,List.length_map])
    exact fun name member => whole _ (List.mem_map_of_mem member)
  · intro whole
    rw [printedOwn.2 whole]

section
variable {deniable : Request.Deniable} {base : Location} {t : FileTree} {map : Path} {node : String}

theorem lookupRuns {o : Outcome Finish} (h : (runLookup map node).Runs deniable base t o)
    (done : o.value.result = .ok ()) :
    ∃ text c names, t.Holds base map text ∧ Catalog.ofJson text = .ok c ∧ c.require node = .ok names ∧
      o.value.stdout = printedNames names := by
  obtain ⟨found,rest,finding,goes,rfl⟩ := runsBind h
  obtain ⟨read,reading,onward⟩ := runsAndThen finding
  cases value : found.value with
  | error fault =>
      rw [value] at goes
      cases goes
      cases done
  | ok printed =>
      rw [value] at goes onward
      cases goes
      obtain ⟨_,⟨_,failed⟩ | ⟨_,_,_,_,failed⟩ | ⟨text,c,holds,accepted,ok⟩⟩ := readJsonRuns reading
      · rw [failed] at onward
        cases onward.1
      · rw [failed] at onward
        cases onward.1
      · rw [ok] at onward
        obtain ⟨last,ending,same,_⟩ := onward
        cases ending
        cases required : c.require node with
        | error fault =>
            rw [required] at same
            cases same
        | ok names =>
            rw [required] at same
            cases same
            exact ⟨text,c,names,holds,accepted,required,rfl⟩

theorem lookupRun {text : String} {c : Catalog} {names : List String} (holds : t.Holds base map text)
    (accepted : Catalog.ofJson text = .ok c) (required : c.require node = .ok names) :
    (runLookup map node).run base t = ⟨⟨printedNames names,.ok ()⟩,[.readingCatalog map],t⟩ := by
  have read : (readCatalog map).run base t = ⟨.ok c,[.readingCatalog map],t⟩ := readJsonRun holds accepted
  refine printingDone (runOnward read ?_)
  rw [required]
  rfl

/- A lookup that succeeds prints the names of the node, each cut at its own line feeds. The lines are the names, and
as many, just in case no name holds a line feed; then no other list of such names prints the same. -/
theorem lookupLines {o : Outcome Finish} (h : (runLookup map node).Runs deniable base t o)
    (done : o.value.result = .ok ()) :
    ∃ text c names, t.Holds base map text ∧ Catalog.ofJson text = .ok c ∧ c.require node = .ok names ∧
      printedLines o.value.stdout = names.flatMap (fun name => (Text.pieces '\n' name.toList).map String.ofList) ∧
      (printedLines o.value.stdout = names ↔ ∀ name ∈ names, '\n' ∉ name.toList) ∧
      ((printedLines o.value.stdout).length = names.length ↔ ∀ name ∈ names, '\n' ∉ name.toList) ∧
      ((∀ name ∈ names, '\n' ∉ name.toList) → ∀ other, (∀ name ∈ other, '\n' ∉ name.toList) →
        printedNames other = o.value.stdout → other = names) := by
  obtain ⟨text,c,names,holds,accepted,required,printed⟩ := lookupRuns h done
  rw [printed]
  refine ⟨text,c,names,holds,accepted,required,printedEach names,printedOwn,printedCount,?_⟩
  intro whole other wholeOther same
  rw [← printedOwn.2 wholeOther,same,printedOwn.2 whole]

end

def sole (names : List String) : Catalog := Catalog.empty.insertAll [⟨"Node",names⟩]

def soleTree (names : List String) : FileTree :=
  .holding [(["map"],.file ((sole names).render .compact).toUTF8 0o644)]

theorem soleHolds (names : List String) : (soleTree names).Holds [] ⟨"map"⟩ ((sole names).render .compact) := holdsText rfl

theorem soleRequire (names : List String) : (Catalog.empty.insertAll (sole names).toList).require "Node" = .ok names := by
  have indexed : (sole names).Indexed := Catalog.insertAllIndexed Catalog.emptyIndexed _
  rw [Catalog.requireOk,Catalog.ownGet indexed,sole,Catalog.insertAllLast]
  rfl

theorem soleRun (names : List String) : (runLookup ⟨"map"⟩ "Node").run [] (soleTree names) =
    ⟨⟨printedNames names,.ok ()⟩,[.readingCatalog ⟨"map"⟩],soleTree names⟩ :=
  lookupRun (soleHolds names) (Catalog.renderRead (sole names) .compact) (soleRequire names)

def rareNames : List String := ["","\r\x00","\t"]

theorem rareNamesPrinted :
    ((runLookup ⟨"map"⟩ "Node").run [] (soleTree rareNames)).value.result = .ok () ∧
      printedLines ((runLookup ⟨"map"⟩ "Node").run [] (soleTree rareNames)).value.stdout = rareNames := by
  have done : ((runLookup ⟨"map"⟩ "Node").run [] (soleTree rareNames)).value.result = .ok () := by rw [soleRun]
  obtain ⟨text,c,names,holds,accepted,required,_,own,_⟩ :=
    lookupLines (runsRun .none [] (runLookup ⟨"map"⟩ "Node") (soleTree rareNames)) done
  cases holdsUnique holds (soleHolds rareNames)
  cases accepted.symm.trans (Catalog.renderRead (sole rareNames) .compact)
  cases required.symm.trans (soleRequire rareNames)
  exact ⟨done,own.2 (by decide)⟩

/- A line feed in a name: one name is printed on two lines, as the two names of another list are. -/
theorem feedSplitsName :
    let split := (runLookup ⟨"map"⟩ "Node").run [] (soleTree ["a\nb"])
    let apart := (runLookup ⟨"map"⟩ "Node").run [] (soleTree ["a","b"])
    (∃ c, (soleTree ["a\nb"]).parsed [] Catalog.ofJson ⟨"map"⟩ = .ok c ∧ c.require "Node" = .ok ["a\nb"]) ∧
      split.value.result = .ok () ∧ printedLines split.value.stdout = ["a","b"] ∧
      apart.value.result = .ok () ∧ split.value.stdout = apart.value.stdout := by
  have read : (soleTree ["a\nb"]).parsed [] Catalog.ofJson ⟨"map"⟩ = .ok (Catalog.empty.insertAll (sole ["a\nb"]).toList) :=
    parsedOk.2 ⟨_,textHolds.2 (soleHolds ["a\nb"]),Catalog.renderRead (sole ["a\nb"]) .compact⟩
  rw [soleRun,soleRun]
  refine ⟨⟨_,read,soleRequire ["a\nb"]⟩,rfl,?_,rfl,rfl⟩
  rw [printedEach]
  decide

end Command
end SyntaxCatalog
