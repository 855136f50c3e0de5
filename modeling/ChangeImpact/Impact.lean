import ChangeImpact.Change
import ChangeImpact.Graph.Basic
import ChangeImpact.Path.Key

/-!
# The impact of changes

A change affects the files that import the changed file, the files that import those, and so on.
The tests among all these files have to run again, and so do the tests that go with a changed source
file by their names.

Deleted files and the old paths of renamed ones are no longer in the graph.  The graph as it was
before tells who imported them.

* `Analyzer.analyze` computes the impact of a list of changes.
* `explore` is the search along reverse edges; every file is entered at most once.
-/

namespace ChangeImpact

/-- The files and tests that a list of changes affects. -/
structure Impact where
  changed : PathSet := ∅
  direct : PathSet := ∅
  transitive : PathSet := ∅
  tests : PathSet := ∅
  /-- The sources that each of the tests imports, by increasing path of the test. -/
  coverage : List (String × PathSet) := []
deriving Inhabited

/-- All files that are changed or affected. -/
def Impact.allAffected (impact : Impact) : PathSet :=
  impact.changed ∪ impact.direct ∪ impact.transitive

/-- The rules by which tests go with sources, and the root that paths are relative to. -/
structure Analyzer where
  root : Option Root := none
  testExtensions : List String := FileKind.testExtensions
  testDirectories : List String := FileKind.testDirectories

namespace Analyzer

/-! ## Tests that go with a source -/

/-- The marks between the name of a source and the extension of its test. -/
def testMarks : List String := [".test", ".spec"]

/-- The directories in which the tests of a directory's files are looked for. -/
def searchedDirectories (analyzer : Analyzer) (directory : List Char) : List (List Char) :=
  directory :: analyzer.testDirectories.map fun name => Path.join directory name.toList

/-- The paths at which the test of a source may stand. -/
def companionPaths (analyzer : Analyzer) (source : String) : List String :=
  let stem := (Path.splitExtension (Path.fileName source.toList)).1
  (analyzer.searchedDirectories (Path.directory source.toList)).flatMap fun directory =>
    testMarks.flatMap fun mark =>
      analyzer.testExtensions.map fun extension =>
        String.ofList (Path.join directory (stem ++ mark.toList ++ extension.toList))

/-- Whether a file is a test of the graph. -/
def isTestOf (g : Graph) (path : String) : Bool :=
  g.kindOf? path == some .test

/-- The tests that go with a source by their names or that import it. -/
def testsFor (analyzer : Analyzer) (g : Graph) (source : String) : PathSet :=
  .ofList ((analyzer.companionPaths source).filter (isTestOf g)) ∪
    (g.importers source).filter (isTestOf g)

/-- The sources that a test imports. -/
def coveredSources (g : Graph) (test : String) : PathSet :=
  match g.nodes.get? test with
  | none => ∅
  | some node => (g.dependencies test node).filter fun path => g.kindOf? path == some .source

/-! ## Paths of changes -/

/-- The keys of the changed paths. -/
def changedPaths (analyzer : Analyzer) (changes : List Change) : PathSet :=
  .ofList ((changes.map fun change => Path.key analyzer.root change.path).filter (!·.isEmpty))

/-- The keys of the old paths of renamed files. -/
def formerPaths (analyzer : Analyzer) (changes : List Change) : PathSet :=
  .ofList ((changes.filterMap fun change =>
    change.formerPath?.map (Path.key analyzer.root)).filter (!·.isEmpty))

/-- The changed and former paths that only the graph before has. -/
def vanishedPaths (analyzer : Analyzer) (g : Graph) (before : Option Graph)
    (changes : List Change) : PathSet :=
  match before with
  | none => ∅
  | some before =>
    (analyzer.changedPaths changes ∪ analyzer.formerPaths changes).filter fun path =>
      before.hasNode path && !g.hasNode path

/-! ## The search -/

/-- The files that import a file: by the graph, or, for a file that it does not have, by the graph
before. -/
def importersOf (g : Graph) (before : Option Graph) (path : String) : PathSet :=
  match g.reverseEdges.get? path with
  | some importers => importers
  | none =>
    match before with
    | some before => before.importers path
    | none => ∅

/-- The files that are reached from the queue and have not been visited.  Every round takes one file
from the queue, so the fuel bounds how many are taken. -/
def explore (next : String → PathSet) : Nat → List String → PathSet → PathSet → PathSet
  | 0, _, _, found => found
  | _ + 1, [], _, found => found
  | fuel + 1, current :: queue, visited, found =>
    let fresh := next current \ visited
    explore next fuel (queue ++ fresh.toList) (visited ∪ fresh) (found ∪ fresh)

/-- A number of files that a search along the reverse edges does not exceed. -/
def searchBound (g : Graph) (before : Option Graph) (start : PathSet) : Nat :=
  let entries (g : Graph) := PathSet.totalSize g.reverseEdges.values
  start.size + entries g + (before.map entries).getD 0

/-- The kind of a file, by its name if the graph does not have it. -/
def kindOf (g : Graph) (path : String) : FileKind :=
  (g.kindOf? path).getD (FileKind.ofPath path)

/-- The impact of changes on a graph, with the help of the graph as it was before them. -/
def analyze (analyzer : Analyzer) (g : Graph) (changes : List Change)
    (before : Option Graph := none) : Impact :=
  let changed := analyzer.changedPaths changes
  let vanished := analyzer.vanishedPaths g before changes
  let seeds := changed ∪ vanished
  let next := importersOf g before
  let direct := PathSet.unionOf (seeds.toList.map next) \ seeds
  let transitive := explore next (searchBound g before direct) direct.toList (seeds ∪ direct) ∅
  let reached := ((seeds ∪ direct ∪ transitive) \ vanished).filter fun path =>
    kindOf g path == .test
  let sources := changed.filter fun path => kindOf g path == .source
  let tests := reached ∪ PathSet.unionOf (sources.toList.map (analyzer.testsFor g))
  { changed, direct, transitive, tests
    coverage := tests.toList.map fun test => (test, coveredSources g test) }

end Analyzer

/-! ## The report -/

/-- A set of paths in a report. -/
def PathSet.toJson (set : PathSet) : Json :=
  .array (set.toList.map Json.string)

/-- The impact as a report gives it. -/
def Impact.toJson (impact : Impact) : Json :=
  .object
    [("changed_files", impact.changed.toJson), ("directly_affected_files", impact.direct.toJson),
      ("transitively_affected_files", impact.transitive.toJson),
      ("affected_test_files", impact.tests.toJson),
      ("test_coverage", .object (impact.coverage.map fun (test, sources) =>
        (test, sources.toJson)))]

end ChangeImpact
