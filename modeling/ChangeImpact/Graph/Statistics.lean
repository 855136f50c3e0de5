import ChangeImpact.Graph.Basic

/-!
# Statistics of a graph
-/

namespace ChangeImpact

/-- How many files a graph has, in all and of each kind, and how many edges. -/
structure Statistics where
  files : Nat
  sources : Nat
  tests : Nat
  configs : Nat
  assets : Nat
  dependencies : Nat
deriving DecidableEq, Repr, Inhabited

namespace Statistics

/-- The mean number of imports of a file; an integer zero where there is no file. -/
def average (s : Statistics) : Json :=
  if s.files = 0 then .int 0 else .float (Binary64.ofRatio false s.dependencies s.files)

/-- The statistics as a report gives them. -/
def toJson (s : Statistics) : Json :=
  .object
    [("total_files", .int s.files), ("source_files", .int s.sources),
      ("test_files", .int s.tests), ("config_files", .int s.configs),
      ("asset_files", .int s.assets), ("total_dependencies", .int s.dependencies),
      ("average_dependencies", s.average)]

end Statistics

/-- Counts files and edges. -/
def Graph.statistics (g : Graph) : Statistics where
  files := g.fileCount
  sources := (g.filesOfKind .source).size
  tests := (g.filesOfKind .test).size
  configs := (g.filesOfKind .config).size
  assets := (g.filesOfKind .asset).size
  dependencies := PathSet.totalSize g.edges.values

end ChangeImpact
