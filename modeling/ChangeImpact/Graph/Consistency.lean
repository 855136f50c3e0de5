import ChangeImpact.Graph.Basic

/-!
# Consistency of a graph

A graph is consistent when its three maps have the same keys, every node knows its key and shows the
sets of the maps, all edges stay inside, and the two maps of edges are inverse to each other.  `check`
visits the nodes in the order in which they came and reports the first violation.
-/

namespace ChangeImpact.Graph

/-- Whether two tables have the same keys. -/
def sameKeys {κ ν μ : Type} [DecidableEq κ] (first : Table ν κ) (second : Table μ κ) : Bool :=
  first.keys.all second.contains && second.keys.all first.contains

variable {κ σ : Type} [LT κ] [DecidableEq κ]

/-- The first violation at an edge from a file. -/
def checkTarget (g : Graph κ σ) (path target : κ) : Except (Violation κ) Unit :=
  if !g.hasNode target then .error (.targetOutside path target)
  else if !(g.importers target).contains path then .error (.missingReverse path target)
  else .ok ()

/-- The first violation at an edge to a file. -/
def checkSource (g : Graph κ σ) (path source : κ) : Except (Violation κ) Unit :=
  if !g.hasNode source then .error (.sourceOutside path source)
  else if !(g.targets source).contains path then .error (.missingForward path source)
  else .ok ()

variable [BEq κ]

/-- The first violation at a node.  Two paths are told apart by `==`, which need not hold of a path and
itself. -/
def checkNode (g : Graph κ σ) (path : κ) (node : FileNode κ σ) : Except (Violation κ) Unit := do
  if node.path != path then throw (.wrongPath path node.path)
  if node.ownDependencies.isSome || node.ownDependents.isSome then throw (.detached path)
  (g.targets path).toList.forM (g.checkTarget path)
  (g.importers path).toList.forM (g.checkSource path)

/-- The first violation in a graph, if there is one. -/
def check (g : Graph κ σ) : Except (Violation κ) Unit := do
  if !sameKeys g.edges g.nodes || !sameKeys g.reverseEdges g.nodes then throw .differentKeys
  g.nodes.entries.forM fun (path, node) => g.checkNode path node

/-- `check` as a step, which changes nothing. -/
def checkStep : GraphStep Unit κ σ := do
  match (← get).check with
  | .ok _ => return ()
  | .error cause => throw (.violation cause)

end ChangeImpact.Graph
