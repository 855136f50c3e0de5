import ChangeImpact.Graph.Basic

/-!
# Changes behind a graph's back

Changes that do not keep a graph consistent: they touch a single map, or cut a node loose from one.
No other part of the library makes such changes; they bring a graph into the states that
`Graph.check` has to recognise.
-/

namespace ChangeImpact.Graph

/-- The maps of a graph. -/
inductive Map where
  | nodes | edges | reverseEdges
deriving DecidableEq, Repr

/-- Fails unless a map has an entry for a key. -/
private def demand {ν : Type} (table : Graph → Table ν) (key : String) : GraphStep Unit := do
  if !(table (← get)).contains key then throw (.missingEntry key)

/-- Adds an edge to `edges` alone. -/
def addForwardOnly (source target : String) : GraphStep Unit := do
  demand (·.edges) source
  modify fun g => { g with edges := g.edges.modify source (·.insert target) }

/-- Adds an edge to `reverseEdges` alone. -/
def addReverseOnly (source target : String) : GraphStep Unit := do
  demand (·.reverseEdges) target
  modify fun g => { g with reverseEdges := g.reverseEdges.modify target (·.insert source) }

/-- The node carries the set that it shows from `edges`. -/
def keepDependencies (path : String) (g : Graph) : Graph :=
  g.modifyNode path fun node => { node with ownDependencies := some (g.dependencies path node) }

/-- The node carries the set that it shows from `reverseEdges`. -/
def keepDependents (path : String) (g : Graph) : Graph :=
  g.modifyNode path fun node => { node with ownDependents := some (g.dependents path node) }

/-- Gives a map an equal set of its own for a key. -/
def detach : Map → String → GraphStep Unit
  | .nodes, _ => return ()
  | .edges, path => do
    demand (·.edges) path
    modify (keepDependencies path)
  | .reverseEdges, path => do
    demand (·.reverseEdges) path
    modify (keepDependents path)

/-- Deletes the entry of a map. -/
def drop : Map → String → GraphStep Unit
  | .nodes, path => do
    demand (·.nodes) path
    modify fun g => { g with nodes := g.nodes.erase path }
  | .edges, path => do
    demand (·.edges) path
    modify (keepDependencies path)
    modify fun g => { g with edges := g.edges.erase path }
  | .reverseEdges, path => do
    demand (·.reverseEdges) path
    modify (keepDependents path)
    modify fun g => { g with reverseEdges := g.reverseEdges.erase path }

/-- Gives a node another path than its key. -/
def rename (key path : String) : GraphStep Unit := do
  demand (·.nodes) key
  modify (modifyNode key ({ · with path }))

end ChangeImpact.Graph
