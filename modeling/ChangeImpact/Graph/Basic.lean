import ChangeImpact.FileKind
import ChangeImpact.Json.Basic
import ChangeImpact.PathSet
import ChangeImpact.Table

/-!
# Dependency graphs

A dependency graph has a node for every file of a project.  Two maps hold its edges: `edges` the
files that a file imports, `reverseEdges` the files that import it.  A node has no sets of its own;
it shows the sets that the two maps hold under its key.  Only a node that has been cut loose from a
map carries a set itself.

The operations of this file keep the two maps inverse to each other.  They are steps on a graph that
may fail; a step that fails keeps what it has done before.

The paths of the files and the names of modules are texts.  A stored document may have other values in
their places, so what reading one needs is stated for keys and names of any type.
-/

namespace ChangeImpact

/-- A problem with one file, recorded while a graph was built. -/
inductive DiagnosticKind where
  | readError | parseFallback | extractionFailed | unresolved
deriving DecidableEq, Repr, Inhabited

/-- The name by which reports refer to a kind of problem. -/
def DiagnosticKind.name : DiagnosticKind → String
  | readError => "read_error"
  | parseFallback => "parse_fallback"
  | extractionFailed => "extraction_failed"
  | unresolved => "unresolved"

/-- A problem with one file.  Unresolved module names are given with it. -/
structure Diagnostic where
  path : String
  kind : DiagnosticKind
  message : String
  specifier : Option String := none
deriving DecidableEq, Repr, Inhabited

/-- A file of the project. -/
structure FileNode (κ : Type := String) (σ : Type := String) [LT κ] where
  path : κ
  kind : FileKind := .source
  /-- When the file was last changed, as far as it is known. -/
  lastModified : Json := .null
  /-- The modules that the file named when it was last scanned. -/
  specifiers : List σ := []
  /-- The imported files, if the node has been cut loose from `edges`. -/
  ownDependencies : Option (PathSet κ) := none
  /-- The importing files, if the node has been cut loose from `reverseEdges`. -/
  ownDependents : Option (PathSet κ) := none
deriving Inhabited

/-- The files of a project and how they import each other. -/
structure Graph (κ : Type := String) (σ : Type := String) [LT κ] where
  nodes : Table (FileNode κ σ) κ := ∅
  edges : Table (PathSet κ) κ := ∅
  reverseEdges : Table (PathSet κ) κ := ∅
  diagnostics : List Diagnostic := []
deriving Inhabited

/-- What is wrong with a graph, or with a change that was asked of it. -/
inductive Violation (κ : Type := String) where
  | duplicateNode (path : κ)
  | unknownEnd (source target : κ)
  | differentKeys
  | wrongPath (key path : κ)
  | detached (path : κ)
  | targetOutside (path target : κ)
  | missingReverse (path target : κ)
  | sourceOutside (path source : κ)
  | missingForward (path source : κ)
deriving DecidableEq, Repr

/-- How a violation is reported. -/
def Violation.message : Violation → String
  | duplicateNode path => "Duplicate node key: " ++ path
  | unknownEnd source target => s!"Edge {source} -> {target} references an unknown node"
  | differentKeys => "Adjacency keys do not match node keys"
  | wrongPath key path => s!"Node stored under {key} claims path {path}"
  | detached path => s!"Adjacency of {path} detached from its node"
  | targetOutside path target => s!"Edge {path} -> {target} points outside the graph"
  | missingReverse path target => s!"Missing reverse edge {target} <- {path}"
  | sourceOutside path source => s!"Reverse edge {path} <- {source} points outside the graph"
  | missingForward path source => s!"Missing forward edge {source} -> {path}"

/-- Why a step on a graph failed. -/
inductive GraphError (κ : Type := String) where
  | violation (cause : Violation κ)
  /-- A map of the graph has no entry for a key. -/
  | missingEntry (key : κ)
deriving DecidableEq, Repr

/-- How a failed step is reported. -/
def GraphError.message : GraphError → String
  | violation cause => cause.message
  | missingEntry key => Text.quoted key

/-- A step on a graph.  A failed step keeps the changes made before it failed. -/
abbrev GraphStep (α : Type) (κ : Type := String) (σ : Type := String) [LT κ] :=
  EStateM (GraphError κ) (Graph κ σ) α

namespace Graph

variable {κ σ : Type} [LT κ]

instance : EmptyCollection (Graph κ σ) := ⟨{}⟩

/-! ## Looking at a graph -/

section Looking

variable [DecidableEq κ]

/-- Whether a file has a node. -/
def hasNode (g : Graph κ σ) (path : κ) : Bool := g.nodes.contains path

/-- The files that a file imports, according to `edges`. -/
def targets (g : Graph κ σ) (path : κ) : PathSet κ := (g.edges.get? path).getD ∅

/-- The files that import a file, according to `reverseEdges`. -/
def importers (g : Graph κ σ) (path : κ) : PathSet κ := (g.reverseEdges.get? path).getD ∅

end Looking

/-- The kind of a file that has a node. -/
def kindOf? (g : Graph) (path : String) : Option FileKind := (g.nodes.get? path).map (·.kind)

/-- The imported files that the node under a key shows. -/
def dependencies (g : Graph) (key : String) (node : FileNode) : PathSet :=
  node.ownDependencies.getD (g.targets key)

/-- The importing files that the node under a key shows. -/
def dependents (g : Graph) (key : String) (node : FileNode) : PathSet :=
  node.ownDependents.getD (g.importers key)

/-- The files of a kind. -/
def filesOfKind (g : Graph) (kind : FileKind) : PathSet :=
  .ofList ((g.nodes.entries.filter fun entry => entry.2.kind == kind).map (·.1))

/-- The number of files. -/
def fileCount (g : Graph) : Nat := g.nodes.size

/-- Whether two nodes under one key of two graphs agree in all that they show. -/
def sameNode (g h : Graph) (key : String) (first second : FileNode) : Bool :=
  first.path == second.path && first.kind == second.kind &&
    first.lastModified.same second.lastModified && first.specifiers == second.specifiers &&
    g.dependencies key first == h.dependencies key second &&
    g.dependents key first == h.dependents key second

/-- Whether two tables have the same keys and agree on the values. -/
def sameTable {ν : Type} (same : String → ν → ν → Bool) (first second : Table ν) : Bool :=
  first.size == second.size && first.entries.all fun entry =>
    match second.get? entry.1 with
    | some value => same entry.1 entry.2 value
    | none => false

/-- Whether two graphs have the same nodes and edges.  Neither the order in which they came nor the
diagnostics matter. -/
def same (g h : Graph) : Bool :=
  sameTable (sameNode g h) g.nodes h.nodes && sameTable (fun _ => (· == ·)) g.edges h.edges &&
    sameTable (fun _ => (· == ·)) g.reverseEdges h.reverseEdges

/-! ## Changing a graph -/

section Adding

variable [DecidableEq κ] [DecidableLT κ] [LE κ] [Std.IsLinearOrder κ] [Std.LawfulOrderLT κ]

/-- Adds a node without edges.  A file cannot be added twice. -/
def addNode (path : κ) (kind : FileKind := .source) (lastModified : Json := .null) :
    GraphStep Unit κ σ := do
  let g ← get
  if g.hasNode path then throw (.violation (.duplicateNode path))
  set { g with
    nodes := g.nodes.insert path { path, kind, lastModified }
    edges := g.edges.insert path ∅
    reverseEdges := g.reverseEdges.insert path ∅ }

/-- Records that one file imports another.  Both must have nodes. -/
def addEdge (source target : κ) : GraphStep Unit κ σ := do
  let g ← get
  if !g.hasNode source || !g.hasNode target then throw (.violation (.unknownEnd source target))
  if !g.edges.contains source then throw (.missingEntry source)
  set { g with edges := g.edges.modify source (·.insert target) }
  if !g.reverseEdges.contains target then throw (.missingEntry target)
  modify fun g => { g with reverseEdges := g.reverseEdges.modify target (·.insert source) }

/-- Changes the node of a file. -/
def modifyNode (path : κ) (change : FileNode κ σ → FileNode κ σ) (g : Graph κ σ) : Graph κ σ :=
  { g with nodes := g.nodes.modify path change }

end Adding

/-- Drops an edge, if it is there. -/
def removeEdge (g : Graph) (source target : String) : Graph :=
  { g with
    edges := g.edges.modify source (·.erase target)
    reverseEdges := g.reverseEdges.modify target (·.erase source) }

/-- Drops the edges from a file. -/
def clearDependencies (g : Graph) (path : String) : Graph :=
  (g.targets path).toList.foldl (fun g target => g.removeEdge path target) g

/-- Drops the edges to a file. -/
def clearDependents (g : Graph) (path : String) : Graph :=
  (g.importers path).toList.foldl (fun g source => g.removeEdge source path) g

/-- Replaces the edges from a file, the old ones first. -/
def setDependencies (path : String) (targets : List String) : GraphStep Unit := do
  modify fun g => g.clearDependencies path
  targets.forM (addEdge path)

/-- Removes a file with all its edges.  The node that is given back carries what was left of its
sets. -/
def removeNode (path : String) : GraphStep (Option FileNode) := do
  match (← get).nodes.get? path with
  | none => return none
  | some node =>
    modify fun g => g.clearDependencies path
    if !(← get).reverseEdges.contains path then throw (.missingEntry path)
    modify fun g => g.clearDependents path
    let g ← get
    if !g.edges.contains path then throw (.missingEntry path)
    set { g with
      nodes := g.nodes.erase path
      edges := g.edges.erase path
      reverseEdges := g.reverseEdges.erase path }
    return some { node with
      ownDependencies := some (g.dependencies path node)
      ownDependents := some (g.dependents path node) }

/-- Rebuilds a graph from the nodes and forward edges of another one. -/
def copySteps (g : Graph) : GraphStep Unit := do
  g.nodes.entries.forM fun (path, node) => do
    addNode path node.kind node.lastModified
    modify (modifyNode path ({ · with specifiers := node.specifiers }))
  g.edges.entries.forM fun (path, targets) => targets.toList.forM (addEdge path)
  modify ({ · with diagnostics := g.diagnostics })

/-- An independent copy of a graph. -/
def copy (g : Graph) : Except GraphError Graph :=
  match g.copySteps ∅ with
  | .ok _ clone => .ok clone
  | .error e _ => .error e

end Graph
end ChangeImpact
