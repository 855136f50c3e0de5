import ChangeImpact.Graph.Consistency
import ChangeImpact.Proofs.Graph.Operations
import Mathlib.Data.List.Nodup

/-!
# Graphs under other paths

Paths may be taken for paths of another type.  If this keeps their order (`Renaming`), a graph under the new paths
has everything that it had under the old ones: its tables keep their order since they are in the order in which their
keys came, and its sets keep theirs since they are sorted by paths.

So `Renaming.graph` commutes with the operations by which a graph is built (`Renaming.graph_withNode`,
`Renaming.graph_withEdge`), and the graph passes the check under its new paths exactly if it did under the old ones
(`Renaming.isOk_check_graph`).
-/

namespace ChangeImpact.Graph

/-! ## Whether the check is passed -/

section Check

variable {κ σ : Type} [LT κ] [DecidableEq κ] (g : Graph κ σ)

theorem isOk_checkTarget (path target : κ) :
    (g.checkTarget path target).isOk = (g.hasNode target && (g.importers target).contains path) := by
  unfold checkTarget
  cases g.hasNode target with
  | false => rfl
  | true =>
      cases (g.importers target).contains path with
      | false => rfl
      | true => rfl

theorem isOk_checkSource (path source : κ) :
    (g.checkSource path source).isOk = (g.hasNode source && (g.targets source).contains path) := by
  unfold checkSource
  cases g.hasNode source with
  | false => rfl
  | true =>
      cases (g.targets source).contains path with
      | false => rfl
      | true => rfl

variable [BEq κ]

theorem isOk_checkNode (path : κ) (held : FileNode κ σ) : (g.checkNode path held).isOk =
    (held.path == path && !(held.ownDependencies.isSome || held.ownDependents.isSome) &&
      (g.targets path).toList.all (fun target => (g.checkTarget path target).isOk) &&
      (g.importers path).toList.all fun source => (g.checkSource path source).isOk) := by
  unfold checkNode bne
  rw [← isOk_forM, ← isOk_forM]
  cases held.path == path with
  | false => rfl
  | true =>
      cases held.ownDependencies.isSome || held.ownDependents.isSome with
      | true => rfl
      | false => exact isOk_bind _ _

theorem isOk_check : g.check.isOk = (sameKeys g.edges g.nodes && sameKeys g.reverseEdges g.nodes &&
    g.nodes.entries.all fun entry => (g.checkNode entry.1 entry.2).isOk) := by
  unfold check
  rw [← isOk_forM]
  cases sameKeys g.edges g.nodes with
  | false => rfl
  | true =>
      cases sameKeys g.reverseEdges g.nodes with
      | false => rfl
      | true => rfl

end Check

/-! ## Renamings -/

/-- Paths taken for other paths, in the same order, and names of modules for other names. -/
structure Renaming (κ σ κ' σ' : Type) [LT κ] [LT κ'] where
  path : κ → κ'
  name : σ → σ'
  lt_iff : ∀ first second, path first < path second ↔ first < second

namespace Renaming

variable {κ σ κ' σ' : Type} [LT κ] [LT κ'] (r : Renaming κ σ κ' σ')

/-- A set of renamed paths. -/
def set (paths : PathSet κ) : PathSet κ' where
  toList := paths.toList.map r.path
  sorted := List.pairwise_map.mpr (paths.sorted.imp (r.lt_iff _ _).mpr)

variable [LE κ] [Std.IsLinearOrder κ] [Std.LawfulOrderLT κ] [LE κ'] [Std.LawfulOrderLT κ']

theorem injective : Function.Injective r.path := by
  have hnot : ∀ first second, r.path first = r.path second → ¬ first < second := by
    intro first second heq hlt
    have hself := (r.lt_iff first second).mpr hlt
    rw [heq] at hself
    exact Std.lt_irrefl hself
  intro first second heq
  exact Std.le_antisymm (Std.not_lt.mp (hnot second first heq.symm)) (Std.not_lt.mp (hnot first second heq))

/-! ## Tables -/

section Tables

variable {ν μ : Type} (value : ν → μ) (source : Table ν κ) (key : κ)

/-- A table with its keys renamed and its values changed. -/
def table : Table μ κ' where
  entries := source.entries.map fun entry => (r.path entry.1, value entry.2)
  distinct := by
    have hdistinct := source.distinct.map r.injective
    rwa [List.map_map] at hdistinct ⊢

theorem keys_table : (r.table value source).keys = source.keys.map r.path := by
  simp [Table.keys, table, Function.comp_def]

variable [DecidableEq κ] [DecidableEq κ']

theorem get?_table : (r.table value source).get? (r.path key) = (source.get? key).map value := by
  unfold Table.get? table
  dsimp only
  induction source.entries with
  | nil => rfl
  | cons entry rest ih =>
      rw [List.map_cons, List.lookup_cons, List.lookup_cons, ih]
      by_cases hkey : key = entry.1
      · simp [hkey]
      · simp [beq_false_of_ne hkey, beq_false_of_ne (r.injective.ne hkey)]

theorem contains_table : (r.table value source).contains (r.path key) = source.contains key := by
  unfold Table.contains table
  rw [List.any_map]
  congr 1
  funext entry
  exact decide_eq_decide.mpr r.injective.eq_iff

theorem table_modify {change : ν → ν} {change' : μ → μ} (h : ∀ held, value (change held) = change' (value held)) :
    r.table value (source.modify key change) = (r.table value source).modify (r.path key) change' := by
  unfold table Table.modify Table.map
  congr 1
  rw [List.map_map, List.map_map]
  refine List.map_congr_left fun entry _ => ?_
  simp only [Function.comp_apply, r.injective.eq_iff]
  split
  · rw [h]
  · rfl

theorem table_insert (held : ν) :
    r.table value (source.insert key held) = (r.table value source).insert (r.path key) (value held) := by
  have hmem : r.path key ∈ r.table value source ↔ key ∈ source := by
    rw [← Table.contains_iff, contains_table, Table.contains_iff]
  unfold Table.insert
  by_cases hkey : key ∈ source
  · rw [dif_pos hkey, dif_pos (hmem.mpr hkey)]
    exact r.table_modify value source key fun _ => rfl
  · rw [dif_neg hkey, dif_neg (mt hmem.mp hkey)]
    simp only [table, List.map_append, List.map_cons, List.map_nil]

theorem all_contains_table {ν' μ' : Type} (value' : ν' → μ') (second : Table ν' κ) :
    (r.table value source).keys.all (r.table value' second).contains = source.keys.all second.contains := by
  rw [keys_table, List.all_map]
  congr 1
  funext key
  exact r.contains_table value' second key

theorem sameKeys_table {ν' μ' : Type} (value' : ν' → μ') (second : Table ν' κ) :
    sameKeys (r.table value source) (r.table value' second) = sameKeys source second := by
  rw [sameKeys, all_contains_table, all_contains_table, sameKeys]

end Tables

/-! ## Graphs -/

/-- A node with its paths and names renamed. -/
def node (held : FileNode κ σ) : FileNode κ' σ' where
  path := r.path held.path
  kind := held.kind
  lastModified := held.lastModified
  specifiers := held.specifiers.map r.name
  ownDependencies := held.ownDependencies.map r.set
  ownDependents := held.ownDependents.map r.set

/-- A graph with its paths and names renamed. -/
def graph (g : Graph κ σ) : Graph κ' σ' where
  nodes := r.table r.node g.nodes
  edges := r.table r.set g.edges
  reverseEdges := r.table r.set g.reverseEdges
  diagnostics := g.diagnostics

section Looking

variable [DecidableEq κ] [DecidableEq κ'] (g : Graph κ σ) (path : κ)

theorem hasNode_graph : (r.graph g).hasNode (r.path path) = g.hasNode path :=
  r.contains_table r.node g.nodes path

theorem targets_graph : (r.graph g).targets (r.path path) = r.set (g.targets path) := by
  rw [targets, show (r.graph g).edges = r.table r.set g.edges from rfl, get?_table, targets]
  cases g.edges.get? path with
  | none => rfl
  | some targets => rfl

theorem importers_graph : (r.graph g).importers (r.path path) = r.set (g.importers path) := by
  rw [importers, show (r.graph g).reverseEdges = r.table r.set g.reverseEdges from rfl, get?_table, importers]
  cases g.reverseEdges.get? path with
  | none => rfl
  | some importers => rfl

theorem contains_set (paths : PathSet κ) : (r.set paths).contains (r.path path) = paths.contains path :=
  decide_eq_decide.mpr (List.mem_map_of_injective r.injective)

end Looking

/-! ## The check -/

section Check

variable [DecidableEq κ] [DecidableEq κ'] (g : Graph κ σ) (path : κ)

theorem isOk_checkTarget_graph (target : κ) :
    ((r.graph g).checkTarget (r.path path) (r.path target)).isOk = (g.checkTarget path target).isOk := by
  rw [isOk_checkTarget, isOk_checkTarget, hasNode_graph, importers_graph, contains_set]

theorem isOk_checkSource_graph (source : κ) :
    ((r.graph g).checkSource (r.path path) (r.path source)).isOk = (g.checkSource path source).isOk := by
  rw [isOk_checkSource, isOk_checkSource, hasNode_graph, targets_graph, contains_set]

variable [BEq κ] [BEq κ'] (hsame : ∀ first second : κ, (r.path first == r.path second) = (first == second))

include hsame

theorem isOk_checkNode_graph (held : FileNode κ σ) :
    ((r.graph g).checkNode (r.path path) (r.node held)).isOk = (g.checkNode path held).isOk := by
  rw [isOk_checkNode, isOk_checkNode, targets_graph, importers_graph]
  simp only [set, node, hsame, Option.isSome_map, List.all_map, Function.comp_def, isOk_checkTarget_graph,
    isOk_checkSource_graph]

/-- A renamed graph passes the check exactly if the graph does. -/
theorem isOk_check_graph : (r.graph g).check.isOk = g.check.isOk := by
  have hedges : sameKeys (r.graph g).edges (r.graph g).nodes = sameKeys g.edges g.nodes :=
    r.sameKeys_table r.set g.edges r.node g.nodes
  have hreverse : sameKeys (r.graph g).reverseEdges (r.graph g).nodes = sameKeys g.reverseEdges g.nodes :=
    r.sameKeys_table r.set g.reverseEdges r.node g.nodes
  have hnodes : (r.graph g).nodes.entries = g.nodes.entries.map fun entry => (r.path entry.1, r.node entry.2) :=
    rfl
  rw [isOk_check, isOk_check, hedges, hreverse, hnodes, List.all_map]
  congr 1
  exact List.all_congr rfl fun entry => r.isOk_checkNode_graph g entry.1 hsame entry.2

end Check

/-! ## Operations -/

section Operations

variable [DecidableEq κ] [DecidableEq κ'] (g : Graph κ σ)

theorem graph_modifyNode (path : κ) {change : FileNode κ σ → FileNode κ σ}
    {change' : FileNode κ' σ' → FileNode κ' σ'} (h : ∀ held, r.node (change held) = change' (r.node held)) :
    r.graph (modifyNode path change g) = modifyNode (r.path path) change' (r.graph g) := by
  unfold modifyNode graph
  dsimp only
  rw [r.table_modify r.node g.nodes path h]

theorem graph_withNode (path : κ) (kind : FileKind) (lastModified : Json) :
    r.graph (g.withNode path kind lastModified) = (r.graph g).withNode (r.path path) kind lastModified := by
  unfold graph withNode
  dsimp only
  rw [r.table_insert r.node, r.table_insert r.set, r.table_insert r.set]
  rfl

variable [DecidableLT κ] [DecidableLT κ']

theorem insertSorted_map (path : κ) (paths : List κ) :
    PathSet.insertSorted (r.path path) (paths.map r.path) = (PathSet.insertSorted path paths).map r.path := by
  induction paths with
  | nil => rfl
  | cons first rest ih =>
      rw [List.map_cons]
      simp only [PathSet.insertSorted, r.lt_iff, r.injective.eq_iff]
      split
      · rfl
      · split
        · rfl
        · rw [ih, List.map_cons]

variable [Std.IsLinearOrder κ']

theorem set_insert (paths : PathSet κ) (path : κ) :
    r.set (paths.insert path) = (r.set paths).insert (r.path path) := by
  unfold set PathSet.insert
  simp only [insertSorted_map]

theorem graph_withEdge (source target : κ) :
    r.graph (g.withEdge source target) = (r.graph g).withEdge (r.path source) (r.path target) := by
  have hedges : r.table r.set (g.edges.modify source (·.insert target)) =
      (r.table r.set g.edges).modify (r.path source) (·.insert (r.path target)) :=
    r.table_modify r.set g.edges source fun paths => r.set_insert paths target
  have hreverse : r.table r.set (g.reverseEdges.modify target (·.insert source)) =
      (r.table r.set g.reverseEdges).modify (r.path target) (·.insert (r.path source)) :=
    r.table_modify r.set g.reverseEdges target fun paths => r.set_insert paths source
  unfold graph withEdge
  dsimp only
  rw [hedges, hreverse]

end Operations

end Renaming
end ChangeImpact.Graph
