import ChangeImpact.Proofs.Graph.Operations

/-!
# Replaying a graph

A graph is built again from its nodes and its edges: first every node is added to an empty graph, then
every edge.  The order in which they come does not matter.  Nothing of this is refused as long as no node
comes twice and all edges stay among the nodes (`ends_addNodes`, `EdgesAdded.ends_forM`).

Each of the two loops has an invariant that speaks of the entries that are done: the nodes of the graph
are those entries, and later its edges are those that have been added.  Whether they come one by one or row
by row makes no difference (`replay_eq`).  The importers are not replayed.  They come with the edges, and
since both graphs are balanced they are those of the original as well.
-/

namespace ChangeImpact.Graph

variable {g clone : Graph} {path target : String}

/-! ## The nodes -/

/-- A graph has the nodes of some entries and no edges yet. -/
structure NodesAdded (done : List (String × FileNode)) (clone : Graph) : Prop where
  balanced : clone.Balanced
  nodes : ∀ path, clone.nodes.get? path = done.lookup path
  targets : ∀ path, clone.targets path = ∅
  diagnostics : clone.diagnostics = []

theorem NodesAdded.mem_nodes {done : List (String × FileNode)} (h : NodesAdded done clone) :
    path ∈ clone.nodes ↔ (done.lookup path).isSome = true := by
  rw [← Table.isSome_get?_iff, h.nodes]

/-- A node that shows its own path and has no sets of its own. -/
structure AttachedNode (path : String) (node : FileNode) : Prop where
  path : node.path = path
  dependencies : node.ownDependencies = none
  dependents : node.ownDependents = none

theorem Balanced.attachedNode (hg : g.Balanced) {node : FileNode}
    (hnode : g.nodes.get? path = some node) : AttachedNode path node :=
  ⟨hg.nodePath path node hnode, (hg.attached path node hnode).1, (hg.attached path node hnode).2⟩

/-- Adding the node of an entry, and then its names, makes it the node of the entry. -/
theorem NodesAdded.ends_round {done : List (String × FileNode)} {node : FileNode}
    (h : NodesAdded done clone) (hnew : done.lookup path = none) (hnode : AttachedNode path node) :
    Ends (do
        addNode path node.kind node.lastModified
        modify (modifyNode path ({ · with specifiers := node.specifiers }))) clone
      (fun _ after => NodesAdded (done ++ [(path, node)]) after) (fun _ _ => False) := by
  have hnot : path ∉ clone.nodes := by
    rw [← Table.get?_eq_none_iff, h.nodes, hnew]
  have hadded : Ends (addNode path node.kind node.lastModified) clone
      (fun _ after => after = clone.withNode path node.kind node.lastModified)
      (fun _ _ => False) :=
    .of_eq_ok (addNode_of_not_mem hnot node.kind node.lastModified) rfl
  refine hadded.bind ?_
  rintro _ _ rfl
  have hshown : node = ⟨path, node.kind, node.lastModified, node.specifiers, none, none⟩ := by
    obtain ⟨hpath, hdependencies, hdependents⟩ := hnode
    cases node
    simp_all
  refine .of_eq_ok rfl ⟨?_, ?_, ?_, h.diagnostics⟩
  · have hbalanced := h.balanced.withNode hnot node.kind node.lastModified
    exact hbalanced.modifyNode (fun _ => rfl) fun _ => ⟨rfl, rfl⟩
  · intro other
    show ((clone.nodes.insert path _).modify path _).get? other = _
    rw [Table.get?_modify, Table.get?_insert, h.nodes, List.lookup_append, List.lookup_cons]
    by_cases heq : other = path
    · rw [heq, hnew]
      simp [← hshown]
    · simp [heq, beq_false_of_ne heq]
  · intro other
    exact (h.balanced.targets_withNode hnot node.kind node.lastModified other).trans (h.targets other)

theorem ends_addNodes {entries : List (String × FileNode)} (hdistinct : (entries.map (·.1)).Nodup)
    (hnodes : ∀ entry ∈ entries, AttachedNode entry.1 entry.2) :
    Ends (entries.forM fun (path, node) => do
        addNode path node.kind node.lastModified
        modify (modifyNode path ({ · with specifiers := node.specifiers }))) ∅
      (fun _ after => NodesAdded entries after) (fun _ _ => False) := by
  have hstart : NodesAdded [] ∅ :=
    ⟨balanced_empty, fun _ => rfl, fun _ => rfl, rfl⟩
  refine .forM_done NodesAdded ?_ hstart
  rintro done ⟨path, node⟩ rest state hentries hdone
  have hnew : done.lookup path = none := by
    rw [List.lookup_eq_none_iff]
    intro entry hentry
    -- the keys are distinct, so this one has not been met before
    rw [hentries, List.map_append, List.nodup_append] at hdistinct
    have hne := hdistinct.2.2 entry.1 (List.mem_map.mpr ⟨entry, hentry, rfl⟩) path (by simp)
    simpa using fun heq : path = entry.1 => hne heq.symm
  exact hdone.ends_round hnew (hnodes (path, node) (by simp [hentries]))

/-! ## The edges -/

/-- A graph has got some edges, and is otherwise as it was. -/
structure EdgesAdded (before : Graph) (done : List (String × String)) (after : Graph) : Prop where
  balanced : after.Balanced
  nodes : after.nodes = before.nodes
  mem_targets : ∀ source target, target ∈ after.targets source ↔ (source, target) ∈ done
  diagnostics : after.diagnostics = before.diagnostics

theorem NodesAdded.edgesAdded {entries : List (String × FileNode)} (h : NodesAdded entries g) :
    EdgesAdded g [] g := by
  refine ⟨h.balanced, rfl, fun source target => ?_, rfl⟩
  rw [h.targets]
  exact iff_of_false PathSet.not_mem_empty List.not_mem_nil

/-- An edge between nodes is added, also where it is already there, and every other edge is refused. -/
theorem EdgesAdded.ends_addEdge {done : List (String × String)} (hadded : EdgesAdded g done clone)
    (source target : String) :
    Ends (addEdge source target) clone (fun _ after => EdgesAdded g (done ++ [(source, target)]) after)
      (fun _ _ => ¬ (source ∈ g.nodes ∧ target ∈ g.nodes)) := by
  by_cases hinside : source ∈ g.nodes ∧ target ∈ g.nodes
  · obtain ⟨hsource, htarget⟩ := hadded.nodes ▸ hinside
    refine .of_eq_ok (hadded.balanced.addEdge_eq_ok hsource htarget) ?_
    refine ⟨hadded.balanced.withEdge hsource htarget, hadded.nodes, ?_, hadded.diagnostics⟩
    intro other member
    rw [hadded.balanced.mem_targets_withEdge hsource, hadded.mem_targets, List.mem_append,
      List.mem_singleton]
  · have houtside : source ∉ clone.nodes ∨ target ∉ clone.nodes := by
      rw [hadded.nodes]
      exact not_and_or.mp hinside
    exact .of_eq_error (addEdge_of_not_mem houtside) hinside

/-- Edges are added in whatever order they come, until one of them ends outside. -/
theorem EdgesAdded.ends_forM {done : List (String × String)} (hadded : EdgesAdded g done clone)
    (edges : List (String × String)) :
    Ends (edges.forM fun (source, target) => addEdge source target) clone
      (fun _ after => EdgesAdded g (done ++ edges) after)
      (fun _ _ => ∃ edge ∈ edges, ¬ (edge.1 ∈ g.nodes ∧ edge.2 ∈ g.nodes)) := by
  refine .forM_done (fun more after => EdgesAdded g (done ++ more) after) ?_ (by rwa [List.append_nil])
  rintro more ⟨source, target⟩ rest state hedges hstate
  refine (hstate.ends_addEdge source target).mono (fun _ _ hafter => ?_) fun _ _ houtside => ?_
  · rwa [List.append_assoc] at hafter
  · exact ⟨(source, target), by simp [hedges], houtside⟩

/-- The edges of some rows, row by row. -/
def edgesOf (rows : List (String × PathSet)) : List (String × String) :=
  rows.flatMap fun (path, row) => row.toList.map fun target => (path, target)

theorem mem_edgesOf {rows : List (String × PathSet)} {source : String} :
    (source, target) ∈ edgesOf rows ↔ ∃ row, (source, row) ∈ rows ∧ target ∈ row := by
  rw [edgesOf, List.mem_flatMap]
  constructor
  · rintro ⟨⟨path, row⟩, hrow, hedge⟩
    obtain ⟨member, hmember, heq⟩ := List.mem_map.mp hedge
    cases heq
    exact ⟨row, hrow, hmember⟩
  · rintro ⟨row, hrow, htarget⟩
    exact ⟨(source, row), hrow, List.mem_map.mpr ⟨target, htarget, rfl⟩⟩

/-- The edges of a table are the pairs of a key and a member of its row. -/
theorem mem_edgesOf_table {table : Table PathSet} {source : String} :
    (source, target) ∈ edgesOf table.entries ↔ target ∈ (table.get? source).getD ∅ := by
  rw [mem_edgesOf]
  simp only [Table.mem_entries_iff]
  cases hrow : table.get? source with
  | none => simp
  | some row => simp

/-- To add rows is to add their edges. -/
theorem forM_targets_eq {ι : Type} (source : ι → String) (targets : ι → List String) (rows : List ι) :
    (rows.forM fun row => (targets row).forM (addEdge (source row)) : GraphStep Unit) =
      (rows.flatMap fun row => (targets row).map fun target => (source row, target)).forM
        fun (source, target) => addEdge source target := by
  induction rows with
  | nil => rfl
  | cons row rows ih =>
      simp only [List.forM_eq_forM] at ih ⊢
      rw [List.forM_cons, List.flatMap_cons, List.forM_append, List.forM_map, ih]

theorem forM_rows_eq (rows : List (String × PathSet)) :
    (rows.forM fun (path, targets) => targets.toList.forM (addEdge path) : GraphStep Unit) =
      (edgesOf rows).forM fun (source, target) => addEdge source target :=
  forM_targets_eq (·.1) (·.2.toList) rows

/-! ## Nodes and edges -/

/-- Adds nodes to a graph, and then edges. -/
def assemble (nodes : List (String × FileNode)) (edges : List (String × String)) : GraphStep Unit := do
  nodes.forM fun (path, node) => do
    addNode path node.kind node.lastModified
    modify (modifyNode path ({ · with specifiers := node.specifiers }))
  edges.forM fun (source, target) => addEdge source target

/-- A graph has the nodes of some entries and some edges. -/
structure Assembled (nodes : List (String × FileNode)) (edges : List (String × String)) (after : Graph) :
    Prop where
  balanced : after.Balanced
  nodes : ∀ path, after.nodes.get? path = nodes.lookup path
  mem_targets : ∀ source target, target ∈ after.targets source ↔ (source, target) ∈ edges
  diagnostics : after.diagnostics = []

theorem ends_assemble {nodes : List (String × FileNode)} {edges : List (String × String)}
    (hnodes : (nodes.map (·.1)).Nodup) (hattached : ∀ entry ∈ nodes, AttachedNode entry.1 entry.2)
    (hinside : ∀ edge ∈ edges, (nodes.lookup edge.1).isSome ∧ (nodes.lookup edge.2).isSome) :
    Ends (assemble nodes edges) ∅ (fun _ after => Assembled nodes edges after) (fun _ _ => False) := by
  refine (ends_addNodes hnodes hattached).bind fun _ added hadded => ?_
  have hinside' : ∀ edge ∈ edges, edge.1 ∈ added.nodes ∧ edge.2 ∈ added.nodes := fun edge hedge =>
    ⟨hadded.mem_nodes.mpr (hinside edge hedge).1, hadded.mem_nodes.mpr (hinside edge hedge).2⟩
  refine (hadded.edgesAdded.ends_forM edges).mono (fun _ after hafter => ?_) fun _ _ ⟨edge, hedge, houtside⟩ =>
    houtside (hinside' edge hedge)
  refine ⟨hafter.balanced, fun path => ?_, hafter.mem_targets, ?_⟩
  · rw [hafter.nodes, hadded.nodes]
  · rw [hafter.diagnostics, hadded.diagnostics]

/-- Adds nodes to a graph, and then rows of edges. -/
def replay (nodes : List (String × FileNode)) (rows : List (String × PathSet)) : GraphStep Unit := do
  nodes.forM fun (path, node) => do
    addNode path node.kind node.lastModified
    modify (modifyNode path ({ · with specifiers := node.specifiers }))
  rows.forM fun (path, targets) => targets.toList.forM (addEdge path)

theorem replay_eq (nodes : List (String × FileNode)) (rows : List (String × PathSet)) :
    replay nodes rows = assemble nodes (edgesOf rows) := by
  rw [replay, assemble, forM_rows_eq]

theorem ends_replay {nodes : List (String × FileNode)} {rows : List (String × PathSet)}
    (hnodes : (nodes.map (·.1)).Nodup) (hattached : ∀ entry ∈ nodes, AttachedNode entry.1 entry.2)
    (hinside : ∀ entry ∈ rows,
      (nodes.lookup entry.1).isSome ∧ ∀ target ∈ entry.2, (nodes.lookup target).isSome) :
    Ends (replay nodes rows) ∅ (fun _ after => Assembled nodes (edgesOf rows) after) (fun _ _ => False) := by
  rw [replay_eq]
  refine ends_assemble hnodes hattached ?_
  rintro ⟨source, target⟩ hedge
  obtain ⟨row, hrow, htarget⟩ := mem_edgesOf.mp hedge
  exact ⟨(hinside (source, row) hrow).1, (hinside (source, row) hrow).2 target htarget⟩

theorem mem_targets_iff_exists_row {source : String} :
    target ∈ g.targets source ↔ ∃ row, (source, row) ∈ g.edges.entries ∧ target ∈ row :=
  mem_edgesOf_table.symm.trans mem_edgesOf

/-- The rows of a balanced graph stay among its nodes. -/
theorem Balanced.row_inside (hg : g.Balanced) {row : PathSet} (hrow : (path, row) ∈ g.edges.entries) :
    path ∈ g.nodes ∧ ∀ target ∈ row, target ∈ g.nodes := by
  have hpath : path ∈ g.edges := Table.mem_of_get? (Table.mem_entries_iff.mp hrow)
  refine ⟨(hg.mem_edges path).mp hpath, fun target htarget => ?_⟩
  exact hg.inside path target (mem_targets_iff_exists_row.mpr ⟨row, hrow, htarget⟩)

end ChangeImpact.Graph
