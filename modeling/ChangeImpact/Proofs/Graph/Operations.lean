import ChangeImpact.Proofs.Graph.Balance

/-!
# What the operations do to a balanced graph

Each operation is described by the graph that it leaves: `withNode` for a new node, `withEdge` for a
new edge, `without` for a removed file.  Replacing the edges from a file is a loop that may stop at an
unknown target; `ends_setDependencies` says what holds after it in either case, by the invariant that
the targets added so far are those of the file.
-/

namespace ChangeImpact.Graph

variable {g : Graph} {path source target : String}

/-! ## Nodes -/

section

variable {κ σ : Type} [LT κ] [DecidableEq κ]

/-- The graph with one more node. -/
def withNode (g : Graph κ σ) (path : κ) (kind : FileKind) (lastModified : Json) : Graph κ σ :=
  { g with
    nodes := g.nodes.insert path { path, kind, lastModified }
    edges := g.edges.insert path ∅
    reverseEdges := g.reverseEdges.insert path ∅ }

/-- Adding a node fails where there is one, before it has done anything. -/
theorem addNode_eq (path : κ) (kind : FileKind) (lastModified : Json) (g : Graph κ σ) :
    addNode path kind lastModified g =
      if g.hasNode path then .error (.violation (.duplicateNode path)) g
      else .ok () (g.withNode path kind lastModified) := by
  rw [addNode, get_bind_eq]
  cases g.hasNode path with
  | true => rfl
  | false => rfl

end

theorem addNode_of_not_mem (h : path ∉ g.nodes) (kind : FileKind) (lastModified : Json) :
    addNode path kind lastModified g = .ok () (g.withNode path kind lastModified) := by
  have hnode : ¬ g.hasNode path = true := by
    rwa [hasNode_iff]
  rw [addNode_eq, if_neg hnode]

/-- A file without a node has no targets. -/
theorem Balanced.targets_eq_empty (h : g.Balanced) (hpath : path ∉ g.nodes) :
    g.targets path = ∅ :=
  PathSet.ext fun _ => iff_of_false (fun hedge => hpath (h.source_mem hedge)) PathSet.not_mem_empty

theorem Balanced.importers_eq_empty (h : g.Balanced) (hpath : path ∉ g.nodes) :
    g.importers path = ∅ :=
  PathSet.ext fun other => iff_of_false
    (fun hedge => hpath (h.inside other path ((h.inverse other path).mpr hedge)))
    PathSet.not_mem_empty

theorem Balanced.targets_withNode (h : g.Balanced) (hpath : path ∉ g.nodes) (kind : FileKind)
    (lastModified : Json) (other : String) :
    (g.withNode path kind lastModified).targets other = g.targets other := by
  show ((g.edges.insert path ∅).get? other).getD ∅ = _
  rw [Table.get?_insert]
  split
  · rename_i heq
    rw [heq, h.targets_eq_empty hpath]
    rfl
  · rfl

theorem Balanced.importers_withNode (h : g.Balanced) (hpath : path ∉ g.nodes) (kind : FileKind)
    (lastModified : Json) (other : String) :
    (g.withNode path kind lastModified).importers other = g.importers other := by
  show ((g.reverseEdges.insert path ∅).get? other).getD ∅ = _
  rw [Table.get?_insert]
  split
  · rename_i heq
    rw [heq, h.importers_eq_empty hpath]
    rfl
  · rfl

theorem Balanced.withNode (h : g.Balanced) (hpath : path ∉ g.nodes) (kind : FileKind)
    (lastModified : Json) : (g.withNode path kind lastModified).Balanced where
  mem_edges other := by
    show other ∈ g.edges.insert path ∅ ↔ other ∈ g.nodes.insert path _
    rw [Table.mem_insert, Table.mem_insert, h.mem_edges]
  mem_reverseEdges other := by
    show other ∈ g.reverseEdges.insert path ∅ ↔ other ∈ g.nodes.insert path _
    rw [Table.mem_insert, Table.mem_insert, h.mem_reverseEdges]
  nodePath other node hnode := by
    replace hnode : (g.nodes.insert path _).get? other = some node := hnode
    rw [Table.get?_insert] at hnode
    split at hnode
    · rename_i heq
      cases hnode
      exact heq.symm
    · exact h.nodePath other node hnode
  attached other node hnode := by
    replace hnode : (g.nodes.insert path _).get? other = some node := hnode
    rw [Table.get?_insert] at hnode
    split at hnode
    · cases hnode
      exact ⟨rfl, rfl⟩
    · exact h.attached other node hnode
  inverse source target := by
    rw [h.targets_withNode hpath, h.importers_withNode hpath, h.inverse]
  inside source target hedge := by
    rw [h.targets_withNode hpath] at hedge
    exact Table.mem_insert.mpr (.inr (h.inside source target hedge))

/-- Changing what a node tells about its file keeps the graph balanced. -/
theorem Balanced.modifyNode (h : g.Balanced) {change : FileNode → FileNode}
    (hpath : ∀ node, (change node).path = node.path)
    (hown : ∀ node, (change node).ownDependencies = node.ownDependencies ∧
      (change node).ownDependents = node.ownDependents) :
    (modifyNode path change g).Balanced where
  mem_edges other := (h.mem_edges other).trans Table.mem_modify.symm
  mem_reverseEdges other := (h.mem_reverseEdges other).trans Table.mem_modify.symm
  nodePath other node hnode := by
    replace hnode : (g.nodes.modify path change).get? other = some node := hnode
    rw [Table.get?_modify] at hnode
    split at hnode
    · obtain ⟨old, hold, rfl⟩ := Option.map_eq_some_iff.mp hnode
      rw [hpath, h.nodePath other old hold]
    · exact h.nodePath other node hnode
  attached other node hnode := by
    replace hnode : (g.nodes.modify path change).get? other = some node := hnode
    rw [Table.get?_modify] at hnode
    split at hnode
    · obtain ⟨old, hold, rfl⟩ := Option.map_eq_some_iff.mp hnode
      rw [(hown old).1, (hown old).2]
      exact h.attached other old hold
    · exact h.attached other node hnode
  inverse := h.inverse
  inside source target hedge := Table.mem_modify.mpr (h.inside source target hedge)

/-! ## Edges -/

section

variable {κ σ : Type} [LT κ] [DecidableEq κ] [DecidableLT κ] [LE κ] [Std.IsLinearOrder κ] [Std.LawfulOrderLT κ]

/-- The graph with one more edge. -/
def withEdge (g : Graph κ σ) (source target : κ) : Graph κ σ :=
  { g with
    edges := g.edges.modify source (·.insert target)
    reverseEdges := g.reverseEdges.modify target (·.insert source) }

/-- Adding an edge fails before it has done anything, or where a map has no row for an end. -/
theorem addEdge_eq (source target : κ) (g : Graph κ σ) : addEdge source target g =
    if !g.hasNode source || !g.hasNode target then .error (.violation (.unknownEnd source target)) g
    else if !g.edges.contains source then .error (.missingEntry source) g
    else if !g.reverseEdges.contains target then
      .error (.missingEntry target) { g with edges := g.edges.modify source (·.insert target) }
    else .ok () (g.withEdge source target) := by
  rw [addEdge, get_bind_eq]
  cases !g.hasNode source || !g.hasNode target with
  | true => rfl
  | false =>
      cases g.edges.contains source with
      | false => rfl
      | true =>
          cases g.reverseEdges.contains target with
          | false => rfl
          | true => rfl

end

theorem Balanced.addEdge_eq_ok (h : g.Balanced) (hsource : source ∈ g.nodes)
    (htarget : target ∈ g.nodes) : addEdge source target g = .ok () (g.withEdge source target) := by
  rw [addEdge_eq, hasNode_iff.mpr hsource, hasNode_iff.mpr htarget,
    Table.contains_iff.mpr ((h.mem_edges source).mpr hsource),
    Table.contains_iff.mpr ((h.mem_reverseEdges target).mpr htarget)]
  rfl

/-- An edge with an unknown end is refused, and nothing happens. -/
theorem addEdge_of_not_mem (h : source ∉ g.nodes ∨ target ∉ g.nodes) :
    addEdge source target g = .error (.violation (.unknownEnd source target)) g := by
  have hends : (!g.hasNode source || !g.hasNode target) = true := by
    rw [Bool.or_eq_true, Bool.not_eq_true', Bool.not_eq_true', ← Bool.not_eq_true,
      ← Bool.not_eq_true, hasNode_iff, hasNode_iff]
    exact h
  rw [addEdge_eq, if_pos hends]

theorem Balanced.mem_targets_withEdge (h : g.Balanced) (hsource : source ∈ g.nodes)
    {other member : String} :
    member ∈ (g.withEdge source target).targets other ↔
      member ∈ g.targets other ∨ (other, member) = (source, target) := by
  show member ∈ ((g.edges.modify source _).get? other).getD ∅ ↔ _
  rw [mem_getD_modify, targets]
  split
  · rename_i heq
    subst heq
    obtain ⟨row, hrow⟩ := Table.mem_iff_exists.mp ((h.mem_edges other).mpr hsource)
    simp [hrow, or_comm]
  · rename_i hne
    simp [hne]

theorem Balanced.mem_importers_withEdge (h : g.Balanced) (htarget : target ∈ g.nodes)
    {other member : String} :
    member ∈ (g.withEdge source target).importers other ↔
      member ∈ g.importers other ∨ (member, other) = (source, target) := by
  show member ∈ ((g.reverseEdges.modify target _).get? other).getD ∅ ↔ _
  rw [mem_getD_modify, importers]
  split
  · rename_i heq
    subst heq
    obtain ⟨row, hrow⟩ := Table.mem_iff_exists.mp ((h.mem_reverseEdges other).mpr htarget)
    simp [hrow, or_comm]
  · rename_i hne
    simp [hne]

theorem Balanced.withEdge (h : g.Balanced) (hsource : source ∈ g.nodes)
    (htarget : target ∈ g.nodes) : (g.withEdge source target).Balanced where
  mem_edges other := Table.mem_modify.trans (h.mem_edges other)
  mem_reverseEdges other := Table.mem_modify.trans (h.mem_reverseEdges other)
  nodePath := h.nodePath
  attached := h.attached
  inverse other member := by
    rw [h.mem_targets_withEdge hsource, h.mem_importers_withEdge htarget, h.inverse]
  inside other member hedge := by
    rcases (h.mem_targets_withEdge hsource).mp hedge with hedge | heq
    · exact h.inside other member hedge
    · cases heq
      exact htarget

/-! ## Replacing the edges from a file -/

/-- The targets of one file have become those of a list; nothing else has changed. -/
structure RowReplaced (before : Graph) (path : String) (row : List String) (after : Graph) :
    Prop where
  balanced : after.Balanced
  nodes : after.nodes = before.nodes
  diagnostics : after.diagnostics = before.diagnostics
  mem_targets : ∀ source target, target ∈ after.targets source ↔
    if source = path then target ∈ row else target ∈ before.targets source

theorem Balanced.rowReplaced_clearDependencies (h : g.Balanced) (path : String) :
    RowReplaced g path [] (g.clearDependencies path) where
  balanced := by
    rw [clearDependencies_eq]
    exact h.dropEdges _
  nodes := by rw [clearDependencies_eq, nodes_dropEdges]
  diagnostics := by rw [clearDependencies_eq, diagnostics_dropEdges]
  mem_targets source target := by
    rw [mem_targets_clearDependencies]
    split
    · rename_i heq
      simp [heq]
    · rename_i hne
      simp [hne]

theorem RowReplaced.withEdge {before after : Graph} {row : List String}
    (h : RowReplaced before path row after) (hpath : path ∈ before.nodes)
    (htarget : target ∈ before.nodes) :
    RowReplaced before path (row ++ [target]) (after.withEdge path target) where
  balanced := h.balanced.withEdge (h.nodes ▸ hpath) (h.nodes ▸ htarget)
  nodes := h.nodes
  diagnostics := h.diagnostics
  mem_targets source other := by
    rw [h.balanced.mem_targets_withEdge (h.nodes ▸ hpath), h.mem_targets]
    split
    · rename_i heq
      simp [heq]
    · rename_i hne
      simp [hne]

/-- Replacing the edges from a file succeeds if all targets have nodes.  Where it fails, the targets
before the unknown one have been added. -/
theorem Balanced.ends_setDependencies (h : g.Balanced) {row : List String}
    (hpath : path ∈ g.nodes) :
    Ends (setDependencies path row) g (fun _ after => RowReplaced g path row after)
      fun fault after => ∃ done target rest, row = done ++ target :: rest ∧ target ∉ g.nodes ∧
        fault = .violation (.unknownEnd path target) ∧ RowReplaced g path done after := by
  refine .modified_bind ?_
  refine .forM_done (RowReplaced g path) ?_ (h.rowReplaced_clearDependencies path)
  intro done target rest state hrow hdone
  by_cases htarget : target ∈ g.nodes
  · exact .of_eq_ok
      (hdone.balanced.addEdge_eq_ok (hdone.nodes ▸ hpath) (hdone.nodes ▸ htarget))
      (hdone.withEdge hpath htarget)
  · exact .of_eq_error (addEdge_of_not_mem (.inr (hdone.nodes ▸ htarget)))
      ⟨done, target, rest, hrow, htarget, rfl, hdone⟩

/-! ## Removing a file -/

/-- The graph without a file and the edges that touch it. -/
def without (g : Graph) (path : String) : Graph :=
  let cleared := (g.clearDependencies path).clearDependents path
  { cleared with
    nodes := cleared.nodes.erase path
    edges := cleared.edges.erase path
    reverseEdges := cleared.reverseEdges.erase path }

theorem removeNode_of_not_mem (h : path ∉ g.nodes) : removeNode path g = .ok none g := by
  show EStateM.run (removeNode path) g = _
  simp [removeNode, Table.get?_eq_none_iff.mpr h]

theorem Balanced.clearDependents (h : g.Balanced) (path : String) :
    (g.clearDependents path).Balanced := by
  rw [clearDependents_eq]
  exact h.dropEdges _

theorem mem_targets_clearDependents (h : g.Balanced) :
    target ∈ (g.clearDependents path).targets source ↔
      target ∈ g.targets source ∧ target ≠ path := by
  rw [clearDependents_eq, mem_targets_dropEdges]
  refine and_congr_right fun hedge => not_congr ⟨?_, ?_⟩
  · intro hmem
    obtain ⟨other, -, heq⟩ := List.mem_map.mp hmem
    exact (congrArg Prod.snd heq).symm
  · rintro rfl
    exact List.mem_map.mpr ⟨source, (h.inverse source target).mp hedge, rfl⟩

/-- Both clearings together leave the edges that touch the file at neither end. -/
theorem Balanced.mem_targets_cleared (h : g.Balanced) :
    target ∈ ((g.clearDependencies path).clearDependents path).targets source ↔
      target ∈ g.targets source ∧ source ≠ path ∧ target ≠ path := by
  rw [mem_targets_clearDependents (h.rowReplaced_clearDependencies path).balanced,
    mem_targets_clearDependencies, and_assoc]

/-- A file that has a node is removed.  By then the sets of its node are empty. -/
theorem Balanced.removeNode_eq_ok (h : g.Balanced) {node : FileNode} (hnode : g.nodes.get? path = some node) :
    removeNode path g = .ok (some { node with ownDependencies := some ∅, ownDependents := some ∅ })
      (g.without path) := by
  have hpath : path ∈ g.nodes := Table.mem_of_get? hnode
  have hcleared := h.rowReplaced_clearDependencies path
  have hreverse : (g.clearDependencies path).reverseEdges.contains path = true :=
    Table.contains_iff.mpr ((hcleared.balanced.mem_reverseEdges path).mpr (hcleared.nodes ▸ hpath))
  have hbalanced := hcleared.balanced.clearDependents path
  have hedges : ((g.clearDependencies path).clearDependents path).edges.contains path = true := by
    rw [Table.contains_iff, clearDependents_eq, mem_edges_dropEdges, hcleared.balanced.mem_edges,
      hcleared.nodes]
    exact hpath
  have hdependencies : ((g.clearDependencies path).clearDependents path).dependencies path node = ∅ := by
    rw [dependencies, (h.attached path node hnode).1]
    refine PathSet.ext fun target => iff_of_false (fun htarget => ?_) PathSet.not_mem_empty
    exact (h.mem_targets_cleared.mp htarget).2.1 rfl
  have hdependents : ((g.clearDependencies path).clearDependents path).dependents path node = ∅ := by
    rw [dependents, (h.attached path node hnode).2]
    refine PathSet.ext fun source => iff_of_false (fun hsource => ?_) PathSet.not_mem_empty
    exact (h.mem_targets_cleared.mp ((hbalanced.inverse source path).mpr hsource)).2.2 rfl
  show EStateM.run (removeNode path) g = _
  simp only [removeNode, EStateM.run_bind, EStateM.run_get, hnode, EStateM.run_modify, hreverse,
    hedges, Bool.not_true, Bool.false_eq_true, if_false, EStateM.run_set, EStateM.run_pure, hdependencies, hdependents]
  rfl

theorem Balanced.removeNode_of_mem (h : g.Balanced) (hpath : path ∈ g.nodes) :
    ∃ node, removeNode path g = .ok (some node) (g.without path) := by
  obtain ⟨node, hnode⟩ := Table.mem_iff_exists.mp hpath
  exact ⟨_, h.removeNode_eq_ok hnode⟩

@[simp] theorem nodes_without (g : Graph) (path : String) :
    (g.without path).nodes = g.nodes.erase path := by
  show ((g.clearDependencies path).clearDependents path).nodes.erase path = _
  rw [clearDependents_eq, nodes_dropEdges, clearDependencies_eq, nodes_dropEdges]

@[simp] theorem diagnostics_without (g : Graph) (path : String) :
    (g.without path).diagnostics = g.diagnostics := by
  show ((g.clearDependencies path).clearDependents path).diagnostics = _
  rw [clearDependents_eq, diagnostics_dropEdges, clearDependencies_eq, diagnostics_dropEdges]

theorem Balanced.mem_targets_without (h : g.Balanced) :
    target ∈ (g.without path).targets source ↔
      target ∈ g.targets source ∧ source ≠ path ∧ target ≠ path := by
  rw [← h.mem_targets_cleared]
  show target ∈ ((Table.erase _ path).get? source).getD ∅ ↔ _
  rw [Table.get?_erase]
  split
  · rename_i heq
    exact iff_of_false PathSet.not_mem_empty fun hedge => (h.mem_targets_cleared.mp hedge).2.1 heq
  · exact Iff.rfl

theorem Balanced.mem_importers_without (h : g.Balanced) :
    source ∈ (g.without path).importers target ↔
      source ∈ g.importers target ∧ source ≠ path ∧ target ≠ path := by
  have hcleared := (h.rowReplaced_clearDependencies path).balanced.clearDependents path
  rw [← h.inverse, ← h.mem_targets_cleared, hcleared.inverse]
  show source ∈ ((Table.erase _ path).get? target).getD ∅ ↔ _
  rw [Table.get?_erase]
  split
  · rename_i heq
    refine iff_of_false PathSet.not_mem_empty fun hedge => ?_
    exact (h.mem_targets_cleared.mp ((hcleared.inverse source target).mpr hedge)).2.2 heq
  · exact Iff.rfl

theorem Balanced.without (h : g.Balanced) (path : String) : (g.without path).Balanced where
  mem_edges other := by
    have hcleared := (h.rowReplaced_clearDependencies path).balanced.clearDependents path
    show other ∈ Table.erase _ path ↔ other ∈ Table.erase _ path
    rw [Table.mem_erase, Table.mem_erase, hcleared.mem_edges]
  mem_reverseEdges other := by
    have hcleared := (h.rowReplaced_clearDependencies path).balanced.clearDependents path
    show other ∈ Table.erase _ path ↔ other ∈ Table.erase _ path
    rw [Table.mem_erase, Table.mem_erase, hcleared.mem_reverseEdges]
  nodePath other node hnode := by
    rw [nodes_without, Table.get?_erase] at hnode
    split at hnode
    · cases hnode
    · exact h.nodePath other node hnode
  attached other node hnode := by
    rw [nodes_without, Table.get?_erase] at hnode
    split at hnode
    · cases hnode
    · exact h.attached other node hnode
  inverse source target := by
    rw [h.mem_targets_without, h.mem_importers_without, h.inverse]
  inside source target hedge := by
    obtain ⟨hedge, -, hne⟩ := h.mem_targets_without.mp hedge
    rw [nodes_without, Table.mem_erase]
    exact ⟨hne, h.inside source target hedge⟩

end ChangeImpact.Graph
