import ChangeImpact.Graph.Consistency
import ChangeImpact.Proofs.Collections.PathSet
import ChangeImpact.Proofs.Collections.Table
import ChangeImpact.Proofs.Steps

/-!
# Balanced graphs

A graph is balanced when its two maps of edges have the nodes as keys, are inverse to each other and
stay inside the graph, and when no node has been renamed or cut loose.  `check` accepts balanced graphs
(`check_eq_ok`), and every operation keeps a balanced graph balanced, also where it fails.

What an operation does to the edges is said by the targets of every file alone: in a balanced graph
they determine the importers.
-/

namespace ChangeImpact.Graph

/-- The two maps of edges fit each other and the nodes. -/
structure Balanced (g : Graph) : Prop where
  mem_edges : ∀ path, path ∈ g.edges ↔ path ∈ g.nodes
  mem_reverseEdges : ∀ path, path ∈ g.reverseEdges ↔ path ∈ g.nodes
  nodePath : ∀ path node, g.nodes.get? path = some node → node.path = path
  attached : ∀ path node, g.nodes.get? path = some node →
    node.ownDependencies = none ∧ node.ownDependents = none
  inverse : ∀ source target, target ∈ g.targets source ↔ source ∈ g.importers target
  inside : ∀ source target, target ∈ g.targets source → target ∈ g.nodes

variable {g : Graph} {path source target : String} {node : FileNode}

theorem hasNode_iff : g.hasNode path = true ↔ path ∈ g.nodes := Table.contains_iff

theorem kindOf?_eq_none_of_not_mem (h : path ∉ g.nodes) : g.kindOf? path = none := by
  rw [kindOf?, Table.get?_eq_none_iff.mpr h]
  rfl

theorem mem_filesOfKind {kind : FileKind} : path ∈ g.filesOfKind kind ↔ g.kindOf? path = some kind := by
  rw [filesOfKind, PathSet.mem_ofList, kindOf?, Option.map_eq_some_iff]
  constructor
  · intro hpath
    obtain ⟨⟨key, node⟩, hentry, rfl⟩ := List.mem_map.mp hpath
    obtain ⟨hnode, hkind⟩ := List.mem_filter.mp hentry
    exact ⟨node, Table.mem_entries_iff.mp hnode, beq_iff_eq.mp hkind⟩
  · rintro ⟨node, hnode, hkind⟩
    refine List.mem_map.mpr ⟨(path, node), List.mem_filter.mpr ⟨?_, ?_⟩, rfl⟩
    · exact Table.mem_entries_iff.mpr hnode
    · exact beq_iff_eq.mpr hkind

theorem mem_edges_of_mem_targets (h : target ∈ g.targets source) : source ∈ g.edges := by
  cases hrow : g.edges.get? source with
  | none => simp [targets, hrow] at h
  | some row => exact Table.mem_of_get? hrow

theorem mem_reverseEdges_of_mem_importers (h : source ∈ g.importers target) : target ∈ g.reverseEdges := by
  cases hrow : g.reverseEdges.get? target with
  | none => simp [importers, hrow] at h
  | some row => exact Table.mem_of_get? hrow

theorem Balanced.source_mem (h : g.Balanced) (hedge : target ∈ g.targets source) :
    source ∈ g.nodes :=
  (h.mem_edges source).mp (mem_edges_of_mem_targets hedge)

theorem Balanced.importer_mem (h : g.Balanced) (hedge : source ∈ g.importers target) :
    source ∈ g.nodes :=
  h.source_mem ((h.inverse source target).mpr hedge)

theorem balanced_empty : (∅ : Graph).Balanced where
  mem_edges _ := Iff.rfl
  mem_reverseEdges _ := Iff.rfl
  nodePath _ _ h := nomatch h
  attached _ _ h := nomatch h
  inverse _ _ := iff_of_false PathSet.not_mem_empty PathSet.not_mem_empty
  inside _ _ h := absurd h PathSet.not_mem_empty

/-! ## Checking -/

theorem sameKeys_iff {ν μ : Type} {first : Table ν} {second : Table μ} :
    sameKeys first second = true ↔ ∀ path, path ∈ first ↔ path ∈ second := by
  rw [sameKeys, Bool.and_eq_true, List.all_eq_true, List.all_eq_true]
  constructor
  · rintro ⟨hfirst, hsecond⟩ path
    exact ⟨fun hpath => Table.contains_iff.mp (hfirst path hpath),
      fun hpath => Table.contains_iff.mp (hsecond path hpath)⟩
  · exact fun h => ⟨fun path hpath => Table.contains_iff.mpr ((h path).mp hpath),
      fun path hpath => Table.contains_iff.mpr ((h path).mpr hpath)⟩

theorem checkTarget_eq_ok_iff :
    g.checkTarget path target = .ok () ↔ target ∈ g.nodes ∧ path ∈ g.importers target := by
  rw [← hasNode_iff, ← PathSet.contains_eq_true, checkTarget]
  cases g.hasNode target with
  | false => simp
  | true => cases (g.importers target).contains path <;> simp

theorem checkSource_eq_ok_iff :
    g.checkSource path source = .ok () ↔ source ∈ g.nodes ∧ path ∈ g.targets source := by
  rw [← hasNode_iff, ← PathSet.contains_eq_true, checkSource]
  cases g.hasNode source with
  | false => simp
  | true => cases (g.targets source).contains path <;> simp

theorem checkNode_eq (path : String) (node : FileNode) : g.checkNode path node =
    if node.path ≠ path then .error (.wrongPath path node.path)
    else if node.ownDependencies.isSome || node.ownDependents.isSome then .error (.detached path)
    else (g.targets path).toList.forM (g.checkTarget path) >>= fun _ =>
      (g.importers path).toList.forM (g.checkSource path) := by
  unfold checkNode
  simp only [bne_iff_ne]
  split
  · rfl
  · split
    · rfl
    · rfl

/-- A node of which nothing is reported has its own path and the sets of the maps, and its edges lead there and
back. -/
theorem checkNode_eq_ok_iff : g.checkNode path node = .ok () ↔
    node.path = path ∧ (node.ownDependencies = none ∧ node.ownDependents = none) ∧
      (∀ target, target ∈ g.targets path → target ∈ g.nodes ∧ path ∈ g.importers target) ∧
      ∀ source, source ∈ g.importers path → source ∈ g.nodes ∧ path ∈ g.targets source := by
  have hloops : ((g.targets path).toList.forM (g.checkTarget path) >>= fun _ =>
      (g.importers path).toList.forM (g.checkSource path)) = .ok () ↔
        (∀ target, target ∈ g.targets path → target ∈ g.nodes ∧ path ∈ g.importers target) ∧
          ∀ source, source ∈ g.importers path → source ∈ g.nodes ∧ path ∈ g.targets source := by
    rw [then_eq_ok_iff, forM_eq_ok_iff, forM_eq_ok_iff]
    exact and_congr (forall₂_congr fun _ _ => checkTarget_eq_ok_iff) (forall₂_congr fun _ _ => checkSource_eq_ok_iff)
  rw [checkNode_eq, ← hloops]
  by_cases hpath : node.path = path
  · by_cases hdetached : (node.ownDependencies.isSome || node.ownDependents.isSome) = true
    · rw [if_neg (not_not.mpr hpath), if_pos hdetached]
      simp only [Bool.or_eq_true, Option.isSome_iff_ne_none] at hdetached
      refine iff_of_false nofun fun h => ?_
      exact hdetached.elim (fun hown => hown h.2.1.1) fun hown => hown h.2.1.2
    · rw [if_neg (not_not.mpr hpath), if_neg hdetached]
      simp only [Bool.or_eq_true, Option.isSome_iff_ne_none, not_or, not_not] at hdetached
      exact ⟨fun h => ⟨hpath, hdetached, h⟩, fun h => h.2.2⟩
  · rw [if_pos hpath]
    exact iff_of_false nofun fun h => hpath h.1

theorem check_eq (g : Graph) : g.check =
    if !sameKeys g.edges g.nodes || !sameKeys g.reverseEdges g.nodes then .error .differentKeys
    else g.nodes.entries.forM fun entry => g.checkNode entry.1 entry.2 := by
  rw [check]
  split
  · rfl
  · rfl

/-- A balanced graph passes its check. -/
theorem Balanced.check_eq_ok (h : g.Balanced) : g.check = .ok () := by
  rw [check_eq, sameKeys_iff.mpr h.mem_edges, sameKeys_iff.mpr h.mem_reverseEdges]
  refine forM_eq_ok_iff.mpr fun entry hentry => ?_
  have hnode := Table.mem_entries_iff.mp hentry
  refine checkNode_eq_ok_iff.mpr ⟨h.nodePath _ _ hnode, h.attached _ _ hnode, fun target hedge => ?_, fun source hedge => ?_⟩
  · exact ⟨h.inside _ _ hedge, (h.inverse _ _).mp hedge⟩
  · exact ⟨h.importer_mem hedge, (h.inverse _ _).mpr hedge⟩

/-! ## Dropping edges -/

/-- Drops some edges, one after another. -/
def dropEdges (g : Graph) (edges : List (String × String)) : Graph :=
  edges.foldl (fun g edge => g.removeEdge edge.1 edge.2) g

theorem clearDependencies_eq (g : Graph) (path : String) :
    g.clearDependencies path = g.dropEdges ((g.targets path).toList.map fun target =>
      (path, target)) := by
  rw [clearDependencies, dropEdges, List.foldl_map]

theorem clearDependents_eq (g : Graph) (path : String) :
    g.clearDependents path = g.dropEdges ((g.importers path).toList.map fun source =>
      (source, path)) := by
  rw [clearDependents, dropEdges, List.foldl_map]

theorem mem_getD_modify {table : Table PathSet} {key other member : String}
    {change : PathSet → PathSet} :
    member ∈ ((table.modify key change).get? other).getD ∅ ↔
      if other = key then ∃ row, table.get? other = some row ∧ member ∈ change row
      else member ∈ (table.get? other).getD ∅ := by
  rw [Table.get?_modify]
  split
  · cases table.get? other with
    | none => simp
    | some row => simp
  · exact Iff.rfl

theorem mem_targets_removeEdge {other member : String} :
    member ∈ (g.removeEdge source target).targets other ↔
      member ∈ g.targets other ∧ (other, member) ≠ (source, target) := by
  show member ∈ ((g.edges.modify source _).get? other).getD ∅ ↔ _
  rw [mem_getD_modify]
  unfold targets
  split
  · rename_i heq
    subst heq
    cases g.edges.get? other with
    | none => simp
    | some row => simp
  · rename_i hne
    simp [hne]

theorem mem_importers_removeEdge {other member : String} :
    member ∈ (g.removeEdge source target).importers other ↔
      member ∈ g.importers other ∧ (member, other) ≠ (source, target) := by
  show member ∈ ((g.reverseEdges.modify target _).get? other).getD ∅ ↔ _
  rw [mem_getD_modify]
  unfold importers
  split
  · rename_i heq
    subst heq
    cases g.reverseEdges.get? other with
    | none => simp
    | some row => simp
  · rename_i hne
    simp [hne]

theorem mem_targets_dropEdges {edges : List (String × String)} :
    target ∈ (g.dropEdges edges).targets source ↔
      target ∈ g.targets source ∧ (source, target) ∉ edges := by
  induction edges generalizing g with
  | nil => simp [dropEdges]
  | cons edge rest ih =>
      show target ∈ ((g.removeEdge edge.1 edge.2).dropEdges rest).targets source ↔ _
      rw [ih, mem_targets_removeEdge, and_assoc, List.mem_cons, not_or]

theorem mem_importers_dropEdges {edges : List (String × String)} :
    source ∈ (g.dropEdges edges).importers target ↔
      source ∈ g.importers target ∧ (source, target) ∉ edges := by
  induction edges generalizing g with
  | nil => simp [dropEdges]
  | cons edge rest ih =>
      show source ∈ ((g.removeEdge edge.1 edge.2).dropEdges rest).importers target ↔ _
      rw [ih, mem_importers_removeEdge, and_assoc, List.mem_cons, not_or]

@[simp] theorem nodes_dropEdges (g : Graph) (edges : List (String × String)) :
    (g.dropEdges edges).nodes = g.nodes := by
  induction edges generalizing g with
  | nil => rfl
  | cons edge rest ih => exact ih (g.removeEdge edge.1 edge.2)

@[simp] theorem diagnostics_dropEdges (g : Graph) (edges : List (String × String)) :
    (g.dropEdges edges).diagnostics = g.diagnostics := by
  induction edges generalizing g with
  | nil => rfl
  | cons edge rest ih => exact ih (g.removeEdge edge.1 edge.2)

theorem mem_edges_dropEdges {edges : List (String × String)} :
    path ∈ (g.dropEdges edges).edges ↔ path ∈ g.edges := by
  induction edges generalizing g with
  | nil => rfl
  | cons edge rest ih => exact (ih (g := g.removeEdge edge.1 edge.2)).trans Table.mem_modify

theorem mem_reverseEdges_dropEdges {edges : List (String × String)} :
    path ∈ (g.dropEdges edges).reverseEdges ↔ path ∈ g.reverseEdges := by
  induction edges generalizing g with
  | nil => rfl
  | cons edge rest ih => exact (ih (g := g.removeEdge edge.1 edge.2)).trans Table.mem_modify

theorem Balanced.dropEdges (h : g.Balanced) (edges : List (String × String)) :
    (g.dropEdges edges).Balanced where
  mem_edges path := by rw [mem_edges_dropEdges, nodes_dropEdges, h.mem_edges]
  mem_reverseEdges path := by rw [mem_reverseEdges_dropEdges, nodes_dropEdges, h.mem_reverseEdges]
  nodePath path node hnode := h.nodePath path node (by rwa [nodes_dropEdges] at hnode)
  attached path node hnode := h.attached path node (by rwa [nodes_dropEdges] at hnode)
  inverse source target := by
    rw [mem_targets_dropEdges, mem_importers_dropEdges, h.inverse]
  inside source target hedge := by
    rw [nodes_dropEdges]
    exact h.inside source target (mem_targets_dropEdges.mp hedge).1

/-- After clearing a file nothing is left of the edges from it, and all others are. -/
theorem mem_targets_clearDependencies :
    target ∈ (g.clearDependencies path).targets source ↔
      target ∈ g.targets source ∧ source ≠ path := by
  rw [clearDependencies_eq, mem_targets_dropEdges]
  refine and_congr_right fun hedge => not_congr ⟨?_, ?_⟩
  · intro hmem
    obtain ⟨other, -, heq⟩ := List.mem_map.mp hmem
    exact (congrArg Prod.fst heq).symm
  · rintro rfl
    exact List.mem_map.mpr ⟨target, hedge, rfl⟩

end ChangeImpact.Graph
