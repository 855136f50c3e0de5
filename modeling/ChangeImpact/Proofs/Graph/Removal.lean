import ChangeImpact.Proofs.Graph.Rows

/-!
# What is left when files are removed

A graph induces a graph on some of its files: their nodes, and the edges between them (`induced`).  Removing a file
leaves the graph that is induced on the other files (`Balanced.without_eq_induced`), although its edges go one by one,
first those from it and then those to it that are left.

Inducing twice is inducing once (`induced_induced`).  So removing several files, one after another, leaves the graph
induced on the rest, and their order does not matter, not even for the order of the keys (`removal_leaves_induced`).
-/

namespace ChangeImpact.Graph

variable {g : Graph} {path source target : String} {keep other : String → Bool}

/-! ## Rows among some files -/

/-- The rows of the files that are kept, without the members that are not. -/
def keptRows (rows : Table PathSet) (keep : String → Bool) : Table PathSet :=
  (rows.restrict keep).map fun _ row => row.filter keep

theorem keys_keptRows (rows : Table PathSet) (keep : String → Bool) :
    (keptRows rows keep).keys = rows.keys.filter keep := by
  rw [keptRows, Table.keys_map, Table.keys_restrict]

theorem get?_keptRows (rows : Table PathSet) (keep : String → Bool) (path : String) :
    (keptRows rows keep).get? path = if keep path then (rows.get? path).map (·.filter keep) else none := by
  rw [keptRows, Table.get?_map, Table.get?_restrict]
  split <;> rfl

theorem mem_keptRows {rows : Table PathSet} : path ∈ keptRows rows keep ↔ path ∈ rows ∧ keep path = true := by
  rw [keptRows, Table.mem_map, Table.mem_restrict]

theorem mem_getD_keptRows {rows : Table PathSet} {member : String} :
    member ∈ ((keptRows rows keep).get? path).getD ∅ ↔
      member ∈ (rows.get? path).getD ∅ ∧ keep path = true ∧ keep member = true := by
  rw [get?_keptRows]
  split
  · rename_i hkeep
    cases rows.get? path with
    | none => simp
    | some row => simp [hkeep]
  · rename_i hkeep
    simp [hkeep]

theorem keptRows_keptRows (rows : Table PathSet) (keep other : String → Bool) :
    keptRows (keptRows rows keep) other = keptRows rows fun path => keep path && other path := by
  refine Table.ext ?_ fun path => ?_
  · rw [keys_keptRows, keys_keptRows, keys_keptRows, List.filter_filter]
    simp only [Bool.and_comm]
  · rw [get?_keptRows, get?_keptRows, get?_keptRows]
    cases keep path with
    | false => cases other path <;> rfl
    | true =>
        cases other path with
        | false => rfl
        | true => simp [Function.comp_def, PathSet.filter_filter]

theorem keptRows_of_all {rows : Table PathSet} (h : ∀ path, keep path = true) : keptRows rows keep = rows := by
  refine Table.ext ?_ fun path => ?_
  · rw [keys_keptRows, List.filter_eq_self.mpr fun path _ => h path]
  · have hrow : ∀ row : PathSet, row.filter keep = row := fun row =>
      PathSet.ext fun member => by rw [PathSet.mem_filter, and_iff_left (h member)]
    rw [get?_keptRows, if_pos (h path)]
    simp [hrow]

/-! ## Induced graphs -/

/-- The graph induced on some files: their nodes, and the edges between them. -/
def induced (g : Graph) (keep : String → Bool) : Graph where
  nodes := g.nodes.restrict keep
  edges := keptRows g.edges keep
  reverseEdges := keptRows g.reverseEdges keep
  diagnostics := g.diagnostics

@[simp] theorem nodes_induced (g : Graph) (keep : String → Bool) : (g.induced keep).nodes = g.nodes.restrict keep :=
  rfl

@[simp] theorem edges_induced (g : Graph) (keep : String → Bool) : (g.induced keep).edges = keptRows g.edges keep :=
  rfl

@[simp] theorem reverseEdges_induced (g : Graph) (keep : String → Bool) :
    (g.induced keep).reverseEdges = keptRows g.reverseEdges keep :=
  rfl

theorem induced_induced (g : Graph) (keep other : String → Bool) :
    (g.induced keep).induced other = g.induced fun path => keep path && other path := by
  simp only [induced, Table.restrict_restrict, keptRows_keptRows]

theorem induced_of_all (h : ∀ path, keep path = true) : g.induced keep = g := by
  have hnodes : g.nodes.restrict keep = g.nodes := by
    refine Table.ext ?_ fun path => ?_
    · rw [Table.keys_restrict, List.filter_eq_self.mpr fun path _ => h path]
    · rw [Table.get?_restrict, if_pos (h path)]
  rw [induced, hnodes, keptRows_of_all h, keptRows_of_all h]

theorem mem_targets_induced :
    target ∈ (g.induced keep).targets source ↔ target ∈ g.targets source ∧ keep source = true ∧ keep target = true :=
  mem_getD_keptRows

theorem mem_importers_induced :
    source ∈ (g.induced keep).importers target ↔
      source ∈ g.importers target ∧ keep target = true ∧ keep source = true :=
  mem_getD_keptRows

/-- A balanced graph induces balanced graphs. -/
theorem Balanced.induced (hg : g.Balanced) (keep : String → Bool) : (g.induced keep).Balanced where
  mem_edges path := by
    rw [edges_induced, nodes_induced, mem_keptRows, Table.mem_restrict, hg.mem_edges]
  mem_reverseEdges path := by
    rw [reverseEdges_induced, nodes_induced, mem_keptRows, Table.mem_restrict, hg.mem_reverseEdges]
  nodePath path node hnode := by
    rw [nodes_induced, Table.get?_restrict] at hnode
    split at hnode
    · exact hg.nodePath path node hnode
    · cases hnode
  attached path node hnode := by
    rw [nodes_induced, Table.get?_restrict] at hnode
    split at hnode
    · exact hg.attached path node hnode
    · cases hnode
  inverse source target := by
    rw [mem_targets_induced, mem_importers_induced, hg.inverse, and_comm (a := keep source = true)]
  inside source target hedge := by
    obtain ⟨hedge, -, hkeep⟩ := mem_targets_induced.mp hedge
    exact Table.mem_restrict.mpr ⟨hg.inside source target hedge, hkeep⟩

/-! ## Removing one file -/

/-- The keys of the others stay in their order. -/
theorem keys_without (g : Graph) (path : String) :
    (g.without path).edges.keys = g.edges.keys.filter (· != path) ∧
      (g.without path).reverseEdges.keys = g.reverseEdges.keys.filter (· != path) := by
  have hcleared : g.Rewired ((g.clearDependencies path).clearDependents path) :=
    (rewired_clearDependencies g path).trans (rewired_clearDependents _ path)
  rw [← hcleared.edges, ← hcleared.reverseEdges, ← Table.keys_erase, ← Table.keys_erase]
  exact ⟨rfl, rfl⟩

/-- The graph without a file is the graph induced on the other files. -/
theorem Balanced.without_eq_induced (hg : g.Balanced) (path : String) : g.without path = g.induced (· != path) := by
  have hnodes : (g.without path).nodes = (g.induced (· != path)).nodes := by
    rw [nodes_without, nodes_induced, Table.erase_eq_restrict]
  have hequal : (g.without path).Equal (g.induced (· != path)) := by
    refine (hg.without path).equal (hg.induced _) (fun other => by rw [hnodes]) fun source => PathSet.ext fun target => ?_
    rw [hg.mem_targets_without, mem_targets_induced, bne_iff_ne, bne_iff_ne]
  refine hequal.eq (congrArg Table.keys hnodes) ?_ ?_ (diagnostics_without g path)
  · exact (keys_without g path).1.trans (keys_keptRows g.edges _).symm
  · exact (keys_without g path).2.trans (keys_keptRows g.reverseEdges _).symm

/-- A row of another file loses the removed file, and the row of that file itself is gone. -/
theorem get?_keptRows_ne (rows : Table PathSet) (path other : String) :
    (keptRows rows (· != path)).get? other = if other = path then none else (rows.get? other).map (·.erase path) := by
  rw [get?_keptRows]
  by_cases heq : other = path
  · simp [heq]
  · simp only [heq, if_false, bne_iff_ne, ne_eq, not_false_iff, if_true]
    rfl

/-! ## Removing several files -/

/-- Some files have been removed one after another, and their nodes have been given back. -/
structure FilesRemoved (before : Graph) (files : List String) (results : List (Option FileNode)) (after : Graph) :
    Prop where
  left : after = before.induced fun path => decide (path ∉ files)
  results : ∃ removed : List FileNode, removed.map (·.path) = files ∧ results = removed.map some

theorem filesRemoved_nil (g : Graph) : FilesRemoved g [] [] g :=
  ⟨(induced_of_all fun _ => by simp).symm, [], rfl, rfl⟩

/-- The next file is removed from the graph that is induced on the files that are left. -/
theorem FilesRemoved.ends_removeNode {done : List String} {results : List (Option FileNode)} {state : Graph}
    (h : FilesRemoved g done results state) (hg : g.Balanced) (hpath : path ∈ g.nodes) (hnew : path ∉ done) :
    Ends (removeNode path) state (fun result after => FilesRemoved g (done ++ [path]) (results ++ [result]) after)
      fun _ _ => False := by
  obtain ⟨rfl, removed, hremoved, rfl⟩ := h
  have hbalanced := hg.induced fun path => decide (path ∉ done)
  have hleft : path ∈ (g.induced fun path => decide (path ∉ done)).nodes := by
    rw [nodes_induced, Table.mem_restrict]
    exact ⟨hpath, decide_eq_true hnew⟩
  obtain ⟨node, hnode⟩ := Table.mem_iff_exists.mp hleft
  refine .of_eq_ok (hbalanced.removeNode_eq_ok hnode) ⟨?_, removed ++ [_], ?_, by rw [List.map_append]; rfl⟩
  · rw [hbalanced.without_eq_induced, induced_induced]
    refine congrArg g.induced (funext fun other => ?_)
    rw [Bool.eq_iff_iff]
    simp
  · rw [List.map_append, hremoved, List.map_singleton]
    exact congrArg (done ++ [·]) (hbalanced.nodePath path node hnode)

/-- Files are removed one after another, each of them once. -/
theorem Balanced.ends_removeNodes (hg : g.Balanced) {files : List String} (hnodup : files.Nodup)
    (hfiles : ∀ path ∈ files, path ∈ g.nodes) :
    Ends (files.mapM removeNode) g (fun results after => FilesRemoved g files results after) fun _ _ => False := by
  refine .mapM (FilesRemoved g) ?_ (filesRemoved_nil g)
  rintro done path rest results state rfl hdone
  have hnew : path ∉ done := fun hmem => (List.nodup_append.mp hnodup).2.2 path hmem path (by simp) rfl
  exact hdone.ends_removeNode hg (hfiles path (by simp)) hnew

/-- Removing a file leaves the graph induced on the other files: their nodes are as they were, their rows have lost
the file and nothing else, and no map knows the file any more.  Removing a set of files, one after another, leaves the
graph induced on the rest, in whatever order they go. -/
theorem removal_leaves_induced (hg : g.Balanced) :
    (∀ path ∈ g.nodes, ∃ node after, removeNode path g = .ok (some node) after ∧
      after = g.induced (· != path) ∧ after.diagnostics = g.diagnostics ∧
      (∀ other, after.nodes.get? other = if other = path then none else g.nodes.get? other) ∧
      (∀ other, after.edges.get? other =
        if other = path then none else (g.edges.get? other).map (·.erase path)) ∧
      ∀ other, after.reverseEdges.get? other =
        if other = path then none else (g.reverseEdges.get? other).map (·.erase path)) ∧
    ∀ files : PathSet, (∀ path ∈ files, path ∈ g.nodes) → ∀ order : List String, order.Perm files.toList →
      ∃ removed : List FileNode, removed.map (·.path) = order ∧
        order.mapM removeNode g = .ok (removed.map some) (g.induced fun path => !files.contains path) := by
  refine ⟨fun path hpath => ?_, fun files hfiles order horder => ?_⟩
  · obtain ⟨node, hnode⟩ := hg.removeNode_of_mem hpath
    rw [hg.without_eq_induced] at hnode
    refine ⟨node, _, hnode, rfl, rfl, fun other => ?_, get?_keptRows_ne g.edges path,
      get?_keptRows_ne g.reverseEdges path⟩
    rw [nodes_induced, ← Table.erase_eq_restrict, Table.get?_erase]
  · have hmem : ∀ path, path ∈ order ↔ path ∈ files := fun path => horder.mem_iff
    have hrest : (fun path => decide (path ∉ order)) = fun path => !files.contains path := by
      funext path
      rw [Bool.eq_iff_iff]
      simp [hmem, PathSet.contains]
    obtain ⟨_, _, hrun, rfl, removed, hremoved, rfl⟩ :=
      (hg.ends_removeNodes (horder.nodup_iff.mpr files.nodup_toList)
        fun path hpath => hfiles path ((hmem path).mp hpath)).succeeds fun _ _ hbad => hbad
    exact ⟨removed, hremoved, hrest ▸ hrun⟩

/-- A file that imports itself, one that imports it back, and a third one that imports the first. -/
theorem removal_leaves_induced_of_mutual_imports :
    let nodes : Table FileNode := .ofList [("a", { path := "a" }), ("b", { path := "b" }), ("c", { path := "c" })]
    let edges : Table PathSet := .ofList [("a", .ofList ["a", "b"]), ("b", .ofList ["a", "c"]), ("c", .ofList ["a"])]
    let reverseEdges : Table PathSet :=
      .ofList [("a", .ofList ["a", "b", "c"]), ("b", .ofList ["a"]), ("c", .ofList ["b"])]
    let g : Graph := { nodes, edges, reverseEdges }
    g.Balanced ∧ "a" ∈ g.nodes ∧ (∀ path ∈ PathSet.ofList ["a", "b"], path ∈ g.nodes) ∧
      ["b", "a"].Perm (PathSet.ofList ["a", "b"]).toList ∧
      (∃ node after, removeNode "a" g = .ok (some node) after ∧ after.edges.get? "a" = none ∧
        after.edges.get? "b" = some (.ofList ["c"]) ∧ after.reverseEdges.get? "b" = some ∅) ∧
      ∃ removed after, ["b", "a"].mapM removeNode g = .ok removed after ∧
        after.nodes.keys = ["c"] ∧ after.edges.get? "c" = some ∅ ∧ after.reverseEdges.get? "c" = some ∅ := by
  intro nodes edges reverseEdges g
  have hg : g.Balanced := balanced_of_check rfl
  have hfiles : ∀ path ∈ PathSet.ofList ["a", "b"], path ∈ g.nodes := by
    intro path hpath
    rw [PathSet.mem_ofList, List.mem_pair] at hpath
    rcases hpath with rfl | rfl
    · decide
    · decide
  have horder : ["b", "a"].Perm (PathSet.ofList ["a", "b"]).toList := by decide
  obtain ⟨hone, hmany⟩ := removal_leaves_induced hg
  obtain ⟨node, after, hafter, -, -, -, hedges, hreverse⟩ := hone "a" (by decide)
  obtain ⟨removed, -, hremoved⟩ := hmany (.ofList ["a", "b"]) hfiles ["b", "a"] horder
  refine ⟨hg, by decide, hfiles, horder, ⟨node, after, hafter, ?_, ?_, ?_⟩, _, _, hremoved, ?_, ?_, ?_⟩
  · rw [hedges]; rfl
  · rw [hedges]; rfl
  · rw [hreverse]; rfl
  · decide
  · decide
  · decide

end ChangeImpact.Graph
