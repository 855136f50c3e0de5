import ChangeImpact.Proofs.Graph.Balance

/-!
# What a check finds

A graph passes its check if and only if it is balanced, whatever has been done to its maps, and otherwise the check
names something that is wrong with it (`check_ok_or_violated`).

* A violation says something of a graph (`Violated`), and whatever a check reports is so (`violated_of_check`).
* The check looks into entries of nodes that it has not come to yet, and a map may lack them.  With look-ups that
  fail in this case (`checkEntries`) it still ends in the same way (`checkEntries_eq`): once the keys of the maps have
  been found to be the same, an entry is looked up only for a node.
-/

namespace ChangeImpact.Graph

variable {g : Graph} {path target source : String} {node : FileNode} {cause : Violation}

/-! ## What is wrong with a graph -/

/-- What a violation says of a graph.  The first two are about changes that are refused, and say nothing. -/
def Violated (g : Graph) : Violation → Prop
  | .duplicateNode _ => False
  | .unknownEnd _ _ => False
  | .differentKeys => ¬ ((∀ path, path ∈ g.edges ↔ path ∈ g.nodes) ∧ ∀ path, path ∈ g.reverseEdges ↔ path ∈ g.nodes)
  | .wrongPath key path => path ≠ key ∧ ∃ node, g.nodes.get? key = some node ∧ node.path = path
  | .detached path =>
      ∃ node, g.nodes.get? path = some node ∧ ¬ (node.ownDependencies = none ∧ node.ownDependents = none)
  | .targetOutside path target => target ∈ g.targets path ∧ target ∉ g.nodes
  | .missingReverse path target => target ∈ g.targets path ∧ path ∉ g.importers target
  | .sourceOutside path source => source ∈ g.importers path ∧ source ∉ g.nodes
  | .missingForward path source => source ∈ g.importers path ∧ path ∉ g.targets source

theorem Balanced.not_violated (h : g.Balanced) (cause : Violation) : ¬ g.Violated cause := by
  cases cause with
  | duplicateNode path => exact id
  | unknownEnd source target => exact id
  | differentKeys => exact fun hkeys => hkeys ⟨h.mem_edges, h.mem_reverseEdges⟩
  | wrongPath key path =>
      rintro ⟨hpath, node, hnode, rfl⟩
      exact hpath (h.nodePath key node hnode)
  | detached path =>
      rintro ⟨node, hnode, hdetached⟩
      exact hdetached (h.attached path node hnode)
  | targetOutside path target => exact fun ⟨hedge, houtside⟩ => houtside (h.inside path target hedge)
  | missingReverse path target => exact fun ⟨hedge, hmissing⟩ => hmissing ((h.inverse path target).mp hedge)
  | sourceOutside path source => exact fun ⟨hedge, houtside⟩ => houtside (h.importer_mem hedge)
  | missingForward path source => exact fun ⟨hedge, hmissing⟩ => hmissing ((h.inverse source path).mpr hedge)

/-! ## One part of the check after the other -/

theorem violated_of_checkTarget (hedge : target ∈ g.targets path) (h : g.checkTarget path target = .error cause) :
    g.Violated cause := by
  rw [checkTarget] at h
  split at h
  · rename_i houtside
    cases h
    exact ⟨hedge, by simpa [← hasNode_iff] using houtside⟩
  · split at h
    · rename_i hmissing
      cases h
      exact ⟨hedge, by simpa [← PathSet.contains_eq_true] using hmissing⟩
    · cases h

theorem violated_of_checkSource (hedge : source ∈ g.importers path) (h : g.checkSource path source = .error cause) :
    g.Violated cause := by
  rw [checkSource] at h
  split at h
  · rename_i houtside
    cases h
    exact ⟨hedge, by simpa [← hasNode_iff] using houtside⟩
  · split at h
    · rename_i hmissing
      cases h
      exact ⟨hedge, by simpa [← PathSet.contains_eq_true] using hmissing⟩
    · cases h

/-- What the check reports of a node is so. -/
theorem violated_of_checkNode (hnode : g.nodes.get? path = some node)
    (h : g.checkNode path node = .error cause) : g.Violated cause := by
  rw [checkNode_eq] at h
  split at h
  · rename_i hpath
    cases h
    exact ⟨hpath, node, hnode, rfl⟩
  · split at h
    · rename_i hdetached
      cases h
      exact ⟨node, hnode, by simpa [← Option.isSome_iff_ne_none, or_iff_not_imp_left] using hdetached⟩
    · cases htargets : (g.targets path).toList.forM (g.checkTarget path) with
      | error first =>
          rw [htargets] at h
          cases h
          obtain ⟨target, hedge, hfault⟩ := exists_of_forM_eq_error htargets
          exact violated_of_checkTarget hedge hfault
      | ok _ =>
          rw [htargets] at h
          obtain ⟨source, hedge, hfault⟩ := exists_of_forM_eq_error h
          exact violated_of_checkSource hedge hfault

/-! ## The whole check -/

theorem not_sameKeys_iff : (!sameKeys g.edges g.nodes || !sameKeys g.reverseEdges g.nodes) = true ↔
    g.Violated .differentKeys := by
  rw [Violated, ← sameKeys_iff, ← sameKeys_iff]
  cases sameKeys g.edges g.nodes <;> cases sameKeys g.reverseEdges g.nodes <;> simp

/-- What the check reports is so. -/
theorem violated_of_check (h : g.check = .error cause) : g.Violated cause := by
  rw [check_eq] at h
  split at h
  · rename_i hkeys
    cases h
    exact not_sameKeys_iff.mp hkeys
  · obtain ⟨entry, hentry, hfault⟩ := exists_of_forM_eq_error h
    exact violated_of_checkNode (Table.mem_entries_iff.mp hentry) hfault

/-- A graph of which nothing is reported is balanced. -/
theorem balanced_of_check (h : g.check = .ok ()) : g.Balanced := by
  rw [check_eq] at h
  split at h
  · cases h
  · rename_i hkeys
    rw [not_sameKeys_iff, Violated, not_not] at hkeys
    have hnodes : ∀ path node, g.nodes.get? path = some node → g.checkNode path node = .ok () :=
      fun path node hnode => forM_eq_ok_iff.mp h (path, node) (Table.mem_entries_iff.mpr hnode)
    -- an edge has an entry at its own end, so this end is a node, and the check has been there
    have htargets : ∀ source target, target ∈ g.targets source → target ∈ g.nodes ∧ source ∈ g.importers target := by
      intro source target hedge
      obtain ⟨node, hnode⟩ := Table.mem_iff_exists.mp ((hkeys.1 source).mp (mem_edges_of_mem_targets hedge))
      exact (checkNode_eq_ok_iff.mp (hnodes source node hnode)).2.2.1 target hedge
    have hsources : ∀ source target, source ∈ g.importers target → target ∈ g.targets source := by
      intro source target hedge
      obtain ⟨node, hnode⟩ := Table.mem_iff_exists.mp ((hkeys.2 target).mp (mem_reverseEdges_of_mem_importers hedge))
      exact ((checkNode_eq_ok_iff.mp (hnodes target node hnode)).2.2.2 source hedge).2
    exact {
      mem_edges := hkeys.1
      mem_reverseEdges := hkeys.2
      nodePath := fun path node hnode => (checkNode_eq_ok_iff.mp (hnodes path node hnode)).1
      attached := fun path node hnode => (checkNode_eq_ok_iff.mp (hnodes path node hnode)).2.1
      inverse := fun source target => ⟨fun hedge => (htargets source target hedge).2, hsources source target⟩
      inside := fun source target hedge => (htargets source target hedge).1 }

/-! ## Look-ups that may fail -/

/-- What a map holds for a key, which has to be there. -/
def entry {ν : Type} (table : Table ν) (key : String) : Except GraphError ν :=
  match table.get? key with
  | some value => .ok value
  | none => .error (.missingEntry key)

/-- `checkTarget`, which fails if there is no entry for the target. -/
def lookUpTarget (g : Graph) (path target : String) : Except GraphError Unit := do
  if !g.hasNode target then throw (.violation (.targetOutside path target))
  let importers ← entry g.reverseEdges target
  if !importers.contains path then throw (.violation (.missingReverse path target))

/-- `checkSource`, which fails if there is no entry for the source. -/
def lookUpSource (g : Graph) (path source : String) : Except GraphError Unit := do
  if !g.hasNode source then throw (.violation (.sourceOutside path source))
  let targets ← entry g.edges source
  if !targets.contains path then throw (.violation (.missingForward path source))

/-- `checkNode`, which fails if there is no entry for the node or for an end of its edges. -/
def lookUpNode (g : Graph) (path : String) (node : FileNode) : Except GraphError Unit := do
  if node.path ≠ path then throw (.violation (.wrongPath path node.path))
  let targets ← entry g.edges path
  if node.ownDependencies.isSome then throw (.violation (.detached path))
  let importers ← entry g.reverseEdges path
  if node.ownDependents.isSome then throw (.violation (.detached path))
  targets.toList.forM (g.lookUpTarget path)
  importers.toList.forM (g.lookUpSource path)

/-- `check`, which fails if a look-up finds no entry. -/
def checkEntries (g : Graph) : Except GraphError Unit := do
  if !sameKeys g.edges g.nodes || !sameKeys g.reverseEdges g.nodes then throw (.violation .differentKeys)
  g.nodes.entries.forM fun (path, node) => g.lookUpNode path node

theorem entry_edges (h : path ∈ g.edges) : entry g.edges path = .ok (g.targets path) := by
  obtain ⟨row, hrow⟩ := Table.mem_iff_exists.mp h
  rw [entry, targets, hrow, Option.getD_some]

theorem entry_reverseEdges (h : path ∈ g.reverseEdges) : entry g.reverseEdges path = .ok (g.importers path) := by
  obtain ⟨row, hrow⟩ := Table.mem_iff_exists.mp h
  rw [entry, importers, hrow, Option.getD_some]

theorem lookUpTarget_eq (hkeys : target ∈ g.nodes → target ∈ g.reverseEdges) :
    g.lookUpTarget path target = (g.checkTarget path target).mapError .violation := by
  rw [lookUpTarget, checkTarget]
  cases hnode : g.hasNode target with
  | false => rfl
  | true =>
      simp only [Bool.not_true, Bool.false_eq_true, if_false, entry_reverseEdges (hkeys (hasNode_iff.mp hnode)), bind,
        Except.bind]
      cases (g.importers target).contains path <;> rfl

theorem lookUpSource_eq (hkeys : source ∈ g.nodes → source ∈ g.edges) :
    g.lookUpSource path source = (g.checkSource path source).mapError .violation := by
  rw [lookUpSource, checkSource]
  cases hnode : g.hasNode source with
  | false => rfl
  | true =>
      simp only [Bool.not_true, Bool.false_eq_true, if_false, entry_edges (hkeys (hasNode_iff.mp hnode)), bind,
        Except.bind]
      cases (g.targets source).contains path <;> rfl

theorem lookUpNode_eq (hedges : ∀ path, path ∈ g.nodes → path ∈ g.edges)
    (hreverse : ∀ path, path ∈ g.nodes → path ∈ g.reverseEdges) (hnode : path ∈ g.nodes) :
    g.lookUpNode path node = (g.checkNode path node).mapError .violation := by
  have htargets : (g.targets path).toList.forM (g.lookUpTarget path) =
      ((g.targets path).toList.forM (g.checkTarget path)).mapError .violation :=
    forM_eq_mapError fun target _ => lookUpTarget_eq (hreverse target)
  have hsources : (g.importers path).toList.forM (g.lookUpSource path) =
      ((g.importers path).toList.forM (g.checkSource path)).mapError .violation :=
    forM_eq_mapError fun source _ => lookUpSource_eq (hedges source)
  rw [lookUpNode, checkNode_eq, entry_edges (hedges path hnode), entry_reverseEdges (hreverse path hnode)]
  -- no entry is missing, so both checks meet the same violation first, if they meet one
  by_cases hpath : node.path = path
  · rw [if_neg (not_not.mpr hpath), if_neg (not_not.mpr hpath)]
    cases hdependencies : node.ownDependencies.isSome with
    | true => rfl
    | false =>
        cases hdependents : node.ownDependents.isSome with
        | true => rfl
        | false =>
            show ((g.targets path).toList.forM (g.lookUpTarget path) >>= fun _ =>
              (g.importers path).toList.forM (g.lookUpSource path)) = _
            rw [htargets, hsources]
            cases (g.targets path).toList.forM (g.checkTarget path) <;> rfl
  · rw [if_pos hpath, if_pos hpath]
    rfl

/-- No look-up fails: the keys of the maps are compared before anything is looked up. -/
theorem checkEntries_eq (g : Graph) : g.checkEntries = g.check.mapError .violation := by
  rw [checkEntries, check_eq]
  by_cases hkeys : (!sameKeys g.edges g.nodes || !sameKeys g.reverseEdges g.nodes) = true
  · rw [if_pos hkeys, if_pos hkeys]
    rfl
  · rw [if_neg hkeys, if_neg hkeys]
    rw [not_sameKeys_iff, Violated, not_not] at hkeys
    refine forM_eq_mapError fun entry hentry => ?_
    exact lookUpNode_eq (fun path => (hkeys.1 path).mpr) (fun path => (hkeys.2 path).mpr)
      (Table.mem_of_get? (Table.mem_entries_iff.mp hentry))

theorem checkStep_eq (g : Graph) : checkStep g =
    match g.checkEntries with
    | .ok _ => .ok () g
    | .error fault => .error fault g := by
  rw [checkEntries_eq, checkStep, get_bind_eq]
  cases g.check with
  | ok _ => rfl
  | error cause => rfl

/-- A graph passes its check if and only if it is balanced: its maps have the same keys, every node has its own path
and shows the sets of the maps, every edge stays inside, and the two maps of edges are inverse to each other.  Of
every other graph, in whatever way it has come to be, the check reports a violation that is really there, and no
look-up of the check finds an entry missing.  The check changes nothing. -/
theorem check_ok_or_violated (g : Graph) :
    (g.checkEntries = .ok () ↔ g.Balanced) ∧
      (¬ g.Balanced → ∃ cause, g.checkEntries = .error (.violation cause) ∧ g.Violated cause) ∧
      checkStep g =
        match g.checkEntries with
        | .ok _ => .ok () g
        | .error fault => .error fault g := by
  refine ⟨?_, fun hnot => ?_, checkStep_eq g⟩
  · rw [checkEntries_eq]
    constructor
    · intro h
      cases hcheck : g.check with
      | ok _ => exact balanced_of_check hcheck
      | error cause =>
          rw [hcheck] at h
          cases h
    · intro h
      rw [h.check_eq_ok]
      rfl
  · rw [checkEntries_eq]
    cases hcheck : g.check with
    | ok _ => exact absurd (balanced_of_check hcheck) hnot
    | error cause => exact ⟨cause, rfl, violated_of_check hcheck⟩

/-- An edge that one map knows and the other does not, and an edge that leads outside. -/
example :
    let nodes : Table FileNode := .ofList [("a", { path := "a" }), ("b", { path := "b" })]
    let rows : Table PathSet := .ofList [("a", ∅), ("b", ∅)]
    checkEntries { nodes, edges := rows.insert "a" (.ofList ["b"]), reverseEdges := rows } =
        .error (.violation (.missingReverse "a" "b")) ∧
      checkEntries { nodes, edges := rows, reverseEdges := rows.insert "b" (.ofList ["c"]) } =
        .error (.violation (.sourceOutside "b" "c")) := by
  exact ⟨rfl, rfl⟩

end ChangeImpact.Graph
