import ChangeImpact.Graph.Document
import ChangeImpact.Proofs.Graph.Documents
import ChangeImpact.Proofs.Json.Sorted

/-!
# Graphs that have been stored

The document of a balanced graph is read as a graph that is the same but for the times of its files, which
are what the document says they are (`Balanced.ofDocument_restored`).  The document has neither the order in
which the nodes came nor the reverse edges nor rows without edges.  None of this is lost: reading is a
replay, and a replay depends on the order of its entries as little as on rows that are empty.

The fields of the document are found by their names, so the proof does not depend on where they stand.
-/

namespace ChangeImpact

/-- The node as it is restored from a document: its time is what has been read. -/
def FileNode.restored (node : FileNode) : FileNode :=
  { node with lastModified := Json.restored node.lastModified }

namespace Graph

variable {g clone : Graph} {path : String} {step : GraphStep Unit} {state : Graph}

@[simp] theorem restored_jsonTexts (texts : List String) :
    Json.restored (jsonTexts texts) = jsonTexts texts := by
  rw [jsonTexts, Json.restored_array, List.map_map]
  rfl

/-! ## Entries of a document -/

/-- A node is listed as it was written, apart from its time. -/
theorem listsNode_restored (path : String) (node : FileNode) :
    ListsNode (Json.restored (nodeDocument path node)) ⟨path, some (.string node.kind.name),
      some (Json.restored node.lastModified), some node.specifiers⟩ := by
  have hdistinct : ["path", "type", "last_modified", "specifiers"].Nodup := by decide
  obtain ⟨found, hfound, hfields⟩ : ∃ found, Json.restored (nodeDocument path node) = .object found ∧
      ∀ name, Json.field? found name = (Json.field?
        [("path", .string path), ("type", .string node.kind.name), ("last_modified", node.lastModified),
          ("specifiers", jsonTexts node.specifiers)] name).map Json.restored :=
    Json.restored_object hdistinct
  refine ⟨found, hfound, ?_, ?_, ?_, ?_⟩
  · rw [hfields]; rfl
  · rw [hfields]; rfl
  · rw [hfields]; rfl
  · rw [hfields]
    exact congrArg some (restored_jsonTexts _)

/-- A node is read as it was written, apart from its time. -/
theorem readNode_restored (path : String) (node : FileNode) :
    readNode .texts (Json.restored (nodeDocument path node)) = liftStep (do
      addNode path node.restored.kind node.restored.lastModified
      modify (modifyNode path ({ · with specifiers := node.restored.specifiers }))) := by
  rw [readNode_of_lists (listsNode_restored path node), ListedNode.read, ListedNode.kind?, Option.getD_some,
    kindNamed_name, liftRead_ok]
  rfl

/-- A row of edges is read as it was written. -/
theorem readEdges_restored (path : String) (row : PathSet) :
    readEdges .texts (Json.restored (edgesDocument path row)) =
      liftStep (row.toList.forM (addEdge path)) := by
  have hdistinct : ["from", "to"].Nodup := by decide
  obtain ⟨found, hfound, hfields⟩ : ∃ found, Json.restored (edgesDocument path row) = .object found ∧
      ∀ name, Json.field? found name =
        (Json.field? [("from", .string path), ("to", jsonTexts row.toList)] name).map Json.restored :=
    Json.restored_object hdistinct
  have hlists : ListsRow (Json.restored (edgesDocument path row)) ⟨path, row.toList⟩ := by
    refine ⟨found, hfound, ?_, ?_⟩
    · rw [hfields]; rfl
    · rw [hfields]
      exact congrArg some (restored_jsonTexts _)
  exact readEdges_of_lists hlists

/-! ## The whole document -/

/-- A graph as it is read from the document of another one. -/
structure Stored (g stored : Graph) : Prop where
  balanced : stored.Balanced
  nodes : ∀ path, stored.nodes.get? path = (g.nodes.get? path).map FileNode.restored
  targets : ∀ path, stored.targets path = g.targets path
  diagnostics : stored.diagnostics = []

theorem Stored.mem_nodes {stored : Graph} (h : Stored g stored) : path ∈ stored.nodes ↔ path ∈ g.nodes := by
  refine Table.mem_congr ?_
  rw [h.nodes, Option.isSome_map]

/-- The nodes of a document, and its rows of edges. -/
def storedNodes (g : Graph) : List (String × FileNode) :=
  g.nodes.sortedEntries.map fun entry => (entry.1, entry.2.restored)

theorem forM_readNode_restored (entries : List (String × FileNode)) :
    ((entries.map fun (path, node) => nodeDocument path node).map Json.restored).forM (readNode .texts) =
      liftStep ((entries.map fun entry => (entry.1, entry.2.restored)).forM fun (path, node) => do
        addNode path node.kind node.lastModified
        modify (modifyNode path ({ · with specifiers := node.specifiers }))) := by
  rw [liftStep_forM]
  simp only [List.forM_eq_forM, List.forM_map]
  exact congrArg entries.forM (funext fun entry => readNode_restored entry.1 entry.2)

theorem forM_readEdges_restored (rows : List (String × PathSet)) :
    ((rows.map fun (path, targets) => edgesDocument path targets).map Json.restored).forM (readEdges .texts) =
      liftStep (rows.forM fun (path, targets) => targets.toList.forM (addEdge path)) := by
  rw [liftStep_forM]
  simp only [List.forM_eq_forM, List.forM_map]
  exact congrArg rows.forM (funext fun row => readEdges_restored row.1 row.2)

/-- Reading the fields of a document replays its nodes and its rows. -/
theorem readFields_restored (g : Graph) {found : List (String × Json)}
    (hnodes : Json.field? found "nodes" = some (Json.restored (.array
      (g.nodes.sortedEntries.map fun (path, node) => nodeDocument path node))))
    (hedges : Json.field? found "edges" = some (Json.restored (.array
      (g.storedRows.map fun (path, targets) => edgesDocument path targets)))) :
    readFields .texts found = liftStep (do
      replay g.storedNodes g.storedRows
      checkStep) := by
  rw [readFields, hnodes, hedges]
  simp only [Option.getD_some, Json.restored_array, elements, liftRead_ok]
  rw [forM_readNode_restored, forM_readEdges_restored, replay, bind_assoc, liftStep_bind, storedNodes]
  congr 1
  funext _
  rw [liftStep_bind]

theorem lookup_map_restored (entries : List (String × FileNode)) (path : String) :
    (entries.map fun entry => (entry.1, entry.2.restored)).lookup path =
      (entries.lookup path).map FileNode.restored := by
  induction entries with
  | nil => rfl
  | cons entry entries ih =>
      rw [List.map_cons, List.lookup_cons, List.lookup_cons, ih]
      by_cases heq : path = entry.1
      · simp [heq]
      · simp [beq_false_of_ne heq]

theorem lookup_storedNodes (g : Graph) (path : String) :
    g.storedNodes.lookup path = (g.nodes.get? path).map FileNode.restored := by
  rw [storedNodes, lookup_map_restored, Table.lookup_sortedEntries]

/-- The nodes and the rows that a balanced graph stores can be replayed. -/
theorem Balanced.ends_replay_stored (hg : g.Balanced) :
    Ends (replay g.storedNodes g.storedRows) ∅ (fun _ after => Stored g after) (fun _ _ => False) := by
  have hnodes : (g.storedNodes.map (·.1)).Nodup := by
    rw [storedNodes, List.map_map]
    exact g.nodes.nodup_sortedEntries
  have hattached : ∀ entry ∈ g.storedNodes, AttachedNode entry.1 entry.2 := by
    intro entry hentry
    obtain ⟨original, horiginal, rfl⟩ := List.mem_map.mp hentry
    have hnode := hg.attachedNode (Table.mem_entries_iff.mp (Table.mem_sortedEntries.mp horiginal))
    exact { hnode with }
  have hinside : ∀ entry ∈ g.storedRows, (g.storedNodes.lookup entry.1).isSome ∧
      ∀ target ∈ entry.2, (g.storedNodes.lookup target).isSome := by
    intro entry hentry
    have hrow := hg.row_inside (mem_storedRows.mp hentry).1
    simp only [← Table.isSome_get?_iff] at hrow
    simpa only [lookup_storedNodes, Option.isSome_map] using hrow
  refine (ends_replay hnodes hattached hinside).imp fun _ after hafter => ?_
  refine ⟨hafter.balanced, fun path => ?_, fun path => PathSet.ext fun target => ?_, hafter.diagnostics⟩
  · rw [hafter.nodes, lookup_storedNodes]
  · rw [hafter.mem_targets, mem_edgesOf, mem_targets_iff_exists_row]
    simp only [mem_storedRows]
    constructor
    · rintro ⟨row, ⟨hrow, -⟩, htarget⟩
      exact ⟨row, hrow, htarget⟩
    · rintro ⟨row, hrow, htarget⟩
      -- a row that holds a target is not empty, so it has not been left out
      have hfull : row.isEmpty = false := List.isEmpty_eq_false_iff_exists_mem.mpr ⟨target, htarget⟩
      exact ⟨row, ⟨hrow, hfull⟩, htarget⟩

/-- The version that is written is read. -/
theorem read_documentVersion :
    Json.read (Json.print (.int documentVersion)) = .ok (.int documentVersion) := by
  rw [Json.read, Json.print, String.toList_ofList]
  exact Json.readChars_integer (by decide)

/-- The document of a balanced graph is read as what its nodes and rows are replayed to. -/
theorem Balanced.ofDocument_of_replay {stored : Graph} (hg : g.Balanced)
    (hreplay : replay g.storedNodes g.storedRows ∅ = .ok () stored) :
    ofDocument (Json.restored g.toDocument) = .ok stored := by
  have hbalanced := (hg.ends_replay_stored.of_ok hreplay).balanced
  have hsteps : (do
      replay g.storedNodes g.storedRows
      checkStep) ∅ = .ok () stored := by
    rw [bind_of_eq_ok hreplay, hbalanced.checkStep_eq_ok]
  have hdistinct : ["version", "nodes", "edges"].Nodup := by decide
  obtain ⟨found, hfound, hfields⟩ : ∃ found, Json.restored g.toDocument = .object found ∧
      ∀ name, Json.field? found name = (Json.field?
        [("version", .int documentVersion),
          ("nodes", .array (g.nodes.sortedEntries.map fun (path, node) => nodeDocument path node)),
          ("edges", .array (g.storedRows.map fun (path, targets) => edgesDocument path targets))]
        name).map Json.restored :=
    Json.restored_object hdistinct
  have hversion : Json.field? found "version" = some (.int documentVersion) := by
    have hnumber : Json.restored (.int documentVersion) = Json.rereadNumber (.int documentVersion) := rfl
    rw [hfields]
    show some (Json.restored (.int documentVersion)) = _
    rw [hnumber, Json.rereadNumber, read_documentVersion]
  have hnodes : Json.field? found "nodes" = some (Json.restored (.array
      (g.nodes.sortedEntries.map fun (path, node) => nodeDocument path node))) := by
    rw [hfields]
    rfl
  have hedges : Json.field? found "edges" = some (Json.restored (.array
      (g.storedRows.map fun (path, targets) => edgesDocument path targets))) := by
    rw [hfields]
    rfl
  have hread := readFields_restored g hnodes hedges
  rw [hfound, ofDocument_object, hversion, hread, liftStep, hsteps]
  rfl

/-- A balanced graph is read from its document, apart from the times of its files. -/
theorem Balanced.ofDocument_restored (hg : g.Balanced) :
    ∃ stored, ofDocument (Json.restored g.toDocument) = .ok stored ∧ Stored g stored := by
  obtain ⟨_, stored, hreplay, hstored⟩ := hg.ends_replay_stored.succeeds fun _ _ hbad => hbad
  exact ⟨stored, hg.ofDocument_of_replay hreplay, hstored⟩

end Graph
end ChangeImpact
