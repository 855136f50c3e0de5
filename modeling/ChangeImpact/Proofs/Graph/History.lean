import ChangeImpact.Proofs.Graph.Equality
import ChangeImpact.Proofs.Graph.Operations

/-!
# Histories of a graph

A graph may be asked for anything: to add a node twice, to join files that it does not have, to clear or
to remove what is not there.  It refuses some of these requests, and one of them may have been carried
out in part by then.  Whatever it is asked for, and whether or not it refuses, a balanced graph stays
balanced (`Balanced.ends_carryOut`); so every history of requests leaves a balanced graph
(`balanced_history`).

A refusal always names a violation.  That a map has no entry for a key, the other way to fail, does not
happen in a balanced graph.
-/

namespace ChangeImpact.Graph

variable {g : Graph} {path source target : String}

/-- What a graph may be asked for, with any arguments. -/
inductive Request where
  | addNode (path : String) (kind : FileKind) (lastModified : Json)
  | addEdge (source target : String)
  | removeEdge (source target : String)
  | clearDependencies (path : String)
  | setDependencies (path : String) (targets : List String)
  | removeNode (path : String)
  /-- Goes on with a copy of the graph. -/
  | copy

/-- Carries out a request. -/
def carryOut : Request → GraphStep Unit
  | .addNode path kind lastModified => addNode path kind lastModified
  | .addEdge source target => addEdge source target
  | .removeEdge source target => modify (·.removeEdge source target)
  | .clearDependencies path => modify (·.clearDependencies path)
  | .setDependencies path targets => setDependencies path targets
  | .removeNode path => do
    let _ ← removeNode path
  | .copy => do
    match (← get).copy with
    | .ok clone => set clone
    | .error cause => throw cause

/-- The graph after a request, also after one that it refuses. -/
def afterRequest (g : Graph) (request : Request) : Graph := stateAfter (carryOut request) g

/-- The graph that requests make of the empty graph. -/
def history (requests : List Request) : Graph := requests.foldl afterRequest ∅

/-! ## One request -/

/-- A graph that has refused a request is balanced all the same, and it has named a violation. -/
def Refused (fault : GraphError) (after : Graph) : Prop :=
  after.Balanced ∧ ∃ cause, fault = .violation cause

theorem addNode_of_mem (h : path ∈ g.nodes) (kind : FileKind) (lastModified : Json) :
    addNode path kind lastModified g = .error (.violation (.duplicateNode path)) g := by
  rw [addNode_eq, if_pos (hasNode_iff.mpr h)]

theorem Balanced.ends_addNode (h : g.Balanced) (path : String) (kind : FileKind)
    (lastModified : Json) :
    Ends (addNode path kind lastModified) g (fun _ after => after.Balanced) Refused := by
  by_cases hpath : path ∈ g.nodes
  · exact .of_eq_error (addNode_of_mem hpath kind lastModified) ⟨h, _, rfl⟩
  · exact .of_eq_ok (addNode_of_not_mem hpath kind lastModified)
      (h.withNode hpath kind lastModified)

theorem Balanced.ends_addEdge (h : g.Balanced) (source target : String) :
    Ends (addEdge source target) g (fun _ after => after.Balanced) Refused := by
  by_cases hends : source ∈ g.nodes ∧ target ∈ g.nodes
  · exact .of_eq_ok (h.addEdge_eq_ok hends.1 hends.2) (h.withEdge hends.1 hends.2)
  · exact .of_eq_error (addEdge_of_not_mem (not_and_or.mp hends)) ⟨h, _, rfl⟩

/-- Adding edges one after another stops at the first that is refused. -/
theorem Balanced.ends_addEdges (h : g.Balanced) (source : String) (targets : List String) :
    Ends (targets.forM (addEdge source)) g (fun _ after => after.Balanced) Refused :=
  .forM (fun _ (state : Graph) => state.Balanced)
    (fun target _ _ hstate => hstate.ends_addEdge source target) h

theorem Balanced.ends_removeNode (h : g.Balanced) (path : String) :
    Ends (removeNode path) g (fun _ after => after.Balanced) Refused := by
  by_cases hpath : path ∈ g.nodes
  · obtain ⟨node, hnode⟩ := h.removeNode_of_mem hpath
    exact .of_eq_ok hnode (h.without path)
  · exact .of_eq_ok (removeNode_of_not_mem hpath) h

/-- Copying starts from the empty graph, so nothing is asked of the graph that is copied. -/
theorem ends_copySteps (g : Graph) :
    Ends g.copySteps ∅ (fun _ after => after.Balanced) Refused := by
  refine Ends.bind (Ends.forM (fun _ (state : Graph) => state.Balanced) ?_ balanced_empty) ?_
  · -- the names of a node are written after it has been added, which does not touch the edges
    rintro ⟨path, node⟩ rest state hstate
    refine (hstate.ends_addNode path node.kind node.lastModified).bind fun _ after hafter => ?_
    exact .of_eq_ok rfl (hafter.modifyNode (fun _ => rfl) fun _ => ⟨rfl, rfl⟩)
  intro _ after hafter
  refine Ends.bind (Ends.forM (fun _ (state : Graph) => state.Balanced) ?_ hafter) ?_
  · exact fun entry _ _ hstate => hstate.ends_addEdges entry.1 entry.2.toList
  · exact fun _ linked hlinked => .of_eq_ok rfl { hlinked with }

/-- Whatever is asked of a balanced graph, it stays balanced, and if it refuses it names a violation. -/
theorem Balanced.ends_carryOut (h : g.Balanced) (request : Request) :
    Ends (carryOut request) g (fun _ after => after.Balanced) Refused := by
  cases request with
  | addNode path kind lastModified => exact h.ends_addNode path kind lastModified
  | addEdge source target => exact h.ends_addEdge source target
  | removeEdge source target => exact .of_eq_ok rfl (h.dropEdges [(source, target)])
  | clearDependencies path => exact .of_eq_ok rfl (h.rowReplaced_clearDependencies path).balanced
  | setDependencies path targets =>
      refine .modified_bind ?_
      exact (h.rowReplaced_clearDependencies path).balanced.ends_addEdges path targets
  | removeNode path => exact (h.ends_removeNode path).bind fun _ _ hafter => .pure hafter
  | copy =>
      -- the copy is made on the side, so a refusal leaves the graph as it is
      refine .get_bind ?_
      have hcopied := ends_copySteps g
      unfold copy
      cases hsteps : g.copySteps ∅ with
      | ok _ clone => exact .of_eq_ok rfl (hcopied.of_ok hsteps)
      | error cause clone => exact .of_eq_error rfl ⟨h, (hcopied.of_error hsteps).2⟩

/-! ## Histories -/

theorem Balanced.afterRequest (h : g.Balanced) (request : Request) :
    (g.afterRequest request).Balanced :=
  (h.ends_carryOut request).of_either (fun _ _ hgood => hgood) fun _ _ hrefused => hrefused.1

/-- Every history leaves a balanced graph. -/
theorem balanced_history (requests : List Request) : (history requests).Balanced := by
  -- the induction is on the requests that are to come, and may start from any balanced graph
  have hrun : ∀ (g : Graph), g.Balanced → (requests.foldl afterRequest g).Balanced := by
    induction requests with
    | nil =>
        intro g hg
        exact hg
    | cons request rest ih =>
        intro g hg
        exact ih _ (hg.afterRequest request)
  exact hrun ∅ balanced_empty

/-- In a balanced graph the maps have an entry for every node, and it is what the node shows. -/
theorem Balanced.rows_eq (h : g.Balanced) {node : FileNode} (hnode : g.nodes.get? path = some node) :
    g.edges.get? path = some (g.dependencies path node) ∧
      g.reverseEdges.get? path = some (g.dependents path node) := by
  obtain ⟨hrow, hcolumn⟩ := h.rows_of_mem (Table.mem_of_get? hnode)
  rw [hrow, hcolumn, h.dependencies_eq hnode, h.dependents_eq hnode]
  exact ⟨rfl, rfl⟩

end ChangeImpact.Graph
