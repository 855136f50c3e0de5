import ChangeImpact.Proofs.Graph.Consistency
import ChangeImpact.Proofs.Graph.Equality
import ChangeImpact.Proofs.Graph.Operations

/-!
# Replacing the edges from a file

The edges from a file are one row of the map of edges.  Replacing them first drops the old edges one by one and then
adds the new ones, and each of these steps goes through both maps.  What comes of it is that the row has been
replaced, that every column has lost or got the file, and that all else is as it was
(`setDependencies_replaces_row`).

* No step of this kind touches the files of a graph, the order of its keys or its diagnostics, be it carried out or
  refused (`Rewired`, `ends_setDependencies_rewired`).
* So what is left of a graph after two such histories can differ in its edges only, and balanced graphs with the same
  targets do not differ there either (`Rewired.eq`).  This is why a row may be given again and why the rows of two
  files may be replaced in either order.
-/

namespace ChangeImpact.Graph

variable {g before after first second : Graph} {path source target other : String} {row otherRow : List String}

/-! ## Steps that only touch edges -/

/-- Two graphs with the same nodes, the same keys in the same order and the same diagnostics: only their rows may
differ. -/
structure Rewired (before after : Graph) : Prop where
  nodes : after.nodes = before.nodes
  edges : after.edges.keys = before.edges.keys
  reverseEdges : after.reverseEdges.keys = before.reverseEdges.keys
  diagnostics : after.diagnostics = before.diagnostics

theorem Rewired.refl (g : Graph) : g.Rewired g := ⟨rfl, rfl, rfl, rfl⟩

theorem Rewired.trans (h : before.Rewired after) (hnext : after.Rewired second) : before.Rewired second where
  nodes := hnext.nodes.trans h.nodes
  edges := hnext.edges.trans h.edges
  reverseEdges := hnext.reverseEdges.trans h.reverseEdges
  diagnostics := hnext.diagnostics.trans h.diagnostics

theorem rewired_removeEdge (g : Graph) (source target : String) : g.Rewired (g.removeEdge source target) :=
  ⟨rfl, Table.keys_modify .., Table.keys_modify .., rfl⟩

theorem rewired_dropEdges (g : Graph) (edges : List (String × String)) : g.Rewired (g.dropEdges edges) := by
  refine List.foldlRecOn _ _ (motive := g.Rewired) (Rewired.refl g) ?_
  intro dropped hdropped edge _
  exact hdropped.trans (rewired_removeEdge dropped edge.1 edge.2)

theorem rewired_clearDependencies (g : Graph) (path : String) : g.Rewired (g.clearDependencies path) :=
  clearDependencies_eq g path ▸ rewired_dropEdges g _

theorem rewired_clearDependents (g : Graph) (path : String) : g.Rewired (g.clearDependents path) :=
  clearDependents_eq g path ▸ rewired_dropEdges g _

/-- Adding an edge touches nothing but rows, also where it is refused half-way. -/
theorem ends_addEdge_rewired (g : Graph) (source target : String) :
    Ends (addEdge source target) g (fun _ after => g.Rewired after) fun _ after => g.Rewired after := by
  have hstep := addEdge_eq source target g
  by_cases hends : (!g.hasNode source || !g.hasNode target) = true
  · rw [if_pos hends] at hstep
    exact .of_eq_error hstep (Rewired.refl g)
  rw [if_neg hends] at hstep
  by_cases hrow : (!g.edges.contains source) = true
  · rw [if_pos hrow] at hstep
    exact .of_eq_error hstep (Rewired.refl g)
  rw [if_neg hrow] at hstep
  by_cases hcolumn : (!g.reverseEdges.contains target) = true
  · rw [if_pos hcolumn] at hstep
    exact .of_eq_error hstep ⟨rfl, Table.keys_modify .., rfl, rfl⟩
  · rw [if_neg hcolumn] at hstep
    exact .of_eq_ok hstep ⟨rfl, Table.keys_modify .., Table.keys_modify .., rfl⟩

theorem ends_setDependencies_rewired (g : Graph) (path : String) (row : List String) :
    Ends (setDependencies path row) g (fun _ after => g.Rewired after) fun _ after => g.Rewired after := by
  refine .modified_bind (.forM (fun _ state => g.Rewired state) ?_ (rewired_clearDependencies g path))
  intro target rest state hstate
  refine (ends_addEdge_rewired state path target).mono ?_ ?_
  · exact fun _ after hafter => hstate.trans hafter
  · exact fun _ after hafter => hstate.trans hafter

/-- Balanced graphs that come from one graph by changes of its edges are the same graph if they have the same
targets. -/
theorem Rewired.eq (hfirst : g.Rewired first) (hsecond : g.Rewired second) (hbalanced : first.Balanced)
    (hbalanced' : second.Balanced) (htargets : ∀ path, first.targets path = second.targets path) :
    first = second := by
  have hnodes : first.nodes = second.nodes := hfirst.nodes.trans hsecond.nodes.symm
  have hequal : first.Equal second := hbalanced.equal hbalanced' (fun path => by rw [hnodes]) htargets
  exact hequal.eq (congrArg Table.keys hnodes) (hfirst.edges.trans hsecond.edges.symm)
    (hfirst.reverseEdges.trans hsecond.reverseEdges.symm) (hfirst.diagnostics.trans hsecond.diagnostics.symm)

/-! ## What is looked up afterwards -/

/-- In the map of edges one row has been replaced. -/
theorem RowReplaced.get?_edges (h : RowReplaced before path row after) (hbefore : before.Balanced)
    (hpath : path ∈ before.nodes) (other : String) :
    after.edges.get? other = if other = path then some (.ofList row) else before.edges.get? other := by
  by_cases hother : other ∈ before.nodes
  · rw [(h.balanced.rows_of_mem (h.nodes ▸ hother)).1, (hbefore.rows_of_mem hother).1]
    split
    · rename_i heq
      refine congrArg some (PathSet.ext fun target => ?_)
      rw [h.mem_targets, if_pos heq, PathSet.mem_ofList]
    · rename_i hne
      refine congrArg some (PathSet.ext fun target => ?_)
      rw [h.mem_targets, if_neg hne]
  · have hne : other ≠ path := fun heq => hother (heq ▸ hpath)
    rw [(h.balanced.rows_of_not_mem (h.nodes ▸ hother)).1, (hbefore.rows_of_not_mem hother).1, if_neg hne]

/-- In the map of reverse edges every column has got the file or has lost it. -/
theorem RowReplaced.get?_reverseEdges (h : RowReplaced before path row after) (hbefore : before.Balanced)
    (other : String) :
    after.reverseEdges.get? other = (before.reverseEdges.get? other).map fun column =>
      if other ∈ row then column.insert path else column.erase path := by
  by_cases hother : other ∈ before.nodes
  · rw [(h.balanced.rows_of_mem (h.nodes ▸ hother)).2, (hbefore.rows_of_mem hother).2, Option.map_some]
    refine congrArg some (PathSet.ext fun source => ?_)
    rw [← h.balanced.inverse, h.mem_targets]
    by_cases hsource : source = path
    · by_cases hrow : other ∈ row
      · simp [hsource, hrow]
      · simp [hsource, hrow]
    · by_cases hrow : other ∈ row
      · simp [hsource, hrow, hbefore.inverse]
      · simp [hsource, hrow, hbefore.inverse]
  · rw [(h.balanced.rows_of_not_mem (h.nodes ▸ hother)).2, (hbefore.rows_of_not_mem hother).2]
    rfl

/-! ## Replacing rows -/

/-- A row of nodes is taken as it is. -/
theorem Balanced.exists_setDependencies (hg : g.Balanced) (hpath : path ∈ g.nodes)
    (hrow : ∀ target ∈ row, target ∈ g.nodes) :
    ∃ after, setDependencies path row g = .ok () after ∧ RowReplaced g path row after ∧ g.Rewired after := by
  have hends : Ends (setDependencies path row) g _ _ := hg.ends_setDependencies hpath
  obtain ⟨_, after, hafter, hreplaced⟩ := hends.succeeds <| by
    rintro fault after ⟨done, target, rest, rfl, htarget, -⟩
    exact htarget (hrow target (by simp))
  exact ⟨after, hafter, hreplaced, (ends_setDependencies_rewired g path row).of_ok hafter⟩

/-- A row that has the members of the row that is there changes nothing. -/
theorem RowReplaced.again (h : RowReplaced before path row after) (hpath : path ∈ before.nodes)
    (hrow : ∀ target ∈ row, target ∈ before.nodes) {again : List String}
    (hagain : ∀ target, target ∈ again ↔ target ∈ row) : setDependencies path again after = .ok () after := by
  have hinside : ∀ target ∈ again, target ∈ after.nodes := fun target htarget =>
    h.nodes ▸ hrow target ((hagain target).mp htarget)
  obtain ⟨last, hlast, hreplaced, hrewired⟩ := h.balanced.exists_setDependencies (h.nodes ▸ hpath) hinside
  have hsame : last = after := by
    refine hrewired.eq (Rewired.refl after) hreplaced.balanced h.balanced fun source => PathSet.ext fun target => ?_
    rw [hreplaced.mem_targets, hagain, h.mem_targets]
    split <;> rfl
  rw [hlast, hsame]

/-- The rows of two files are replaced in either order. -/
theorem Balanced.setDependencies_comm (hg : g.Balanced) (hpath : path ∈ g.nodes)
    (hrow : ∀ target ∈ row, target ∈ g.nodes) (hother : other ∈ g.nodes) (hne : other ≠ path)
    (hotherRow : ∀ target ∈ otherRow, target ∈ g.nodes) :
    ∃ first second last, setDependencies path row g = .ok () first ∧
      setDependencies other otherRow first = .ok () last ∧
      setDependencies other otherRow g = .ok () second ∧ setDependencies path row second = .ok () last := by
  obtain ⟨first, hfirst, hreplaced, hrewired⟩ := hg.exists_setDependencies hpath hrow
  obtain ⟨second, hsecond, hreplaced', hrewired'⟩ := hg.exists_setDependencies hother hotherRow
  obtain ⟨last, hlast, hboth, hafter⟩ := hreplaced.balanced.exists_setDependencies (hreplaced.nodes ▸ hother)
    fun target htarget => hreplaced.nodes ▸ hotherRow target htarget
  obtain ⟨last', hlast', hboth', hafter'⟩ := hreplaced'.balanced.exists_setDependencies (hreplaced'.nodes ▸ hpath)
    fun target htarget => hreplaced'.nodes ▸ hrow target htarget
  -- in either order the graph is rewired to the same rows
  have hsame : last = last' := by
    refine (hrewired.trans hafter).eq (hrewired'.trans hafter') hboth.balanced hboth'.balanced fun source => ?_
    refine PathSet.ext fun target => ?_
    rw [hboth.mem_targets, hreplaced.mem_targets, hboth'.mem_targets, hreplaced'.mem_targets]
    by_cases hsource : source = other
    · rw [if_pos hsource, if_neg (hsource ▸ hne), if_pos hsource]
    · rw [if_neg hsource, if_neg hsource]
  exact ⟨first, second, last, hfirst, hlast, hsecond, hsame ▸ hlast'⟩

/-- Replacing the edges from a file by edges to some nodes replaces its row by the set of these, puts the file into
the columns of these and takes it out of all others, and changes nothing else.  To do it again with the same nodes,
in whatever order and however often each of them, changes nothing; and for two files it makes no difference which
comes first. -/
theorem setDependencies_replaces_row (hg : g.Balanced) (hpath : path ∈ g.nodes)
    (hrow : ∀ target ∈ row, target ∈ g.nodes) :
    ∃ after, setDependencies path row g = .ok () after ∧ g.Rewired after ∧ after.Balanced ∧
      (∀ other, after.edges.get? other = if other = path then some (.ofList row) else g.edges.get? other) ∧
      (∀ other, after.reverseEdges.get? other = (g.reverseEdges.get? other).map fun column =>
        if other ∈ row then column.insert path else column.erase path) ∧
      (∀ again : List String, (∀ target, target ∈ again ↔ target ∈ row) →
        setDependencies path again after = .ok () after) ∧
      ∀ other ∈ g.nodes, other ≠ path → ∀ otherRow : List String, (∀ target ∈ otherRow, target ∈ g.nodes) →
        ∃ second last, setDependencies other otherRow after = .ok () last ∧
          setDependencies other otherRow g = .ok () second ∧ setDependencies path row second = .ok () last := by
  obtain ⟨after, hafter, hreplaced, hrewired⟩ := hg.exists_setDependencies hpath hrow
  refine ⟨after, hafter, hrewired, hreplaced.balanced, hreplaced.get?_edges hg hpath,
    hreplaced.get?_reverseEdges hg, fun again hagain => hreplaced.again hpath hrow hagain, ?_⟩
  intro other hother hne otherRow hotherRow
  obtain ⟨first, second, last, hfirst, hlast, hsecond, hlast'⟩ :=
    hg.setDependencies_comm hpath hrow hother hne hotherRow
  rw [hafter] at hfirst
  cases hfirst
  exact ⟨second, last, hlast, hsecond, hlast'⟩

/-- A file that imports itself and another one keeps the one edge, loses the other and gets a third. -/
theorem setDependencies_replaces_row_of_mutual_imports :
    let nodes : Table FileNode := .ofList [("a", { path := "a" }), ("b", { path := "b" }), ("c", { path := "c" })]
    let edges : Table PathSet := .ofList [("a", .ofList ["a", "b"]), ("b", .ofList ["a"]), ("c", .ofList ["b"])]
    let reverseEdges : Table PathSet := .ofList [("a", .ofList ["a", "b"]), ("b", .ofList ["a", "c"]), ("c", ∅)]
    let g : Graph := { nodes, edges, reverseEdges }
    g.Balanced ∧ "a" ∈ g.nodes ∧ (∀ target ∈ ["c", "a", "c"], target ∈ g.nodes) ∧
      ∃ after, setDependencies "a" ["c", "a", "c"] g = .ok () after ∧
        after.edges.get? "a" = some (.ofList ["a", "c"]) ∧ after.edges.get? "b" = some (.ofList ["a"]) ∧
        after.reverseEdges.get? "a" = some (.ofList ["a", "b"]) ∧ after.reverseEdges.get? "b" = some (.ofList ["c"]) ∧
        after.reverseEdges.get? "c" = some (.ofList ["a"]) ∧
        setDependencies "a" ["a", "c"] after = .ok () after ∧
        ∃ second last, setDependencies "b" ["b"] after = .ok () last ∧ setDependencies "b" ["b"] g = .ok () second ∧
          setDependencies "a" ["c", "a", "c"] second = .ok () last := by
  intro nodes edges reverseEdges g
  have hg : g.Balanced := balanced_of_check rfl
  have hpath : "a" ∈ g.nodes := by decide
  have hrow : ∀ target ∈ ["c", "a", "c"], target ∈ g.nodes := by decide
  obtain ⟨after, hafter, -, -, hedges, hreverse, hagain, hother⟩ := setDependencies_replaces_row hg hpath hrow
  refine ⟨hg, hpath, hrow, after, hafter, ?_, ?_, ?_, ?_, ?_, hagain ["a", "c"] fun target => ?_,
    hother "b" (by decide) (by decide) ["b"] (by decide)⟩
  · rw [hedges]; rfl
  · rw [hedges]; rfl
  · rw [hreverse]; rfl
  · rw [hreverse]; rfl
  · rw [hreverse]; rfl
  · grind

end ChangeImpact.Graph
