import ChangeImpact.Proofs.Graph.Balance
import Mathlib.Data.List.Perm.Subperm

/-!
# When two graphs are the same

`Graph.same` compares the nodes and both maps of edges table by table.  For balanced graphs much less
has to be shown: the same files with alike nodes, and the same targets of every file
(`Balanced.same_eq_true`).  In graphs that are the same every file has the same targets
(`targets_eq_of_same`).

Graphs that are the same may still tell the times of their files by different values, such as one and true.
Graphs that are equal (`Graph.Equal`) agree on every value that can be looked up.
-/

namespace ChangeImpact

theorem Binary64.same_self (x : Binary64) : x.same x = true := by
  unfold Binary64.same
  split
  · rfl
  · exact decide_eq_true rfl

/-- Two nodes tell the same about their file, apart from its edges. -/
structure FileNode.Alike (first second : FileNode) : Prop where
  kind : first.kind = second.kind
  lastModified : first.lastModified.same second.lastModified = true
  specifiers : first.specifiers = second.specifiers

namespace Graph

theorem size_eq_of_mem_iff {ν μ : Type} {first : Table ν} {second : Table μ}
    (h : ∀ path, path ∈ first ↔ path ∈ second) : first.size = second.size := by
  rw [← Table.length_keys, ← Table.length_keys]
  exact ((List.perm_ext_iff_of_nodup first.nodup_keys second.nodup_keys).mpr h).length_eq

theorem sameTable_eq_true {ν : Type} {same : String → ν → ν → Bool} {first second : Table ν}
    (hkeys : ∀ path, path ∈ first ↔ path ∈ second)
    (hsame : ∀ path value other, first.get? path = some value → second.get? path = some other →
      same path value other = true) : sameTable same first second = true := by
  rw [sameTable, Bool.and_eq_true, beq_iff_eq, List.all_eq_true]
  refine ⟨size_eq_of_mem_iff hkeys, ?_⟩
  rintro ⟨path, value⟩ hentry
  have hvalue : first.get? path = some value := Table.mem_entries_iff.mp hentry
  obtain ⟨other, hother⟩ := Table.mem_iff_exists.mp ((hkeys path).mp (Table.mem_of_get? hvalue))
  simp only [hother]
  exact hsame path value other hvalue hother

/-- Tables of one size that agree at the keys of the first have the same keys. -/
theorem mem_iff_of_sameTable {ν : Type} {same : String → ν → ν → Bool} {first second : Table ν}
    (h : sameTable same first second = true) (path : String) : path ∈ first ↔ path ∈ second := by
  rw [sameTable, Bool.and_eq_true, beq_iff_eq, List.all_eq_true] at h
  obtain ⟨hsize, hentries⟩ := h
  have hsubset : first.keys ⊆ second.keys := by
    intro path hpath
    obtain ⟨value, hvalue⟩ := Table.mem_iff_exists.mp (Table.mem_keys.mp hpath)
    have hfound := hentries (path, value) (Table.mem_entries_iff.mpr hvalue)
    cases hother : second.get? path with
    | none => simp [hother] at hfound
    | some other => exact Table.mem_keys.mpr (Table.mem_of_get? hother)
  have hlength : first.keys.length = second.keys.length := by
    rw [Table.length_keys, Table.length_keys, hsize]
  have hperm : first.keys.Perm second.keys :=
    (List.Nodup.subperm first.nodup_keys hsubset).perm_of_length_le (Nat.le_of_eq hlength.symm)
  exact hperm.mem_iff

variable {g h : Graph}

/-- Every file has the same targets in graphs that are the same. -/
theorem targets_eq_of_same (hsame : g.same h = true) (path : String) : g.targets path = h.targets path := by
  have hedges : sameTable (fun _ => (· == ·)) g.edges h.edges = true := by
    rw [same, Bool.and_eq_true, Bool.and_eq_true] at hsame
    exact hsame.1.2
  have hkeys := mem_iff_of_sameTable hedges path
  rw [sameTable, Bool.and_eq_true, List.all_eq_true] at hedges
  rw [targets, targets]
  cases hrow : g.edges.get? path with
  | none =>
      rw [Table.get?_eq_none_iff.mpr fun hmem => Table.get?_eq_none_iff.mp hrow (hkeys.mpr hmem)]
  | some row =>
      have hfound := hedges.2 (path, row) (Table.mem_entries_iff.mpr hrow)
      obtain ⟨other, hother⟩ := Table.mem_iff_exists.mp (hkeys.mp (Table.mem_of_get? hrow))
      simp only [hother, beq_iff_eq] at hfound
      rw [hother, hfound]

theorem targets_of_get? {path : String} {row : PathSet} (hrow : g.edges.get? path = some row) :
    g.targets path = row := by
  rw [targets, hrow]
  rfl

theorem importers_of_get? {path : String} {row : PathSet}
    (hrow : g.reverseEdges.get? path = some row) : g.importers path = row := by
  rw [importers, hrow]
  rfl

/-- In a balanced graph a node shows the edges that the maps hold. -/
theorem Balanced.dependencies_eq (hg : g.Balanced) {path : String} {node : FileNode}
    (hnode : g.nodes.get? path = some node) : g.dependencies path node = g.targets path := by
  rw [dependencies, (hg.attached path node hnode).1]
  rfl

theorem Balanced.dependents_eq (hg : g.Balanced) {path : String} {node : FileNode}
    (hnode : g.nodes.get? path = some node) : g.dependents path node = g.importers path := by
  rw [dependents, (hg.attached path node hnode).2]
  rfl

/-- Balanced graphs are the same if they have alike nodes for the same files and if every file has
the same targets in both. -/
theorem Balanced.same_eq_true (hg : g.Balanced) (hh : h.Balanced)
    (hkeys : ∀ path, path ∈ g.nodes ↔ path ∈ h.nodes)
    (halike : ∀ path first second, g.nodes.get? path = some first →
      h.nodes.get? path = some second → first.Alike second)
    (htargets : ∀ path, g.targets path = h.targets path) : g.same h = true := by
  have himporters : ∀ path, g.importers path = h.importers path := fun path =>
    PathSet.ext fun source => by rw [← hg.inverse, ← hh.inverse, htargets]
  have hnodes : sameTable (sameNode g h) g.nodes h.nodes = true := by
    refine sameTable_eq_true hkeys fun path first second hfirst hsecond => ?_
    have hsame := halike path first second hfirst hsecond
    simp only [sameNode, hg.nodePath path first hfirst, hh.nodePath path second hsecond, hsame.kind,
      hsame.lastModified, hsame.specifiers, hg.dependencies_eq hfirst, hh.dependencies_eq hsecond,
      hg.dependents_eq hfirst, hh.dependents_eq hsecond, htargets, himporters, beq_self_eq_true,
      Bool.and_self]
  have hedges : sameTable (fun _ => (· == ·)) g.edges h.edges = true := by
    refine sameTable_eq_true (fun path => ?_) fun path first second hfirst hsecond => ?_
    · rw [hg.mem_edges, hh.mem_edges, hkeys]
    · rw [beq_iff_eq, ← targets_of_get? hfirst, ← targets_of_get? hsecond, htargets]
  have hreverse : sameTable (fun _ => (· == ·)) g.reverseEdges h.reverseEdges = true := by
    refine sameTable_eq_true (fun path => ?_) fun path first second hfirst hsecond => ?_
    · rw [hg.mem_reverseEdges, hh.mem_reverseEdges, hkeys]
    · rw [beq_iff_eq, ← importers_of_get? hfirst, ← importers_of_get? hsecond, himporters]
  rw [same, hnodes, hedges, hreverse]
  rfl

/-! ## Equal graphs -/

/-- Two graphs have the same nodes and the same rows of edges under the same keys.  Neither the order in which
these came nor the diagnostics matter. -/
structure Equal (g h : Graph) : Prop where
  nodes : ∀ path, g.nodes.get? path = h.nodes.get? path
  edges : ∀ path, g.edges.get? path = h.edges.get? path
  reverseEdges : ∀ path, g.reverseEdges.get? path = h.reverseEdges.get? path

/-- In a balanced graph the rows of a file are its targets and its importers. -/
theorem Balanced.rows_of_mem (hg : g.Balanced) {path : String} (hpath : path ∈ g.nodes) :
    g.edges.get? path = some (g.targets path) ∧ g.reverseEdges.get? path = some (g.importers path) := by
  obtain ⟨row, hrow⟩ := Table.mem_iff_exists.mp ((hg.mem_edges path).mpr hpath)
  obtain ⟨column, hcolumn⟩ := Table.mem_iff_exists.mp ((hg.mem_reverseEdges path).mpr hpath)
  exact ⟨targets_of_get? hrow ▸ hrow, importers_of_get? hcolumn ▸ hcolumn⟩

theorem Balanced.rows_of_not_mem (hg : g.Balanced) {path : String} (hpath : path ∉ g.nodes) :
    g.edges.get? path = none ∧ g.reverseEdges.get? path = none := by
  rw [Table.get?_eq_none_iff, Table.get?_eq_none_iff, hg.mem_edges, hg.mem_reverseEdges]
  exact ⟨hpath, hpath⟩

/-- Balanced graphs are equal if they have the same nodes and every file has the same targets. -/
theorem Balanced.equal (hg : g.Balanced) (hh : h.Balanced)
    (hnodes : ∀ path, g.nodes.get? path = h.nodes.get? path)
    (htargets : ∀ path, g.targets path = h.targets path) : g.Equal h := by
  have himporters : ∀ path, g.importers path = h.importers path := fun path =>
    PathSet.ext fun source => by rw [← hg.inverse, ← hh.inverse, htargets]
  have hkeys : ∀ path, path ∈ g.nodes ↔ path ∈ h.nodes := fun path => Table.mem_congr (by rw [hnodes])
  -- a balanced graph has a row and a column for each of its nodes, and for nothing else
  have hrows : ∀ path, g.edges.get? path = h.edges.get? path ∧
      g.reverseEdges.get? path = h.reverseEdges.get? path := by
    intro path
    by_cases hpath : path ∈ g.nodes
    · obtain ⟨hrow, hcolumn⟩ := hg.rows_of_mem hpath
      obtain ⟨hrow', hcolumn'⟩ := hh.rows_of_mem ((hkeys path).mp hpath)
      rw [hrow, hcolumn, hrow', hcolumn', htargets, himporters]
      exact ⟨rfl, rfl⟩
    · obtain ⟨hrow, hcolumn⟩ := hg.rows_of_not_mem hpath
      obtain ⟨hrow', hcolumn'⟩ := hh.rows_of_not_mem (mt (hkeys path).mpr hpath)
      rw [hrow, hcolumn, hrow', hcolumn']
      exact ⟨rfl, rfl⟩
  exact ⟨hnodes, fun path => (hrows path).1, fun path => (hrows path).2⟩

/-- Equal graphs whose maps have their keys in the same order are one graph, if their diagnostics are the same. -/
theorem Equal.eq (hequal : g.Equal h) (hnodes : g.nodes.keys = h.nodes.keys) (hedges : g.edges.keys = h.edges.keys)
    (hreverse : g.reverseEdges.keys = h.reverseEdges.keys) (hdiagnostics : g.diagnostics = h.diagnostics) : g = h := by
  have hsame : g.nodes = h.nodes ∧ g.edges = h.edges ∧ g.reverseEdges = h.reverseEdges :=
    ⟨Table.ext hnodes hequal.nodes, Table.ext hedges hequal.edges, Table.ext hreverse hequal.reverseEdges⟩
  cases g
  cases h
  obtain ⟨rfl, rfl, rfl⟩ := hsame
  cases hdiagnostics
  rfl

end Graph
end ChangeImpact
