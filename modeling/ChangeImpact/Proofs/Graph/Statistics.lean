import ChangeImpact.Graph.Statistics
import ChangeImpact.Proofs.Graph.History
import ChangeImpact.Proofs.Graph.Replay
import Mathlib.Data.Set.Card

/-!
# What the statistics count

The statistics count the files of every kind and add up the sizes of the rows of `edges`.  Every file has
one of the four kinds, so the counts of files add up in any graph (`files_eq_add`).

The edges are counted twice: a graph that is balanced keeps them once row by row in `edges` and once column
by column in `reverseEdges`.  A table of sets written out pair by pair names every pair of a key and a
member of its set exactly once (`encard_eq_sum_size`).  The pairs of `edges` are the edges and those of
`reverseEdges` are the edges turned round, so both sums are the number of the edges.
-/

namespace ChangeImpact.Graph

variable {g : Graph} {table : Table PathSet}

/-! ## Files -/

/-- The files of a kind are as many as the nodes of that kind, since no two nodes have one path. -/
theorem size_filesOfKind (g : Graph) (kind : FileKind) :
    (g.filesOfKind kind).size = g.nodes.values.countP (·.kind == kind) := by
  have hdistinct : ((g.nodes.entries.filter fun entry => entry.2.kind == kind).map (·.1)).Nodup :=
    g.nodes.distinct.sublist (List.filter_sublist.map _)
  rw [filesOfKind, PathSet.size_ofList hdistinct, List.length_map, Table.values, List.countP_map,
    List.countP_eq_length_filter]
  rfl

/-- Every node is of exactly one kind. -/
theorem length_eq_add_countP (nodes : List FileNode) :
    nodes.length = nodes.countP (·.kind == .source) + nodes.countP (·.kind == .test) +
      nodes.countP (·.kind == .config) + nodes.countP (·.kind == .asset) := by
  induction nodes with
  | nil => rfl
  | cons node nodes ih =>
      rw [List.length_cons, ih]
      cases hkind : node.kind <;> simp [hkind] <;> omega

/-- The files of the four kinds are all files, in any graph. -/
theorem files_eq_add (g : Graph) : g.statistics.files =
    g.statistics.sources + g.statistics.tests + g.statistics.configs + g.statistics.assets := by
  have hnodes : g.statistics.files = g.nodes.values.length := (List.length_map _).symm
  rw [hnodes, length_eq_add_countP]
  simp only [statistics, size_filesOfKind]

/-! ## Pairs that are kept row by row -/

theorem length_edgesOf (rows : List (String × PathSet)) :
    (edgesOf rows).length = (rows.map (·.2.size)).sum := by
  rw [edgesOf, List.length_flatMap]
  simp only [List.length_map, PathSet.size]

theorem nodup_edgesOf (table : Table PathSet) : (edgesOf table.entries).Nodup := by
  refine List.nodup_flatMap.mpr ⟨fun row _ => ?_, ?_⟩
  · exact row.2.nodup_toList.map (Prod.mk_right_injective row.1)
  · -- the pairs of two rows differ in their keys
    refine (List.pairwise_map.mp table.distinct).imp fun hne edge hfirst hsecond => ?_
    obtain ⟨_, -, rfl⟩ := List.mem_map.mp hfirst
    obtain ⟨_, -, heq⟩ := List.mem_map.mp hsecond
    exact hne (congrArg Prod.fst heq).symm

/-- A set of pairs that a table keeps row by row has as many pairs as the rows have members together. -/
theorem encard_eq_sum_size {pairs : Set (String × String)}
    (h : ∀ key member, (key, member) ∈ pairs ↔ member ∈ (table.get? key).getD ∅) :
    pairs.encard = (table.values.map PathSet.size).sum := by
  have hpairs : pairs = (edgesOf table.entries).toFinset := by
    ext ⟨key, member⟩
    rw [h, List.coe_toFinset, Set.mem_ofPred_eq, mem_edgesOf_table]
  rw [hpairs, Set.encard_coe_eq_coe_finsetCard, List.toFinset_card_of_nodup (nodup_edgesOf table),
    length_edgesOf, Table.values, List.map_map]
  rfl

/-! ## Edges -/

/-- The edges of a graph, each of them as the importing and the imported file. -/
def edgeSet (g : Graph) : Set (String × String) := {edge | edge.2 ∈ g.targets edge.1}

theorem encard_edgeSet_eq_rows (g : Graph) : g.edgeSet.encard = (g.edges.values.map PathSet.size).sum :=
  encard_eq_sum_size fun _ _ => Iff.rfl

/-- In a balanced graph the columns hold the edges turned round. -/
theorem Balanced.encard_edgeSet_eq_columns (hg : g.Balanced) :
    g.edgeSet.encard = (g.reverseEdges.values.map PathSet.size).sum := by
  rw [← Prod.swap_injective.encard_image, Set.image_swap_eq_preimage_swap]
  exact encard_eq_sum_size fun target source => hg.inverse source target

theorem dependencies_eq_sum (g : Graph) : g.statistics.dependencies = (g.edges.values.map PathSet.size).sum := by
  rw [statistics, ← PathSet.length_flatMap_toList, List.length_flatMap]
  rfl

/-- Whatever has been asked of a graph, its statistics add up: its files are those of the four kinds, and its
dependencies are its edges, which are as many as the rows have members together, and the columns as well. -/
theorem statistics_of_history (requests : List Request) :
    let g := history requests
    g.statistics.files =
        g.statistics.sources + g.statistics.tests + g.statistics.configs + g.statistics.assets ∧
      g.statistics.dependencies = g.edgeSet.encard ∧
      g.statistics.dependencies = (g.edges.values.map PathSet.size).sum ∧
      g.statistics.dependencies = (g.reverseEdges.values.map PathSet.size).sum := by
  intro g
  have hrows : (g.statistics.dependencies : ℕ∞) = g.edgeSet.encard := by
    rw [dependencies_eq_sum, encard_edgeSet_eq_rows]
  have hcolumns : g.edgeSet.encard = (g.reverseEdges.values.map PathSet.size).sum :=
    (balanced_history requests).encard_edgeSet_eq_columns
  exact ⟨files_eq_add g, hrows, dependencies_eq_sum g, Nat.cast_inj.mp (hrows.trans hcolumns)⟩

/-- An edge from a file to itself counts once, an edge that is added twice counts once, and edges that are refused
or removed with a file do not count. -/
example :
    (history
      [.addNode "a" .test .null, .addNode "b" .source .null, .addNode "c" .config .null, .addEdge "a" "a",
        .addEdge "a" "b", .addEdge "a" "b", .addEdge "b" "d", .addEdge "b" "c", .removeNode "c"]).statistics =
      { files := 2, sources := 1, tests := 1, configs := 0, assets := 0, dependencies := 2 } := by
  decide

end ChangeImpact.Graph
