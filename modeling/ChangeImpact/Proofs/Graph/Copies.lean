import ChangeImpact.Proofs.Graph.Consistency
import ChangeImpact.Proofs.Graph.Equality
import ChangeImpact.Proofs.Graph.Replay

/-!
# Copies of a graph

A copy takes over the nodes of a graph and its edges, but not by what files they are imported: the importers come about
as the edges are added.  Both graphs are balanced, so they have the same importers all the same, and the copy is equal
to the graph (`copy_reproduces`).

In which order a set lists its members is nobody's concern.  Copying is seen here as adding listed nodes and listed
edges (`copySteps_eq`), and other lists of the same nodes and the same edges make an equal graph as well
(`Balanced.exists_assembled`).
-/

namespace ChangeImpact.Graph

variable {g clone : Graph} {path : String} {nodes : List (String × FileNode)} {edges : List (String × String)}

theorem mem_edgesOf_entries {source target : String} :
    (source, target) ∈ edgesOf g.edges.entries ↔ target ∈ g.targets source :=
  mem_edgesOf_table

/-- Adds nodes and edges to a graph and then gives it diagnostics. -/
def assembleWith (nodes : List (String × FileNode)) (edges : List (String × String)) (diagnostics : List Diagnostic) :
    GraphStep Unit := do
  assemble nodes edges
  modify ({ · with diagnostics })

/-- Copying adds the nodes and the edges of a graph in the order of its maps. -/
theorem copySteps_eq (g : Graph) :
    g.copySteps = assembleWith g.nodes.entries (edgesOf g.edges.entries) g.diagnostics := by
  rw [copySteps, assembleWith, assemble, ← forM_rows_eq, bind_assoc]

/-! ## What is made of listed nodes and edges -/

/-- A graph has the nodes, the edges and the diagnostics of another one. -/
structure Copied (g clone : Graph) : Prop where
  balanced : clone.Balanced
  nodes : ∀ path, clone.nodes.get? path = g.nodes.get? path
  targets : ∀ path, clone.targets path = g.targets path
  diagnostics : clone.diagnostics = g.diagnostics

theorem Copied.mem_nodes (h : Copied g clone) : path ∈ clone.nodes ↔ path ∈ g.nodes := by
  rw [Table.mem_iff_exists, h.nodes, ← Table.mem_iff_exists]

/-- The importers need not be compared. -/
theorem Copied.equal (h : Copied g clone) (hg : g.Balanced) : clone.Equal g :=
  h.balanced.equal hg h.nodes h.targets

/-- Lists of the nodes and the edges of a graph, in any order, make a copy of it. -/
theorem Balanced.exists_assembled (hg : g.Balanced) (hnodes : nodes.Perm g.nodes.entries)
    (hedges : ∀ source target, (source, target) ∈ edges ↔ target ∈ g.targets source) :
    ∃ clone, assembleWith nodes edges g.diagnostics ∅ = .ok () clone ∧ Copied g clone := by
  have hdistinct : (nodes.map (·.1)).Nodup := (hnodes.map _).nodup_iff.mpr g.nodes.distinct
  have hlookup : ∀ path, nodes.lookup path = g.nodes.get? path := by
    refine fun path => Option.ext fun node => ?_
    rw [Table.lookup_eq_some_iff_of_nodup hdistinct, hnodes.mem_iff, Table.mem_entries_iff]
  have hattached : ∀ entry ∈ nodes, AttachedNode entry.1 entry.2 := fun entry hentry =>
    hg.attachedNode (Table.mem_entries_iff.mp (hnodes.mem_iff.mp hentry))
  have hkeys : ∀ path, path ∈ g.nodes → (nodes.lookup path).isSome := by
    intro path hpath
    rwa [hlookup, Table.isSome_get?_iff]
  have hinside : ∀ edge ∈ edges, (nodes.lookup edge.1).isSome ∧ (nodes.lookup edge.2).isSome := by
    rintro ⟨source, target⟩ hedge
    have htarget := (hedges source target).mp hedge
    exact ⟨hkeys source (hg.source_mem htarget), hkeys target (hg.inside source target htarget)⟩
  obtain ⟨_, made, hmade, hassembled⟩ := (ends_assemble hdistinct hattached hinside).succeeds fun _ _ hbad => hbad
  -- the diagnostics come last and touch nothing else
  refine ⟨_, bind_of_eq_ok hmade, { hassembled.balanced with }, fun path => ?_, fun source => ?_, rfl⟩
  · exact (hassembled.nodes path).trans (hlookup path)
  · exact PathSet.ext fun target => (hassembled.mem_targets source target).trans (hedges source target)

/-- A balanced graph has a copy. -/
theorem Balanced.exists_copy (hg : g.Balanced) : ∃ clone, g.copy = .ok clone ∧ Copied g clone := by
  obtain ⟨clone, hclone, hcopied⟩ := hg.exists_assembled (List.Perm.refl _) fun _ _ => mem_edgesOf_entries
  refine ⟨clone, ?_, hcopied⟩
  rw [copy, copySteps_eq, hclone]

/-! ## A copy is equal -/

/-- A balanced graph is copied without a fault, whatever the order of its nodes and its rows.  The copy is equal to it,
has the same diagnostics and passes its check; and so does what is made of its nodes and its edges in any other
order. -/
theorem copy_reproduces (hg : g.Balanced) :
    (∃ clone, g.copy = .ok clone ∧ clone.Equal g ∧ clone.diagnostics = g.diagnostics ∧ clone.check = .ok ()) ∧
    ∀ (nodes : List (String × FileNode)) (edges : List (String × String)), nodes.Perm g.nodes.entries →
      (∀ source target, (source, target) ∈ edges ↔ target ∈ g.targets source) →
      ∃ clone, assembleWith nodes edges g.diagnostics ∅ = .ok () clone ∧ clone.Equal g ∧
        clone.diagnostics = g.diagnostics ∧ clone.check = .ok () := by
  refine ⟨?_, fun nodes edges hnodes hedges => ?_⟩
  · obtain ⟨clone, hclone, hcopied⟩ := hg.exists_copy
    exact ⟨clone, hclone, hcopied.equal hg, hcopied.diagnostics, hcopied.balanced.check_eq_ok⟩
  · obtain ⟨clone, hclone, hcopied⟩ := hg.exists_assembled hnodes hedges
    exact ⟨clone, hclone, hcopied.equal hg, hcopied.diagnostics, hcopied.balanced.check_eq_ok⟩

/-- The keys come in another order in each map, a file imports itself, and there is a diagnostic.  What is made of the
nodes and the edges the other way round is equal as well. -/
theorem copy_reproduces_of_shuffled_maps :
    let first : FileNode := { path := "a.ts", lastModified := .int 5, specifiers := ["./b", "./a"] }
    let second : FileNode := { path := "b.test.ts", kind := .test, specifiers := ["./a"] }
    let g : Graph :=
      { nodes := .ofList [("b.test.ts", second), ("a.ts", first)]
        edges := .ofList [("a.ts", .ofList ["a.ts", "b.test.ts"]), ("b.test.ts", .ofList ["a.ts"])]
        reverseEdges := .ofList [("b.test.ts", .ofList ["a.ts"]), ("a.ts", .ofList ["a.ts", "b.test.ts"])]
        diagnostics := [⟨"a.ts", .parseFallback, "", none⟩] }
    g.Balanced ∧ (∃ clone, g.copy = .ok clone ∧ clone.nodes.get? "a.ts" = some first ∧
        clone.reverseEdges.get? "a.ts" = some (.ofList ["a.ts", "b.test.ts"]) ∧
        clone.diagnostics = [⟨"a.ts", .parseFallback, "", none⟩] ∧ clone.check = .ok ()) ∧
      ∃ clone, assembleWith [("a.ts", first), ("b.test.ts", second)]
          [("b.test.ts", "a.ts"), ("a.ts", "b.test.ts"), ("a.ts", "a.ts")] g.diagnostics ∅ = .ok () clone ∧
        clone.Equal g := by
  intro first second g
  have hg : g.Balanced := balanced_of_check rfl
  obtain ⟨⟨clone, hclone, hequal, hdiagnostics, hcheck⟩, hany⟩ := copy_reproduces hg
  have hedges : ∀ source target,
      (source, target) ∈ [("b.test.ts", "a.ts"), ("a.ts", "b.test.ts"), ("a.ts", "a.ts")] ↔ target ∈ g.targets source := by
    intro source target
    rw [← mem_edgesOf_entries]
    show _ ↔ (source, target) ∈ [("a.ts", "a.ts"), ("a.ts", "b.test.ts"), ("b.test.ts", "a.ts")]
    simp only [List.mem_cons, List.not_mem_nil, or_false]
    grind
  obtain ⟨other, hother, hequal', -⟩ := hany [("a.ts", first), ("b.test.ts", second)]
    [("b.test.ts", "a.ts"), ("a.ts", "b.test.ts"), ("a.ts", "a.ts")] (List.Perm.swap _ _ _) hedges
  refine ⟨hg, ⟨clone, hclone, ?_, ?_, hdiagnostics, hcheck⟩, other, hother, hequal'⟩
  · rw [hequal.nodes]; rfl
  · rw [hequal.reverseEdges]; rfl

end ChangeImpact.Graph
