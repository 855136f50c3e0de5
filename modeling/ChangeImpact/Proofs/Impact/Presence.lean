import ChangeImpact.Proofs.Impact.Exactness

/-!
# Selected tests exist

A selected test should be a file that can be run: a test of the graph, or a file that a change has added,
modified or renamed (`Kept`).  Vanished files are never selected.  What is selected and cannot be run are
the *stray* files (`Stray`): the graph does not have them, their names are those of tests, and the search
comes to them all the same (`stray_iff`).  There are two ways for it to do so.

* A change deletes a test that the graph before does not have either, or there is no graph before.
* The graph before has a test that the graph has lost, and no change speaks of it.

If the changes tell of all that the graph has lost since the graph before, and delete only what was in
that graph (`Followed`), there are no stray files, and every selected test exists.
-/

namespace ChangeImpact.Analyzer

variable {analyzer : Analyzer} {g : Graph} {before : Option Graph} {changes : List Change}
  {path other : String}

section Notions

variable (analyzer : Analyzer) (g : Graph) (before : Option Graph) (changes : List Change)

/-- A file is named by a change that does not delete it. -/
def Kept (path : String) : Prop :=
  path ≠ "" ∧ ∃ change ∈ changes, change.operation ≠ .deleted ∧
    Path.key analyzer.root change.path = path

/-- A file has the name of a test and is found, but the graph does not have it, no change tells that it is
there, and it is not known to have vanished. -/
structure Stray (path : String) : Prop where
  absent : path ∉ g.nodes
  named : FileKind.ofPath path = .test
  found : Changed analyzer changes path ∨
    ∃ seed, Seed analyzer g before changes seed ∧ Relation.TransGen (Leads g before) seed path
  unkept : ¬ Kept analyzer changes path
  unnoticed : ¬ Vanished analyzer g before changes path

/-- The changes lead from the graph before to the graph: they speak of every file that it has lost, and
whatever they delete was in the graph before. -/
structure Followed : Prop where
  lost : ∀ earlier, before = some earlier → ∀ path ∈ earlier.nodes, path ∉ g.nodes →
    Changed analyzer changes path ∨ Former analyzer changes path
  deleted : ∀ path, Changed analyzer changes path → path ∉ g.nodes → ¬ Kept analyzer changes path →
    ∃ earlier, before = some earlier ∧ path ∈ earlier.nodes

end Notions

theorem kindOf_of_not_mem (hpath : path ∉ g.nodes) : kindOf g path = FileKind.ofPath path := by
  rw [kindOf, Graph.kindOf?_eq_none_of_not_mem hpath]
  rfl

theorem kindOf?_eq_some_of_mem (hpath : path ∈ g.nodes) : g.kindOf? path = some (kindOf g path) := by
  obtain ⟨node, hnode⟩ := Table.mem_iff_exists.mp hpath
  rw [kindOf, Graph.kindOf?, hnode]
  rfl

/-! ## Stray files -/

/-- The stray files are those selected ones that are neither tests of the graph nor kept by a change. -/
theorem stray_iff : Stray analyzer g before changes path ↔
    path ∈ (analyzer.analyze g changes before).tests ∧ g.kindOf? path ≠ some .test ∧
      ¬ Kept analyzer changes path := by
  rw [mem_tests_iff]
  constructor
  · intro hstray
    have hkind : kindOf g path = .test := by rw [kindOf_of_not_mem hstray.absent, hstray.named]
    have hreached : path ∈ analyzer.reached g changes before :=
      mem_reached_iff_leads.mpr (hstray.found.imp_left .inl)
    refine ⟨.inl ⟨hkind, hreached, hstray.unnoticed⟩, ?_, hstray.unkept⟩
    rw [Graph.kindOf?_eq_none_of_not_mem hstray.absent]
    exact (Option.some_ne_none _).symm
  · rintro ⟨⟨hkind, hreached, hnot⟩ | ⟨source, -, -, hcompanion⟩, hother, hunkept⟩
    · have habsent : path ∉ g.nodes := by
        intro hpath
        rw [kindOf?_eq_some_of_mem hpath, hkind] at hother
        exact hother rfl
      have hnamed : FileKind.ofPath path = .test := by rw [← kindOf_of_not_mem habsent, hkind]
      have hfound := (mem_reached_iff_leads.mp hreached).imp_left fun hseed => hseed.resolve_right hnot
      exact ⟨habsent, hnamed, hfound, hunkept, hnot⟩
    · -- what goes with a source by its name is looked up among the tests of the graph
      exact absurd (beq_iff_eq.mp (mem_testsFor.mp hcompanion).2) hother

/-- The search does not leave the two graphs. -/
theorem mem_nodes_of_leads (hg : g.Balanced)
    (hbefore : ∀ earlier, before = some earlier → earlier.Balanced) (hstep : Leads g before path other) :
    other ∈ g.nodes ∨ ∃ earlier, before = some earlier ∧ other ∈ earlier.nodes := by
  have haffects : Affects g before path other := (mem_importersOf hg).mp hstep
  unfold Affects at haffects
  split at haffects
  · exact .inl (hg.source_mem ((hg.inverse other path).mpr haffects))
  · obtain ⟨earlier, hearlier, himporter⟩ := haffects
    have hbalanced := hbefore earlier hearlier
    exact .inr ⟨earlier, hearlier, hbalanced.source_mem ((hbalanced.inverse other path).mpr himporter)⟩

/-- Where the changes lead from the graph before to the graph, nothing is stray. -/
theorem Followed.not_stray (h : Followed analyzer g before changes) (hg : g.Balanced)
    (hbefore : ∀ earlier, before = some earlier → earlier.Balanced) :
    ¬ Stray analyzer g before changes path := by
  intro hstray
  have hunnoticed : ¬ ((Changed analyzer changes path ∨ Former analyzer changes path) ∧
      ∃ earlier, before = some earlier ∧ path ∈ earlier.nodes) := fun hknown =>
    hstray.unnoticed ⟨hknown.1, hstray.absent, hknown.2⟩
  rcases hstray.found with hchanged | ⟨seed, -, hsteps⟩
  · exact hunnoticed ⟨.inl hchanged, h.deleted path hchanged hstray.absent hstray.unkept⟩
  · obtain ⟨importee, -, hlast⟩ := Relation.TransGen.tail'_iff.mp hsteps
    obtain ⟨earlier, hearlier, hpath⟩ :=
      (mem_nodes_of_leads hg hbefore hlast).resolve_left hstray.absent
    exact hunnoticed ⟨h.lost earlier hearlier path hpath hstray.absent, earlier, hearlier, hpath⟩

/-- Vanished files are never selected.  A selected file is a test of the graph or is kept by a change,
except for the stray ones, which are all selected; and if the changes lead from the graph before to the
graph, there are none. -/
theorem selected_tests_exist (analyzer : Analyzer) (g : Graph) (changes : List Change)
    (before : Option Graph) :
    let tests := (analyzer.analyze g changes before).tests
    (∀ path, Vanished analyzer g before changes path → path ∉ tests) ∧
    (∀ path, Stray analyzer g before changes path ↔
      path ∈ tests ∧ g.kindOf? path ≠ some .test ∧ ¬ Kept analyzer changes path) ∧
    (g.Balanced → (∀ earlier, before = some earlier → earlier.Balanced) →
      Followed analyzer g before changes →
      ∀ path ∈ tests, g.kindOf? path = some .test ∨ Kept analyzer changes path) := by
  intro tests
  refine ⟨fun path hvanished hpath => ?_, fun path => stray_iff, fun hg hbefore hfollowed path hpath => ?_⟩
  · rcases mem_tests_iff.mp hpath with ⟨-, -, hnot⟩ | ⟨source, -, -, hcompanion⟩
    · exact hnot hvanished
    · have hsome : g.kindOf? path = some .test := beq_iff_eq.mp (mem_testsFor.mp hcompanion).2
      rw [Graph.kindOf?, Table.get?_eq_none_iff.mpr hvanished.2.1] at hsome
      cases hsome
  · by_contra hnone
    rw [not_or] at hnone
    exact hfollowed.not_stray hg hbefore (stray_iff.mpr ⟨hpath, hnone⟩)

/-- A test is deleted that the graph before had, and the test that it imported is still there. -/
theorem selected_tests_exist_after_deletion :
    let g := Graph.history [.addNode "a.test.ts" .test .null]
    let before := Graph.history [.addNode "a.test.ts" .test .null, .addNode "b.test.ts" .test .null,
      .addEdge "b.test.ts" "a.test.ts"]
    let changes : List Change := [⟨"b.test.ts", .deleted, none⟩, ⟨"a.test.ts", .modified, none⟩]
    let tests := (analyze {} g changes (some before)).tests
    "b.test.ts" ∉ tests ∧ ∀ path ∈ tests, g.kindOf? path = some .test ∨ Kept {} changes path := by
  intro g before changes tests
  obtain ⟨hvanished, -, hexist⟩ := selected_tests_exist {} g changes (some before)
  have hchanged : Changed {} changes "b.test.ts" :=
    ⟨by decide, _, List.mem_cons_self, by decide +kernel⟩
  have habsent : "b.test.ts" ∉ g.nodes := by decide +kernel
  have hknown : "b.test.ts" ∈ before.nodes := by decide +kernel
  have hnodes : ∀ path ∈ before.nodes, path ∉ g.nodes → path = "b.test.ts" := by
    intro path hpath hlost
    have hkeys : before.nodes.keys = ["a.test.ts", "b.test.ts"] := by decide +kernel
    have hmem : path ∈ before.nodes.keys := hpath
    rw [hkeys, List.mem_cons, List.mem_singleton] at hmem
    refine hmem.resolve_left ?_
    rintro rfl
    exact hlost (by decide +kernel)
  have hnamed : ∀ path, Changed {} changes path → path ∉ g.nodes → path = "b.test.ts" := by
    rintro path ⟨-, change, hchange, hkey⟩ hlost
    rcases List.mem_pair.mp hchange with rfl | rfl
    · rw [← hkey]
      decide +kernel
    · exact absurd (by rw [← hkey]; decide +kernel) hlost
  have hfollowed : Followed {} g (some before) changes := by
    refine ⟨fun earlier hearlier path hpath hlost => .inl ?_, fun path hpath hlost _ => ?_⟩
    · cases hearlier
      rw [hnodes path hpath hlost]
      exact hchanged
    · rw [hnamed path hpath hlost]
      exact ⟨before, rfl, hknown⟩
  refine ⟨hvanished _ ⟨.inl hchanged, habsent, before, rfl, hknown⟩, hexist ?_ ?_ hfollowed⟩
  · exact Graph.balanced_history _
  · rintro earlier ⟨⟩
    exact Graph.balanced_history _

/-- Without a graph before, a deleted test is selected by its name.  With one, a test is selected that is
gone from the graph without a change that speaks of it, since it imported a deleted file. -/
theorem selects_tests_that_do_not_exist :
    (∃ (g : Graph) (changes : List Change) (path : String),
      g.Balanced ∧ path ∈ (analyze {} g changes).tests ∧ path ∉ g.nodes ∧ ¬ Kept {} changes path) ∧
    ∃ (g before : Graph) (changes : List Change) (path : String),
      g.Balanced ∧ before.Balanced ∧ path ∈ (analyze {} g changes (some before)).tests ∧
        path ∉ g.nodes ∧ ¬ Kept {} changes path := by
  have hdeleted : ∀ path other : String, ¬ Kept {} [⟨path, .deleted, none⟩] other := by
    rintro path other ⟨-, change, hchange, hoperation, -⟩
    rw [List.mem_singleton.mp hchange] at hoperation
    exact hoperation rfl
  constructor
  · refine ⟨∅, [⟨"x.test.ts", .deleted, none⟩], "x.test.ts", Graph.balanced_empty, ?_, ?_,
      hdeleted _ _⟩
    · decide +kernel
    · decide +kernel
  · refine ⟨∅, Graph.history [.addNode "a.ts" .source .null, .addNode "x.test.ts" .test .null,
      .addEdge "x.test.ts" "a.ts"], [⟨"a.ts", .deleted, none⟩], "x.test.ts", Graph.balanced_empty,
      Graph.balanced_history _, ?_, ?_, hdeleted _ _⟩
    · decide +kernel
    · decide +kernel

end ChangeImpact.Analyzer
