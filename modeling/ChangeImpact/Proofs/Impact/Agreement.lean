import ChangeImpact.Proofs.Impact.Deletion
import ChangeImpact.Selection

/-!
# What an analysis depends on

An analysis looks at the nodes and the edges of its graphs and at nothing else: not at the order in which these
came, and not at what has been said about the files.  So graphs that agree (`Graph.Agree`) have the same impact
(`analyze_congr`) and the same plan (`Selection.plan_congr`).

The graph before the changes is only asked for files that the present graph does not have.  Where none of the
paths that the changes speak of has vanished it may as well be left out (`analyze_eq_of_none_vanished`).
-/

namespace ChangeImpact

attribute [ext] Impact

namespace Graph

variable {g h : Graph} {path : String}

/-- Two balanced graphs have the same nodes and the same edges. -/
structure Agree (g h : Graph) : Prop where
  left : g.Balanced
  right : h.Balanced
  nodes : ∀ path, h.nodes.get? path = g.nodes.get? path
  targets : ∀ path, h.targets path = g.targets path

theorem Agree.importers (hgraphs : Agree g h) (path : String) : h.importers path = g.importers path := by
  refine PathSet.ext fun source => ?_
  rw [← hgraphs.right.inverse, ← hgraphs.left.inverse, hgraphs.targets]

theorem Agree.mem_nodes (hgraphs : Agree g h) : path ∈ h.nodes ↔ path ∈ g.nodes :=
  Table.mem_congr (by rw [hgraphs.nodes])

theorem Agree.kindOf? (hgraphs : Agree g h) (path : String) : h.kindOf? path = g.kindOf? path := by
  rw [Graph.kindOf?, hgraphs.nodes, Graph.kindOf?]

end Graph

/-- Plans for one impact differ only if the kinds of the files do. -/
theorem Selection.plan_congr {g h : Graph} (hkinds : ∀ path, h.kindOf? path = g.kindOf? path) (impact : Impact)
    (force : Bool) : plan h impact force = plan g impact force := by
  have htests : h.filesOfKind .test = g.filesOfKind .test := by
    refine PathSet.ext fun path => ?_
    rw [Graph.mem_filesOfKind, Graph.mem_filesOfKind, hkinds]
  have hconfigs : changedConfigs h impact = changedConfigs g impact := by
    simp only [changedConfigs, Analyzer.kindOf, hkinds]
  simp only [plan, full, htests, hconfigs]

namespace Analyzer

variable {analyzer : Analyzer} {g h : Graph} {before earlier : Option Graph} {changes : List Change}
  {path seed other test : String}

/-- An impact is determined by where the analysis starts, by what it reaches from there, and by the kinds and the
edges of the files. -/
theorem analyze_eq (hg : g.Balanced) (hh : h.Balanced) (hkinds : ∀ path, h.kindOf? path = g.kindOf? path)
    (himporters : ∀ path, h.importers path = g.importers path)
    (hcovered : ∀ test, coveredSources h test = coveredSources g test)
    (hvanished : ∀ path, Vanished analyzer h earlier changes path ↔ Vanished analyzer g before changes path)
    (hdirect : ∀ path, (∃ seed, Seed analyzer h earlier changes seed ∧ Affects h earlier seed path) ↔
      ∃ seed, Seed analyzer g before changes seed ∧ Affects g before seed path)
    (hreached : ∀ path, Reached analyzer h earlier changes path ↔ Reached analyzer g before changes path) :
    analyzer.analyze h changes earlier = analyzer.analyze g changes before := by
  have hseeds : ∀ path, Seed analyzer h earlier changes path ↔ Seed analyzer g before changes path := fun path =>
    or_congr_right (hvanished path)
  have hdirectEq : (analyzer.analyze h changes earlier).direct = (analyzer.analyze g changes before).direct := by
    refine PathSet.ext fun path => ?_
    rw [mem_direct hh, mem_direct hg, hdirect, hseeds]
  have htestsEq : (analyzer.analyze h changes earlier).tests = (analyzer.analyze g changes before).tests := by
    refine PathSet.ext fun path => ?_
    simp only [mem_tests hh, mem_tests hg, mem_testsFor, kindOf, isTestOf, hkinds, himporters, hseeds, hreached,
      hvanished]
  refine Impact.ext rfl hdirectEq (PathSet.ext fun path => ?_) htestsEq ?_
  · rw [mem_transitive hh, mem_transitive hg, hreached, hseeds, hdirectEq]
  · show (analyzer.analyze h changes earlier).tests.toList.map _ =
      (analyzer.analyze g changes before).tests.toList.map _
    rw [htestsEq]
    exact List.map_congr_left fun test _ => by rw [hcovered]

/-! ## Graphs that agree -/

section Congr

variable (hgraphs : Graph.Agree g h) (hbefore : Option.Rel Graph.Agree before earlier)

include hgraphs hbefore

theorem vanished_congr (path : String) :
    Vanished analyzer h earlier changes path ↔ Vanished analyzer g before changes path := by
  unfold Vanished
  rw [hgraphs.mem_nodes]
  cases hbefore with
  | none => rfl
  | some hearlier => simp only [Option.some.injEq, exists_eq_left', hearlier.mem_nodes]

theorem affects_congr : Affects h earlier = Affects g before := by
  funext path other
  unfold Affects
  rw [hgraphs.importers]
  simp only [hgraphs.mem_nodes]
  cases hbefore with
  | none => rfl
  | some hearlier => simp only [Option.some.injEq, exists_eq_left', hearlier.importers]

/-- Graphs that agree have the same impact, also if the graphs before them are two that agree. -/
theorem analyze_congr (analyzer : Analyzer) (changes : List Change) :
    analyzer.analyze h changes earlier = analyzer.analyze g changes before := by
  have hvanished : ∀ path, Vanished analyzer h earlier changes path ↔ Vanished analyzer g before changes path :=
    vanished_congr hgraphs hbefore
  have haffects := affects_congr hgraphs hbefore
  refine analyze_eq hgraphs.left hgraphs.right hgraphs.kindOf? hgraphs.importers ?_ hvanished ?_ ?_
  · intro test
    simp only [coveredSources, Graph.dependencies, hgraphs.nodes, hgraphs.targets, hgraphs.kindOf?]
  · intro path
    simp only [Seed, hvanished, haffects]
  · intro path
    simp only [Reached, Seed, hvanished, haffects]

end Congr

/-! ## Leaving out the graph before -/

section NoneVanished

variable (hg : g.Balanced) (hbefore : ∀ earlier, before = some earlier → earlier.Balanced)
  (hnone : ∀ path, ¬ Vanished analyzer g before changes path)

include hbefore hnone in
/-- From a changed file the graph before leads nowhere. -/
theorem affects_iff_of_changed (hseed : path ∈ g.nodes ∨ Changed analyzer changes path) :
    Affects g before path other ↔ Affects g none path other := by
  unfold Affects
  by_cases hpath : path ∈ g.nodes
  · rw [if_pos hpath, if_pos hpath]
  · rw [if_neg hpath, if_neg hpath]
    refine iff_of_false ?_ ?_
    · rintro ⟨earlier, hearlier, hother⟩
      have hchanged := hseed.resolve_left hpath
      have hnot : path ∉ earlier.nodes := fun hmem => hnone path ⟨.inl hchanged, hpath, earlier, hearlier, hmem⟩
      rw [(hbefore earlier hearlier).importers_eq_empty hnot] at hother
      exact PathSet.not_mem_empty hother
    · rintro ⟨earlier, hearlier, -⟩
      cases hearlier

include hg in
theorem mem_nodes_of_affects_none (haffects : Affects g none path other) : other ∈ g.nodes := by
  unfold Affects at haffects
  split at haffects
  · exact hg.importer_mem haffects
  · obtain ⟨earlier, hearlier, -⟩ := haffects
    cases hearlier

include hg hbefore hnone

theorem transGen_affects_iff (hseed : Changed analyzer changes seed) :
    Relation.TransGen (Affects g none) seed path ↔ Relation.TransGen (Affects g before) seed path := by
  constructor
  · intro hsteps
    refine Relation.TransGen.mono (fun path other haffects => ?_) _ _ hsteps
    unfold Affects at haffects ⊢
    split at haffects
    · rename_i hpath
      rwa [if_pos hpath]
    · obtain ⟨earlier, hearlier, -⟩ := haffects
      cases hearlier
  · intro hsteps
    -- after the first step all files are in the graph
    have hmem : Relation.TransGen (Affects g none) seed path ∧ path ∈ g.nodes := by
      induction hsteps with
      | single hstep =>
          have hstep' := (affects_iff_of_changed hbefore hnone (.inr hseed)).mp hstep
          exact ⟨.single hstep', mem_nodes_of_affects_none hg hstep'⟩
      | tail _ hstep ih =>
          have hstep' := (affects_iff_of_changed hbefore hnone (.inl ih.2)).mp hstep
          exact ⟨ih.1.tail hstep', mem_nodes_of_affects_none hg hstep'⟩
    exact hmem.1

/-- If no path that the changes speak of has vanished, the graph before tells nothing. -/
theorem analyze_eq_of_none_vanished : analyzer.analyze g changes none = analyzer.analyze g changes before := by
  have hvanished : ∀ path, Vanished analyzer g none changes path ↔ Vanished analyzer g before changes path := by
    intro path
    refine iff_of_false ?_ (hnone path)
    rintro ⟨-, -, earlier, hearlier, -⟩
    cases hearlier
  have hseed : ∀ path, Seed analyzer g before changes path → Changed analyzer changes path := fun path hpath =>
    hpath.resolve_right (hnone path)
  have hseeds : ∀ path, Seed analyzer g none changes path ↔ Seed analyzer g before changes path := fun path =>
    or_congr_right (hvanished path)
  refine analyze_eq hg hg (fun _ => rfl) (fun _ => rfl) (fun _ => rfl) hvanished ?_ ?_
  · intro path
    simp only [hseeds]
    refine exists_congr fun seed => and_congr_right fun hpath => ?_
    exact (affects_iff_of_changed hbefore hnone (.inr (hseed seed hpath))).symm
  · intro path
    unfold Reached
    simp only [hseeds]
    refine exists_congr fun seed => and_congr_right fun hpath => ?_
    exact transGen_affects_iff hg hbefore hnone (hseed seed hpath)

end NoneVanished

/-- Neither does a graph before that agrees with the present one. -/
theorem analyze_eq_of_agree (hgraphs : Graph.Agree g h) (hbefore : ∀ earlier ∈ before, Graph.Agree g earlier)
    (analyzer : Analyzer) (changes : List Change) :
    analyzer.analyze h changes before = analyzer.analyze g changes none := by
  cases before with
  | none => exact analyze_congr hgraphs .none analyzer changes
  | some earlier =>
      rw [analyze_congr hgraphs (.some (hbefore earlier rfl)) analyzer changes]
      refine (analyze_eq_of_none_vanished hgraphs.left ?_ ?_).symm
      · rintro other hother
        rw [← Option.some.inj hother]
        exact hgraphs.left
      · rintro path ⟨-, hnot, other, hother, hpath⟩
        rw [← Option.some.inj hother] at hpath
        exact hnot hpath

end Analyzer
end ChangeImpact
