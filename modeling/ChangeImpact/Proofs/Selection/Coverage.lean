import ChangeImpact.Proofs.Impact.Presence
import ChangeImpact.Selection

/-!
# The plan covers the analysis

A plan runs all tests if that is demanded or a configuration file has changed (`RunsAll`).  It takes them
from the graph then, and from the analysis otherwise; `mem_tests_plan_iff` describes the selected tests in
all cases, and everything else is derived from it.

An affected test that the graph has is selected in both cases, so that no test of the graph is lost when
a plan runs all tests instead of some (`plan_covers_analysis`).  Two things stand against more.

* The analysis gives tests by their names that the graph does not have, such as deleted ones if there is
  no graph before.  A plan that runs all tests has no use for them.
* An analysis may find tests although no change has a path that could be given: an old path is enough.
  Then there is nothing that has changed, and nothing is run.
-/

namespace ChangeImpact.Selection

open Analyzer

variable {analyzer : Analyzer} {g : Graph} {before : Option Graph} {changes : List Change}
  {impact : Impact} {force : Bool} {path : String}

/-- A plan runs all tests if that is demanded or if configuration has changed. -/
def RunsAll (g : Graph) (impact : Impact) (force : Bool) : Prop :=
  force = true ∨ ∃ path ∈ impact.changed, kindOf g path = .config

theorem isEmpty_changedConfigs_eq_false : (changedConfigs g impact).isEmpty = false ↔
    ∃ path ∈ impact.changed, kindOf g path = .config := by
  rw [PathSet.isEmpty_eq_false_iff]
  apply exists_congr
  intro path
  rw [changedConfigs, PathSet.mem_filter, beq_iff_eq]

/-! ## The two kinds of plans -/

theorem plan_of_runsAll (h : RunsAll g impact force) :
    (plan g impact force).strategy = .full ∧ (plan g impact force).tests = g.filesOfKind .test := by
  unfold plan
  cases force with
  | true => exact ⟨rfl, rfl⟩
  | false =>
      have hconfigs : ∃ path ∈ impact.changed, kindOf g path = .config := h.resolve_left Bool.false_ne_true
      have hchanged : impact.changed.isEmpty = false := by
        obtain ⟨path, hpath, -⟩ := hconfigs
        exact PathSet.isEmpty_eq_false_iff.mpr ⟨path, hpath⟩
      rw [← isEmpty_changedConfigs_eq_false] at hconfigs
      simp [hchanged, hconfigs, full]

theorem plan_of_not_runsAll (h : ¬ RunsAll g impact force) :
    (plan g impact force).strategy ≠ .full ∧
      ((∃ path, path ∈ impact.changed) → (plan g impact force).tests = impact.tests) ∧
      ((¬ ∃ path, path ∈ impact.changed) → (plan g impact force).tests = ∅) := by
  have hforce : force = false := Bool.eq_false_iff.mpr fun hforce => h (.inl hforce)
  have hconfigs : (changedConfigs g impact).isEmpty = true := by
    by_contra hnot
    exact h (.inr (isEmpty_changedConfigs_eq_false.mp (Bool.eq_false_iff.mpr hnot)))
  rw [← PathSet.isEmpty_eq_false_iff, hforce]
  unfold plan
  cases hchanged : impact.changed.isEmpty with
  | true => simp [hchanged]
  | false =>
      simp only [hchanged, hconfigs]
      refine ⟨?_, fun _ => rfl, nofun⟩
      cases impact.tests.isEmpty <;> nofun

theorem strategy_eq_full_iff : (plan g impact force).strategy = .full ↔ RunsAll g impact force := by
  refine ⟨fun hfull => ?_, fun h => (plan_of_runsAll h).1⟩
  by_contra hnot
  exact (plan_of_not_runsAll hnot).1 hfull

/-- What a plan selects: all tests of the graph, or what the analysis gives if anything has changed. -/
theorem mem_tests_plan_iff : path ∈ (plan g impact force).tests ↔
    (RunsAll g impact force ∧ g.kindOf? path = some .test) ∨
      (¬ RunsAll g impact force ∧ (∃ changed, changed ∈ impact.changed) ∧ path ∈ impact.tests) := by
  by_cases hall : RunsAll g impact force
  · rw [(plan_of_runsAll hall).2, Graph.mem_filesOfKind]
    simp [hall]
  · obtain ⟨-, hsome, hnone⟩ := plan_of_not_runsAll hall
    by_cases hchanged : ∃ changed, changed ∈ impact.changed
    · rw [hsome hchanged]
      simp [hall, hchanged]
    · rw [hnone hchanged]
      simp [hall, hchanged]

/-! ## Affected tests of the graph -/

/-- An affected test that the graph has is a test there. -/
theorem kindOf?_of_mem_tests (hpath : path ∈ (analyzer.analyze g changes before).tests)
    (hnode : path ∈ g.nodes) : g.kindOf? path = some .test := by
  rcases mem_tests_iff.mp hpath with ⟨hkind, -, -⟩ | ⟨source, -, -, hcompanion⟩
  · rw [kindOf?_eq_some_of_mem hnode, hkind]
  · exact beq_iff_eq.mp (mem_testsFor.mp hcompanion).2

/-- If the changes lead from the graph before to the graph and the graph has what they keep, all affected
tests are in the graph. -/
theorem mem_nodes_of_followed (hg : g.Balanced)
    (hbefore : ∀ earlier, before = some earlier → earlier.Balanced)
    (hfollowed : Followed analyzer g before changes)
    (hkept : ∀ path, Kept analyzer changes path → path ∈ g.nodes)
    (hpath : path ∈ (analyzer.analyze g changes before).tests) : path ∈ g.nodes := by
  by_contra habsent
  have hkind : g.kindOf? path ≠ some .test := by
    rw [Graph.kindOf?_eq_none_of_not_mem habsent]
    exact (Option.some_ne_none _).symm
  have hunkept : ¬ Kept analyzer changes path := fun h => habsent (hkept path h)
  exact hfollowed.not_stray hg hbefore (stray_iff.mpr ⟨hpath, hkind, hunkept⟩)

/-- Suppose that a path has changed or that all tests are demanded.

* The plan has every affected test that the graph has, whatever its strategy.
* A plan that does not run all tests has the affected tests and nothing else.
* If the graphs are balanced, the changes lead from the graph before to the graph, and the graph has what
  they keep, then the plan has every affected test.

And whatever a plan has selected from the graph is selected by each plan on this graph that runs all
tests, so neither a changed configuration file nor a demand can drop a test. -/
theorem plan_covers_analysis (analyzer : Analyzer) (g : Graph) (changes : List Change)
    (before : Option Graph) (force : Bool) :
    let impact := analyzer.analyze g changes before
    let selection := plan g impact force
    ((∃ path, Changed analyzer changes path) ∨ force = true →
      (∀ path ∈ impact.tests, path ∈ g.nodes → path ∈ selection.tests) ∧
      (selection.strategy ≠ .full → selection.tests = impact.tests) ∧
      (g.Balanced → (∀ earlier, before = some earlier → earlier.Balanced) →
        Followed analyzer g before changes →
        (∀ path, Kept analyzer changes path → path ∈ g.nodes) →
        ∀ path ∈ impact.tests, path ∈ selection.tests)) ∧
    ∀ (more : List Change) (demanded : Bool),
      (∃ path, Changed analyzer more path ∧ kindOf g path = .config) ∨ demanded = true →
      ∀ path ∈ selection.tests, path ∈ g.nodes →
        path ∈ (plan g (analyzer.analyze g more before) demanded).tests := by
  intro impact selection
  have hmem : ∀ path, path ∈ impact.changed ↔ Changed analyzer changes path :=
    fun path => mem_changedPaths
  -- a plan that does not run all tests does so because a path has changed
  have hnamed : (∃ path, Changed analyzer changes path) ∨ force = true →
      ¬ RunsAll g impact force → ∃ path, path ∈ impact.changed := by
    rintro (⟨path, hpath⟩ | hforce) hnot
    · exact ⟨path, (hmem path).mpr hpath⟩
    · exact absurd (.inl hforce) hnot
  constructor
  · intro hsome
    have hcovered : ∀ path ∈ impact.tests, path ∈ g.nodes → path ∈ selection.tests := by
      intro path hpath hnode
      apply mem_tests_plan_iff.mpr
      by_cases hall : RunsAll g impact force
      · exact .inl ⟨hall, kindOf?_of_mem_tests hpath hnode⟩
      · exact .inr ⟨hall, hnamed hsome hall, hpath⟩
    refine ⟨hcovered, fun hstrategy => ?_, fun hg hbefore hfollowed hkept path hpath => ?_⟩
    · have hnot : ¬ RunsAll g impact force := fun hall => hstrategy (strategy_eq_full_iff.mpr hall)
      exact (plan_of_not_runsAll hnot).2.1 (hnamed hsome hnot)
    · exact hcovered path hpath (mem_nodes_of_followed hg hbefore hfollowed hkept hpath)
  · intro more demanded hdemand path hpath hnode
    have hall : RunsAll g (analyzer.analyze g more before) demanded := by
      rcases hdemand with ⟨config, hchanged, hkind⟩ | hdemanded
      · exact .inr ⟨config, mem_changedPaths.mpr hchanged, hkind⟩
      · exact .inl hdemanded
    have hkind : g.kindOf? path = some .test := by
      rcases mem_tests_plan_iff.mp hpath with ⟨-, hkind⟩ | ⟨-, -, hpath⟩
      · exact hkind
      · exact kindOf?_of_mem_tests hpath hnode
    exact mem_tests_plan_iff.mpr (.inl ⟨hall, hkind⟩)

/-- A changed source is imported by a test.  The test is selected because it is affected, and then, when
the configuration changes as well, because all tests are. -/
theorem plan_covers_importing_test :
    let g := Graph.history [.addNode "a.ts" .source .null, .addNode "t.test.ts" .test .null,
      .addEdge "t.test.ts" "a.ts"]
    let source : Change := ⟨"a.ts", .modified, none⟩
    let config : Change := ⟨"package.json", .modified, none⟩
    "t.test.ts" ∈ (plan g (analyze {} g [source] (some g))).tests ∧
      "t.test.ts" ∈ (plan g (analyze {} g [source, config] (some g))).tests := by
  intro g source config
  have hg : g.Balanced := Graph.balanced_history _
  have hbefore : ∀ earlier, some g = some earlier → earlier.Balanced := by
    rintro earlier ⟨⟩
    exact hg
  have hchanged : Changed {} [source] "a.ts" := ⟨by decide, _, List.mem_singleton_self _, by decide +kernel⟩
  have hkept : ∀ path, Kept {} [source] path → path ∈ g.nodes := by
    rintro path ⟨-, change, hchange, -, hkey⟩
    rw [List.mem_singleton.mp hchange] at hkey
    rw [← hkey]
    decide +kernel
  have hfollowed : Followed {} g (some g) [source] := by
    refine ⟨fun earlier hearlier path hpath hlost => ?_, fun path hpath hlost _ => ?_⟩
    · cases hearlier
      exact absurd hpath hlost
    · obtain ⟨hname, change, hchange, hkey⟩ := hpath
      have hoperation : change.operation ≠ .deleted := by
        rw [List.mem_singleton.mp hchange]
        decide
      exact absurd (hkept path ⟨hname, change, hchange, hoperation, hkey⟩) hlost
  obtain ⟨hcovers, hadded⟩ := plan_covers_analysis {} g [source] (some g) false
  obtain ⟨-, -, hall⟩ := hcovers (.inl ⟨_, hchanged⟩)
  have hselected := hall hg hbefore hfollowed hkept "t.test.ts" (by decide +kernel)
  have hconfig : Changed {} [source, config] "package.json" :=
    ⟨by decide, config, List.mem_of_getLast? rfl, by decide +kernel⟩
  exact ⟨hselected, hadded [source, config] false (.inl ⟨_, hconfig, by decide +kernel⟩) "t.test.ts"
    hselected (by decide +kernel)⟩

/-- A test without a node is selected by its name, and is not selected if all tests are demanded or
configuration has changed too.  A renamed file without a new path has nothing selected for it. -/
theorem plan_misses_affected_tests :
    (∃ (g : Graph) (test config : Change), g.Balanced ∧
      test.path ∈ (plan g (analyze {} g [test])).tests ∧
      test.path ∈ (analyze {} g [test, config]).tests ∧
      test.path ∉ (plan g (analyze {} g [test, config])).tests ∧
      test.path ∉ (plan g (analyze {} g [test]) true).tests) ∧
    ∃ (g before : Graph) (change : Change), g.Balanced ∧ before.Balanced ∧
      "t.test.ts" ∈ (analyze {} g [change] (some before)).tests ∧
      "t.test.ts" ∉ (plan g (analyze {} g [change] (some before))).tests := by
  constructor
  · refine ⟨Graph.history [.addNode "package.json" .config .null], ⟨"x.test.ts", .deleted, none⟩,
      ⟨"package.json", .modified, none⟩, Graph.balanced_history _, ?_, ?_, ?_, ?_⟩
    · decide +kernel
    · decide +kernel
    · decide +kernel
    · decide +kernel
  · refine ⟨Graph.history [.addNode "t.test.ts" .test .null],
      Graph.history [.addNode "a.ts" .source .null, .addNode "t.test.ts" .test .null,
        .addEdge "t.test.ts" "a.ts"], ⟨".", .renamed, some "a.ts"⟩, Graph.balanced_history _,
      Graph.balanced_history _, ?_, ?_⟩
    · decide +kernel
    · decide +kernel

end ChangeImpact.Selection
