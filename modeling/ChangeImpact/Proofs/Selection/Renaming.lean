import ChangeImpact.Proofs.Selection.Coverage

/-!
# A renamed file, or a deleted and an added one

Whether a file that has moved is reported as renamed or as deleted and added is decided by how much its
text has changed.  The two reports are compared here.  In both of them the search starts from the same
files (`seeds_moved`), since the old path takes part in it although only the second report counts it among
the changed files.  So they affect the same files.

The old path is a changed file in the second report alone, and that shows in two ways.  If it is that of a
source, the tests that go with it by their names are affected too, and if it is that of configuration, all
tests are run.  Nothing else makes a difference, and `renaming_as_deletion_and_addition` says when these
do.
-/

namespace ChangeImpact.Selection

open Analyzer

variable {analyzer : Analyzer} {g earlier : Graph} {before : Option Graph}
  {changes first second : List Change} {change : Change} {impact : Impact} {old new path : String}

/-! ## The paths that the reports give -/

theorem changed_cons : Changed analyzer (change :: changes) path ↔
    path ≠ "" ∧ Path.key analyzer.root change.path = path ∨ Changed analyzer changes path := by
  simp only [Changed, List.exists_mem_cons_iff, and_or_left]

theorem not_changed_nil : ¬ Changed analyzer [] path := by
  rintro ⟨-, change, hchange, -⟩
  cases hchange

theorem former_append : Former analyzer (first ++ second) path ↔
    Former analyzer first path ∨ Former analyzer second path := by
  simp only [Former, List.mem_append, or_and_right, exists_or, and_or_left]

theorem former_singleton_renamed : Former analyzer [⟨new, .renamed, some old⟩] path ↔
    path ≠ "" ∧ Path.key analyzer.root old = path := by
  constructor
  · rintro ⟨hpath, change, hchange, former, hformer, hkey⟩
    rw [List.mem_singleton.mp hchange] at hformer
    obtain ⟨hsome, -⟩ := Option.filter_eq_some_iff.mp hformer
    cases hsome
    exact ⟨hpath, hkey⟩
  · rintro ⟨hpath, hkey⟩
    -- without an old path there would be no key either
    have hold : old.isEmpty = false := by
      rw [← Bool.not_eq_true, String.isEmpty_iff]
      rintro rfl
      exact hpath hkey.symm
    refine ⟨hpath, _, List.mem_singleton_self _, old, ?_, hkey⟩
    exact Option.filter_eq_some_iff.mpr ⟨rfl, by rw [hold]; rfl⟩

theorem not_former_of_none (h : ∀ change ∈ changes, change.oldPath = none) :
    ¬ Former analyzer changes path := by
  rintro ⟨-, change, hchange, former, hformer, -⟩
  rw [Change.formerPath?, h change hchange] at hformer
  cases hformer

/-! ## One entry or two -/

/-- A moved file is reported as renamed. -/
def withRenaming (changes : List Change) (old new : String) : List Change :=
  changes ++ [⟨new, .renamed, some old⟩]

/-- A moved file is reported as deleted and added. -/
def withDeletionAndAddition (changes : List Change) (old new : String) : List Change :=
  changes ++ [⟨old, .deleted, none⟩, ⟨new, .added, none⟩]

theorem changed_moved : Changed analyzer (withDeletionAndAddition changes old new) path ↔
    Changed analyzer (withRenaming changes old new) path ∨
      path ≠ "" ∧ Path.key analyzer.root old = path := by
  rw [withDeletionAndAddition, withRenaming, changed_append, changed_append, changed_cons, changed_cons,
    changed_cons, or_iff_left not_changed_nil, or_assoc, or_comm (b := path ≠ "" ∧ _)]

theorem named_moved : Changed analyzer (withDeletionAndAddition changes old new) path ∨
      Former analyzer (withDeletionAndAddition changes old new) path ↔
    Changed analyzer (withRenaming changes old new) path ∨
      Former analyzer (withRenaming changes old new) path := by
  have hnone : ¬ Former analyzer [⟨old, .deleted, none⟩, ⟨new, .added, none⟩] path := by
    apply not_former_of_none
    simp
  rw [changed_moved, withDeletionAndAddition, former_append, or_iff_left hnone, withRenaming,
    former_append, former_singleton_renamed, or_assoc, or_comm (b := Former _ _ _)]

theorem vanished_moved : Vanished analyzer g before (withDeletionAndAddition changes old new) path ↔
    Vanished analyzer g before (withRenaming changes old new) path := by
  rw [Vanished, named_moved, Vanished]

/-- An old path that the graph has lost has vanished by the renaming. -/
theorem vanished_of_old (habsent : Path.key analyzer.root old ∉ g.nodes)
    (hknown : Path.key analyzer.root old ∈ earlier.nodes)
    (hpath : path ≠ "" ∧ Path.key analyzer.root old = path) :
    Vanished analyzer g (some earlier) (withRenaming changes old new) path := by
  have hformer : Former analyzer (withRenaming changes old new) path := by
    rw [withRenaming, former_append, former_singleton_renamed]
    exact .inr hpath
  rw [hpath.2] at habsent hknown
  exact ⟨.inr hformer, habsent, earlier, rfl, hknown⟩

/-- Both reports let the analysis start from the same files. -/
theorem seeds_moved (changes : List Change) (new : String) (habsent : Path.key analyzer.root old ∉ g.nodes)
    (hknown : Path.key analyzer.root old ∈ earlier.nodes) :
    analyzer.changedPaths (withDeletionAndAddition changes old new) ∪
        analyzer.vanishedPaths g (some earlier) (withDeletionAndAddition changes old new) =
      analyzer.changedPaths (withRenaming changes old new) ∪
        analyzer.vanishedPaths g (some earlier) (withRenaming changes old new) := by
  apply PathSet.ext
  intro path
  rw [mem_seeds, mem_seeds, Seed, changed_moved, vanished_moved, or_assoc, Seed]
  refine or_congr_right (or_iff_right_of_imp fun hpath => ?_)
  exact vanished_of_old habsent hknown hpath

section SameSeeds

variable (hseeds : analyzer.changedPaths first ∪ analyzer.vanishedPaths g before first =
  analyzer.changedPaths second ∪ analyzer.vanishedPaths g before second)

include hseeds

/-- What is affected depends only on where the analysis starts. -/
theorem direct_eq_of_seeds :
    (analyzer.analyze g first before).direct = (analyzer.analyze g second before).direct := by
  show PathSet.unionOf _ \ _ = PathSet.unionOf _ \ _
  rw [hseeds]

theorem transitive_eq_of_seeds :
    (analyzer.analyze g first before).transitive = (analyzer.analyze g second before).transitive := by
  have hdirect := direct_eq_of_seeds hseeds
  show explore _ (searchBound g before (analyzer.analyze g first before).direct)
      (analyzer.analyze g first before).direct.toList
      ((analyzer.changedPaths first ∪ analyzer.vanishedPaths g before first) ∪
        (analyzer.analyze g first before).direct) ∅ = _
  rw [hseeds, hdirect]
  rfl

theorem reached_eq_of_seeds : analyzer.reached g first before = analyzer.reached g second before := by
  show ((analyzer.changedPaths first ∪ analyzer.vanishedPaths g before first) ∪
    (analyzer.analyze g first before).direct) ∪ (analyzer.analyze g first before).transitive = _
  rw [hseeds, direct_eq_of_seeds hseeds, transitive_eq_of_seeds hseeds]
  rfl

end SameSeeds

/-! ## The two plans -/

theorem mem_changed_moved :
    path ∈ (analyzer.analyze g (withDeletionAndAddition changes old new) before).changed ↔
      path ∈ (analyzer.analyze g (withRenaming changes old new) before).changed ∨
        path ≠ "" ∧ Path.key analyzer.root old = path :=
  mem_changedPaths.trans (changed_moved.trans (or_congr_left mem_changedPaths.symm))

section Plans

variable (changes : List Change) (new : String) (habsent : Path.key analyzer.root old ∉ g.nodes)
  (hknown : Path.key analyzer.root old ∈ earlier.nodes)

include habsent in
/-- The deletion of configuration lets all tests run. -/
theorem runsAll_moved :
    RunsAll g (analyzer.analyze g (withDeletionAndAddition changes old new) before) false ↔
      RunsAll g (analyzer.analyze g (withRenaming changes old new) before) false ∨
        Path.key analyzer.root old ≠ "" ∧
          FileKind.ofPath (Path.key analyzer.root old) = .config := by
  have hkind := kindOf_of_not_mem habsent
  constructor
  · rintro (hforce | ⟨config, hconfig, hkinded⟩)
    · cases hforce
    · rcases mem_changed_moved.mp hconfig with hconfig | ⟨hname, rfl⟩
      · exact .inl (.inr ⟨config, hconfig, hkinded⟩)
      · exact .inr ⟨hname, hkind ▸ hkinded⟩
  · rintro ((hforce | ⟨config, hconfig, hkinded⟩) | ⟨hname, hkinded⟩)
    · cases hforce
    · exact .inr ⟨config, mem_changed_moved.mpr (.inl hconfig), hkinded⟩
    · exact .inr ⟨_, mem_changed_moved.mpr (.inr ⟨hname, rfl⟩), hkind.trans hkinded⟩

include habsent hknown

/-- The deletion brings the tests that go with the old path. -/
theorem mem_tests_moved (path : String) :
    path ∈ (analyzer.analyze g (withDeletionAndAddition changes old new) (some earlier)).tests ↔
      path ∈ (analyzer.analyze g (withRenaming changes old new) (some earlier)).tests ∨
        Path.key analyzer.root old ≠ "" ∧
          FileKind.ofPath (Path.key analyzer.root old) = .source ∧
          path ∈ analyzer.testsFor g (Path.key analyzer.root old) := by
  have hkind := kindOf_of_not_mem habsent
  have hreached := reached_eq_of_seeds (seeds_moved changes new habsent hknown)
  rw [mem_tests_iff, mem_tests_iff, hreached, vanished_moved, or_assoc]
  apply or_congr_right
  constructor
  · rintro ⟨source, hsource, hsourced, hpath⟩
    rcases changed_moved.mp hsource with hsource | ⟨hname, rfl⟩
    · exact .inl ⟨source, hsource, hsourced, hpath⟩
    · exact .inr ⟨hname, hkind ▸ hsourced, hpath⟩
  · rintro (⟨source, hsource, hsourced, hpath⟩ | ⟨hname, hsourced, hpath⟩)
    · exact ⟨source, changed_moved.mpr (.inl hsource), hsourced, hpath⟩
    · exact ⟨_, changed_moved.mpr (.inr ⟨hname, rfl⟩), hkind.trans hsourced, hpath⟩

/-- The affected tests are the same unless the old path brings further ones. -/
theorem tests_moved_eq_iff :
    (analyzer.analyze g (withDeletionAndAddition changes old new) (some earlier)).tests =
        (analyzer.analyze g (withRenaming changes old new) (some earlier)).tests ↔
      Path.key analyzer.root old = "" ∨
        (FileKind.ofPath (Path.key analyzer.root old) = .source →
          ∀ path ∈ analyzer.testsFor g (Path.key analyzer.root old),
            path ∈ (analyzer.analyze g (withRenaming changes old new) (some earlier)).tests) := by
  have htests := mem_tests_moved changes new habsent hknown
  constructor
  · intro hequal
    apply or_iff_not_imp_left.mpr
    intro hname hkind path hpath
    rw [← hequal]
    exact (htests path).mpr (.inr ⟨hname, hkind, hpath⟩)
  · intro hcases
    apply PathSet.ext
    intro path
    rw [htests path]
    refine or_iff_left_of_imp ?_
    rintro ⟨hname, hkind, hpath⟩
    exact hcases.resolve_left hname hkind path hpath

end Plans

/-- The plans are the same if all tests run anyway.  Otherwise the old path decides: that of a source may
bring further tests, and that of configuration lets all tests run. -/
theorem tests_plan_eq_iff {renamed moved : Impact} {former : String} {known : Prop}
    (hsome : ∃ path, path ∈ renamed.changed) (hmore : ∀ path ∈ renamed.changed, path ∈ moved.changed)
    (hall : RunsAll g moved false ↔
      RunsAll g renamed false ∨ former ≠ "" ∧ FileKind.ofPath former = .config)
    (htests : moved.tests = renamed.tests ↔
      former = "" ∨ (FileKind.ofPath former = .source → known)) :
    (plan g moved).tests = (plan g renamed).tests ↔
      RunsAll g renamed false ∨ former = "" ∨
        (FileKind.ofPath former = .source → known) ∧
        (FileKind.ofPath former = .config →
          ∀ path, path ∈ renamed.tests ↔ g.kindOf? path = some .test) := by
  by_cases hrenamed : RunsAll g renamed false
  · have hmoved : RunsAll g moved false := hall.mpr (.inl hrenamed)
    rw [(plan_of_runsAll hmoved).2, (plan_of_runsAll hrenamed).2]
    exact iff_of_true rfl (.inl hrenamed)
  rw [(plan_of_not_runsAll hrenamed).2.1 hsome, or_iff_right hrenamed]
  -- either the old path alone lets all tests run, or nothing does
  by_cases hmoved : RunsAll g moved false
  · obtain ⟨hname, hconfig⟩ := (hall.mp hmoved).resolve_left hrenamed
    have hequal : g.filesOfKind .test = renamed.tests ↔
        ∀ path, path ∈ renamed.tests ↔ g.kindOf? path = some .test := by
      constructor
      · intro hequal path
        rw [← hequal, Graph.mem_filesOfKind]
      · intro hequal
        apply PathSet.ext
        intro path
        rw [hequal, Graph.mem_filesOfKind]
    rw [(plan_of_runsAll hmoved).2, hequal, or_iff_right hname, hconfig]
    simp
  · obtain ⟨path, hpath⟩ := hsome
    have hconfig : former = "" ∨ FileKind.ofPath former ≠ .config := by
      apply or_iff_not_imp_left.mpr
      intro hname hkind
      exact hmoved (hall.mpr (.inr ⟨hname, hkind⟩))
    rw [(plan_of_not_runsAll hmoved).2.1 ⟨path, hmore path hpath⟩, htests]
    rcases hconfig with hname | hkind
    · exact iff_of_true (.inl hname) (.inl hname)
    · simp [hkind]

/-- A file that the graph before has and the graph has lost is moved, by one entry or by two.

* The changed files differ by the old path, which is not changed by the one entry.
* The same files are directly affected, and the same ones transitively.
* The affected tests differ by those that go with the old path if that is the path of a source.
* If the new path has a key, the plans have the same tests exactly in these cases: changed configuration
  lets all tests run anyway; or the old path has no key; or the tests that go with it are affected anyway
  if it is that of a source, and all tests of the graph are if it is that of configuration. -/
theorem renaming_as_deletion_and_addition (analyzer : Analyzer) (g earlier : Graph)
    (changes : List Change) (old new : String) (habsent : Path.key analyzer.root old ∉ g.nodes)
    (hknown : Path.key analyzer.root old ∈ earlier.nodes) :
    let former := Path.key analyzer.root old
    let renamed := analyzer.analyze g (withRenaming changes old new) (some earlier)
    let moved := analyzer.analyze g (withDeletionAndAddition changes old new) (some earlier)
    (∀ path, path ∈ moved.changed ↔ path ∈ renamed.changed ∨ path ≠ "" ∧ former = path) ∧
    moved.direct = renamed.direct ∧ moved.transitive = renamed.transitive ∧
    (∀ path, path ∈ moved.tests ↔ path ∈ renamed.tests ∨
      former ≠ "" ∧ FileKind.ofPath former = .source ∧ path ∈ analyzer.testsFor g former) ∧
    (Path.key analyzer.root new ≠ "" →
      ((plan g moved).tests = (plan g renamed).tests ↔
        RunsAll g renamed false ∨ former = "" ∨
          (FileKind.ofPath former = .source →
            ∀ path ∈ analyzer.testsFor g former, path ∈ renamed.tests) ∧
          (FileKind.ofPath former = .config →
            ∀ path, path ∈ renamed.tests ↔ g.kindOf? path = some .test))) := by
  intro former renamed moved
  have hseeds := seeds_moved changes new habsent hknown
  have hchanged : ∀ path, path ∈ moved.changed ↔ path ∈ renamed.changed ∨ path ≠ "" ∧ former = path :=
    fun path => mem_changed_moved
  refine ⟨hchanged, direct_eq_of_seeds hseeds, transitive_eq_of_seeds hseeds,
    mem_tests_moved changes new habsent hknown, fun hnew => ?_⟩
  have hnamed : Changed analyzer (withRenaming changes old new) (Path.key analyzer.root new) := by
    rw [withRenaming, changed_append, changed_cons]
    exact .inr (.inl ⟨hnew, rfl⟩)
  apply tests_plan_eq_iff
  · exact ⟨_, mem_changedPaths.mpr hnamed⟩
  · exact fun path hpath => (hchanged path).mpr (.inl hpath)
  · exact runsAll_moved changes new habsent
  · exact tests_moved_eq_iff changes new habsent hknown

/-- A source without tests of its own is moved beside a test that imports it.  The plan does not depend on
how that is reported. -/
theorem renaming_as_deletion_and_addition_of_imported_source :
    let g := Graph.history [.addNode "lib/a.ts" .source .null, .addNode "t.test.ts" .test .null,
      .addEdge "t.test.ts" "lib/a.ts"]
    let earlier := Graph.history [.addNode "a.ts" .source .null, .addNode "t.test.ts" .test .null,
      .addEdge "t.test.ts" "a.ts"]
    (plan g (analyze {} g (withDeletionAndAddition [] "a.ts" "lib/a.ts") (some earlier))).tests =
      (plan g (analyze {} g (withRenaming [] "a.ts" "lib/a.ts") (some earlier))).tests := by
  intro g earlier
  obtain ⟨-, -, -, -, hplans⟩ := renaming_as_deletion_and_addition {} g earlier [] "a.ts" "lib/a.ts"
    (by decide +kernel) (by decide +kernel)
  refine (hplans (by decide +kernel)).mpr (.inr (.inr ⟨fun _ => ?_, fun hconfig => ?_⟩))
  · decide +kernel
  · exact absurd hconfig (by decide +kernel)

/-- The test that goes with the old path is only found if the source is deleted, and all tests are only
run if the configuration is deleted. -/
theorem renaming_differs_from_deletion_and_addition :
    (∃ g earlier : Graph, g.Balanced ∧ earlier.Balanced ∧
      "new.ts" ∈ g.nodes ∧ "old.ts" ∉ g.nodes ∧ "old.ts" ∈ earlier.nodes ∧
      "old.test.ts" ∈
        (plan g (analyze {} g (withDeletionAndAddition [] "old.ts" "new.ts") (some earlier))).tests ∧
      "old.test.ts" ∉
        (plan g (analyze {} g (withRenaming [] "old.ts" "new.ts") (some earlier))).tests) ∧
    ∃ g earlier : Graph, g.Balanced ∧ earlier.Balanced ∧
      "jest.js" ∈ g.nodes ∧ "jest.config.js" ∉ g.nodes ∧ "jest.config.js" ∈ earlier.nodes ∧
      "t.test.ts" ∈ (plan g (analyze {} g
        (withDeletionAndAddition [] "jest.config.js" "jest.js") (some earlier))).tests ∧
      "t.test.ts" ∉ (plan g (analyze {} g
        (withRenaming [] "jest.config.js" "jest.js") (some earlier))).tests := by
  constructor
  · refine ⟨Graph.history [.addNode "new.ts" .source .null, .addNode "old.test.ts" .test .null],
      Graph.history [.addNode "old.ts" .source .null, .addNode "old.test.ts" .test .null],
      Graph.balanced_history _, Graph.balanced_history _, ?_, ?_, ?_, ?_, ?_⟩
    · decide +kernel
    · decide +kernel
    · decide +kernel
    · decide +kernel
    · decide +kernel
  · refine ⟨Graph.history [.addNode "jest.js" .source .null, .addNode "t.test.ts" .test .null],
      Graph.history [.addNode "jest.config.js" .config .null, .addNode "t.test.ts" .test .null],
      Graph.balanced_history _, Graph.balanced_history _, ?_, ?_, ?_, ?_, ?_⟩
    · decide +kernel
    · decide +kernel
    · decide +kernel
    · decide +kernel
    · decide +kernel

end ChangeImpact.Selection
