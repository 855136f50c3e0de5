import ChangeImpact.Proofs.Impact.Exactness

/-!
# The impact of joined changes

A list of changes can be analysed as a whole or part by part.  The sets of an impact are not the same in
both cases: a file that one part changes may be affected by another part, and it then counts as changed
when the parts are joined.  The searches differ as well, for each stops at the files that it has visited
itself.  What is affected at all is the same nevertheless, and so are the tests.

Without a graph from before, the files that an analysis finds are those to which a chain of imports leads
from a changed file (`mem_allAffected`), in graphs with cycles too.  A chain starts from one file, so it is
there for one of the changes alone, and both sets are put together from those of single changes
(`OneByOne`).  From this notion everything else follows: two lists (`OneByOne.append`), more changes
(`OneByOne.mono`), and by induction the commits of a history (`OneByOne.flatten`).

How files move between the sets when lists are joined is said by `direct_append` and
`transitive_append`.
-/

namespace ChangeImpact.Analyzer

variable {analyzer : Analyzer} {g : Graph} {changes first second : List Change} {path : String}

/-! ## Without a graph from before -/

theorem not_vanished_without_before : ¬ Vanished analyzer g none changes path := by
  intro hvanished
  obtain ⟨-, -, earlier, hearlier, -⟩ := hvanished
  cases hearlier

theorem seed_iff_changed : Seed analyzer g none changes path ↔ Changed analyzer changes path :=
  or_iff_left not_vanished_without_before

theorem allAffected_eq_reached :
    (analyzer.analyze g changes).allAffected = analyzer.reached g changes none := by
  apply PathSet.ext
  intro path
  rw [mem_reached, seed_iff_changed, Impact.allAffected, PathSet.mem_union, PathSet.mem_union, or_assoc]
  exact or_congr_left mem_changedPaths

/-- What is affected at all is what a chain of imports leads to, starting from a changed file. -/
theorem mem_allAffected : path ∈ (analyzer.analyze g changes).allAffected ↔
    ∃ seed, Changed analyzer changes seed ∧ Relation.ReflTransGen (Leads g none) seed path := by
  rw [allAffected_eq_reached, mem_reached_iff_leads]
  constructor
  · intro hpath
    rcases hpath with hseed | ⟨seed, hseed, hsteps⟩
    · exact ⟨path, seed_iff_changed.mp hseed, .refl⟩
    · exact ⟨seed, seed_iff_changed.mp hseed, hsteps.to_reflTransGen⟩
  · intro hpath
    obtain ⟨seed, hchanged, hsteps⟩ := hpath
    rcases Relation.reflTransGen_iff_eq_or_transGen.mp hsteps with heq | hsteps
    · rw [heq]
      exact .inl (seed_iff_changed.mpr hchanged)
    · exact .inr ⟨seed, seed_iff_changed.mpr hchanged, hsteps⟩

/-! ## One change at a time -/

/-- What a list of changes gives is what its changes give one by one. -/
def OneByOne (part : List Change → PathSet) : Prop :=
  ∀ changes path, path ∈ part changes ↔ ∃ change ∈ changes, path ∈ part [change]

namespace OneByOne

variable {part : List Change → PathSet}

theorem nil (h : OneByOne part) : part [] = ∅ := by
  apply PathSet.ext
  intro path
  rw [h]
  simp

theorem append (h : OneByOne part) (first second : List Change) :
    part (first ++ second) = part first ∪ part second := by
  apply PathSet.ext
  intro path
  rw [PathSet.mem_union, h, h first, h second]
  simp only [List.mem_append, or_and_right, exists_or]

/-- More changes give no less. -/
theorem mono (h : OneByOne part) (hsub : first ⊆ second) (hpath : path ∈ part first) :
    path ∈ part second := by
  obtain ⟨change, hchange, hpath⟩ := (h first path).mp hpath
  exact (h second path).mpr ⟨change, hsub hchange, hpath⟩

/-- Commits give together what each gives by itself. -/
theorem flatten (h : OneByOne part) (commits : List (List Change)) :
    part commits.flatten = PathSet.unionOf (commits.map part) := by
  induction commits with
  | nil => exact h.nil
  | cons commit rest ih =>
      calc part (commit ++ rest.flatten)
          = part commit ∪ part rest.flatten := h.append commit rest.flatten
        _ = part commit ∪ PathSet.unionOf (rest.map part) := by rw [ih]
        _ = PathSet.unionOf (part commit :: rest.map part) := by
          apply PathSet.ext
          intro path
          simp

end OneByOne

theorem changed_iff_exists : Changed analyzer changes path ↔
    ∃ change ∈ changes, Changed analyzer [change] path := by
  constructor
  · intro hchanged
    obtain ⟨hpath, change, hchange, hkey⟩ := hchanged
    exact ⟨change, hchange, hpath, change, List.mem_singleton_self _, hkey⟩
  · intro hchanged
    obtain ⟨change, hchange, hpath, other, hother, hkey⟩ := hchanged
    rw [List.mem_singleton.mp hother] at hkey
    exact ⟨hpath, change, hchange, hkey⟩

/-- A chain of imports starts from one file, which one of the changes names. -/
theorem oneByOne_allAffected (analyzer : Analyzer) (g : Graph) :
    OneByOne fun changes => (analyzer.analyze g changes).allAffected := by
  intro changes path
  simp only [mem_allAffected]
  constructor
  · intro hpath
    obtain ⟨seed, hchanged, hsteps⟩ := hpath
    obtain ⟨change, hchange, hseed⟩ := changed_iff_exists.mp hchanged
    exact ⟨change, hchange, seed, hseed, hsteps⟩
  · intro hpath
    obtain ⟨change, hchange, seed, hseed, hsteps⟩ := hpath
    exact ⟨seed, changed_iff_exists.mpr ⟨change, hchange, hseed⟩, hsteps⟩

/-- The tests are those among the affected files, and those that go with a changed source. -/
theorem mem_tests_without_before : path ∈ (analyzer.analyze g changes).tests ↔
    (kindOf g path = .test ∧ path ∈ (analyzer.analyze g changes).allAffected) ∨
      ∃ source, Changed analyzer changes source ∧ kindOf g source = .source ∧
        path ∈ analyzer.testsFor g source := by
  rw [mem_tests_iff, allAffected_eq_reached, and_iff_left not_vanished_without_before]

theorem oneByOne_tests (analyzer : Analyzer) (g : Graph) :
    OneByOne fun changes => (analyzer.analyze g changes).tests := by
  intro changes path
  have haffected := oneByOne_allAffected analyzer g changes path
  simp only [mem_tests_without_before]
  constructor
  · intro hpath
    rcases hpath with ⟨hkind, hreached⟩ | ⟨source, hchanged, hkind, htest⟩
    · obtain ⟨change, hchange, hreached⟩ := haffected.mp hreached
      exact ⟨change, hchange, .inl ⟨hkind, hreached⟩⟩
    · obtain ⟨change, hchange, hsource⟩ := changed_iff_exists.mp hchanged
      exact ⟨change, hchange, .inr ⟨source, hsource, hkind, htest⟩⟩
  · intro hpath
    obtain ⟨change, hchange, hpath⟩ := hpath
    rcases hpath with ⟨hkind, hreached⟩ | ⟨source, hsource, hkind, htest⟩
    · exact .inl ⟨hkind, haffected.mpr ⟨change, hchange, hreached⟩⟩
    · exact .inr ⟨source, changed_iff_exists.mpr ⟨change, hchange, hsource⟩, hkind, htest⟩

/-! ## Where the files of joined lists go -/

theorem mem_changed : path ∈ (analyzer.analyze g changes).changed ↔ Changed analyzer changes path :=
  mem_changedPaths

theorem mem_direct_without_before : path ∈ (analyzer.analyze g changes).direct ↔
    (∃ seed, Changed analyzer changes seed ∧ Leads g none seed path) ∧
      ¬ Changed analyzer changes path := by
  show path ∈ PathSet.unionOf _ \ _ ↔ _
  rw [PathSet.mem_sdiff, mem_seeds, PathSet.mem_unionOf, seed_iff_changed]
  refine and_congr_left fun _ => ?_
  simp only [List.mem_map, PathSet.mem_toList, mem_seeds, seed_iff_changed, exists_exists_and_eq_and,
    Leads]

theorem mem_transitive_without_before : path ∈ (analyzer.analyze g changes).transitive ↔
    path ∈ (analyzer.analyze g changes).allAffected ∧
      ¬ Changed analyzer changes path ∧ path ∉ (analyzer.analyze g changes).direct := by
  rw [← seed_iff_changed (g := g), Impact.allAffected, PathSet.mem_union, PathSet.mem_union,
    mem_changed, ← seed_iff_changed (g := g)]
  constructor
  · intro hpath
    exact ⟨.inr hpath, not_mem_of_mem_transitive hpath⟩
  · intro hpath
    obtain ⟨hpath, hseed, hdirect⟩ := hpath
    exact hpath.resolve_left fun h => h.elim hseed hdirect

/-- The files that one of two lists affects directly are affected directly by both together, unless the
other list changes them. -/
theorem direct_append (analyzer : Analyzer) (g : Graph) (first second : List Change) :
    (analyzer.analyze g (first ++ second)).direct =
      ((analyzer.analyze g first).direct ∪ (analyzer.analyze g second).direct) \
        (analyzer.analyze g (first ++ second)).changed := by
  apply PathSet.ext
  intro path
  rw [PathSet.mem_sdiff, PathSet.mem_union, mem_changed, mem_direct_without_before,
    mem_direct_without_before, mem_direct_without_before]
  refine and_congr_left fun hnot => ?_
  rw [changed_append, not_or] at hnot
  simp only [changed_append, or_and_right, exists_or, and_iff_left hnot.1, and_iff_left hnot.2]

/-- Those that one of them affects transitively are affected transitively by both, unless they are now
among the changed or the directly affected ones. -/
theorem transitive_append (analyzer : Analyzer) (g : Graph) (first second : List Change) :
    (analyzer.analyze g (first ++ second)).transitive =
      ((analyzer.analyze g first).transitive ∪ (analyzer.analyze g second).transitive) \
        ((analyzer.analyze g (first ++ second)).changed ∪
          (analyzer.analyze g (first ++ second)).direct) := by
  apply PathSet.ext
  intro path
  rw [PathSet.mem_sdiff, PathSet.mem_union, PathSet.mem_union, not_or, mem_changed,
    mem_transitive_without_before, (oneByOne_allAffected analyzer g).append, PathSet.mem_union]
  refine and_congr_left fun hnot => ?_
  obtain ⟨hchanged, hdirect⟩ := hnot
  -- what neither list changes and both together do not affect directly, neither affects directly
  rw [direct_append, PathSet.mem_sdiff, mem_changed, and_iff_left hchanged, PathSet.mem_union,
    not_or] at hdirect
  rw [changed_append, not_or] at hchanged
  rw [mem_transitive_without_before, mem_transitive_without_before, and_iff_left ⟨hchanged.1, hdirect.1⟩,
    and_iff_left ⟨hchanged.2, hdirect.2⟩]

/-! ## Parts and the whole -/

/-- An analysis without a graph from before, of any graph:

* two lists of changes together affect the files that one of them affects, and select the tests that one
  of them selects;
* more changes, in any order, affect and select no less;
* commits that are analysed together affect and select what they do when each is analysed by itself. -/
theorem impact_of_joined_changes (analyzer : Analyzer) (g : Graph) :
    (∀ first second,
      (analyzer.analyze g (first ++ second)).allAffected =
          (analyzer.analyze g first).allAffected ∪ (analyzer.analyze g second).allAffected ∧
        (analyzer.analyze g (first ++ second)).tests =
          (analyzer.analyze g first).tests ∪ (analyzer.analyze g second).tests) ∧
    (∀ first more, first ⊆ more →
      (∀ path ∈ (analyzer.analyze g first).allAffected,
          path ∈ (analyzer.analyze g more).allAffected) ∧
        ∀ path ∈ (analyzer.analyze g first).tests, path ∈ (analyzer.analyze g more).tests) ∧
    ∀ commits : List (List Change),
      (analyzer.analyze g commits.flatten).allAffected =
          PathSet.unionOf (commits.map fun commit => (analyzer.analyze g commit).allAffected) ∧
        (analyzer.analyze g commits.flatten).tests =
          PathSet.unionOf (commits.map fun commit => (analyzer.analyze g commit).tests) := by
  have haffected := oneByOne_allAffected analyzer g
  have htests := oneByOne_tests analyzer g
  refine ⟨?_, ?_, ?_⟩
  · intro first second
    exact ⟨haffected.append first second, htests.append first second⟩
  · intro first more hsub
    exact ⟨fun _ => haffected.mono hsub, fun _ => htests.mono hsub⟩
  · intro commits
    exact ⟨haffected.flatten commits, htests.flatten commits⟩

/-- Two files import each other, and a test imports one of them.  The other one alone changes that, and so
the test is selected however many changes there are. -/
theorem impact_of_joined_changes_on_cycle :
    let g := Graph.history [.addNode "a.ts" .source .null, .addNode "b.ts" .source .null,
      .addNode "t.test.ts" .test .null, .addEdge "a.ts" "b.ts", .addEdge "b.ts" "a.ts",
      .addEdge "t.test.ts" "a.ts"]
    let a : Change := ⟨"a.ts", .modified, none⟩
    let b : Change := ⟨"b.ts", .modified, none⟩
    [b] ⊆ [a, b] ∧ "t.test.ts" ∈ (analyze {} g [a, b]).tests ∧
      (analyze {} g [a, b]).allAffected =
        (analyze {} g [a]).allAffected ∪ (analyze {} g [b]).allAffected := by
  intro g a b
  obtain ⟨happend, hmore, -⟩ := impact_of_joined_changes {} g
  have hsub : [b] ⊆ [a, b] := List.subset_cons_self a [b]
  have htest : "t.test.ts" ∈ (analyze {} g [b]).tests := by decide +kernel
  refine ⟨hsub, ?_, ?_⟩
  · exact (hmore [b] [a, b] hsub).2 _ htest
  · exact (happend [a] [b]).1

end ChangeImpact.Analyzer
