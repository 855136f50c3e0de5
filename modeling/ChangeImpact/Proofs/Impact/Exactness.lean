import ChangeImpact.Proofs.Graph.History
import ChangeImpact.Proofs.Impact.Search
import Mathlib.Logic.Relation

/-!
# What an analysis finds, exactly

The files that an analysis starts from are the changed and the vanished ones (`Seed`).  A file is
affected by another one if it imports it (`Affects`): in the graph if that has a node for it, and
otherwise in the graph as it was before.  All sets that an analysis gives are described by these two
notions (`analyze_exact`): the directly affected files are one step away from a seed, and the
transitively affected ones are those that are only reached by more steps.

Two facts about the search go into this.  What it finds is sound and closed, which is known from the
module on the search; and it finds nothing twice, so that the sets do not overlap (`explore_fresh`).

That the search ends is not a matter of the fuel with which it is written.  `Searched` describes its
rounds without any bound, up to the one in which the queue is empty, and the search with fuel is such a
run (`searched_explore`).
-/

namespace ChangeImpact.Analyzer

variable {analyzer : Analyzer} {g : Graph} {before : Option Graph} {changes : List Change}
  {next : String → PathSet} {fuel : Nat} {queue : List String} {visited found known : PathSet}
  {path other : String}

/-! ## The rounds of the search -/

/-- The search takes files from the queue until it is empty, and has found some files then. -/
inductive Searched (next : String → PathSet) : List String → PathSet → PathSet → PathSet → Prop where
  | done {visited found : PathSet} : Searched next [] visited found found
  | round {current : String} {queue : List String} {visited found result : PathSet}
      (hrest : Searched next (queue ++ (next current \ visited).toList)
        (visited ∪ next current \ visited) (found ∪ next current \ visited) result) :
      Searched next (current :: queue) visited found result

/-- With enough fuel the search goes on until the queue is empty. -/
theorem searched_explore (hknown : ∀ current, ∀ path ∈ next current, path ∈ known)
    (hfuel : queue.length + (known \ visited).size ≤ fuel) :
    Searched next queue visited found (explore next fuel queue visited found) := by
  induction fuel generalizing queue visited found with
  | zero =>
      -- without fuel there is no room for a file in the queue
      have hempty : queue = [] := List.length_eq_zero_iff.mp (by omega)
      rw [hempty]
      exact .done
  | succ fuel ih =>
      cases queue with
      | nil => exact .done
      | cons current queue =>
          have hroom := length_add_size_le_of_round (hknown current) hfuel
          exact .round (ih hroom)

/-- What the search finds has not been visited before. -/
theorem explore_fresh (hpath : path ∈ explore next fuel queue visited found) :
    path ∈ found ∨ path ∉ visited := by
  induction fuel generalizing queue visited found with
  | zero => exact .inl hpath
  | succ fuel ih =>
      cases queue with
      | nil => exact .inl hpath
      | cons current queue =>
          -- the rest of the search has visited more, and may only have found more in this round
          rcases ih hpath with hfound | hnot
          · rcases PathSet.mem_union.mp hfound with hfound | hfresh
            · exact .inl hfound
            · exact .inr (PathSet.mem_sdiff.mp hfresh).2
          · exact .inr fun hvisited => hnot (PathSet.mem_union.mpr (.inl hvisited))

/-! ## Where an analysis starts -/

section Notions

variable (analyzer : Analyzer) (g : Graph) (before : Option Graph) (changes : List Change)

/-- A file is named by a change. -/
def Changed (path : String) : Prop :=
  path ≠ "" ∧ ∃ change ∈ changes, Path.key analyzer.root change.path = path

/-- A file had another name before a change. -/
def Former (path : String) : Prop :=
  path ≠ "" ∧ ∃ change ∈ changes, ∃ former, change.formerPath? = some former ∧
    Path.key analyzer.root former = path

/-- A file that a change speaks of is no longer in the graph, but was in the graph before. -/
def Vanished (path : String) : Prop :=
  (Changed analyzer changes path ∨ Former analyzer changes path) ∧ path ∉ g.nodes ∧
    ∃ earlier, before = some earlier ∧ path ∈ earlier.nodes

/-- A file from which an analysis starts. -/
def Seed (path : String) : Prop :=
  Changed analyzer changes path ∨ Vanished analyzer g before changes path

/-- The search goes from a file to another one. -/
def Leads (path other : String) : Prop :=
  other ∈ importersOf g before path

/-- Another file imports a file, by the graph that has a node for it, and else by the graph before. -/
def Affects (path other : String) : Prop :=
  if path ∈ g.nodes then other ∈ g.importers path
  else ∃ earlier, before = some earlier ∧ other ∈ earlier.importers path

/-- A file is reached from one from which an analysis starts, in one or more steps. -/
def Reached (path : String) : Prop :=
  ∃ seed, Seed analyzer g before changes seed ∧ Relation.TransGen (Affects g before) seed path

end Notions

theorem changed_append {first second : List Change} :
    Changed analyzer (first ++ second) path ↔
      Changed analyzer first path ∨ Changed analyzer second path := by
  simp only [Changed, List.mem_append, or_and_right, exists_or, and_or_left]

theorem mem_changedPaths : path ∈ analyzer.changedPaths changes ↔ Changed analyzer changes path := by
  rw [changedPaths, PathSet.mem_ofList, List.mem_filter, List.mem_map, and_comm, Bool.not_eq_true',
    ← Bool.not_eq_true, String.isEmpty_iff]
  rfl

theorem mem_formerPaths : path ∈ analyzer.formerPaths changes ↔ Former analyzer changes path := by
  rw [formerPaths, PathSet.mem_ofList, List.mem_filter, List.mem_filterMap, and_comm,
    Bool.not_eq_true', ← Bool.not_eq_true, String.isEmpty_iff]
  simp only [Option.map_eq_some_iff]
  rfl

theorem mem_vanishedPaths : path ∈ analyzer.vanishedPaths g before changes ↔
    Vanished analyzer g before changes path := by
  unfold vanishedPaths Vanished
  cases before with
  | none => simp
  | some earlier =>
      rw [PathSet.mem_filter, PathSet.mem_union, mem_changedPaths, mem_formerPaths, Bool.and_eq_true,
        Bool.not_eq_true', ← Bool.not_eq_true, Graph.hasNode_iff, Graph.hasNode_iff]
      simp only [Option.some.injEq, exists_eq_left', and_comm]

theorem mem_seeds : path ∈ analyzer.changedPaths changes ∪ analyzer.vanishedPaths g before changes ↔
    Seed analyzer g before changes path := by
  rw [PathSet.mem_union, mem_changedPaths, mem_vanishedPaths]
  rfl

/-- The search looks up importers by the keys of the reverse edges, which are the nodes. -/
theorem mem_importersOf (hg : g.Balanced) :
    other ∈ importersOf g before path ↔ Affects g before path other := by
  unfold importersOf Affects
  by_cases hpath : path ∈ g.nodes
  · obtain ⟨row, hrow⟩ := Table.mem_iff_exists.mp ((hg.mem_reverseEdges path).mpr hpath)
    rw [if_pos hpath, hrow, Graph.importers, hrow]
    rfl
  · have hnone : g.reverseEdges.get? path = none :=
      Table.get?_eq_none_iff.mpr fun hmem => hpath ((hg.mem_reverseEdges path).mp hmem)
    rw [if_neg hpath, hnone]
    cases before with
    | none => simp
    | some earlier => simp

/-! ## What it finds -/

theorem mem_direct (hg : g.Balanced) : path ∈ (analyzer.analyze g changes before).direct ↔
    (∃ seed, Seed analyzer g before changes seed ∧ Affects g before seed path) ∧
      ¬ Seed analyzer g before changes path := by
  show path ∈ PathSet.unionOf _ \ _ ↔ _
  rw [PathSet.mem_sdiff, mem_seeds, PathSet.mem_unionOf]
  refine and_congr_left fun _ => ?_
  constructor
  · rintro ⟨importers, himporters, hpath⟩
    obtain ⟨seed, hseed, rfl⟩ := List.mem_map.mp himporters
    exact ⟨seed, mem_seeds.mp hseed, (mem_importersOf hg).mp hpath⟩
  · rintro ⟨seed, hseed, haffects⟩
    exact ⟨_, List.mem_map.mpr ⟨seed, mem_seeds.mpr hseed, rfl⟩, (mem_importersOf hg).mpr haffects⟩

/-- The transitively affected files are neither seeds nor directly affected. -/
theorem not_mem_of_mem_transitive
    (hpath : path ∈ (analyzer.analyze g changes before).transitive) :
    ¬ Seed analyzer g before changes path ∧ path ∉ (analyzer.analyze g changes before).direct := by
  have hfresh := (explore_fresh hpath).resolve_left PathSet.not_mem_empty
  rw [PathSet.mem_union, not_or, mem_seeds] at hfresh
  exact hfresh

theorem mem_reached : path ∈ analyzer.reached g changes before ↔
    Seed analyzer g before changes path ∨ path ∈ (analyzer.analyze g changes before).direct ∨
      path ∈ (analyzer.analyze g changes before).transitive := by
  show path ∈ (_ ∪ _) ∪ _ ∪ _ ↔ _
  rw [PathSet.mem_union, PathSet.mem_union, or_assoc]
  exact or_congr_left mem_seeds

/-- What an analysis finds are the seeds and the files that the search comes to from them. -/
theorem mem_reached_iff_leads : path ∈ analyzer.reached g changes before ↔
    Seed analyzer g before changes path ∨
      ∃ seed, Seed analyzer g before changes seed ∧ Relation.TransGen (Leads g before) seed path := by
  constructor
  · intro hpath
    have hseeds : ∀ path ∈ analyzer.changedPaths changes ∪ analyzer.vanishedPaths g before changes,
        Seed analyzer g before changes path ∨
          ∃ seed, Seed analyzer g before changes seed ∧
            Relation.TransGen (Leads g before) seed path :=
      fun path hseed => .inl (mem_seeds.mp hseed)
    refine reached_induction hseeds (fun path hholds other hstep => .inr ?_) hpath
    rcases hholds with hseed | ⟨seed, hseed, hsteps⟩
    · exact ⟨path, hseed, .single hstep⟩
    · exact ⟨seed, hseed, hsteps.tail hstep⟩
  · rintro (hseed | ⟨seed, hseed, hsteps⟩)
    · exact mem_reached.mpr (.inl hseed)
    · -- along the steps, the importers of what has been found are found
      induction hsteps with
      | single hstep => exact reached_closed (mem_reached.mpr (.inl hseed)) hstep
      | tail _ hstep ih => exact reached_closed ih hstep

theorem mem_reached_iff (hg : g.Balanced) : path ∈ analyzer.reached g changes before ↔
    Seed analyzer g before changes path ∨ Reached analyzer g before changes path := by
  have hsame : Leads g before = Affects g before := by
    funext path other
    exact propext (mem_importersOf hg)
  rw [mem_reached_iff_leads, hsame]
  rfl

theorem mem_direct_or_transitive (hg : g.Balanced) :
    path ∈ (analyzer.analyze g changes before).direct ∨
        path ∈ (analyzer.analyze g changes before).transitive ↔
      Reached analyzer g before changes path ∧ ¬ Seed analyzer g before changes path := by
  constructor
  · intro hpath
    have hnot : ¬ Seed analyzer g before changes path := by
      rcases hpath with hdirect | htransitive
      · exact ((mem_direct hg).mp hdirect).2
      · exact (not_mem_of_mem_transitive htransitive).1
    have hfound := (mem_reached_iff hg).mp (mem_reached.mpr (.inr hpath))
    exact ⟨hfound.resolve_left hnot, hnot⟩
  · rintro ⟨hreached, hnot⟩
    have hfound := mem_reached.mp ((mem_reached_iff hg).mpr (.inr hreached))
    exact hfound.resolve_left hnot

theorem mem_testsFor {source : String} : path ∈ analyzer.testsFor g source ↔
    (path ∈ analyzer.companionPaths source ∨ path ∈ g.importers source) ∧
      isTestOf g path = true := by
  rw [testsFor, PathSet.mem_union, PathSet.mem_ofList, List.mem_filter, PathSet.mem_filter, or_and_right]

theorem kindOf_of_isTestOf (h : isTestOf g path = true) : kindOf g path = .test := by
  rw [kindOf, beq_iff_eq.mp h]
  rfl

/-- The tests are what has been found and is a test, and what goes with the changed sources. -/
theorem mem_tests_iff : path ∈ (analyzer.analyze g changes before).tests ↔
    (kindOf g path = .test ∧ path ∈ analyzer.reached g changes before ∧
        ¬ Vanished analyzer g before changes path) ∨
      ∃ source, Changed analyzer changes source ∧ kindOf g source = .source ∧
        path ∈ analyzer.testsFor g source := by
  show path ∈ PathSet.filter (analyzer.reached g changes before \ _) _ ∪ PathSet.unionOf _ ↔ _
  rw [PathSet.mem_union, PathSet.mem_filter, PathSet.mem_sdiff, mem_vanishedPaths, beq_iff_eq, and_comm,
    PathSet.mem_unionOf]
  refine or_congr_right ⟨?_, ?_⟩
  · rintro ⟨tests, htests, hpath⟩
    obtain ⟨source, hsource, rfl⟩ := List.mem_map.mp htests
    obtain ⟨hchanged, hkind⟩ := PathSet.mem_filter.mp hsource
    exact ⟨source, mem_changedPaths.mp hchanged, beq_iff_eq.mp hkind, hpath⟩
  · rintro ⟨source, hchanged, hkind, hpath⟩
    refine ⟨_, List.mem_map.mpr ⟨source, ?_, rfl⟩, hpath⟩
    exact PathSet.mem_filter.mpr ⟨mem_changedPaths.mpr hchanged, beq_iff_eq.mpr hkind⟩

theorem mem_tests (hg : g.Balanced) : path ∈ (analyzer.analyze g changes before).tests ↔
    (kindOf g path = .test ∧
        (Seed analyzer g before changes path ∨ Reached analyzer g before changes path) ∧
        ¬ Vanished analyzer g before changes path) ∨
      ∃ source, Changed analyzer changes source ∧ kindOf g source = .source ∧
        path ∈ analyzer.testsFor g source := by
  rw [mem_tests_iff, mem_reached_iff hg]

/-- An analysis of a balanced graph, with any graph before or none:

* the changed files are those that the changes name;
* the directly affected files are one step away from a seed, and the directly or transitively affected
  ones any number of steps, and none of them is a seed;
* no file is in two of the three sets;
* the tests are those among the seeds and the affected files that have not vanished, and those that go
  with a changed source;
* the search has gone on until its queue was empty. -/
theorem analyze_exact (hg : g.Balanced) (analyzer : Analyzer) (changes : List Change)
    (before : Option Graph) :
    let impact := analyzer.analyze g changes before
    (∀ path, path ∈ impact.changed ↔ Changed analyzer changes path) ∧
    (∀ path, path ∈ impact.direct ↔
      (∃ seed, Seed analyzer g before changes seed ∧ Affects g before seed path) ∧
        ¬ Seed analyzer g before changes path) ∧
    (∀ path, path ∈ impact.direct ∨ path ∈ impact.transitive ↔
      Reached analyzer g before changes path ∧ ¬ Seed analyzer g before changes path) ∧
    (∀ path, ¬ (path ∈ impact.changed ∧ path ∈ impact.direct) ∧
      ¬ (path ∈ impact.changed ∧ path ∈ impact.transitive) ∧
      ¬ (path ∈ impact.direct ∧ path ∈ impact.transitive)) ∧
    (∀ path, path ∈ impact.tests ↔
      (kindOf g path = .test ∧
          (Seed analyzer g before changes path ∨ Reached analyzer g before changes path) ∧
          ¬ Vanished analyzer g before changes path) ∨
        ∃ source, Changed analyzer changes source ∧ kindOf g source = .source ∧
          path ∈ analyzer.testsFor g source) ∧
    Searched (importersOf g before) impact.direct.toList
      ((analyzer.changedPaths changes ∪ analyzer.vanishedPaths g before changes) ∪ impact.direct) ∅
      impact.transitive := by
  intro impact
  refine ⟨fun _ => mem_changedPaths, fun _ => mem_direct hg, fun _ => mem_direct_or_transitive hg,
    fun path => ⟨?_, ?_, ?_⟩, fun _ => mem_tests hg, ?_⟩
  · rintro ⟨hchanged, hdirect⟩
    exact ((mem_direct hg).mp hdirect).2 (.inl (mem_changedPaths.mp hchanged))
  · rintro ⟨hchanged, htransitive⟩
    exact (not_mem_of_mem_transitive htransitive).1 (.inl (mem_changedPaths.mp hchanged))
  · rintro ⟨hdirect, htransitive⟩
    exact (not_mem_of_mem_transitive htransitive).2 hdirect
  · exact searched_explore (fun _ _ => mem_allImporters_of_importersOf)
      (length_add_size_le_searchBound impact.direct _)

/-- A file is deleted that another file imported, and that one is imported by a test.  The first step is
found in the graph before, the second one in the graph. -/
theorem analyze_exact_after_deletion :
    let g := Graph.history [.addNode "b.ts" .source .null, .addNode "t.test.ts" .test .null,
      .addEdge "t.test.ts" "b.ts"]
    let before := Graph.history [.addNode "a.ts" .source .null, .addNode "b.ts" .source .null,
      .addNode "t.test.ts" .test .null, .addEdge "b.ts" "a.ts", .addEdge "t.test.ts" "b.ts"]
    let impact := analyze {} g [⟨"a.ts", .deleted, none⟩] (some before)
    "a.ts" ∈ impact.changed ∧ "b.ts" ∈ impact.direct ∧ "t.test.ts" ∈ impact.tests := by
  intro g before impact
  have hg : g.Balanced := Graph.balanced_history _
  obtain ⟨hchanged, hdirect, -, -, htests, -⟩ :=
    analyze_exact hg {} [⟨"a.ts", .deleted, none⟩] (some before)
  have hseed : Changed {} [⟨"a.ts", .deleted, none⟩] "a.ts" :=
    ⟨by decide, _, List.mem_singleton_self _, by decide +kernel⟩
  have hfirst : Affects g (some before) "a.ts" "b.ts" :=
    (mem_importersOf hg).mp (by decide +kernel)
  have hsecond : Affects g (some before) "b.ts" "t.test.ts" :=
    (mem_importersOf hg).mp (by decide +kernel)
  have hpresent : ∀ path ∈ g.nodes,
      ¬ Vanished {} g (some before) [⟨"a.ts", .deleted, none⟩] path :=
    fun path hpath hvanished => hvanished.2.1 hpath
  have hb : ¬ Seed {} g (some before) [⟨"a.ts", .deleted, none⟩] "b.ts" := by
    rintro (⟨-, change, hchange, hkey⟩ | hvanished)
    · rw [List.mem_singleton.mp hchange] at hkey
      exact absurd hkey (by decide +kernel)
    · exact hpresent _ (by decide +kernel) hvanished
  refine ⟨(hchanged _).mpr hseed, (hdirect _).mpr ⟨⟨"a.ts", .inl hseed, hfirst⟩, hb⟩,
    (htests _).mpr (.inl ⟨by decide +kernel, .inr ⟨"a.ts", .inl hseed, ?_⟩, ?_⟩)⟩
  · exact .tail (.single hfirst) hsecond
  · exact hpresent _ (by decide +kernel)

/-- An old path without a key is passed over, even if the graph before had a node for it: the file that
imported it there is not found, though it is still in the graph and no change names it. -/
theorem analyze_passes_over_former_path_without_key :
    ∃ (g before : Graph) (change : Change) (former : String),
      g.Balanced ∧ before.Balanced ∧ change.formerPath? = some former ∧
      Path.key none former ∈ before.nodes ∧ Path.key none former ∉ g.nodes ∧
      "x.test.ts" ∈ before.importers (Path.key none former) ∧
      "x.test.ts" ∈ g.nodes ∧ Path.key none change.path ≠ "x.test.ts" ∧
      "x.test.ts" ∉ (analyze {} g [change] (some before)).direct := by
  refine ⟨Graph.history [.addNode "x.test.ts" .test .null],
    Graph.history [.addNode "" .source .null, .addNode "x.test.ts" .test .null,
      .addEdge "x.test.ts" ""], ⟨"a.ts", .renamed, some "."⟩, ".", Graph.balanced_history _,
    Graph.balanced_history _, ?_, ?_, ?_, ?_, ?_, ?_, ?_⟩
  · decide +kernel
  · decide +kernel
  · decide +kernel
  · decide +kernel
  · decide +kernel
  · decide +kernel
  · decide +kernel

end ChangeImpact.Analyzer
