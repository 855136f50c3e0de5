import ChangeImpact.Proofs.Graph.Copies
import ChangeImpact.Proofs.Impact.Exactness
import ChangeImpact.Proofs.Impact.Safety

/-!
# Deleting files

The impact of changed files may be computed in the graph in which they still are, or after they have been
removed, with the help of that graph.  Nothing of the impact is lost in the second way
(`impact_of_removed`): the directly and the transitively affected files are the same, and of the tests
only those are missing that have been removed.

After the removal every file is linked anew, so the edges are not those of the graph before with some
left out.  A name that led to a removed file may lead to another file now.  But then the file with this
name imported a removed file before, and so it is directly affected in either way (`mem_targets_before`).
All other edges between files that stay are in both graphs (`mem_targets_after`).  The two closures are
compared along their paths: a path in the graph before is cut at the last removed file on it, and at a new
edge a path in the graph after goes back to a removed file.
-/

namespace ChangeImpact

variable {builder : Builder} {analyzer : Analyzer} {g clone after : Graph} {removed : PathSet}
  {changes : List Change} {path other target : String}

/-! ## Removing the files -/

namespace Builder

variable {record : Record}

theorem ne_empty_of_mem_keysOf {files : FileSet} (h : path ∈ builder.keysOf files) : path ≠ "" := by
  have hfilled := (List.mem_filter.mp (PathSet.mem_ofList.mp h)).2
  rintro rfl
  simp at hfilled

/-- The nodes of a graph that shows the record of some files are their keys. -/
theorem Recorded.mem_nodes_iff_mem_keysOf {files : FileSet}
    (h : Recorded (builder.recordOf files) g) : path ∈ g.nodes ↔ path ∈ builder.keysOf files := by
  rw [h.mem_nodes, ← PathSet.mem_toList, recordOf, Record.scan]
  split
  · rename_i hpath
    exact iff_of_true ⟨_, rfl⟩ hpath
  · rename_i hpath
    exact iff_of_false (by simp) hpath

/-- Removes files, one after another. -/
def removeFiles (builder : Builder) (paths : List String) : BuildStep Unit :=
  paths.forM fun path => do
    let _ ← builder.removeFile path

/-- The record of the files that have not been removed. -/
def Record.without (record : Record) (removed : PathSet) : Record :=
  fun path => if path ∈ removed then none else record path

/-- A copy shows the record of the graph and is linked like it. -/
theorem Settled.of_copied (hg : Settled builder record g) (hcopied : Graph.Copied g clone) :
    Settled builder record clone := by
  have hrecorded : Recorded record clone := by
    refine ⟨hcopied.balanced, fun path => ?_, fun path => ?_⟩
    · rw [hcopied.nodes, hg.recorded.nodes]
    · rw [hcopied.diagnostics, hg.recorded.problems]
  refine ⟨hrecorded, fun path => ?_⟩
  have hlinks : builder.linksIn clone path = builder.linksIn g path := by
    refine linksIn_congr (fun _ => hcopied.mem_nodes) ?_
    rw [hrecorded.namesIn_eq, hg.recorded.namesIn_eq]
  exact (hg.linked path).congr hlinks (hcopied.targets path) (by rw [hcopied.diagnostics])

theorem Record.without_nil (record : Record) : record.without (.ofList []) = record := by
  funext path
  exact if_neg PathSet.not_mem_empty

theorem Record.drop_without (record : Record) (done : List String) (path : String) :
    (record.without (.ofList done)).drop path = record.without (.ofList (done ++ [path])) := by
  funext other
  rw [Record.drop, Function.update_apply]
  by_cases heq : other = path
  · simp [Record.without, heq]
  · simp [Record.without, heq]

/-- Removing files, in whichever order, settles the graph with the record of the others. -/
theorem ends_removeFiles {paths : List String} (hplain : builder.aliases.Plain)
    (hg : Settled builder record g) (hkeys : ∀ path ∈ paths, builder.key path = path)
    (hpaths : ∀ path, path ∈ paths ↔ path ∈ removed) :
    Ends (builder.removeFiles paths) g
      (fun _ after => Settled builder (Record.without record removed) after)
      (fun _ _ => False) := by
  obtain rfl : removed = .ofList paths := PathSet.ext fun path => by rw [PathSet.mem_ofList, hpaths]
  refine .forM_done (fun done state => Settled builder (record.without (.ofList done)) state) ?_
    (by rwa [Record.without_nil])
  intro done path rest state hitems hstate
  have hremoved := ends_removeFile hstate.recorded (hstate.resolved hplain) path
  rw [hkeys path (by simp [hitems]), Record.drop_without] at hremoved
  refine (hremoved.mono (fun _ _ hgood => hgood.2) fun _ _ hlost => hlost.elim hplain).bind ?_
  intro _ after hafter
  exact .pure ⟨hafter.1, hafter.2.linked⟩

end Builder

namespace Analyzer

open Builder

/-- The transitively affected files are the affected ones that are not directly affected. -/
theorem mem_transitive {before : Option Graph} (hg : g.Balanced) :
    path ∈ (analyzer.analyze g changes before).transitive ↔
      (Reached analyzer g before changes path ∧ ¬ Seed analyzer g before changes path) ∧
        path ∉ (analyzer.analyze g changes before).direct := by
  rw [← mem_direct_or_transitive hg]
  constructor
  · intro hpath
    exact ⟨.inr hpath, (not_mem_of_mem_transitive hpath).2⟩
  · rintro ⟨hpath, hnot⟩
    exact hpath.resolve_left hnot

/-! ## The two graphs -/

/-- A graph, the same graph after some files have been removed, and changes that name exactly these
files. -/
structure Cut (builder : Builder) (analyzer : Analyzer) (g after : Graph) (removed : PathSet)
    (changes : List Change) : Prop where
  plain : builder.aliases.Plain
  root : analyzer.root = builder.root
  before : ∃ record, Settled builder record g ∧
    Settled builder (Record.without record removed) after
  keyed : ∀ path ∈ g.nodes, path ≠ "" ∧ builder.key path = path
  known : ∀ path ∈ removed, path ∈ g.nodes
  changed : ∀ path, path ∈ changes.map (·.path) ↔ path ∈ removed
  unnamed : ∀ change ∈ changes, change.formerPath? = none

namespace Cut

variable (h : Cut builder analyzer g after removed changes)

include h

theorem balanced_before : g.Balanced :=
  have ⟨_, hbefore, _⟩ := h.before
  hbefore.recorded.balanced

theorem balanced_after : after.Balanced :=
  have ⟨_, _, hafter⟩ := h.before
  hafter.recorded.balanced

/-- The files that are left are those that have not been removed. -/
theorem mem_after : path ∈ after.nodes ↔ path ∈ g.nodes ∧ path ∉ removed := by
  obtain ⟨record, hbefore, hafter⟩ := h.before
  rw [hbefore.recorded.mem_nodes, hafter.recorded.mem_nodes]
  unfold Record.without
  by_cases hpath : path ∈ removed
  · simp [hpath]
  · simp [hpath]

theorem namesIn_after (hpath : path ∉ removed) : namesIn after path = namesIn g path := by
  obtain ⟨record, hbefore, hafter⟩ := h.before
  rw [hbefore.recorded.namesIn_eq, hafter.recorded.namesIn_eq, Record.without, if_neg hpath]

/-- The imports of a file in either graph are what its names lead to. -/
theorem mem_targets_before_iff : target ∈ g.targets path ↔ ∃ name ∈ namesIn g path,
    (builder.resolverFor g).resolve name path = .ok (some target) := by
  obtain ⟨record, hbefore, -⟩ := h.before
  rw [(hbefore.linked path).mem_targets, linksIn]
  exact mem_targets_links fun _ _ => Resolver.exists_resolve h.plain

theorem mem_targets_after_iff : target ∈ after.targets path ↔ ∃ name ∈ namesIn after path,
    (builder.resolverFor after).resolve name path = .ok (some target) := by
  obtain ⟨record, -, hafter⟩ := h.before
  rw [(hafter.linked path).mem_targets, linksIn]
  exact mem_targets_links fun _ _ => Resolver.exists_resolve h.plain

/-- A name that did not lead to a removed file leads where it led before. -/
theorem resolve_eq {name : String}
    (hkept : ∀ target, (builder.resolverFor g).resolve name path = .ok (some target) →
      target ∉ removed) :
    (builder.resolverFor g).resolve name path = (builder.resolverFor after).resolve name path := by
  refine Resolver.resolve_eq_of_known_in_both ?_ ?_
  · intro target htarget
    exact h.mem_after.mpr ⟨Resolver.mem_of_resolve htarget, hkept target htarget⟩
  · intro target htarget
    exact (h.mem_after.mp (Resolver.mem_of_resolve htarget)).1

/-- An import of a file that stays is still there, if the imported file stays. -/
theorem mem_targets_after (hpath : path ∉ removed) (htarget : target ∉ removed)
    (hedge : target ∈ g.targets path) : target ∈ after.targets path := by
  obtain ⟨name, hname, hresolve⟩ := h.mem_targets_before_iff.mp hedge
  have hkept : ∀ other, (builder.resolverFor g).resolve name path = .ok (some other) →
      other ∉ removed := by
    intro other hother
    rw [hresolve] at hother
    cases hother
    exact htarget
  have hsame := h.resolve_eq hkept
  rw [h.mem_targets_after_iff, h.namesIn_after hpath]
  exact ⟨name, hname, hsame ▸ hresolve⟩

/-- An import that is there now was there before, or the importing file imported a removed file. -/
theorem mem_targets_before (hedge : target ∈ after.targets path) :
    target ∈ g.targets path ∨ ∃ gone ∈ removed, gone ∈ g.targets path := by
  have hpath : path ∉ removed := (h.mem_after.mp (h.balanced_after.source_mem hedge)).2
  obtain ⟨name, hname, hresolve⟩ := h.mem_targets_after_iff.mp hedge
  rw [h.namesIn_after hpath] at hname
  by_cases hkept : ∀ target, (builder.resolverFor g).resolve name path = .ok (some target) →
      target ∉ removed
  · refine .inl (h.mem_targets_before_iff.mpr ⟨name, hname, ?_⟩)
    rw [h.resolve_eq hkept, hresolve]
  · push Not at hkept
    obtain ⟨gone, hgone, hremoved⟩ := hkept
    exact .inr ⟨gone, hremoved, h.mem_targets_before_iff.mpr ⟨name, hname, hgone⟩⟩

/-! ## Where the analyses start -/

theorem changed_iff : Changed analyzer changes path ↔ path ∈ removed := by
  have hkey : ∀ change ∈ changes, Path.key analyzer.root change.path = change.path := by
    intro change hchange
    have hremoved := (h.changed change.path).mp (List.mem_map.mpr ⟨change, hchange, rfl⟩)
    rw [h.root]
    exact (h.keyed _ (h.known _ hremoved)).2
  constructor
  · rintro ⟨-, change, hchange, rfl⟩
    rw [hkey change hchange, ← h.changed]
    exact List.mem_map.mpr ⟨change, hchange, rfl⟩
  · intro hremoved
    obtain ⟨change, hchange, rfl⟩ := List.mem_map.mp ((h.changed path).mpr hremoved)
    exact ⟨(h.keyed _ (h.known _ hremoved)).1, change, hchange, hkey change hchange⟩

theorem not_former : ¬ Former analyzer changes path := by
  rintro ⟨-, change, hchange, former, hformer, -⟩
  rw [h.unnamed change hchange] at hformer
  cases hformer

theorem seed_before_iff : Seed analyzer g none changes path ↔ path ∈ removed := by
  have hvanished : ¬ Vanished analyzer g none changes path := by
    rintro ⟨-, -, earlier, hearlier, -⟩
    cases hearlier
  rw [Seed, h.changed_iff]
  simp [hvanished]

/-- With the help of the graph before, all removed files are known to have vanished. -/
theorem vanished_iff : Vanished analyzer after (some g) changes path ↔ path ∈ removed := by
  unfold Vanished
  rw [h.changed_iff, h.mem_after]
  constructor
  · rintro ⟨hnamed, -⟩
    exact hnamed.resolve_right h.not_former
  · intro hremoved
    exact ⟨.inl hremoved, fun hkept => hkept.2 hremoved, g, rfl, h.known path hremoved⟩

theorem seed_after_iff : Seed analyzer after (some g) changes path ↔ path ∈ removed := by
  rw [Seed, h.changed_iff, h.vanished_iff, or_self]

/-! ## What the analyses reach -/

theorem affects_before_iff : Affects g none path other ↔ path ∈ g.targets other := by
  unfold Affects
  rw [h.balanced_before.inverse]
  split
  · rfl
  · rename_i hpath
    have himporters := h.balanced_before.importers_eq_empty hpath
    simp [himporters]

/-- Who imported a removed file is told by the graph before. -/
theorem affects_after_of_mem (hpath : path ∈ removed) :
    Affects after (some g) path other ↔ path ∈ g.targets other := by
  have hgone : path ∉ after.nodes := fun hkept => (h.mem_after.mp hkept).2 hpath
  unfold Affects
  rw [if_neg hgone, h.balanced_before.inverse]
  simp

theorem affects_after_of_mem_nodes (hpath : path ∈ after.nodes) :
    Affects after (some g) path other ↔ path ∈ after.targets other := by
  unfold Affects
  rw [if_pos hpath, h.balanced_after.inverse]

/-- What is reached in the graph before is removed itself, or it is reached in the graph after. -/
theorem reached_after (hreached : Reached analyzer g none changes path) :
    path ∈ removed ∨ Reached analyzer after (some g) changes path := by
  obtain ⟨seed, hseed, hsteps⟩ := hreached
  have hstart : seed ∈ removed := h.seed_before_iff.mp hseed
  have hfirst : ∀ gone ∈ removed, ∀ other, Affects g none gone other →
      Reached analyzer after (some g) changes other := by
    intro gone hgone other hstep
    rw [h.affects_before_iff, ← h.affects_after_of_mem hgone] at hstep
    exact ⟨gone, h.seed_after_iff.mpr hgone, .single hstep⟩
  induction hsteps with
  | single hstep => exact .inr (hfirst seed hstart _ hstep)
  | tail _ hstep ih =>
      rename_i middle last _
      -- the path is cut at the last removed file on it
      by_cases hmiddle : middle ∈ removed
      · exact .inr (hfirst middle hmiddle last hstep)
      by_cases hlast : last ∈ removed
      · exact .inl hlast
      obtain ⟨start, hstart, hearlier⟩ := ih.resolve_left hmiddle
      have hedge := h.mem_targets_after hlast hmiddle (h.affects_before_iff.mp hstep)
      have hnode : middle ∈ after.nodes := h.balanced_after.inside last middle hedge
      exact .inr ⟨start, hstart, hearlier.tail ((h.affects_after_of_mem_nodes hnode).mpr hedge)⟩

theorem reached_before (hreached : Reached analyzer after (some g) changes path) :
    Reached analyzer g none changes path := by
  obtain ⟨seed, hseed, hsteps⟩ := hreached
  have hstart : seed ∈ removed := h.seed_after_iff.mp hseed
  have hfirst : ∀ gone ∈ removed, ∀ other, gone ∈ g.targets other →
      Reached analyzer g none changes other := by
    intro gone hgone other hedge
    exact ⟨gone, h.seed_before_iff.mpr hgone, .single (h.affects_before_iff.mpr hedge)⟩
  induction hsteps with
  | single hstep => exact hfirst seed hstart _ ((h.affects_after_of_mem hstart).mp hstep)
  | tail _ hstep ih =>
      rename_i middle last _
      obtain ⟨start, hstart, hearlier⟩ := ih
      by_cases hnode : middle ∈ after.nodes
      · rcases h.mem_targets_before ((h.affects_after_of_mem_nodes hnode).mp hstep) with
          hedge | ⟨gone, hgone, hedge⟩
        · exact ⟨start, hstart, hearlier.tail (h.affects_before_iff.mpr hedge)⟩
        · -- a new edge: the file lost the one that it imported
          exact hfirst gone hgone last hedge
      · have hedge : middle ∈ g.targets last := by
          unfold Affects at hstep
          rw [if_neg hnode] at hstep
          obtain ⟨earlier, hearlier, himporter⟩ := hstep
          cases hearlier
          exact (h.balanced_before.inverse last middle).mpr himporter
        exact ⟨start, hstart, hearlier.tail (h.affects_before_iff.mpr hedge)⟩

theorem reached_iff (hpath : path ∉ removed) :
    Reached analyzer after (some g) changes path ↔ Reached analyzer g none changes path :=
  ⟨h.reached_before, fun hreached => (h.reached_after hreached).resolve_left hpath⟩

/-! ## The impacts -/

theorem direct_eq : (analyzer.analyze after changes (some g)).direct =
    (analyzer.analyze g changes none).direct := by
  refine PathSet.ext fun path => ?_
  rw [mem_direct h.balanced_after, mem_direct h.balanced_before, h.seed_after_iff, h.seed_before_iff]
  refine and_congr_left fun _ => exists_congr fun seed => ?_
  rw [h.seed_after_iff, h.seed_before_iff]
  refine and_congr_right fun hseed => ?_
  rw [h.affects_after_of_mem hseed, h.affects_before_iff]

theorem transitive_eq : (analyzer.analyze after changes (some g)).transitive =
    (analyzer.analyze g changes none).transitive := by
  refine PathSet.ext fun path => ?_
  rw [mem_transitive h.balanced_after, mem_transitive h.balanced_before, h.direct_eq,
    h.seed_after_iff, h.seed_before_iff]
  refine and_congr_left fun _ => and_congr_left fun hpath => ?_
  exact h.reached_iff hpath

theorem kindOf_before : kindOf g path = FileKind.ofPath path := by
  obtain ⟨record, hbefore, -⟩ := h.before
  exact kindOf_eq_ofPath hbefore.recorded.kinded path

theorem kindOf_after : kindOf after path = FileKind.ofPath path := by
  obtain ⟨record, -, hafter⟩ := h.before
  exact kindOf_eq_ofPath hafter.recorded.kinded path

theorem isTestOf_after : isTestOf after path = true ↔ isTestOf g path = true ∧ path ∉ removed := by
  obtain ⟨record, hbefore, hafter⟩ := h.before
  have hkind : after.kindOf? path = if path ∈ removed then none else g.kindOf? path := by
    rw [Graph.kindOf?, Graph.kindOf?, hbefore.recorded.nodes, hafter.recorded.nodes, Record.without]
    split
    · rfl
    · rfl
  rw [isTestOf, isTestOf, hkind]
  by_cases hpath : path ∈ removed
  · simp [hpath]
  · simp [hpath]

/-- A removed source has no importers left, so only the names tell which tests go with it. -/
theorem mem_testsFor_after {source : String} (hsource : source ∈ removed) :
    path ∈ analyzer.testsFor after source ↔
      path ∈ analyzer.companionPaths source ∧ isTestOf g path = true ∧ path ∉ removed := by
  have hgone : source ∉ after.nodes := fun hkept => (h.mem_after.mp hkept).2 hsource
  rw [mem_testsFor, h.balanced_after.importers_eq_empty hgone, h.isTestOf_after]
  simp

theorem tests_eq : (analyzer.analyze after changes (some g)).tests =
    (analyzer.analyze g changes none).tests \ removed := by
  have hvanished : ∀ path, ¬ Vanished analyzer g none changes path := by
    rintro path ⟨-, -, earlier, hearlier, -⟩
    cases hearlier
  refine PathSet.ext fun path => ?_
  rw [PathSet.mem_sdiff, mem_tests h.balanced_after, mem_tests h.balanced_before, h.vanished_iff,
    h.seed_after_iff, h.seed_before_iff, h.kindOf_after, h.kindOf_before]
  simp only [h.kindOf_after, h.kindOf_before, h.changed_iff]
  constructor
  · rintro (⟨htest, hfound, hkept⟩ | ⟨source, hsource, hkind, hpath⟩)
    · have hreached := (h.reached_iff hkept).mp (hfound.resolve_left hkept)
      exact ⟨.inl ⟨htest, .inr hreached, hvanished path⟩, hkept⟩
    · obtain ⟨hname, htest, hkept⟩ := (h.mem_testsFor_after hsource).mp hpath
      have hbefore : path ∈ analyzer.testsFor g source := mem_testsFor.mpr ⟨.inl hname, htest⟩
      exact ⟨.inr ⟨source, hsource, hkind, hbefore⟩, hkept⟩
  · rintro ⟨⟨htest, hfound, -⟩ | ⟨source, hsource, hkind, hpath⟩, hkept⟩
    · have hreached := (h.reached_iff hkept).mpr (hfound.resolve_left hkept)
      exact .inl ⟨htest, .inr hreached, hkept⟩
    · obtain ⟨hname | himporter, htest⟩ := mem_testsFor.mp hpath
      · exact .inr ⟨source, hsource, hkind, (h.mem_testsFor_after hsource).mpr ⟨hname, htest, hkept⟩⟩
      · -- a test that imported the removed source is affected, so it is found without its name
        have hedge := (h.balanced_before.inverse path source).mpr himporter
        have hstep := (h.affects_after_of_mem hsource).mpr hedge
        have hreached : Reached analyzer after (some g) changes path :=
          ⟨source, h.seed_after_iff.mpr hsource, .single hstep⟩
        have hkindTest : FileKind.ofPath path = .test := by
          rw [← h.kindOf_before]
          exact kindOf_of_isTestOf htest
        exact .inl ⟨hkindTest, .inr hreached, hkept⟩

end Cut

/-- Some files of a graph are removed from a copy of it, in any order, and nothing but these files is
named by the changes.  Then the impact of the changes on what is left, with the graph as the one before,
has the same directly and transitively affected files as the impact on the graph itself, and of its
tests those that have not been removed. -/
theorem impact_of_removed {files : FileSet} (hplain : builder.aliases.Plain)
    (hroot : analyzer.root = builder.root) (hbuild : builder.build files = .ok g)
    (hkeys : ∀ path ∈ builder.keysOf files, builder.key path = path)
    (hremoved : ∀ path ∈ removed, path ∈ g.nodes) {order : List String}
    (horder : ∀ path, path ∈ order ↔ path ∈ removed)
    (hchanges : ∀ path, path ∈ changes.map (·.path) ↔ path ∈ removed)
    (hformer : ∀ change ∈ changes, change.formerPath? = none) :
    ∃ clone after, g.copy = .ok clone ∧ builder.removeFiles order clone = .ok ⟨⟩ after ∧
      (analyzer.analyze after changes (some g)).direct = (analyzer.analyze g changes).direct ∧
      (analyzer.analyze after changes (some g)).transitive =
        (analyzer.analyze g changes).transitive ∧
      (analyzer.analyze after changes (some g)).tests =
        (analyzer.analyze g changes).tests \ removed := by
  have hbefore : Settled builder (builder.recordOf files) g := (of_build hbuild).1
  have hkeyed : ∀ path ∈ g.nodes, path ≠ "" ∧ builder.key path = path := by
    intro path hpath
    have hfile := hbefore.recorded.mem_nodes_iff_mem_keysOf.mp hpath
    exact ⟨ne_empty_of_mem_keysOf hfile, hkeys path hfile⟩
  obtain ⟨clone, hclone, hcopied⟩ := hbefore.recorded.balanced.exists_copy
  have hcopy : Settled builder (builder.recordOf files) clone := hbefore.of_copied hcopied
  have horderKeys : ∀ path ∈ order, builder.key path = path := by
    intro path hpath
    exact (hkeyed path (hremoved path ((horder path).mp hpath))).2
  obtain ⟨_, after, hafter, hsettled⟩ :=
    (ends_removeFiles hplain hcopy horderKeys horder).succeeds fun _ _ hbad => hbad
  have hcut : Cut builder analyzer g after removed changes :=
    ⟨hplain, hroot, ⟨_, hbefore, hsettled⟩, hkeyed, hremoved, hchanges, hformer⟩
  exact ⟨clone, after, hclone, hafter, hcut.direct_eq, hcut.transitive_eq, hcut.tests_eq⟩

/-- A removed file was imported by a source, which is itself imported by a test; with the removed file a
second one takes its name.  Both importers are found after the removal. -/
theorem impact_of_removed_below_test :
    ∃ g clone after,
      Builder.build { reader := .ofText "" } (.contents [("t.test.ts", "import './b'"),
        ("b.ts", "import './a'"), ("a.ts", ""), ("a.tsx", "")]) = .ok g ∧
      g.copy = .ok clone ∧
      Builder.removeFiles { reader := .ofText "" } ["a.ts"] clone = .ok ⟨⟩ after ∧
      "b.ts" ∈ (analyze {} after [⟨"a.ts", .deleted, none⟩] (some g)).direct ∧
      "t.test.ts" ∈ (analyze {} after [⟨"a.ts", .deleted, none⟩] (some g)).tests := by
  let builder : Builder := { reader := .ofText "" }
  let changes : List Change := [⟨"a.ts", .deleted, none⟩]
  let texts : Table String :=
    { entries := [("t.test.ts", "import './b'"), ("b.ts", "import './a'"), ("a.ts", ""), ("a.tsx", "")] }
  have hplain : builder.aliases.Plain := nofun
  have hkeys : ∀ path ∈ (builder.keysOf (.contents texts.entries)).toList,
      builder.key path = path := by decide +kernel
  have hkeyed : Keyed builder texts := by
    have htexts : ∀ path ∈ texts.keys, path ≠ "" ∧ builder.key path = path := by decide +kernel
    exact htexts
  obtain ⟨g, hg⟩ := exists_build_contents hplain rfl texts.entries
  have hsettled := settled_of_keyed hkeyed hg
  have hbalanced := hsettled.recorded.balanced
  have hnodes : ∀ path ∈ texts.keys, path ∈ g.nodes := by
    intro path hpath
    exact (mem_nodes_iff_mem_texts hsettled).mpr hpath
  have hremoved : ∀ path ∈ PathSet.ofList ["a.ts"], path ∈ g.nodes := by
    intro path hpath
    rw [PathSet.mem_ofList, List.mem_singleton] at hpath
    exact hnodes path (by rw [hpath]; decide)
  have hroot : ({} : Analyzer).root = builder.root := rfl
  have horder : ∀ path, path ∈ ["a.ts"] ↔ path ∈ PathSet.ofList ["a.ts"] := fun path => by simp
  have hchanges : ∀ path, path ∈ changes.map (·.path) ↔ path ∈ PathSet.ofList ["a.ts"] := fun path => by
    simp [changes]
  have hformer : ∀ change ∈ changes, change.formerPath? = none := by
    simp [changes, Change.formerPath?]
  obtain ⟨clone, after, hclone, hafter, hdirect, -, htests⟩ :=
    impact_of_removed hplain hroot hg hkeys hremoved horder hchanges hformer
  -- the edges of the graph before
  have hfirst : Affects g none "a.ts" "b.ts" := by
    have hedge : "a.ts" ∈ g.targets "b.ts" := by
      rw [mem_targets_iff_of_texts hplain hsettled]
      exact ⟨"import './a'", by decide +kernel, "./a", by decide +kernel, by decide +kernel⟩
    rw [Affects, if_pos (hnodes _ (by decide)), ← hbalanced.inverse]
    exact hedge
  have hsecond : Affects g none "b.ts" "t.test.ts" := by
    have hedge : "b.ts" ∈ g.targets "t.test.ts" := by
      rw [mem_targets_iff_of_texts hplain hsettled]
      exact ⟨"import './b'", by decide +kernel, "./b", by decide +kernel, by decide +kernel⟩
    rw [Affects, if_pos (hnodes _ (by decide)), ← hbalanced.inverse]
    exact hedge
  have hseed : Seed {} g none changes "a.ts" :=
    .inl ⟨by decide, _, List.mem_singleton_self _, by decide +kernel⟩
  have hnot : ¬ Seed {} g none changes "b.ts" := by
    rintro (⟨-, change, hchange, hkey⟩ | ⟨-, -, earlier, hearlier, -⟩)
    · rw [List.mem_singleton.mp hchange] at hkey
      exact absurd hkey (by decide +kernel)
    · cases hearlier
  refine ⟨g, clone, after, hg, hclone, hafter, ?_, ?_⟩
  · rw [hdirect, mem_direct hbalanced]
    exact ⟨⟨"a.ts", hseed, hfirst⟩, hnot⟩
  · rw [htests, PathSet.mem_sdiff, mem_tests hbalanced]
    have hkind : kindOf g "t.test.ts" = .test := by
      rw [kindOf_eq_ofPath hsettled.recorded.kinded]
      decide +kernel
    refine ⟨.inl ⟨hkind, .inr ⟨"a.ts", hseed, .tail (.single hfirst) hsecond⟩, ?_⟩, by decide⟩
    rintro ⟨-, -, earlier, hearlier, -⟩
    cases hearlier

end Analyzer
end ChangeImpact
