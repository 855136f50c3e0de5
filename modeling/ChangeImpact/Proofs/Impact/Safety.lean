import ChangeImpact.Proofs.Builder.Texts
import ChangeImpact.Proofs.Impact.Search
import Mathlib.Logic.Relation

/-!
# Skipped tests

A test that an analysis does not select sees the same code as before the changes: it reaches the same
files over import edges, and each of them has the same text and the same imports
(`skipped_test_unaffected`).

Nothing that the test reaches in the graph after the changes is among the files that the analysis has
found, because what is found is closed under importers.  So all of it has its old text and names the
same modules.  That the names lead to the same files needs an argument for each direction.  A file that a
name leads to now is reached as well, hence not changed, hence was there before.  A file that a name led
to before is still there; otherwise it has vanished, and its importers in the graph before the changes
would have been found.
-/

namespace ChangeImpact

/-- A file is reached from another one over import edges. -/
def Graph.Reaches (g : Graph) : String → String → Prop :=
  Relation.ReflTransGen fun source target => target ∈ g.targets source

namespace Analyzer

open Builder

variable {builder : Builder} {analyzer : Analyzer} {first second texts : Table String}
  {before after g : Graph} {changes : List Change} {path target test : String}

/-- The paths of a mapping are keys. -/
def Keyed (builder : Builder) (texts : Table String) : Prop :=
  ∀ path ∈ texts, path ≠ "" ∧ builder.key path = path

theorem get?_texts_entries (hkeyed : Keyed builder texts) (path : String) :
    (builder.texts texts.entries).get? path = texts.get? path := by
  have hentries : texts.entries.map (fun entry => (builder.key entry.1, entry.2)) =
      texts.entries := by
    refine (List.map_congr_left fun entry hentry => ?_).trans (List.map_id _)
    have hmem : entry.1 ∈ texts := List.mem_map.mpr ⟨entry, hentry, rfl⟩
    rw [(hkeyed entry.1 hmem).2]
    rfl
  rw [Builder.texts, keyedContents, hentries, Table.get?_erase, Table.get?_ofList_entries]
  split
  · rename_i hempty
    refine (Table.get?_eq_none_iff.mpr fun hmem => ?_).symm
    exact (hkeyed path hmem).1 hempty
  · rfl

theorem settled_of_keyed (hkeyed : Keyed builder texts)
    (hbuild : builder.build (.contents texts.entries) = .ok g) :
    Settled builder (builder.textRecord texts) g := by
  have hsettled := (of_build hbuild).1
  rwa [recordOf_contents, textRecord_congr (get?_texts_entries hkeyed)] at hsettled

/-- In a graph of texts the nodes are the files of the mapping. -/
theorem mem_nodes_iff_mem_texts (hg : Settled builder (builder.textRecord texts) g) :
    path ∈ g.nodes ↔ path ∈ texts := by
  rw [hg.recorded.mem_nodes, textRecord, Table.mem_iff_exists]
  cases texts.get? path with
  | none => simp
  | some content => simp

/-- The imports of a file are what the names in its text lead to. -/
theorem mem_targets_iff (hplain : builder.aliases.Plain)
    (hg : Settled builder (builder.textRecord texts) g) :
    target ∈ g.targets path ↔ ∃ name ∈ namesIn g path,
      (builder.resolverFor g).resolve name path = .ok (some target) := by
  rw [(hg.linked path).mem_targets, linksIn]
  exact mem_targets_links fun _ _ => Resolver.exists_resolve hplain

/-- The imports of a file are a matter of the texts alone. -/
theorem mem_targets_iff_of_texts (hplain : builder.aliases.Plain)
    (hg : Settled builder (builder.textRecord texts) g) :
    target ∈ g.targets path ↔ ∃ content, texts.get? path = some content ∧
      ∃ name ∈ (builder.scanOf (.ofText content) path).specifiers,
        (Resolver.ofFiles texts.keys builder.extensions builder.aliases).resolve name path =
          .ok (some target) := by
  have hresolve : ∀ name, (builder.resolverFor g).resolve name path =
      (Resolver.ofFiles texts.keys builder.extensions builder.aliases).resolve name path :=
    fun name => Resolver.resolve_congr fun _ => mem_nodes_iff_mem_texts hg
  rw [mem_targets_iff hplain hg, hg.recorded.namesIn_eq, textRecord]
  simp only [hresolve]
  cases texts.get? path with
  | none => simp
  | some content => simp

/-- If all names in some texts lead to one file, then no other file is imported. -/
theorem eq_of_mem_targets {only : String} (hplain : builder.aliases.Plain)
    (hg : Settled builder (builder.textRecord texts) g)
    (honly : ∀ entry ∈ texts.entries,
      ∀ name ∈ (builder.scanOf (.ofText entry.2) entry.1).specifiers,
        (Resolver.ofFiles texts.keys builder.extensions builder.aliases).resolve name entry.1 =
          .ok (some only))
    (htarget : target ∈ g.targets path) : target = only := by
  obtain ⟨content, hcontent, name, hname, hresolve⟩ :=
    (mem_targets_iff_of_texts hplain hg).mp htarget
  have hfound := honly _ (Table.mem_entries_iff.mpr hcontent) name hname
  exact Option.some.inj (Except.ok.inj (hresolve.symm.trans hfound))

theorem kindOf_eq_ofPath (hg : Kinded g) (path : String) : kindOf g path = FileKind.ofPath path := by
  rw [kindOf, Graph.kindOf?]
  cases hnode : g.nodes.get? path with
  | none => rfl
  | some node => exact hg path node hnode

theorem mem_targets_of_mem_importersOf {before : Graph} (hg : g.Balanced) (hbefore : before.Balanced)
    (h : other ∈ importersOf g (some before) path) :
    path ∈ g.targets other ∨ path ∈ before.targets other := by
  cases hrow : g.reverseEdges.get? path with
  | none =>
      rw [importersOf, hrow] at h
      exact .inr ((hbefore.inverse other path).mpr h)
  | some importers =>
      refine .inl ((hg.inverse other path).mpr ?_)
      rw [importersOf, hrow] at h
      rw [Graph.importers, hrow]
      exact h

/-- Two graphs of texts, with changes that name every file whose text is not the same. -/
structure Compared (builder : Builder) (analyzer : Analyzer) (first second : Table String)
    (before after : Graph) (changes : List Change) : Prop where
  plain : builder.aliases.Plain
  root : analyzer.root = builder.root
  keyedFirst : Keyed builder first
  keyedSecond : Keyed builder second
  before : Settled builder (builder.textRecord first) before
  after : Settled builder (builder.textRecord second) after
  changes : ∀ path, first.get? path ≠ second.get? path → path ∈ changes.map (·.path)

namespace Compared

variable (h : Compared builder analyzer first second before after changes)

include h

/-- A file that an analysis has not found has its old text. -/
theorem text_eq (hpath : path ∉ analyzer.reached after changes (some before)) :
    first.get? path = second.get? path := by
  by_contra hdiffer
  have hkey : path ≠ "" ∧ builder.key path = path := by
    by_cases hfirst : path ∈ first
    · exact h.keyedFirst path hfirst
    · refine h.keyedSecond path (Classical.byContradiction fun hsecond => hdiffer ?_)
      rw [Table.get?_eq_none_iff.mpr hfirst, Table.get?_eq_none_iff.mpr hsecond]
  obtain ⟨change, hchange, rfl⟩ := List.mem_map.mp (h.changes path hdiffer)
  refine hpath (mem_reached_of_changed hchange ?_ hkey.1)
  rw [h.root]
  exact hkey.2

/-- Whatever a skipped test reaches has not been found. -/
theorem not_reached (hskipped : test ∉ analyzer.reached after changes (some before))
    (hpath : after.Reaches test path) : path ∉ analyzer.reached after changes (some before) := by
  induction hpath with
  | refl => exact hskipped
  | tail _ hedge ih =>
      rename_i source target _
      intro htarget
      have hnode : target ∈ after.reverseEdges :=
        (h.after.recorded.balanced.mem_reverseEdges target).mpr
          (h.after.recorded.balanced.inside source target hedge)
      obtain ⟨row, hrow⟩ := Table.mem_iff_exists.mp hnode
      have himporter : source ∈ importersOf after (some before) target := by
        have hinverse := (h.after.recorded.balanced.inverse source target).mp hedge
        rw [Graph.importers, hrow] at hinverse
        rw [importersOf, hrow]
        exact hinverse
      exact ih (reached_closed htarget himporter)

theorem namesIn_eq (hpath : path ∉ analyzer.reached after changes (some before)) :
    namesIn before path = namesIn after path := by
  rw [h.before.recorded.namesIn_eq, h.after.recorded.namesIn_eq, textRecord, textRecord,
    h.text_eq hpath]

theorem mem_after_of_mem_before
    (hpath : path ∉ analyzer.reached after changes (some before)) :
    path ∈ before.nodes ↔ path ∈ after.nodes := by
  rw [mem_nodes_iff_mem_texts h.before, mem_nodes_iff_mem_texts h.after, Table.mem_iff_exists,
    Table.mem_iff_exists, h.text_eq hpath]

/-- An import of a file that has not been found is still there. -/
theorem mem_after_of_mem_targets (hpath : path ∉ analyzer.reached after changes (some before))
    (htarget : target ∈ before.targets path) : target ∈ after.nodes := by
  by_contra hgone
  have htargetBefore := h.before.recorded.balanced.inside path target htarget
  -- a file that has vanished is found, and so are its importers in the graph before
  have hreached : target ∈ analyzer.reached after changes (some before) := by
    by_contra hnot
    exact hgone ((h.mem_after_of_mem_before hnot).mp htargetBefore)
  have hnone : after.reverseEdges.get? target = none := by
    rw [Table.get?_eq_none_iff, h.after.recorded.balanced.mem_reverseEdges]
    exact hgone
  have himporter : path ∈ importersOf after (some before) target := by
    rw [importersOf, hnone]
    exact (h.before.recorded.balanced.inverse path target).mp htarget
  exact hpath (reached_closed hreached himporter)

/-- The names in a file that has not been found lead to the same files as before, if none of these has
been found. -/
theorem targets_eq (hpath : path ∉ analyzer.reached after changes (some before))
    (htargets : ∀ target ∈ after.targets path,
      target ∉ analyzer.reached after changes (some before)) :
    before.targets path = after.targets path := by
  have hnames := h.namesIn_eq hpath
  have hresolve : ∀ name ∈ namesIn after path,
      (builder.resolverFor before).resolve name path =
        (builder.resolverFor after).resolve name path := by
    intro name hname
    refine Resolver.resolve_eq_of_known_in_both (fun target hresolve => ?_) fun target hresolve => ?_
    · refine h.mem_after_of_mem_targets hpath ?_
      exact (mem_targets_iff h.plain h.before).mpr ⟨name, hnames ▸ hname, hresolve⟩
    · have htarget := (mem_targets_iff h.plain h.after).mpr ⟨name, hname, hresolve⟩
      refine (h.mem_after_of_mem_before (htargets target htarget)).mpr ?_
      exact h.after.recorded.balanced.inside path target htarget
  refine PathSet.ext fun target => ?_
  rw [mem_targets_iff h.plain h.before, mem_targets_iff h.plain h.after, hnames]
  refine exists_congr fun name => and_congr_right fun hname => ?_
  rw [hresolve name hname]

/-- Whatever a skipped test reaches has the imports that it had before. -/
theorem targets_eq_of_reaches (hskipped : test ∉ analyzer.reached after changes (some before))
    (hpath : after.Reaches test path) : before.targets path = after.targets path :=
  h.targets_eq (h.not_reached hskipped hpath) fun _ htarget =>
    h.not_reached hskipped (hpath.tail htarget)

/-- A skipped test reaches the same files as before. -/
theorem reaches_iff (hskipped : test ∉ analyzer.reached after changes (some before))
    (path : String) : before.Reaches test path ↔ after.Reaches test path := by
  constructor
  · intro hpath
    induction hpath with
    | refl => exact .refl
    | tail _ hedge ih =>
        rw [h.targets_eq_of_reaches hskipped ih] at hedge
        exact ih.tail hedge
  · intro hpath
    induction hpath with
    | refl => exact .refl
    | tail hreach hedge ih =>
        rw [← h.targets_eq_of_reaches hskipped hreach] at hedge
        exact ih.tail hedge

end Compared

/-- A test of the graph after some changes that is not selected reaches the same files as before, and
each of them has the same text and the same imports. -/
theorem skipped_test_unaffected (hplain : builder.aliases.Plain)
    (hroot : analyzer.root = builder.root) (hfirst : Keyed builder first)
    (hsecond : Keyed builder second) (hbefore : builder.build (.contents first.entries) = .ok before)
    (hafter : builder.build (.contents second.entries) = .ok after)
    (hchanges : ∀ path, first.get? path ≠ second.get? path → path ∈ changes.map (·.path))
    (htest : after.kindOf? test = some .test)
    (hskipped : test ∉ (analyzer.analyze after changes (some before)).tests) :
    (∀ path, before.Reaches test path ↔ after.Reaches test path) ∧
      ∀ path, after.Reaches test path →
        (∃ content, first.get? path = some content ∧ second.get? path = some content) ∧
          before.targets path = after.targets path := by
  have hcompared : Compared builder analyzer first second before after changes :=
    ⟨hplain, hroot, hfirst, hsecond, settled_of_keyed hfirst hbefore,
      settled_of_keyed hsecond hafter, hchanges⟩
  have hnot : test ∉ analyzer.reached after changes (some before) := fun hreached =>
    hskipped (mem_tests_of_reached hreached htest)
  refine ⟨hcompared.reaches_iff hnot, fun path hpath =>
    ⟨?_, hcompared.targets_eq_of_reaches hnot hpath⟩⟩
  have hnode : path ∈ after.nodes := by
    cases hpath with
    | refl =>
        obtain ⟨node, hnode, -⟩ := Option.map_eq_some_iff.mp htest
        exact Table.mem_of_get? hnode
    | tail _ hedge => exact hcompared.after.recorded.balanced.inside _ _ hedge
  obtain ⟨content, hcontent⟩ :=
    Table.mem_iff_exists.mp ((mem_nodes_iff_mem_texts hcompared.after).mp hnode)
  exact ⟨content, (hcompared.text_eq (hcompared.not_reached hnot hpath)).trans hcontent, hcontent⟩

/-- A style sheet is replaced by another one, and the test of a source that nobody has touched is
skipped. -/
theorem skipped_test_unaffected_by_replaced_style_sheet :
    ∃ before after,
      Builder.build { reader := .ofText "" }
        (.contents [("tests/a.vue", "import '../a'"), ("a.ts", ""), ("y.css", "")]) = .ok before ∧
      Builder.build { reader := .ofText "" }
        (.contents [("tests/a.vue", "import '../a'"), ("a.ts", ""), ("z.css", "")]) = .ok after ∧
      "tests/a.vue" ∉ (analyze {} after [{ path := "y.css" }, { path := "z.css" }] (some before)).tests ∧
      after.Reaches "tests/a.vue" "a.ts" ∧ before.Reaches "tests/a.vue" "a.ts" ∧
      before.targets "a.ts" = after.targets "a.ts" := by
  let builder : Builder := { reader := .ofText "" }
  let first : Table String :=
    { entries := [("tests/a.vue", "import '../a'"), ("a.ts", ""), ("y.css", "")] }
  let second : Table String :=
    { entries := [("tests/a.vue", "import '../a'"), ("a.ts", ""), ("z.css", "")] }
  let changes : List Change := [{ path := "y.css" }, { path := "z.css" }]
  have hplain : builder.aliases.Plain := nofun
  have hfirst : Keyed builder first := by
    have hkeys : ∀ path ∈ first.keys, path ≠ "" ∧ builder.key path = path := by decide +kernel
    exact hkeys
  have hsecond : Keyed builder second := by
    have hkeys : ∀ path ∈ second.keys, path ≠ "" ∧ builder.key path = path := by decide +kernel
    exact hkeys
  have hchanges : ∀ path, first.get? path ≠ second.get? path → path ∈ changes.map (·.path) := by
    intro path hdiffer
    by_contra hnot
    have hother : path ≠ "y.css" ∧ path ≠ "z.css" := by simpa [changes] using hnot
    refine hdiffer ?_
    simp [Table.get?, first, second, List.lookup_cons, beq_false_of_ne hother.1,
      beq_false_of_ne hother.2]
  obtain ⟨before, hbefore⟩ := exists_build_contents hplain rfl first.entries
  obtain ⟨after, hafter⟩ := exists_build_contents hplain rfl second.entries
  have hbeforeSettled := settled_of_keyed hfirst hbefore
  have hafterSettled := settled_of_keyed hsecond hafter
  have honly : ∀ texts ∈ [first.entries, second.entries], ∀ entry ∈ texts,
      ∀ name ∈ (builder.scanOf (.ofText entry.2) entry.1).specifiers,
        (Resolver.ofFiles (texts.map (·.1)) builder.extensions builder.aliases).resolve name entry.1 =
          .ok (some "a.ts") := by decide +kernel
  have htargets : ∀ path target,
      target ∈ after.targets path ∨ target ∈ before.targets path → target = "a.ts" := by
    rintro path target (htarget | htarget)
    · exact eq_of_mem_targets hplain hafterSettled (honly _ (.tail _ (.head _))) htarget
    · exact eq_of_mem_targets hplain hbeforeSettled (honly _ (.head _)) htarget
  have hchanged : ∀ path ∈ changedPaths {} changes, path = "y.css" ∨ path = "z.css" := by
    decide +kernel
  have hseeds : ∀ path ∈ changedPaths {} changes ∪ vanishedPaths {} after (some before) changes,
      path = "y.css" ∨ path = "z.css" := by
    intro path hpath
    rcases PathSet.mem_union.mp hpath with hpath | hpath
    · exact hchanged path hpath
    · rcases PathSet.mem_union.mp (PathSet.mem_filter.mp hpath).1 with hpath | hpath
      · exact hchanged path hpath
      · cases hpath
  have hnobody : ∀ path ∈ changedPaths {} changes ∪ vanishedPaths {} after (some before) changes,
      ∀ other, other ∉ importersOf after (some before) path := by
    intro path hpath other hother
    have htarget := htargets other path (mem_targets_of_mem_importersOf
      hafterSettled.recorded.balanced hbeforeSettled.recorded.balanced hother)
    rw [htarget] at hpath
    simpa using hseeds "a.ts" hpath
  have hsources : ∀ source ∈ changedPaths {} changes, kindOf after source ≠ .source := by
    intro source hsource
    rw [kindOf_eq_ofPath hafterSettled.recorded.kinded]
    rcases hchanged source hsource with rfl | rfl
    · decide +kernel
    · decide +kernel
  have hskipped : "tests/a.vue" ∉ (analyze {} after changes (some before)).tests := fun htest => by
    simpa using hseeds _ (mem_seeds_of_mem_tests htest hsources hnobody)
  have htest : after.kindOf? "tests/a.vue" = some .test := by
    have hnode : "tests/a.vue" ∈ after.nodes := by
      rw [mem_nodes_iff_mem_texts hafterSettled]
      decide +kernel
    obtain ⟨node, hnode⟩ := Table.mem_iff_exists.mp hnode
    rw [Graph.kindOf?, hnode, Option.map_some, hafterSettled.recorded.kinded _ _ hnode]
    decide +kernel
  have hedge : "a.ts" ∈ after.targets "tests/a.vue" := by
    rw [mem_targets_iff_of_texts hplain hafterSettled]
    exact ⟨"import '../a'", by decide +kernel, "../a", by decide +kernel, by decide +kernel⟩
  have hreaches : after.Reaches "tests/a.vue" "a.ts" := .single hedge
  obtain ⟨hsame, hcode⟩ := skipped_test_unaffected hplain rfl hfirst hsecond hbefore hafter hchanges
    htest hskipped
  exact ⟨before, after, hbefore, hafter, hskipped, hreaches, (hsame _).mpr hreaches,
    (hcode _ hreaches).2⟩

end Analyzer
end ChangeImpact
