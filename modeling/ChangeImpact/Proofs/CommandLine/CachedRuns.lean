import ChangeImpact.Proofs.Builder.Storing
import ChangeImpact.Proofs.CommandLine.Loading

/-!
# Cached runs

The graph that a run has saved is refreshed by the next run.  Nothing in the file tells by which settings
its edges were found, and a refresh looks at the files alone.  So in a project whose files do not change the
edges are always those that one of the runs has found (`Series.exists_shows`), though not always the last one.
A run agrees with a rebuild in two cases only (`cached_run_agrees_with_rebuild`): its settings bring in files or
leave some out, so that all names are resolved anew, or no name in the project leads elsewhere by them.  In all
other cases it reports the graph of the run before it.

For this the graph has to come back from its file with the times that it had, to the last digit, since
otherwise the refresh would scan its files again (`Json.restored_timeJson`).
-/

namespace ChangeImpact

/-! ## Graphs of unchanged files -/

namespace Builder

variable {builder other : Builder} {reader : Reader} {g h stored : Graph}

/-- Graphs of the same files are the same exactly if their edges are. -/
theorem Current.same_iff (hcurrent : Current builder reader g) (hg : g.Balanced) (hh : h.Balanced)
    (hnodes : ∀ path, h.nodes.get? path = g.nodes.get? path) :
    h.same g = true ↔ ∀ path, h.targets path = g.targets path := by
  refine ⟨Graph.targets_eq_of_same, fun htargets => ?_⟩
  refine hh.same_eq_true hg (fun path => Table.mem_congr (by rw [hnodes])) ?_ htargets
  intro path first second hfirst hsecond
  rw [hnodes, hsecond, Option.some.injEq] at hfirst
  subst hfirst
  rw [hcurrent path (Table.mem_of_get? hsecond), Option.some.injEq] at hsecond
  rw [← hsecond]
  generalize builder.scanOf reader path = scan
  exact ⟨rfl, same_timeJson_self scan.changed, rfl⟩

end Builder

namespace CommandLine

variable {extractor : Script.Extractor} {settings first second : Settings} {rebuild : Bool}
  {disk saved after : Disk} {g stored refreshed rebuilt : Graph}

/-! ## Runs in a row -/

/-- A graph that shows the files of a project, with the edges that the names in them have by some settings. -/
structure Shows (extractor : Script.Extractor) (projectRoot : String) (linker : Settings) (disk : Disk)
    (g : Graph) : Prop where
  balanced : g.Balanced
  current : Builder.Current (builderOn extractor linker disk) (Reader.ofDisk disk projectRoot) g
  followed : Builder.Followed (builderOn extractor linker disk) g

namespace Shows

variable {projectRoot : String} {linker : Settings} {files : List String}

theorem reader_eq (hroot : settings.projectRoot = projectRoot) :
    (builderOn extractor settings disk).readerFor (.paths files) = Reader.ofDisk disk projectRoot := by
  rw [← hroot]
  rfl

theorem of_build (hroot : settings.projectRoot = projectRoot)
    (hbuild : (builderOn extractor settings disk).build (.paths files) = .ok g) :
    Shows extractor projectRoot settings disk g where
  balanced := (Builder.resolved_of_build hbuild).1.balanced
  current := by
    have hreader : (builderOn extractor settings disk).readerFor (.paths files) =
        Reader.ofDisk disk projectRoot := reader_eq hroot
    rw [← hreader]
    exact Builder.current_of_build hbuild
  followed := Builder.followed_of_build hbuild

theorem of_unchanged (hg : Shows extractor projectRoot linker disk g)
    (hfiles : ∀ path ∈ g.nodes,
      (Reader.ofDisk after projectRoot).read path = (Reader.ofDisk disk projectRoot).read path ∧
      (Reader.ofDisk after projectRoot).changed path = (Reader.ofDisk disk projectRoot).changed path) :
    Shows extractor projectRoot linker after g where
  balanced := hg.balanced
  current := by
    intro path hpath
    obtain ⟨hread, hchanged⟩ := hfiles path hpath
    have hextractor : (builderOn extractor linker after).extractor = (builderOn extractor linker disk).extractor := rfl
    rw [hg.current path hpath, Builder.scanOf_of_extractor hextractor,
      Builder.scanOf_congr hread hchanged]
  followed := hg.followed

theorem current_by (hg : Shows extractor projectRoot linker disk g) (settings : Settings) :
    Builder.Current (builderOn extractor settings disk) (Reader.ofDisk disk projectRoot) g := by
  have hextractor : (builderOn extractor settings disk).extractor = (builderOn extractor linker disk).extractor := rfl
  exact hg.current.of_extractor hextractor

theorem reused (hg : Shows extractor projectRoot linker disk g) (hsilent : g.diagnostics = [])
    (hroot : settings.projectRoot = projectRoot)
    (hrefresh : (builderOn extractor settings disk).refresh (.paths files) g = .ok () refreshed) :
    Builder.Reused (builderOn extractor settings disk) (Reader.ofDisk disk projectRoot)
      ((builderOn extractor settings disk).keysOf (.paths files)) g refreshed := by
  have hreader : (builderOn extractor settings disk).readerFor (.paths files) = Reader.ofDisk disk projectRoot :=
    reader_eq hroot
  have htimely := Reader.timely_ofDisk disk projectRoot
  have hends := Builder.ends_refresh_of_current hreader hg.balanced hsilent (hg.current_by settings)
    hg.followed htimely
  exact hends.of_ok hrefresh

theorem of_stored (hg : Shows extractor projectRoot linker disk g) (hstored : Graph.Stored g stored) :
    Shows extractor projectRoot linker disk stored where
  balanced := hstored.balanced
  current := hg.current.of_nodes (hg.current.timed.nodes_stored hstored)
  followed := hg.followed.of_nodes (hg.current.timed.nodes_stored hstored) hstored.targets

/-- A refresh by other settings finds the edges by these or leaves them as they are. -/
theorem of_refresh (hg : Shows extractor projectRoot linker disk g) (hsilent : g.diagnostics = [])
    (hroot : settings.projectRoot = projectRoot)
    (hrefresh : (builderOn extractor settings disk).refresh (.paths files) g = .ok () refreshed) :
    Shows extractor projectRoot settings disk refreshed ∨ Shows extractor projectRoot linker disk refreshed := by
  have hreused := hg.reused hsilent hroot hrefresh
  by_cases hfiles : ∀ path, path ∈ (builderOn extractor settings disk).keysOf (.paths files) ↔ path ∈ g.nodes
  · have hextractor : (builderOn extractor linker disk).extractor =
        (builderOn extractor settings disk).extractor := rfl
    have hfollowed := hreused.followed_of_same (hg.current_by settings) hg.followed hfiles
    exact .inr ⟨hreused.balanced, hreused.current.of_extractor hextractor, hfollowed⟩
  · exact .inl ⟨hreused.balanced, hreused.current, hreused.followed (not_forall.mp hfiles)⟩

end Shows

/-- A run that has saved its graph and has left the files in it as they were. -/
structure SavedRun (extractor : Script.Extractor) (settings : Settings) (rebuild : Bool) (disk : Disk) (g : Graph)
    (after : Disk) : Prop where
  run : loadOrBuild extractor settings rebuild none disk = .ok g after
  saved : Disk.saveGraph settings.graphPath g disk = .ok true after
  unchanged : ∀ path ∈ g.nodes,
    (Reader.ofDisk after settings.projectRoot).read path =
      (Reader.ofDisk disk settings.projectRoot).read path ∧
    (Reader.ofDisk after settings.projectRoot).changed path =
      (Reader.ofDisk disk settings.projectRoot).changed path

/-- Runs in a project whose files do not change, by settings that may differ in all but the project and the
graph file.  The settings of the last run come first. -/
inductive Series (extractor : Script.Extractor) (projectRoot graphFile : String) :
    List Settings → Disk → Graph → Prop
  | first {settings : Settings} {rebuild : Bool} {disk saved : Disk} {g : Graph}
      (projectRoot_eq : settings.projectRoot = projectRoot) (graphFile_eq : settings.graphFile = graphFile)
      (run : SavedRun extractor settings rebuild disk g saved)
      (fresh : rebuild = true ∨ disk.loadGraph settings.graphPath = .ok none) :
      Series extractor projectRoot graphFile [settings] saved g
  | next {settings : Settings} {rebuild : Bool} {history : List Settings} {disk saved : Disk}
      {kept g : Graph} (earlier : Series extractor projectRoot graphFile history disk kept)
      (projectRoot_eq : settings.projectRoot = projectRoot) (graphFile_eq : settings.graphFile = graphFile)
      (run : SavedRun extractor settings rebuild disk g saved) :
      Series extractor projectRoot graphFile (settings :: history) saved g

namespace Series

variable {projectRoot graphFile : String} {history : List Settings} {linker : Settings}

theorem exists_saveGraph (series : Series extractor projectRoot graphFile history disk g)
    (hroot : settings.projectRoot = projectRoot) (hfile : settings.graphFile = graphFile) :
    ∃ before, Disk.saveGraph settings.graphPath g before = .ok true disk := by
  have hplace : ∀ {other : Settings}, other.projectRoot = projectRoot → other.graphFile = graphFile →
      settings.graphPath = other.graphPath := by
    intro other hother hotherFile
    rw [Settings.graphPath, Settings.graphPath, hroot, hfile, hother, hotherFile]
  cases series with
  | first hother hotherFile run fresh => exact ⟨_, hplace hother hotherFile ▸ run.saved⟩
  | next earlier hother hotherFile run => exact ⟨_, hplace hother hotherFile ▸ run.saved⟩

theorem exists_stored (series : Series extractor projectRoot graphFile history disk g)
    (hroot : settings.projectRoot = projectRoot) (hfile : settings.graphFile = graphFile)
    (hg : Shows extractor projectRoot linker disk g) :
    ∃ stored, disk.loadGraph settings.graphPath = .ok (some stored) ∧ Graph.Stored g stored := by
  obtain ⟨before, hsaved⟩ := series.exists_saveGraph hroot hfile
  exact Disk.exists_loadGraph_of_saveGraph hg.balanced hg.current.timed.legible hsaved

/-- After any number of runs the graph shows the files, and its edges are those that one of the runs has found. -/
theorem exists_shows (series : Series extractor projectRoot graphFile history disk g) :
    ∃ linker ∈ history, Shows extractor projectRoot linker disk g := by
  induction series with
  | @first settings rebuild disk saved g hroot hfile run fresh =>
      obtain ⟨files, _, -, hbuild, -⟩ := exists_build_of_run run.run fresh
      have hshows := Shows.of_build hroot hbuild
      exact ⟨settings, List.mem_cons_self, hshows.of_unchanged (hroot ▸ run.unchanged)⟩
  | @next settings rebuild history disk saved kept g earlier hroot hfile run ih =>
      obtain ⟨linker, hlinker, hkept⟩ := ih
      obtain ⟨stored, hload, hstored⟩ := earlier.exists_stored hroot hfile hkept
      -- the run reads the files before it saves the graph
      suffices hbefore : ∃ linker ∈ settings :: history, Shows extractor projectRoot linker disk g by
        obtain ⟨linker, hlinker, hg⟩ := hbefore
        exact ⟨linker, hlinker, hg.of_unchanged (hroot ▸ run.unchanged)⟩
      obtain ⟨files, found, answer, hran⟩ := loadOrBuild_eq_ok_iff.mp run.run
      cases rebuild with
      | true =>
          have hfound := hran.found
          rw [found_rebuild, Except.ok.injEq] at hfound
          subst hfound
          exact ⟨settings, List.mem_cons_self, .of_build hroot hran.graph⟩
      | false =>
          have hfound := hran.found
          rw [found_load, hload, Except.ok.injEq] at hfound
          subst hfound
          rcases (hkept.of_stored hstored).of_refresh hstored.diagnostics hroot
            (refresh_of_currentGraph hran.graph) with hg | hg
          · exact ⟨settings, List.mem_cons_self, hg⟩
          · exact ⟨linker, List.mem_cons_of_mem _ hlinker, hg⟩

end Series

/-! ## A cached run and a rebuild -/

/-- Where the names in a file lead to by some settings. -/
def edgesBy (settings : Settings) (g : Graph) (path : String) : List String :=
  (Builder.links (.ofFiles g.nodes.keys settings.resolveExtensions settings.pathAliases) path
    (Builder.namesIn g path)).targets

/-- What a run by some settings makes of a graph that it finds, beside the graph that it would build. -/
structure Cached (extractor : Script.Extractor) (settings : Settings) (disk : Disk) (g rebuilt cached : Graph) :
    Prop where
  balanced : cached.Balanced
  nodes : ∀ path, cached.nodes.get? path = rebuilt.nodes.get? path
  followed : (∃ path, ¬ (path ∈ g.nodes ↔ path ∈ rebuilt.nodes)) →
    Builder.Followed (builderOn extractor settings disk) cached
  kept : (∀ path, path ∈ g.nodes ↔ path ∈ rebuilt.nodes) → ∀ path, cached.targets path = g.targets path

/-- What a refresh makes of the graph as it was stored. -/
theorem Cached.of_reused {projectRoot : String} {wanted : PathSet} {cached : Graph} (hstored : Graph.Stored g stored)
    (hreused : Builder.Reused (builderOn extractor settings disk) (Reader.ofDisk disk projectRoot) wanted stored cached)
    (hrebuilt : Shows extractor projectRoot settings disk rebuilt)
    (hwanted : ∀ path, path ∈ wanted ↔ path ∈ rebuilt.nodes) :
    Cached extractor settings disk g rebuilt cached where
  balanced := hreused.balanced
  nodes := hreused.current.nodes_eq hrebuilt.current fun path => (hreused.mem_nodes path).trans (hwanted path)
  followed := by
    rintro ⟨path, hpath⟩
    refine hreused.followed ⟨path, fun hiff => hpath ?_⟩
    rw [← hstored.mem_nodes, ← hwanted, hiff]
  kept hsame path := by
    rw [hreused.kept (fun path => by rw [hwanted, hstored.mem_nodes, hsame]), hstored.targets]

/-- A run that may reuse the graph comes through wherever a rebuild does. -/
theorem Series.exists_cached {projectRoot graphFile : String} {history : List Settings} {linker : Settings}
    (series : Series extractor projectRoot graphFile history disk g) (hg : Shows extractor projectRoot linker disk g)
    (hroot : settings.projectRoot = projectRoot) (hfile : settings.graphFile = graphFile)
    (hrebuild : loadOrBuild extractor settings true none disk = .ok rebuilt after)
    (hclean : ∀ path ∈ g.nodes, path ∈ rebuilt.nodes →
      '\x00' ∉ (Reader.fullPath projectRoot path).toList) :
    Shows extractor projectRoot settings disk rebuilt ∧
    ∃ cached after, loadOrBuild extractor settings false none disk = .ok cached after ∧
      Cached extractor settings disk g rebuilt cached := by
  obtain ⟨files, answer, hfiles, hbuild, hresaved⟩ := exists_build_of_run hrebuild (.inl rfl)
  have hrebuilt : Shows extractor projectRoot settings disk rebuilt := .of_build hroot hbuild
  obtain ⟨before, hsaved⟩ := series.exists_saveGraph hroot hfile
  obtain ⟨stored, hload, hstored⟩ := series.exists_stored hroot hfile hg
  have hkept := hg.of_stored hstored
  have htold : ∀ path ∈ stored.nodes, path ∈ rebuilt.nodes →
      ∃ time, (Reader.ofDisk disk projectRoot).changed path = .ok time := fun path hpath hmem =>
    Reader.exists_changed_ofDisk (hclean path (hstored.mem_nodes.mp hpath) hmem)
  obtain ⟨cached, hrefresh, hreused⟩ :=
    Builder.exists_refresh_of_current (Shows.reader_eq hroot) hkept.balanced hstored.diagnostics
      (hkept.current_by settings) hkept.followed (Reader.timely_ofDisk disk projectRoot) htold hbuild
  have hgraph : currentGraph extractor settings disk (some stored) files = .ok cached := by
    rw [currentGraph]
    simp only [hrefresh]
  have hfound : found settings false disk = .ok (some stored) := by
    rw [found_load, hload]
  -- what the rebuild could write there, this run can write as well
  obtain ⟨answer, last, hlast⟩ : ∃ answer last,
      Disk.saveGraph settings.graphPath cached disk = .ok answer last :=
    Disk.exists_saveGraph hsaved hresaved
  have hran : Ran extractor settings false disk files (some stored) cached answer last :=
    ⟨hfiles, hfound, hgraph, hlast⟩
  exact ⟨hrebuilt, cached, last, hran.loadOrBuild_eq,
    .of_reused hstored hreused hrebuilt fun _ => (Builder.mem_nodes_of_build hbuild).symm⟩

/-- A cached graph is the rebuilt one exactly if the names have been resolved anew, or lead nowhere else. -/
theorem Cached.same_iff {projectRoot : String} {linker : Settings} {cached : Graph}
    (h : Cached extractor settings disk g rebuilt cached) (hg : Shows extractor projectRoot linker disk g)
    (hrebuilt : Shows extractor projectRoot settings disk rebuilt) :
    cached.same rebuilt = true ↔ (∃ path, ¬ (path ∈ g.nodes ↔ path ∈ rebuilt.nodes)) ∨
      ∀ path target, target ∈ edgesBy linker g path ↔ target ∈ edgesBy settings g path := by
  rw [hrebuilt.current.same_iff hrebuilt.balanced h.balanced h.nodes]
  -- only where no file has come or gone the cached graph still has the edges of the graph before
  by_cases hfiles : ∀ path, path ∈ g.nodes ↔ path ∈ rebuilt.nodes
  · have hnodes := (hg.current_by settings).nodes_eq hrebuilt.current hfiles
    have hedges : ∀ path target,
        (target ∈ cached.targets path ↔ target ∈ edgesBy linker g path) ∧
        (target ∈ rebuilt.targets path ↔ target ∈ edgesBy settings g path) := by
      intro path target
      rw [h.kept hfiles]
      refine ⟨hg.followed path target, ?_⟩
      rw [hrebuilt.followed, ← Builder.linksIn_eq_of_nodes hnodes]
      rfl
    constructor
    · intro htargets
      refine .inr fun path target => ?_
      rw [← (hedges path target).1, ← (hedges path target).2, htargets]
    · rintro (⟨path, hpath⟩ | halike)
      · exact absurd (hfiles path) hpath
      · intro path
        refine PathSet.ext fun target => ?_
        rw [(hedges path target).1, (hedges path target).2, halike]
  · have hfollowed := h.followed (not_forall.mp hfiles)
    refine iff_of_true (fun path => PathSet.ext fun target => ?_) (.inl (not_forall.mp hfiles))
    rw [hfollowed, hrebuilt.followed, Builder.linksIn_eq_of_nodes h.nodes]

variable {projectRoot graphFile : String} {history : List Settings}

/-- Runs by the same rules agree. -/
theorem cached_run_agrees_of_same_rules (series : Series extractor projectRoot graphFile history disk g)
    (hroot : settings.projectRoot = projectRoot) (hfile : settings.graphFile = graphFile)
    (hrebuild : loadOrBuild extractor settings true none disk = .ok rebuilt after)
    (hclean : ∀ path ∈ g.nodes, path ∈ rebuilt.nodes →
      '\x00' ∉ (Reader.fullPath projectRoot path).toList)
    (hrules : ∀ earlier ∈ history, earlier.resolveExtensions = settings.resolveExtensions ∧
      earlier.pathAliases = settings.pathAliases) :
    ∃ cached after, loadOrBuild extractor settings false none disk = .ok cached after ∧
      cached.same rebuilt = true := by
  obtain ⟨linker, hlinker, hg⟩ := series.exists_shows
  obtain ⟨hrebuilt, cached, last, hrun, hcached⟩ := series.exists_cached hg hroot hfile hrebuild hclean
  obtain ⟨hextensions, haliases⟩ := hrules linker hlinker
  refine ⟨cached, last, hrun, (hcached.same_iff hg hrebuilt).mpr (.inr fun path target => ?_)⟩
  rw [edgesBy, edgesBy, hextensions, haliases]

/-! ## A project in which an alias matters -/

/-- Two runs by different settings are carried out, the second one as a rebuild.  Both come through, the first
one saves its graph and does not touch the files. -/
abbrev Rerun (first second : Settings) (disk : Disk) (good : Graph → Graph → Prop) : Prop :=
  Ends (loadOrBuild {} first true none) disk
    (fun g saved =>
      Ends (Disk.saveGraph first.graphPath g) disk (fun answer _ => answer = true) (fun _ _ => False) ∧
      (∀ path ∈ g.nodes.keys, '\x00' ∉ (Reader.fullPath first.projectRoot path).toList ∧
        (Reader.ofDisk saved first.projectRoot).read path = (Reader.ofDisk disk first.projectRoot).read path ∧
        (Reader.ofDisk saved first.projectRoot).changed path =
          (Reader.ofDisk disk first.projectRoot).changed path) ∧
      Ends (loadOrBuild {} second true none) saved (fun rebuilt _ => good g rebuilt) (fun _ _ => False))
    (fun _ _ => False)

theorem Rerun.exists_series {good : Graph → Graph → Prop} (h : Rerun first second disk good) :
    ∃ g saved, SavedRun {} first true disk g saved ∧
      Series {} first.projectRoot first.graphFile [first] saved g ∧
      (∀ path ∈ g.nodes, '\x00' ∉ (Reader.fullPath first.projectRoot path).toList) ∧
      ∃ rebuilt after, loadOrBuild {} second true none saved = .ok rebuilt after ∧ good g rebuilt := by
  obtain ⟨g, saved, hrun, hsave, hfiles, hsecond⟩ := Ends.succeeds h fun _ _ => id
  obtain ⟨rebuilt, after, hrebuild, hgood⟩ := hsecond.succeeds fun _ _ => id
  obtain ⟨_, _, hanswer, rfl⟩ := hsave.succeeds fun _ _ => id
  obtain ⟨files, answer, -, -, hsaved⟩ := exists_build_of_run hrun (.inl rfl)
  rw [hsaved, EStateM.Result.ok.injEq] at hanswer
  rw [hanswer.1] at hsaved
  have hfirst : SavedRun {} first true disk g saved := ⟨hrun, hsaved, fun path hpath => (hfiles path hpath).2⟩
  exact ⟨g, saved, hfirst, .first rfl rfl hfirst (.inl rfl), fun path hpath => (hfiles path hpath).1, rebuilt,
    after, hrebuild, hgood⟩

/-- Two files that import themselves by an alias. -/
def selfImporting : Disk where
  tree := .directory [("p", .directory
    [("a.ts", .file (Text.Utf8.encode "import '@/a'".toList) ⟨1500000000⟩),
      ("b.js", .file (Text.Utf8.encode "import '@/b'".toList) ⟨1500000000⟩)])]

/-- Settings that do not know the alias. -/
def plain : Settings := { projectRoot := "/p", graphFile := "/graph.json", includeExtensions := [".ts"] }

/-- Settings that do, for the files with some extension. -/
def aliased (extension : String) : Settings :=
  { plain with includeExtensions := [extension], pathAliases := [("@/", "./")] }

/-! ## When they agree -/

/-- A run that may reuse the graph of earlier runs comes through wherever a rebuild does, and with the same
nodes.  It comes to the same graph exactly if files have come or gone, or if all names lead to where they led to
by the settings of that run before it which has found the edges.  Otherwise it reports the edges of then. -/
theorem cached_run_agrees_with_rebuild (series : Series extractor projectRoot graphFile history disk g)
    (hroot : settings.projectRoot = projectRoot) (hfile : settings.graphFile = graphFile)
    (hrebuild : loadOrBuild extractor settings true none disk = .ok rebuilt after)
    (hclean : ∀ path ∈ g.nodes, path ∈ rebuilt.nodes →
      '\x00' ∉ (Reader.fullPath projectRoot path).toList) :
    ∃ linker ∈ history, ∃ cached after, loadOrBuild extractor settings false none disk = .ok cached after ∧
      (∀ path, cached.nodes.get? path = rebuilt.nodes.get? path) ∧
      (cached.same rebuilt = true ↔ (∃ path, ¬ (path ∈ g.nodes ↔ path ∈ rebuilt.nodes)) ∨
        ∀ path target, target ∈ edgesBy linker g path ↔ target ∈ edgesBy settings g path) ∧
      ((∀ path, path ∈ g.nodes ↔ path ∈ rebuilt.nodes) → cached.same g = true) := by
  obtain ⟨linker, hlinker, hg⟩ := series.exists_shows
  obtain ⟨hrebuilt, cached, last, hrun, hcached⟩ := series.exists_cached hg hroot hfile hrebuild hclean
  refine ⟨linker, hlinker, cached, last, hrun, hcached.nodes, hcached.same_iff hg hrebuilt, fun hfiles => ?_⟩
  have hnodes := (hg.current_by settings).nodes_eq hrebuilt.current hfiles
  have hsame := hg.current.same_iff hg.balanced hcached.balanced fun path => by
    rw [hcached.nodes, hnodes]
  exact hsame.mpr (hcached.kept hfiles)

/-- By the other settings there is another file. -/
theorem cached_run_agrees_with_rebuild_of_other_file :
    ∃ g saved rebuilt after cached last, SavedRun {} plain true selfImporting g saved ∧
      loadOrBuild {} (aliased ".js") true none saved = .ok rebuilt after ∧
      loadOrBuild {} (aliased ".js") false none saved = .ok cached last ∧
      "b.js" ∈ rebuilt.targets "b.js" ∧ cached.same rebuilt = true := by
  have hrerun : Rerun plain (aliased ".js") selfImporting fun g rebuilt =>
      ("b.js" ∉ g.nodes.keys ∧ "b.js" ∈ rebuilt.nodes.keys) ∧ "b.js" ∈ rebuilt.targets "b.js" := by
    decide +kernel
  obtain ⟨g, saved, hfirst, hseries, hclean, rebuilt, after, hrebuild, hfile, htarget⟩ := hrerun.exists_series
  have hroot : (aliased ".js").projectRoot = plain.projectRoot := rfl
  have hgraphFile : (aliased ".js").graphFile = plain.graphFile := rfl
  obtain ⟨linker, -, cached, last, hcached, -, hsame, -⟩ :=
    cached_run_agrees_with_rebuild hseries hroot hgraphFile
      hrebuild fun path hpath _ => hclean path hpath
  have hother : ∃ path, ¬ (path ∈ g.nodes ↔ path ∈ rebuilt.nodes) :=
    ⟨"b.js", fun hiff => hfile.1 (hiff.mpr hfile.2)⟩
  exact ⟨g, saved, rebuilt, after, cached, last, hfirst, hrebuild, hcached, htarget, hsame.mpr (.inl hother)⟩

/-- By the other settings the same file has an edge, and the run that reuses the graph does not find it.  What
that run reads is not evaluated but known from the general case. -/
theorem cached_run_keeps_edges_of_other_aliases :
    ∃ g saved rebuilt after cached last, SavedRun {} plain true selfImporting g saved ∧
      loadOrBuild {} (aliased ".ts") true none saved = .ok rebuilt after ∧
      loadOrBuild {} (aliased ".ts") false none saved = .ok cached last ∧
      "a.ts" ∈ rebuilt.targets "a.ts" ∧ "a.ts" ∉ cached.targets "a.ts" ∧ cached.same rebuilt = false := by
  have hrerun : Rerun plain (aliased ".ts") selfImporting fun g rebuilt =>
      g.nodes.keys = rebuilt.nodes.keys ∧ "a.ts" ∈ rebuilt.targets "a.ts" ∧ "a.ts" ∉ g.targets "a.ts" := by
    decide +kernel
  obtain ⟨g, saved, hfirst, hseries, hclean, rebuilt, after, hrebuild, hfiles, htarget, hnone⟩ :=
    hrerun.exists_series
  have hroot : (aliased ".ts").projectRoot = plain.projectRoot := rfl
  have hgraphFile : (aliased ".ts").graphFile = plain.graphFile := rfl
  obtain ⟨linker, -, hg⟩ := hseries.exists_shows
  obtain ⟨-, cached, last, hrun, hcached⟩ :=
    hseries.exists_cached hg hroot hgraphFile hrebuild fun path hpath _ => hclean path hpath
  have hkept := hcached.kept (fun path => by rw [← Table.mem_keys, hfiles, Table.mem_keys]) "a.ts"
  rw [← hkept] at hnone
  refine ⟨g, saved, rebuilt, after, cached, last, hfirst, hrebuild, hrun, htarget, hnone, ?_⟩
  rw [Bool.eq_false_iff]
  intro hsame
  rw [Graph.targets_eq_of_same hsame] at hnone
  exact hnone htarget

end CommandLine
end ChangeImpact
