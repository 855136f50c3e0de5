import ChangeImpact.Proofs.Builder.Repeated
import ChangeImpact.Proofs.CommandLine.Loading
import ChangeImpact.Proofs.Impact.Agreement

/-!
# Running an analysis again

An analysis is run twice, and no file of the project changes in between.  The second run comes through
(`run_again`), but it need not print what the first one has printed, since by then the graph of the first run has
taken the place of the one that was kept.

* A file that has vanished is only in the graph that was kept.  The second run does not know it, nor what has
  imported it, so its impact and its plan are those of an analysis without a graph before.
* What has been said about the files is not kept.  The second run says again which files cannot be read, and
  nothing else, unless it is told to rebuild the graph.

What runs leave is described by a record of scans of which nothing is said (`Left.exists_record`).  With that
the second run is a refresh that is repeated.
-/

namespace ChangeImpact.CommandLine

open Builder (Record Recorded Updated Repeated)

variable {extractor : Script.Extractor} {settings : Settings} {analysis : AnalysisOptions} {rebuild answer : Bool}
  {disk saved later : Disk} {files : List String} {kept : Option Graph} {g stored : Graph}

/-! ## What runs leave -/

/-- What a run may find where graphs are kept, if only runs have been there: no graph, or one that a run has saved
after it had itself found what runs leave. -/
inductive Left (extractor : Script.Extractor) : Option Graph → Prop
  | nothing : Left extractor none
  | saved {settings : Settings} {rebuild : Bool} {disk saved : Disk} {kept left : Option Graph} {g : Graph}
      (earlier : Left extractor kept) (finds : found settings rebuild disk = .ok kept)
      (run : loadOrBuild extractor settings rebuild none disk = .ok g saved)
      (saves : Disk.saveGraph settings.graphPath g disk = .ok true saved)
      (leaves : saved.loadGraph settings.graphPath = .ok left) : Left extractor left

/-- A run that finds a graph with a record of which nothing is said brings it up to date. -/
theorem Ran.exists_updated (h : Ran extractor settings rebuild disk files kept g answer saved)
    (hkept : ∀ held ∈ kept, ∃ record, Recorded record held ∧ record.Silent) :
    ∃ stale record, Updated (builderOn extractor settings disk) (Reader.ofDisk disk settings.projectRoot)
      ((builderOn extractor settings disk).keysOf (.paths files)) stale record g := by
  have hreader : (builderOn extractor settings disk).readerFor (.paths files) =
      Reader.ofDisk disk settings.projectRoot := rfl
  rw [← hreader]
  cases kept with
  | none =>
      have hupdated := Builder.updated_of_build h.graph
      exact ⟨_, _, hupdated⟩
  | some held =>
      obtain ⟨record, hrecorded, hsilent⟩ := hkept held rfl
      have hupdated := Builder.updated_of_refresh hrecorded hsilent (refresh_of_currentGraph h.graph)
      exact ⟨_, _, hupdated⟩

theorem exists_stored_of_saveGraph {record : Record} (hg : Recorded record g)
    (hsaved : Disk.saveGraph settings.graphPath g disk = .ok true saved) :
    ∃ stored, saved.loadGraph settings.graphPath = .ok (some stored) ∧ Graph.Stored g stored :=
  Disk.exists_loadGraph_of_saveGraph hg.balanced hg.timed.legible hsaved

theorem Left.exists_record (h : Left extractor kept) :
    ∀ held ∈ kept, ∃ record, Recorded record held ∧ record.Silent := by
  induction h with
  | nothing =>
      rintro held hheld
      cases hheld
  | saved earlier finds run saves leaves ih =>
      rintro held rfl
      obtain ⟨files, found, answer, hran⟩ := loadOrBuild_eq_ok_iff.mp run
      obtain rfl := Except.ok.inj (finds.symm.trans hran.found)
      obtain ⟨stale, record, hupdated⟩ := hran.exists_updated ih
      obtain ⟨stored, hload, hstored⟩ := exists_stored_of_saveGraph hupdated.recorded saves
      obtain rfl : held = stored := Option.some.inj (Except.ok.inj (leaves.symm.trans hload))
      exact ⟨record.silenced, hupdated.recorded.of_stored hstored, record.silent_silenced⟩

theorem Left.balanced (h : Left extractor kept) : ∀ held ∈ kept, held.Balanced := by
  intro held hheld
  obtain ⟨record, hrecorded, -⟩ := h.exists_record held hheld
  exact hrecorded.balanced

/-! ## Files that stay as they are -/

/-- Nothing that a run reads of the files in a graph has changed from one disk to another. -/
structure Untouched (settings : Settings) (g : Graph) (disk later : Disk) : Prop where
  workingDirectory : later.workingDirectory = disk.workingDirectory
  listed : projectFiles settings later = projectFiles settings disk
  files : ∀ path ∈ g.nodes,
    (Reader.ofDisk later settings.projectRoot).read path = (Reader.ofDisk disk settings.projectRoot).read path ∧
    (Reader.ofDisk later settings.projectRoot).changed path = (Reader.ofDisk disk settings.projectRoot).changed path

instance Untouched.decidable (settings : Settings) (g : Graph) (disk later : Disk) :
    Decidable (Untouched settings g disk later) :=
  decidable_of_iff (later.workingDirectory = disk.workingDirectory ∧
      projectFiles settings later = projectFiles settings disk ∧ ∀ path ∈ g.nodes.keys,
        (Reader.ofDisk later settings.projectRoot).read path =
          (Reader.ofDisk disk settings.projectRoot).read path ∧
        (Reader.ofDisk later settings.projectRoot).changed path =
          (Reader.ofDisk disk settings.projectRoot).changed path) <| by
    simp only [Table.mem_keys]
    exact ⟨fun ⟨hworking, hlisted, hfiles⟩ => ⟨hworking, hlisted, hfiles⟩,
      fun h => ⟨h.workingDirectory, h.listed, h.files⟩⟩

theorem Untouched.rootOn_eq (h : Untouched settings g disk later) : rootOn settings later = rootOn settings disk := by
  rw [rootOn, rootOn, h.workingDirectory]

theorem Untouched.builderOn_eq (h : Untouched settings g disk later) : builderOn extractor settings later =
    (builderOn extractor settings disk).withReader (.ofDisk later settings.projectRoot) := by
  rw [builderOn, h.rootOn_eq, builderOn, Builder.withReader]

/-- A run that is told to rebuild builds the same graph. -/
theorem Untouched.build_eq (h : Untouched settings g disk later)
    (hbuild : (builderOn extractor settings disk).build (.paths files) = .ok g) :
    (builderOn extractor settings later).build (.paths files) = .ok g := by
  have hsame := Builder.build_congr fun path hpath =>
    h.files path ((Builder.mem_nodes_of_build hbuild).mpr hpath)
  rw [h.builderOn_eq, hsame]
  exact hbuild

/-- A run that finds the graph of the run before it refreshes it once more. -/
theorem Untouched.exists_repeated {stale : String → Bool} {record : Record}
    (h : Untouched settings g disk later)
    (hg : Updated (builderOn extractor settings disk) (Reader.ofDisk disk settings.projectRoot)
      ((builderOn extractor settings disk).keysOf (.paths files)) stale record g)
    (hclean : ∀ path ∈ g.nodes, '\x00' ∉ (Reader.fullPath settings.projectRoot path).toList)
    (hstored : Graph.Stored g stored) :
    ∃ again, currentGraph extractor settings later (some stored) files = .ok again ∧ Repeated g again := by
  have htold : ∀ path ∈ (builderOn extractor settings disk).keysOf (.paths files), ∀ cause,
      (Reader.ofDisk later settings.projectRoot).changed path ≠ .error cause := by
    intro path hpath cause hcause
    exact hclean path ((hg.mem_nodes path).mpr hpath) (Reader.changed_ofDisk_eq_error_iff.mp hcause).2
  have hlater := hg.withReader fun path hpath => h.files path ((hg.mem_nodes path).mpr hpath)
  obtain ⟨again, hrefresh, hagain⟩ := hlater.exists_repeated hstored
    (Builder.readerFor_withReader _ _ files) (Builder.keysOf_withReader _ _ (.paths files))
    (Reader.timely_ofDisk later settings.projectRoot) htold
  refine ⟨again, ?_, hagain⟩
  rw [currentGraph]
  simp only [h.builderOn_eq, hrefresh]

/-! ## Second runs -/

/-- Where the first run has saved its graph the second one comes through, with the same nodes and edges. -/
theorem Ran.exists_second (hran : Ran extractor settings rebuild disk files kept g true saved)
    (hleft : Left extractor kept)
    (huntouched : Untouched settings g disk later)
    (hgraph : later.loadGraph settings.graphPath = saved.loadGraph settings.graphPath)
    (hclean : ∀ path ∈ g.nodes, '\x00' ∉ (Reader.fullPath settings.projectRoot path).toList) :
    ∃ left again answer last, Ran extractor settings rebuild later files left again answer last ∧
      (∀ held ∈ left, Graph.Agree g held) ∧ Graph.Agree g again ∧
      again.diagnostics = (if rebuild then g.diagnostics else g.diagnostics.filter (·.kind == .readError)) := by
  obtain ⟨stale, record, hupdated⟩ := hran.exists_updated hleft.exists_record
  have hbalanced := hupdated.recorded.balanced
  obtain ⟨stored, hload, hstored⟩ := exists_stored_of_saveGraph hupdated.recorded hran.saved
  have hlisted : projectFiles settings later = .ok files := huntouched.listed.trans hran.listed
  -- where a graph can be loaded every graph can be saved
  have hsaves := Disk.exists_saveGraph_of_loadGraph (hgraph.trans hload)
  cases rebuild with
  | true =>
      obtain rfl := Except.ok.inj (hran.found.symm.trans (found_rebuild settings disk))
      have hbuild := huntouched.build_eq hran.graph
      obtain ⟨answer, last, hlast⟩ := hsaves g
      refine ⟨none, g, answer, last, ⟨hlisted, found_rebuild settings later, hbuild, hlast⟩, ?_, ?_, rfl⟩
      · rintro held hheld
        cases hheld
      · exact ⟨hbalanced, hbalanced, fun _ => rfl, fun _ => rfl⟩
  | false =>
      obtain ⟨again, hagain, hrepeated⟩ := huntouched.exists_repeated hupdated hclean hstored
      obtain ⟨answer, last, hlast⟩ := hsaves again
      have hfound : CommandLine.found settings false later = .ok (some stored) := by rw [found_load, hgraph, hload]
      refine ⟨some stored, again, answer, last, ⟨hlisted, hfound, hagain, hlast⟩, ?_, ?_, hrepeated.diagnostics⟩
      · rintro held hheld
        obtain rfl := Option.some.inj hheld
        exact ⟨hbalanced, hstored.balanced, hupdated.recorded.timed.nodes_stored hstored, hstored.targets⟩
      · exact ⟨hbalanced, hrepeated.balanced, hrepeated.nodes, hrepeated.targets⟩

/-! ## What is printed -/

/-- What a run has printed that comes through with a report. -/
def printed (report : Json) : Outcome := { exitCode := 0, output := Json.print report ++ "\n" }

/-- The impact of the named files in a project, by the present graph and the one before. -/
def impactOf (settings : Settings) (analysis : AnalysisOptions) (disk : Disk) (g : Graph) (before : Option Graph) :
    Impact :=
  Analyzer.analyze { root := some (rootOn settings disk) } g (analysis.changed.map fun path => { path }) before

/-- The report of an impact, and of diagnostics if they are asked for. -/
def reportOf (analysis : AnalysisOptions) (g : Graph) (impact : Impact) (diagnostics : List Diagnostic) : Json :=
  .object ([("impact", impact.toJson), ("plan", (Selection.plan g impact analysis.full).toJson)] ++
    if analysis.diagnostics then [("diagnostics", .array (diagnostics.map diagnosticJson))] else [])

section Reports

variable {repository : Option Repository}

/-- Where files are named, no repository is asked. -/
theorem collectChanges_named (hchanged : analysis.changed ≠ []) (repository : Option Repository) :
    collectChanges settings analysis repository disk = .ok (analysis.changed.map fun path => { path }) disk := by
  rw [collectChanges, if_pos (by simpa using hchanged)]
  rfl

/-- The copy that an analysis makes of the graph that it has found. -/
def copied : Option Graph → Except GraphError (Option Graph)
  | none => .ok none
  | some held => held.copy.map some

/-- A balanced graph agrees with the copy that is made of it. -/
theorem exists_copied (hkept : ∀ held ∈ kept, held.Balanced) :
    ∃ before, copied kept = .ok before ∧ Option.Rel Graph.Agree kept before := by
  cases kept with
  | none => exact ⟨none, rfl, .none⟩
  | some held =>
      have hheld := hkept held rfl
      obtain ⟨clone, hcopy, hclone⟩ := hheld.exists_copy
      refine ⟨some clone, ?_, .some ⟨hheld, hclone.balanced, hclone.nodes, hclone.targets⟩⟩
      rw [copied, hcopy]
      rfl

/-- An analysis finds its graph or does without one, copies it, brings it up to date, and reports the impact. -/
theorem runAnalysis_steps (extractor : Script.Extractor) (settings : Settings) (analysis : AnalysisOptions)
    (repository : Option Repository) :
    runAnalysis extractor settings analysis repository =
      (do
        let changes ← collectChanges settings analysis repository
        let kept ← demand .graphFile (found settings analysis.rebuild (← get))
        let before ← demand .graph (copied kept)
        let g ← loadOrBuild extractor settings analysis.rebuild kept
        let impact := Analyzer.analyze { root := some (rootOn settings (← get)) } g changes before
        return reportOf analysis g impact g.diagnostics) := by
  have hnone : demand RunError.graph (copied none) = pure none := rfl
  unfold runAnalysis
  refine bind_congr fun changes => ?_
  cases analysis.rebuild with
  | true =>
      have hfound : demand RunError.graphFile (.ok (none : Option Graph)) = pure none := rfl
      have hget : ∀ next : RunStep Json, (get >>= fun _ => next) = next := fun _ => rfl
      simp only [found_rebuild, hfound, hnone, hget, pure_bind, if_true]
      exact bind_congr fun g => bind_congr fun disk => rfl
  | false =>
      simp only [keptGraph, bind_assoc, pure_bind, found_load, Bool.false_eq_true, if_false]
      refine bind_congr fun disk => bind_congr fun kept => ?_
      cases kept with
      | none =>
          rw [hnone, pure_bind]
          exact bind_congr fun g => bind_congr fun disk => rfl
      | some held =>
          rw [copied, demand_map_bind]
          exact bind_congr fun clone => bind_congr fun g => bind_congr fun disk => rfl

/-- An analysis of named files reports the impact by the graph that it has found.  It looks at a copy of this graph,
which makes no difference. -/
theorem Ran.runAnalysis_eq (hran : Ran extractor settings analysis.rebuild disk files kept g answer saved)
    (hchanged : analysis.changed ≠ []) (hkept : ∀ held ∈ kept, held.Balanced) (hg : g.Balanced)
    (repository : Option Repository) : runAnalysis extractor settings analysis repository disk =
      .ok (reportOf analysis g (impactOf settings analysis disk g kept) g.diagnostics) saved := by
  obtain ⟨before, hcopied, hbefore⟩ := exists_copied hkept
  have hroot : rootOn settings saved = rootOn settings disk := by
    rw [rootOn, rootOn, Disk.workingDirectory_of_saveGraph hran.saved]
  have hsame : impactOf settings analysis saved g before = impactOf settings analysis disk g kept := by
    rw [impactOf, hroot, impactOf]
    exact Analyzer.analyze_congr ⟨hg, hg, fun _ => rfl, fun _ => rfl⟩ hbefore _ _
  rw [runAnalysis_steps, bind_of_eq_ok (collectChanges_named hchanged repository), get_bind_eq,
    bind_of_eq_ok (demand_eq_ok_iff.mpr ⟨hran.found, rfl⟩), bind_of_eq_ok (demand_eq_ok_iff.mpr ⟨hcopied, rfl⟩),
    bind_of_eq_ok hran.loadOrBuild_kept, get_bind_eq, ← hsame]
  rfl

theorem run_of_runCommand {arguments : List String} {options : GlobalOptions} {command : Command}
    {environment : EnvironmentFile.Environment} {environmentFile : String} {withFile : EnvironmentFile.Reader}
    {report : Json} (hread : Arguments.read arguments = .ok ⟨options, command⟩)
    (hsettings : settingsFor ⟨options, command⟩ environment environmentFile withFile = settings)
    (h : runCommand extractor settings repository command disk = .ok report saved) :
    run arguments environment environmentFile repository disk extractor withFile = (printed report, saved) := by
  unfold run
  rw [hread]
  dsimp only
  rw [hsettings, h]
  rfl

end Reports

/-! ## A test that is removed -/

/-- A run that finds a graph, or none, is carried out, up to what the next run will load. -/
def Carried (extractor : Script.Extractor) (settings : Settings) (disk : Disk) (kept : Option Graph)
    (files : List String) (good : Graph → Disk → Graph → Prop) : Prop :=
  projectFiles settings disk = .ok files ∧ ∃ g ∈ (currentGraph extractor settings disk kept files).toOption,
    Ends (Disk.saveGraph settings.graphPath g) disk (fun answer saved => answer = true ∧
      Ends (Graph.replay g.nodes.sortedEntries g.storedRows) ∅ (fun _ left => good g saved left)
        (fun _ _ => False))
    (fun _ _ => False)

instance Carried.decidable (extractor : Script.Extractor) (settings : Settings) (disk : Disk)
    (kept : Option Graph) (files : List String) (good : Graph → Disk → Graph → Prop)
    [∀ g saved left, Decidable (good g saved left)] :
    Decidable (Carried extractor settings disk kept files good) :=
  inferInstanceAs (Decidable (_ ∧ ∃ g ∈ (currentGraph extractor settings disk kept files).toOption, _))

theorem Carried.exists_ran {good : Graph → Disk → Graph → Prop}
    (h : Carried extractor settings disk kept files good)
    (hfound : found settings false disk = .ok kept) (hleft : Left extractor kept) :
    ∃ g saved left, Ran extractor settings false disk files kept g true saved ∧ g.Balanced ∧
      saved.loadGraph settings.graphPath = .ok (some left) ∧ Left extractor (some left) ∧ good g saved left := by
  obtain ⟨hlisted, g, hg, hends⟩ := h
  obtain ⟨_, saved, hsaved, rfl, hreplay⟩ := hends.succeeds fun _ _ hbad => hbad
  obtain ⟨_, left, hreplayed, hgood⟩ := hreplay.succeeds fun _ _ hbad => hbad
  have hgraph : currentGraph extractor settings disk kept files = .ok g := by
    cases hcurrent : currentGraph extractor settings disk kept files with
    | ok found =>
        rw [hcurrent] at hg
        rw [Option.some.inj hg]
    | error cause =>
        rw [hcurrent] at hg
        cases hg
  have hran : Ran extractor settings false disk files kept g true saved := ⟨hlisted, hfound, hgraph, hsaved⟩
  obtain ⟨stale, record, hupdated⟩ := hran.exists_updated hleft.exists_record
  have hload := hupdated.recorded.timed.loadGraph_of_saveGraph hupdated.recorded.balanced hsaved hreplayed
  exact ⟨g, saved, left, hran, hupdated.recorded.balanced, hload,
    .saved hleft hfound hran.loadOrBuild_eq hsaved hload, hgood⟩

/-- A project with a single test. -/
def oneTest : Disk where
  tree := .directory [("p", .directory [("t.test.ts", .file [] ⟨1500000000⟩)])]

/-- In the place of the test there is a source that imports something outside of the project. -/
def withoutTest (disk : Disk) : Disk :=
  { disk with
    tree := disk.tree.plant ["p"] (.directory
      [("s.ts", .file (Text.Utf8.encode "import '../x'".toList) ⟨2500000000⟩)]) }

/-- The settings for this project. -/
def oneProject : Settings := { projectRoot := "/p", graphFile := "/graph.json" }

/-- The removed test is named, and diagnostics are asked for. -/
def testNamed : AnalysisOptions := { changed := ["t.test.ts"], diagnostics := true }

/-- The first analysis does not select the removed test and reports what the source imports, the second one selects
the test and reports nothing.  So they print different reports. -/
def Differ (first second : Impact) (g again : Graph) : Prop :=
  (first.tests.toList = [] ∧ second.tests.toList = ["t.test.ts"]) ∧
    (g.diagnostics.map (·.kind) = [.unresolved] ∧ again.diagnostics.map (·.kind) = []) ∧
    Json.printAt 0 (reportOf testNamed g first g.diagnostics) ≠
      Json.printAt 0 (reportOf testNamed again second again.diagnostics)

instance Differ.decidable (first second : Impact) (g again : Graph) : Decidable (Differ first second g again) :=
  inferInstanceAs (Decidable (_ ∧ _ ∧ _ ≠ _))

theorem carried_removal : Carried {} oneProject oneTest none ["t.test.ts"] fun _ cached kept =>
    cached.tree.isDirectory = true ∧
    Carried {} oneProject (withoutTest cached) (some kept) ["s.ts"] fun g saved left =>
      Untouched oneProject g (withoutTest cached) saved ∧
      g.nodes.keys = ["s.ts"] ∧
      Carried {} oneProject saved (some left) ["s.ts"] fun again _ _ =>
        Differ (impactOf oneProject testNamed (withoutTest cached) g (some kept))
          (impactOf oneProject testNamed saved again (some left)) g again := by
  decide +kernel

theorem loadGraph_withoutTest (hdirectory : disk.tree.isDirectory = true) :
    (withoutTest disk).loadGraph oneProject.graphPath = disk.loadGraph oneProject.graphPath := by
  have htidy : String.ofList (Path.tidy oneProject.graphPath.toList) = "/graph.json" := by rfl
  have hlocate : ∀ disk : Disk, disk.tree.isDirectory = true → disk.locate "/graph.json" = .ok ["graph.json"] := by
    rintro ⟨tree, workingDirectory, clock⟩ htree
    cases tree with
    | file bytes time => cases htree
    | directory entries => rfl
  have hplace : (withoutTest disk).tree.at? ["graph.json"] = disk.tree.at? ["graph.json"] := by
    rw [withoutTest, FileTree.plant, FileTree.at?_cons, FileTree.at?_cons, FileTree.entries,
      FileTree.lookup_putEntry]
    rfl
  have hfind : (withoutTest disk).find "/graph.json" = disk.find "/graph.json" := by
    rw [Disk.find, Disk.find, hlocate _ hdirectory, hlocate _ rfl]
    simp only [bind, Except.bind, hplace]
  refine Disk.loadGraph_congr ?_
  rw [htidy, Disk.bytes, hfind, Disk.bytes]

/-- The options for every command, and the analysis of the removed test. -/
def oneProjectOptions : GlobalOptions := { root := some "/p", graphFile := some "/graph.json" }

def globalArguments : List String := ["--root", "/p", "--graph-file", "/graph.json"]

def analysisArguments : List String := globalArguments ++ ["analyze", "--changed", "t.test.ts", "--diagnostics"]

theorem read_analysisArguments :
    Arguments.read analysisArguments = .ok ⟨oneProjectOptions, .analyze testNamed⟩ := by decide +kernel

theorem settingsFor_oneProject (command : Command) (hcommand : command = .stats ∨ command = .analyze testNamed) :
    settingsFor ⟨oneProjectOptions, command⟩ [] "" = oneProject := by
  rcases hcommand with rfl | rfl
  · rfl
  · rfl

/-- A run on the project with the test, and two runs on the one without it. -/
theorem exists_runs_of_removal : ∃ g₀ cached kept g saved left again last,
    loadOrBuild {} oneProject false none oneTest = .ok g₀ cached ∧
    (withoutTest cached).loadGraph oneProject.graphPath = .ok (some kept) ∧ Left {} (some kept) ∧
    Ran {} oneProject false (withoutTest cached) ["s.ts"] (some kept) g true saved ∧ g.Balanced ∧
    Untouched oneProject g (withoutTest cached) saved ∧ g.nodes.keys = ["s.ts"] ∧
    Left {} (some left) ∧ Ran {} oneProject false saved ["s.ts"] (some left) again true last ∧ again.Balanced ∧
    Differ (impactOf oneProject testNamed (withoutTest cached) g (some kept))
      (impactOf oneProject testNamed saved again (some left)) g again := by
  have hnone : found oneProject false oneTest = .ok none := by
    rw [found_load]
    rfl
  obtain ⟨g₀, cached, kept, hran₀, -, hkept, hleft, hdirectory, hsecond⟩ :=
    carried_removal.exists_ran hnone .nothing
  have hload := (loadGraph_withoutTest hdirectory).trans hkept
  obtain ⟨g, saved, left, hran, hg, hloaded, hleft', huntouched, hfiles, hthird⟩ :=
    hsecond.exists_ran ((found_load _ _).trans hload) hleft
  obtain ⟨again, last, -, hagain, hbalanced, -, -, hdiffer⟩ :=
    hthird.exists_ran ((found_load _ _).trans hloaded) hleft'
  exact ⟨g₀, cached, kept, g, saved, left, again, last, hran₀.loadOrBuild_eq, hload, hleft, hran, hg, huntouched,
    hfiles, hleft', hagain, hbalanced, hdiffer⟩

/-! ## Two runs -/

/-- An analysis of named files is run again after it has saved its graph, and the files are as they were.  The second
run comes through.  It prints the impact and the plan for the same graph without a graph before, which are the
same unless a path that was named has vanished, and of the diagnostics it prints the read errors or, if it
rebuilds the graph, all. -/
theorem run_again {arguments : List String} {options : GlobalOptions} {environment : EnvironmentFile.Environment}
    {environmentFile : String} {withFile : EnvironmentFile.Reader} (repository : Option Repository)
    (hread : Arguments.read arguments = .ok ⟨options, .analyze analysis⟩)
    (hsettings : settingsFor ⟨options, .analyze analysis⟩ environment environmentFile withFile = settings)
    (hchanged : analysis.changed ≠ [])
    (hleft : ∀ kept, disk.loadGraph settings.graphPath = .ok kept → Left extractor kept)
    (hrun : loadOrBuild extractor settings analysis.rebuild none disk = .ok g saved)
    (hsaved : Disk.saveGraph settings.graphPath g disk = .ok true saved)
    (huntouched : Untouched settings g disk later)
    (hgraph : later.loadGraph settings.graphPath = saved.loadGraph settings.graphPath)
    (hclean : ∀ path ∈ g.nodes, '\x00' ∉ (Reader.fullPath settings.projectRoot path).toList) :
    ∃ kept last, found settings analysis.rebuild disk = .ok kept ∧
      run arguments environment environmentFile repository disk extractor withFile =
        (printed (reportOf analysis g (impactOf settings analysis disk g kept) g.diagnostics), saved) ∧
      run arguments environment environmentFile repository later extractor withFile =
        (printed (reportOf analysis g (impactOf settings analysis disk g none)
          (if analysis.rebuild then g.diagnostics else g.diagnostics.filter (·.kind == .readError))), last) ∧
      ((∀ path, ¬ Analyzer.Vanished { root := some (rootOn settings disk) } g kept
          (analysis.changed.map fun path => { path }) path) →
        impactOf settings analysis disk g none = impactOf settings analysis disk g kept) := by
  obtain ⟨files, kept, answer, hran⟩ := loadOrBuild_eq_ok_iff.mp hrun
  obtain rfl : answer = true := by
    have hanswer := hran.saved
    rw [hsaved, EStateM.Result.ok.injEq] at hanswer
    exact hanswer.1.symm
  have hkept : Left extractor kept := by
    have hfound := hran.found
    rw [found] at hfound
    split at hfound
    · rw [← Except.ok.inj hfound]
      exact .nothing
    · exact hleft kept hfound
  obtain ⟨left, again, answer, last, hagain, hagrees, hagree, hdiagnostics⟩ :=
    hran.exists_second hkept huntouched hgraph hclean
  have hfirst := hran.runAnalysis_eq hchanged hkept.balanced hagree.left repository
  have hsecond := hagain.runAnalysis_eq hchanged (fun held hheld => (hagrees held hheld).right) hagree.right repository
  have himpact : impactOf settings analysis later again left = impactOf settings analysis disk g none := by
    rw [impactOf, huntouched.rootOn_eq]
    exact Analyzer.analyze_eq_of_agree hagree hagrees _ _
  rw [himpact, hdiagnostics, reportOf, Selection.plan_congr hagree.kindOf?] at hsecond
  refine ⟨kept, last, hran.found, run_of_runCommand hread hsettings hfirst,
    run_of_runCommand hread hsettings hsecond, fun hnone => ?_⟩
  exact Analyzer.analyze_eq_of_none_vanished hagree.left (fun earlier hearlier => hkept.balanced earlier hearlier) hnone

/-- The test is named after it has been removed.  The first analysis knows it from the graph that was kept, and the
second one does not. -/
theorem run_again_after_removal :
    ∃ cached kept g saved last, Left {} (some kept) ∧
      (withoutTest cached).loadGraph oneProject.graphPath = .ok (some kept) ∧
      run analysisArguments [] "" none (withoutTest cached) =
        (printed (reportOf testNamed g (impactOf oneProject testNamed (withoutTest cached) g (some kept))
          g.diagnostics), saved) ∧
      run analysisArguments [] "" none saved =
        (printed (reportOf testNamed g (impactOf oneProject testNamed (withoutTest cached) g none)
          (g.diagnostics.filter (·.kind == .readError))), last) := by
  obtain ⟨-, cached, kept, g, saved, -, -, -, -, hload, hleft, hran, -, huntouched, hfiles, -⟩ :=
    exists_runs_of_removal
  have hclean : ∀ path ∈ g.nodes, '\x00' ∉ (Reader.fullPath oneProject.projectRoot path).toList := by
    intro path hpath
    rw [← Table.mem_keys, hfiles, List.mem_singleton] at hpath
    subst hpath
    decide +kernel
  obtain ⟨found, last, hfound, hfirst, hsecond, -⟩ := run_again none read_analysisArguments
    (settingsFor_oneProject _ (.inr rfl)) (List.cons_ne_nil _ _)
    (fun found hfound => by rwa [← Except.ok.inj (hload.symm.trans hfound)]) hran.loadOrBuild_eq hran.saved
    huntouched rfl hclean
  obtain rfl := Except.ok.inj (hfound.symm.trans hran.found)
  exact ⟨cached, kept, g, saved, last, hleft, hload, hfirst, hsecond⟩

/-- These two runs differ in the tests that they select, in the diagnostics, and so in what they print.  The second
one selects the test that is not there any more. -/
theorem run_again_selects_removed_test :
    ∃ earlier cached g saved again last first second,
      run (globalArguments ++ ["stats"]) [] "" none oneTest = (earlier, cached) ∧ earlier.exitCode = 0 ∧
      run analysisArguments [] "" none (withoutTest cached) =
        (printed (reportOf testNamed g first g.diagnostics), saved) ∧
      Untouched oneProject g (withoutTest cached) saved ∧
      run analysisArguments [] "" none saved =
        (printed (reportOf testNamed again second again.diagnostics), last) ∧
      (first.tests.toList = [] ∧ second.tests.toList = ["t.test.ts"]) ∧
      (g.diagnostics.map (·.kind) = [.unresolved] ∧ again.diagnostics.map (·.kind) = []) ∧
      (printed (reportOf testNamed g first g.diagnostics)).output ≠
        (printed (reportOf testNamed again second again.diagnostics)).output := by
  obtain ⟨g₀, cached, kept, g, saved, left, again, last, hrun, hload, hleft, hran, hg, huntouched, -, hleft', hagain,
    hbalanced, htests, hdiagnostics, hprinted⟩ := exists_runs_of_removal
  have hread : Arguments.read (globalArguments ++ ["stats"]) = .ok ⟨oneProjectOptions, .stats⟩ := by
    decide +kernel
  have hstats : runCommand {} oneProject none .stats oneTest =
      .ok (.object [("stats", g₀.statistics.toJson)]) cached := by
    rw [runCommand, runStats, bind_of_eq_ok hrun]
    rfl
  have hnamed : testNamed.changed ≠ [] := List.cons_ne_nil _ _
  have hfirst := hran.runAnalysis_eq hnamed hleft.balanced hg none
  have hsecond := hagain.runAnalysis_eq hnamed hleft'.balanced hbalanced none
  refine ⟨_, cached, g, saved, again, last, _, _, run_of_runCommand hread (settingsFor_oneProject _ (.inl rfl)) hstats,
    rfl, run_of_runCommand read_analysisArguments (settingsFor_oneProject _ (.inr rfl)) hfirst, huntouched,
    run_of_runCommand read_analysisArguments (settingsFor_oneProject _ (.inr rfl)) hsecond, htests, hdiagnostics,
    fun hsame => hprinted ?_⟩
  have hlists := congrArg String.toList hsame
  simp only [printed, Json.print, String.toList_append, String.toList_ofList] at hlists
  exact List.append_cancel_right hlists

end ChangeImpact.CommandLine
