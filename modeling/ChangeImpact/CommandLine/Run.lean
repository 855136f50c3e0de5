import ChangeImpact.Builder
import ChangeImpact.CommandLine.Arguments
import ChangeImpact.Disk.Listing
import ChangeImpact.Graph.Statistics
import ChangeImpact.GraphFile
import ChangeImpact.Repository
import ChangeImpact.Selection
import ChangeImpact.Settings.Basic

/-!
# Running the program

Every command works on a graph of the project that is up to date.  If a graph was kept from the run
before it is refreshed, otherwise the graph is built; then it is kept for the next run.  A graph that
cannot be saved is reported all the same.

An analysis also looks at the graph as it was kept, because deleted files and their importers are only
found there.

What the program takes from others is handed to it: the repository, the parser in the `Extractor`, and
the reader of environment files.

A graph file may have been written by something else, with values for paths that are no texts.  What a
run does with such a graph is left out: it ends with the fault that a value is foreign.
-/

namespace ChangeImpact.CommandLine

/-- What a run leaves behind beside the disk: an exit code and what it has printed. -/
structure Outcome where
  exitCode : Nat
  output : String := ""
  errors : String := ""
deriving DecidableEq, Repr, Inhabited

/-- Why a command failed. -/
inductive RunError where
  | detection (fault : DetectionFault)
  | graphFile (fault : GraphFileFault)
  | graph (cause : GraphError)
  | build (cause : BuildError)
  | disk (fault : DiskFault)

/-- How the failure is reported, where it has a text of its own. -/
def RunError.message? : RunError → Option String
  | detection fault => fault.message?
  | graphFile fault => fault.message?
  | graph cause => some cause.message
  | build cause => some cause.message
  | disk fault => some fault.message

/-- A command at work on a disk. -/
abbrev RunStep (α : Type) := EStateM RunError Disk α

/-- Takes a result, or fails with what it failed with. -/
def demand {ε α : Type} (wrap : ε → RunError) : Except ε α → RunStep α
  | .ok value => return value
  | .error fault => throw (wrap fault)

/-- Makes a step on the disk a step of a command. -/
def onDisk {α : Type} (step : DiskStep α) : RunStep α := fun disk =>
  match step disk with
  | .ok value disk => .ok value disk
  | .error fault disk => .error (.disk fault) disk

/-! ## Settings -/

/-- The settings, as far as options do not say otherwise.  Empty texts and zero say nothing. -/
def withOptions (settings : Settings) (arguments : Arguments) : Settings :=
  let filled (text : Option String) := text.filter fun text => !text.isEmpty
  let options := arguments.options
  let base := match arguments.command with
    | .analyze analysis => filled analysis.base
    | .build | .stats => none
  { settings with
    projectRoot := (filled options.root).getD settings.projectRoot
    graphFile := (filled options.graphFile).getD settings.graphFile
    maxWorkers := (options.workers.filter (· ≠ 0)).or settings.maxWorkers
    pathAliases := (Settings.parseAliases (",".intercalate options.aliases)).foldl
      (fun aliases (start, target) => EnvironmentFile.assign aliases start target)
      settings.pathAliases
    baseBranch := base.getD settings.baseBranch }

/-- The root of the project on a disk. -/
def rootOn (settings : Settings) (disk : Disk) : Root :=
  ⟨settings.projectRoot, disk.workingDirectory⟩

/-- The builder that settings ask for. -/
def builderOn (extractor : Script.Extractor) (settings : Settings) (disk : Disk) : Builder where
  root := some (rootOn settings disk)
  extensions := settings.resolveExtensions
  aliases := settings.pathAliases
  pool := { workers := settings.maxWorkers }
  reader := .ofDisk disk settings.projectRoot
  extractor := extractor

/-! ## The graph of a project -/

/-- The files of the project, without the file in which its graph is kept. -/
def projectFiles (settings : Settings) (disk : Disk) : Except DiskFault (List String) := do
  let files ← disk.listing settings.projectRoot settings.includeExtensions
  let graphFile := Path.key (some (rootOn settings disk)) settings.graphPath
  return files.filter (· != graphFile)

/-- The graph that was kept. -/
def keptGraph (settings : Settings) : RunStep (Option Graph) := do
  demand .graphFile ((← get).loadGraph settings.graphPath)

/-- The graph of files on a disk, made from a kept one if there is one. -/
def currentGraph (extractor : Script.Extractor) (settings : Settings) (disk : Disk)
    (kept : Option Graph) (files : List String) : Except BuildError Graph :=
  let builder := builderOn extractor settings disk
  match kept with
  | none => builder.build (.paths files)
  | some g =>
    match builder.refresh (.paths files) g with
    | .ok _ g => .ok g
    | .error cause _ => .error cause

/-- The graph of the project, up to date.  A kept graph is looked for if none is given and it is not
to be rebuilt.  Whether the graph can be kept for the next run makes no difference. -/
def loadOrBuild (extractor : Script.Extractor) (settings : Settings) (rebuild : Bool)
    (kept : Option Graph := none) : RunStep Graph := do
  let files ← demand .disk (projectFiles settings (← get))
  let kept ← if kept.isNone && !rebuild then keptGraph settings else pure kept
  let g ← demand .build (currentGraph extractor settings (← get) kept files)
  let _ ← onDisk (Disk.saveGraph settings.graphPath g)
  return g

/-! ## Commands -/

/-- The changes that an analysis looks at. -/
def collectChanges (settings : Settings) (options : AnalysisOptions)
    (repository : Option Repository) : RunStep (List Change) := do
  if !options.changed.isEmpty then return options.changed.map fun path => { path }
  demand .detection
    (Repository.changes repository (rootOn settings (← get)) settings.baseBranch
      !options.committedOnly)

/-- A diagnostic in a report. -/
def diagnosticJson (d : Diagnostic) : Json :=
  .object
    [("path", .string d.path), ("kind", .string d.kind.name), ("message", .string d.message),
      ("specifier", (d.specifier.map Json.string).getD .null)]

/-- Builds the graph anew. -/
def runBuild (extractor : Script.Extractor) (settings : Settings) : RunStep Json := do
  let g ← loadOrBuild extractor settings true
  return .object
    [("graph_file", .string settings.graphPath), ("stats", g.statistics.toJson),
      ("diagnostics", .int g.diagnostics.length)]

/-- Counts what is in the graph. -/
def runStats (extractor : Script.Extractor) (settings : Settings) : RunStep Json := do
  let g ← loadOrBuild extractor settings false
  return .object [("stats", g.statistics.toJson)]

/-- Analyzes the impact of changes and selects the tests to run. -/
def runAnalysis (extractor : Script.Extractor) (settings : Settings) (options : AnalysisOptions)
    (repository : Option Repository) : RunStep Json := do
  let changes ← collectChanges settings options repository
  let kept ← if options.rebuild then pure none else keptGraph settings
  let before ← match kept with
    | none => pure none
    | some kept => do pure (some (← demand .graph kept.copy))
  let g ← loadOrBuild extractor settings options.rebuild kept
  let analyzer : Analyzer := { root := some (rootOn settings (← get)) }
  let impact := analyzer.analyze g changes before
  let report := [("impact", impact.toJson), ("plan", (Selection.plan g impact options.full).toJson)]
  let diagnostics :=
    if options.diagnostics then [("diagnostics", Json.array (g.diagnostics.map diagnosticJson))]
    else []
  return .object (report ++ diagnostics)

/-- Carries out a command. -/
def runCommand (extractor : Script.Extractor) (settings : Settings)
    (repository : Option Repository) : Command → RunStep Json
  | .build => runBuild extractor settings
  | .stats => runStats extractor settings
  | .analyze options => runAnalysis extractor settings options repository

/-- How the program is called. -/
def usage : String :=
  s!"usage: {programName} [--root DIR] [--graph-file FILE] [--workers N] [--alias START=DIR] COMMAND\n"
    ++ "commands: build, stats,\n"
    ++ "  analyze [--changed FILE ...] [--base BRANCH] [--committed-only] [--full] [--rebuild]\n"
    ++ "    [--diagnostics]\n"

/-- The settings for a run with given arguments, in an environment and with an environment file. -/
def settingsFor (arguments : Arguments) (environment : EnvironmentFile.Environment)
    (environmentFile : String)
    (withFile : EnvironmentFile.Reader := EnvironmentFile.withFile) : Settings :=
  withOptions (Settings.load environment environmentFile withFile) arguments

/-- Runs the program with its arguments in an environment.  Faulty arguments end it with code two, a
failed command with code one. -/
def run (arguments : List String) (environment : EnvironmentFile.Environment)
    (environmentFile : String) (repository : Option Repository) (disk : Disk)
    (extractor : Script.Extractor := {})
    (withFile : EnvironmentFile.Reader := EnvironmentFile.withFile) : Outcome × Disk :=
  match Arguments.read arguments with
  | .error ⟨_, .help⟩ => ({ exitCode := 0, output := usage }, disk)
  | .error error => ({ exitCode := 2, errors := error.message ++ "\n" }, disk)
  | .ok arguments =>
    let settings := settingsFor arguments environment environmentFile withFile
    match runCommand extractor settings repository arguments.command disk with
    | .ok report disk => ({ exitCode := 0, output := Json.print report ++ "\n" }, disk)
    | .error cause disk =>
      ({ exitCode := 1, errors := "Error: " ++ cause.message?.getD "" ++ "\n" }, disk)

end ChangeImpact.CommandLine
