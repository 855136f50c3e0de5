import ChangeImpact.Change
import ChangeImpact.Graph.Consistency
import ChangeImpact.Reader
import ChangeImpact.Resolver
import ChangeImpact.Script.Extraction

/-!
# Building graphs

A graph is built from the files of a project in two passes.  First every file becomes a node.  Then
the files are scanned for the modules that they name, and the names are resolved to files.  Names can
only be resolved when all files are known, so whenever a file comes or goes all of them are resolved
anew.

A graph is kept up to date by the same passes over the files that have changed: after single changes
(`updateFile`, `removeFile`, `applyChanges`) or by comparing the times of the files (`refresh`).
Afterwards the graph is checked.
-/

namespace ChangeImpact

/-- The rules by which graphs are built. -/
structure Builder where
  root : Option Root := none
  extensions : List String := Resolver.defaultExtensions
  aliases : Aliases := []
  pool : ReaderPool := {}
  extractor : Script.Extractor := {}
  /-- Reads the files of which only the path is given. -/
  reader : Reader

/-- Files that are given to a builder. -/
inductive FileSet where
  | paths (paths : List String)
  | contents (contents : List (String × String))

/-- Why a step of building failed. -/
inductive BuildError where
  | graph (cause : GraphError)
  | resolver (fault : Resolver.Fault)
  | pool (fault : PoolFault)
  | disk (fault : DiskFault)
deriving DecidableEq, Repr

/-- How a failed step is reported. -/
def BuildError.message : BuildError → String
  | graph cause => cause.message
  | resolver fault => fault.message
  | pool fault => fault.message
  | disk fault => fault.message

/-- A step of building.  A failed step keeps the changes made before it failed. -/
abbrev BuildStep (α : Type) := EStateM BuildError Graph α

namespace Builder

/-- Makes a step on a graph a step of building. -/
def perform {α : Type} (step : GraphStep α) : BuildStep α := fun g =>
  match step g with
  | .ok value g => .ok value g
  | .error cause g => .error (.graph cause) g

/-- Takes a result, or fails with what it failed with. -/
def demand {ε α : Type} (wrap : ε → BuildError) : Except ε α → BuildStep α
  | .ok value => return value
  | .error fault => throw (wrap fault)

/-- The node of a path, which must be there. -/
def demandNode (path : String) : BuildStep FileNode := do
  match (← get).nodes.get? path with
  | some node => return node
  | none => throw (.graph (.missingEntry path))

/-! ## The files -/

/-- The key of a path. -/
def key (builder : Builder) (path : String) : String := Path.key builder.root path

/-- The texts of some files by their keys. -/
def keyedContents (builder : Builder) (contents : List (String × String)) : Table String :=
  .ofList (contents.map fun (path, content) => (builder.key path, content))

/-- The reader for some files. -/
def readerFor (builder : Builder) : FileSet → Reader
  | .paths _ => builder.reader
  | .contents contents => .ofTable (builder.keyedContents contents)

/-- The keys of some files. -/
def keysOf (builder : Builder) (files : FileSet) : PathSet :=
  let paths : List String := match files with
    | .paths paths => paths
    | .contents contents => contents.map fun entry => entry.1
  .ofList ((paths.map builder.key).filter (!·.isEmpty))

/-! ## Nodes -/

/-- Adds a node for a path, unless there is one, and sets its kind; tells whether it was added. -/
def ensureNode (path : String) : BuildStep Bool := do
  let kind := FileKind.ofPath path
  if (← get).hasNode path then
    modify (Graph.modifyNode path ({ · with kind }))
    return false
  perform (Graph.addNode path kind)
  return true

/-- Removes the node of a path together with what has been said about it; tells whether there was
one. -/
def dropNode (path : String) : BuildStep Bool := do
  match ← perform (Graph.removeNode path) with
  | none => return false
  | some _ =>
    modify fun g => { g with diagnostics := g.diagnostics.filter (·.path != path) }
    return true

/-! ## Scanning -/

/-- What scanning a file has found. -/
structure Scan where
  path : String
  specifiers : List String := []
  changed : Option Timestamp := none
  problem : Option Diagnostic := none

/-- The scan of a file that has been read. -/
def scanRead (builder : Builder) (path : String) (read : FileRead) : Scan :=
  match read.content with
  | .error fault =>
    { path, changed := read.changed, problem := some ⟨path, .readError, fault.message, none⟩ }
  | .ok content =>
    let result := builder.extractor.extract content path
    let problem : Option Diagnostic :=
      match result.strategy, result.reason with
      | .failed, reason => some ⟨path, .extractionFailed, reason.getD "", none⟩
      | .fallback, some reason =>
        if reason.isEmpty then none else some ⟨path, .parseFallback, reason, none⟩
      | _, _ => none
    { path, specifiers := result.specifiers, changed := read.changed, problem }

/-- Scans files that have nodes.  Assets are part of a graph but are not read. -/
def scanAll (builder : Builder) (pool : ReaderPool) (reader : Reader) (paths : List String) :
    BuildStep (List Scan) := do
  let nodes ← paths.mapM demandNode
  let scripts := ((paths.zip nodes).filter fun entry => entry.2.kind != .asset).map (·.1)
  let reads ← demand .pool (pool.readAll reader scripts)
  paths.mapM fun path => do
    match reads.get? path with
    | some read => return builder.scanRead path read
    | none => return { path, changed := ← demand .disk (reader.changed path) }

/-- A time as nodes carry it. -/
def timeJson : Option Timestamp → Json
  | some time => .float time.seconds
  | none => .null

/-- Writes a scan into its node. -/
def applyScan (g : Graph) (scan : Scan) : Graph :=
  let g := Graph.modifyNode scan.path ({ · with
    specifiers := scan.specifiers, lastModified := timeJson scan.changed }) g
  { g with diagnostics := g.diagnostics ++ scan.problem.toList }

/-- Writes scans, by increasing path, into their nodes.  They replace all that has been said about
their files before. -/
def applyScans (scans : List Scan) (g : Graph) : Graph :=
  scans.foldl applyScan
    { g with diagnostics := g.diagnostics.filter fun d => scans.all (·.path != d.path) }

/-! ## Linking -/

/-- What the names in a file lead to, up to the first one that cannot be resolved at all. -/
structure Links where
  targets : List String := []
  unresolved : List Diagnostic := []
  fault : Option Resolver.Fault := none

/-- The diagnostic for a name that leads to no file. -/
def unresolvedName (path specifier : String) : Diagnostic :=
  ⟨path, .unresolved, s!"No file found for '{specifier}'", some specifier⟩

/-- What names lead to in a file. -/
def links (resolver : Resolver) (path : String) : List String → Links
  | [] => {}
  | specifier :: rest =>
    match resolver.resolve specifier path with
    | .error fault => { fault := some fault }
    | .ok (some target) =>
      let later := links resolver path rest
      { later with targets := target :: later.targets }
    | .ok none =>
      let later := links resolver path rest
      if resolver.isExternal specifier then later
      else { later with unresolved := unresolvedName path specifier :: later.unresolved }

/-- Resolves the names in a file and replaces its edges. -/
def link (resolver : Resolver) (path : String) : BuildStep Unit := do
  let node ← demandNode path
  let found := links resolver path node.specifiers
  modify fun g => { g with diagnostics := g.diagnostics ++ found.unresolved }
  match found.fault with
  | some fault => throw (.resolver fault)
  | none => perform (Graph.setDependencies path found.targets)

/-- Forgets which names in a file lead nowhere. -/
def forgetUnresolved (path : String) (g : Graph) : Graph :=
  { g with
    diagnostics := g.diagnostics.filter fun d => !(d.path == path && d.kind == .unresolved) }

/-- The resolver for the files of a graph. -/
def resolverFor (builder : Builder) (g : Graph) : Resolver :=
  .ofFiles g.nodes.keys builder.extensions builder.aliases

/-- Links all files. -/
def linkAll (builder : Builder) : BuildStep Unit := do
  modify fun g => { g with diagnostics := g.diagnostics.filter (·.kind != .unresolved) }
  let g ← get
  let resolver := builder.resolverFor g
  (g.nodes.keys.mergeSort (· ≤ ·)).forM (link resolver)

/-- Links some files, the others stay as they are. -/
def linkSome (builder : Builder) (paths : List String) : BuildStep Unit := do
  let resolver := builder.resolverFor (← get)
  paths.forM fun path => do
    modify (forgetUnresolved path)
    link resolver path

/-- Links all files if files have come or gone, and otherwise those that have been scanned. -/
def relink (builder : Builder) (all : Bool) (scanned : List String) : BuildStep Unit :=
  if all then builder.linkAll else builder.linkSome scanned

/-- Checks the graph. -/
def check : BuildStep Unit := perform Graph.checkStep

/-! ## Building and updating -/

/-- Builds a graph of files on an empty one. -/
def buildSteps (builder : Builder) (files : FileSet) : BuildStep Unit := do
  let paths := (builder.keysOf files).toList
  paths.forM fun path => perform (Graph.addNode path (FileKind.ofPath path))
  let scans ← builder.scanAll builder.pool (builder.readerFor files) paths
  modify (applyScans scans)
  builder.linkAll
  check

/-- The graph of files. -/
def build (builder : Builder) (files : FileSet) : Except BuildError Graph :=
  match builder.buildSteps files ∅ with
  | .ok _ g => .ok g
  | .error e _ => .error e

/-- Scans a single file anew, with a given text or with the one that is read. -/
def updateFile (builder : Builder) (path : String) (content : Option String := none) :
    BuildStep Unit := do
  let path := builder.key path
  if path.isEmpty then return ()
  let added ← ensureNode path
  let scans ← match content with
    | none => builder.scanAll builder.pool builder.reader [path]
    | some content => builder.scanAll { workers := some 1 } (.ofText content) [path]
  modify (applyScans scans)
  builder.relink added [path]
  check

/-- Removes a file that has been deleted; tells whether it had a node. -/
def removeFile (builder : Builder) (path : String) : BuildStep Bool := do
  if !(← dropNode (builder.key path)) then return false
  builder.linkAll
  check
  return true

/-- Takes a change into the nodes: tells whether files have come or gone, and which file has to be
scanned. -/
def applyChange (builder : Builder) (change : Change) : BuildStep (Bool × Option String) := do
  let path := builder.key change.path
  match change.operation with
  | .deleted => return (← dropNode path, none)
  | operation =>
    let dropped ← match operation, change.formerPath? with
      | .renamed, some former => dropNode (builder.key former)
      | _, _ => pure false
    if path.isEmpty then return (dropped, none)
    let added ← ensureNode path
    return (dropped || added, some path)

/-- Brings a graph up to date with changes: new and modified files are scanned, deleted ones are
removed, and a renamed file is both. -/
def applyChanges (builder : Builder) (changes : List Change) : BuildStep Unit := do
  let outcomes ← changes.mapM builder.applyChange
  let paths := (PathSet.ofList (outcomes.filterMap (·.2))).toList
  let scans ← builder.scanAll builder.pool builder.reader paths
  modify (applyScans scans)
  builder.relink (outcomes.any (·.1)) paths
  check

/-- Whether a file has to be scanned again, by the time its node carries and the time it has now. -/
def isStale (recorded : Json) (current : Option Timestamp) : Bool :=
  match recorded, current with
  | .null, _ | _, none => true
  | recorded, current => !recorded.same (timeJson current)

/-- Brings a graph up to date with the files that there are now.  Files that are gone are removed, new
ones are added, and of the others those are scanned that have changed or may have changed. -/
def refresh (builder : Builder) (files : FileSet) : BuildStep Unit := do
  let reader := builder.readerFor files
  let wanted := builder.keysOf files
  let removed := ((← get).nodes.keys.mergeSort (· ≤ ·)).filter (!wanted.contains ·)
  removed.forM fun path => do
    let _ ← dropNode path
  let added ← wanted.toList.filterM ensureNode
  let stale ← wanted.toList.filterM fun path => do
    if added.contains path then return true
    let node ← demandNode path
    return isStale node.lastModified (← demand .disk (reader.changed path))
  let scans ← builder.scanAll builder.pool reader stale
  modify (applyScans scans)
  builder.relink (!removed.isEmpty || !added.isEmpty) stale
  check

end Builder
end ChangeImpact
