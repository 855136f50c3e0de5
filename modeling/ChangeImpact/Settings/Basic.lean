import ChangeImpact.Number.Integer
import ChangeImpact.Resolver
import ChangeImpact.Settings.EnvironmentFile
import ChangeImpact.Text.Lines

/-!
# Settings

Where the project is, where its graph is kept, which files are scanned and how module names are
resolved.  Settings come from variables of the environment and of an environment file, which is read
by whatever `EnvironmentFile.Reader` is at hand.
-/

namespace ChangeImpact

/-- The settings of a run. -/
structure Settings where
  projectRoot : String := "."
  graphFile : String := ".testimpact/graph.json"
  baseBranch : String := "main"
  maxWorkers : Option Int := none
  includeExtensions : List String := [".ts", ".tsx", ".js", ".jsx", ".mjs", ".cjs", ".json"]
  resolveExtensions : List String := Resolver.defaultExtensions
  pathAliases : Aliases := []
deriving Inhabited

namespace Settings

/-- The path of the graph file, below the project root unless it is absolute. -/
def graphPath (settings : Settings) : String :=
  let file := settings.graphFile.toList
  if Path.isAbsolute file then settings.graphFile
  else String.ofList (Path.join settings.projectRoot.toList file)

/-- The entries of a list with commas between them, without blanks around them. -/
def entries (value : List Char) : List (List Char) :=
  ((value.splitOn ',').map Text.strip).filter (!·.isEmpty)

/-- A list of extensions; a dot is put in front of those that have none. -/
def extensionList (value : String) : List String :=
  (entries value.toList).map fun entry =>
    String.ofList (if entry.head? == some '.' then entry else '.' :: entry)

/-- Aliases written as `start=directory` with commas between them.  An entry without an equals sign is
ignored; of two entries with the same start the second one counts, in the place of the first. -/
def parseAliases (value : String) : Aliases :=
  (entries value.toList).foldl
    (fun aliases entry =>
      match entry.span (· != '=') with
      | (start, _ :: target) =>
        EnvironmentFile.assign aliases (String.ofList (Text.strip start))
          (String.ofList (Text.strip target))
      | (_, []) => aliases) []

/-- The start of the names of all variables that give settings. -/
def variableStart : String := "TESTIMPACT_"

/-- The names of the variables that give settings, without their common start. -/
def variableNames : List String :=
  ["ROOT", "GRAPH_FILE", "BASE_BRANCH", "MAX_WORKERS", "INCLUDE", "RESOLVE_EXTENSIONS",
    "PATH_ALIASES"]

/-- The settings that variables give. -/
def ofVariables (environment : EnvironmentFile.Environment) : Settings :=
  let value? (name : String) : Option String := environment.lookup (variableStart ++ name)
  let filled? (name : String) : Option String := (value? name).filter (!·.isEmpty)
  let default : Settings := {}
  { projectRoot := (value? "ROOT").getD default.projectRoot
    graphFile := (value? "GRAPH_FILE").getD default.graphFile
    baseBranch := (value? "BASE_BRANCH").getD default.baseBranch
    maxWorkers := ((filled? "MAX_WORKERS").bind readInteger?).map (max 1)
    includeExtensions :=
      ((filled? "INCLUDE").map extensionList).getD default.includeExtensions
    resolveExtensions :=
      ((filled? "RESOLVE_EXTENSIONS").map extensionList).getD default.resolveExtensions
    pathAliases := ((filled? "PATH_ALIASES").map parseAliases).getD [] }

/-- The settings of an environment and the text of an environment file. -/
def load (environment : EnvironmentFile.Environment) (file : String)
    (withFile : EnvironmentFile.Reader := EnvironmentFile.withFile) : Settings :=
  ofVariables (withFile environment (Text.unifyLines file.toList))

end Settings
end ChangeImpact
