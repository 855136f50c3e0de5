import ChangeImpact.CommandLine.Options
import ChangeImpact.Number.Integer

/-!
# The arguments of the program

Options that hold for every command come first, then the command, then the options of the command.
-/

namespace ChangeImpact.CommandLine

/-- What holds for every command; what is not given is left to the settings. -/
structure GlobalOptions where
  root : Option String := none
  graphFile : Option String := none
  workers : Option Int := none
  aliases : List String := []
deriving DecidableEq, Repr, Inhabited

/-- What an analysis looks at and what it reports. -/
structure AnalysisOptions where
  /-- The changed files; the repository is asked if none are given. -/
  changed : List String := []
  base : Option String := none
  committedOnly : Bool := false
  full : Bool := false
  rebuild : Bool := false
  diagnostics : Bool := false
deriving DecidableEq, Repr, Inhabited

/-- What the program is asked to do. -/
inductive Command where
  | build
  | stats
  | analyze (options : AnalysisOptions)
deriving DecidableEq, Repr, Inhabited

/-- The arguments of the program. -/
structure Arguments where
  options : GlobalOptions
  command : Command
deriving DecidableEq, Repr, Inhabited

/-- The name of the program. -/
def programName : String := "testimpact"

/-- A fault, and the program or command that reports it. -/
structure UsageError where
  program : String
  fault : UsageFault
deriving DecidableEq, Repr

/-- How the fault is reported. -/
def UsageError.message (error : UsageError) : String :=
  s!"{error.program}: error: {error.fault.message}"

/-- Sets the number of workers, which has to be an integer. -/
def workersOption : OptionSpec GlobalOptions where
  names := ["--workers"]
  arity := .one
  collect values options := values.foldlM (fun options value =>
    match readInteger? value with
    | some workers => .ok { options with workers := some workers }
    | none => .error (.invalidInteger "--workers" value)) options

/-- The options that hold for every command. -/
def globalSpecs : List (OptionSpec GlobalOptions) :=
  [.help,
    .one ["--root"] fun root options => { options with root := some root },
    .one ["--graph-file"] fun file options => { options with graphFile := some file },
    workersOption,
    .one ["--alias"] fun entry options => { options with aliases := options.aliases ++ [entry] },
    .flag ["--verbose", "-v"] id]

/-- The options of an analysis. -/
def analysisSpecs : List (OptionSpec AnalysisOptions) :=
  [.help,
    .several ["--changed"] fun changed options => { options with changed },
    .one ["--base"] fun base options => { options with base := some base },
    .flag ["--committed-only"] fun options => { options with committedOnly := true },
    .flag ["--full"] fun options => { options with full := true },
    .flag ["--rebuild"] fun options => { options with rebuild := true },
    .flag ["--diagnostics"] fun options => { options with diagnostics := true }]

/-- The names of the commands. -/
def commandNames : List String := ["build", "stats", "analyze"]

/-- Reads the options of a command. -/
def readCommandOptions {α : Type} (specs : List (OptionSpec α)) (command : String)
    (arguments : List String) (start : α) : Except UsageError (Reading α) :=
  let reading := do read specs false (← words specs arguments) start
  reading.mapError fun fault => ⟨s!"{programName} {command}", fault⟩

/-- Reads a command with its options. -/
def readCommand (command : String) (arguments : List String) :
    Except UsageError (Reading Command) :=
  match command with
  | "build" => do
    let reading ← readCommandOptions [.help] command arguments ()
    return { collected := .build, leftOver := reading.leftOver }
  | "stats" => do
    let reading ← readCommandOptions [.help] command arguments ()
    return { collected := .stats, leftOver := reading.leftOver }
  | "analyze" => do
    let reading ← readCommandOptions analysisSpecs command arguments {}
    return { collected := .analyze reading.collected, leftOver := reading.leftOver }
  | _ => .error ⟨programName, .unknownCommand "command" command commandNames⟩

/-- Reads the arguments of the program. -/
def Arguments.read (arguments : List String) : Except UsageError Arguments := do
  let report (fault : UsageFault) : UsageError := ⟨programName, fault⟩
  let words ← (words globalSpecs arguments).mapError report
  let globals ← (CommandLine.read globalSpecs true words {}).mapError report
  match globals.rest with
  | [] | ["--"] => throw (report (.noCommand "command"))
  | command :: rest =>
    let reading ← readCommand command rest
    let leftOver := globals.leftOver ++ reading.leftOver
    if !leftOver.isEmpty then throw (report (.unrecognized leftOver))
    return ⟨globals.collected, reading.collected⟩

end ChangeImpact.CommandLine
