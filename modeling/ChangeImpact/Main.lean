import ChangeImpact.CommandLine.Run
import ChangeImpact.Disk.Inventory

/-!
# The program

The files of the project are named on the standard input, one in each line: the time of the last
change in seconds, a blank, and the path.  They are read, together with the graph that was kept, the
command is run on them, and the new graph is written next to the old one and then put into its place.

No repository is looked at.  The changed files of an analysis are named as arguments.
-/

open ChangeImpact

/-- All lines that are left on an input. -/
partial def remainingLines (input : IO.FS.Stream) : IO (List String) := do
  let line ← input.getLine
  if line.isEmpty then return [] else return line :: (← remainingLines input)

/-- The bytes of a file, if it can be read. -/
def readBytes? (path : String) : IO (Option (List UInt8)) := do
  try return some (← IO.FS.readBinFile path).toList
  catch _ => return none

/-- The variables of the environment that give settings. -/
def settingsEnvironment : IO EnvironmentFile.Environment := do
  let names := Settings.variableNames.map (Settings.variableStart ++ ·)
  names.filterMapM fun name => return (← IO.getEnv name).map fun value => (name, value)

/-- The disk with the files of an inventory and the graph that was kept. -/
def stockedDisk (settings : Settings) (inventory : List InventoryEntry) : IO Disk := do
  let start : Disk := { workingDirectory := (← IO.getEnv "PWD").getD "/" }
  let stocked ← inventory.foldlM (fun disk entry => do
    match ← readBytes? entry.path with
    | some bytes => return disk.stock entry.path bytes entry.changed
    | none => return disk) (start.stockDirectory settings.projectRoot)
  match ← readBytes? settings.graphPath with
  | some bytes => return stocked.stock settings.graphPath bytes default
  | none => return stocked

/-- Puts the graph of a disk into the place of the graph that was kept. -/
def storeGraph (settings : Settings) (before after : Disk) : IO Unit := do
  match before.bytes settings.graphPath, after.bytes settings.graphPath with
  | .ok kept, .ok bytes => if kept ≠ bytes then replace bytes
  | .error _, .ok bytes => replace bytes
  | _, .error _ => return ()
where
  /-- Writes the bytes under another name first. -/
  replace (bytes : List UInt8) : IO Unit := do
    let path := settings.graphPath
    let temporary := path ++ ".tmp"
    IO.FS.createDirAll (String.ofList (Path.parent path.toList))
    IO.FS.writeBinFile temporary ⟨bytes.toArray⟩
    IO.FS.rename temporary path

/-- Runs the program and gives its exit code.  Faulty arguments are reported before anything is
read. -/
def main (arguments : List String) : IO UInt32 := do
  let environment ← settingsEnvironment
  let file := ((← readBytes? ".env").bind fun bytes => (Text.Utf8.decode bytes).toOption).getD []
  let environmentFile := String.ofList file
  let settings? := (CommandLine.Arguments.read arguments).toOption.map fun arguments =>
    CommandLine.settingsFor arguments environment environmentFile
  let before ← match settings? with
    | none => pure {}
    | some settings => do
      let listing ← remainingLines (← IO.getStdin)
      stockedDisk settings (readInventory (String.join listing))
  let (outcome, after) := CommandLine.run arguments environment environmentFile none before
  if let some settings := settings? then storeGraph settings before after
  IO.print outcome.output
  IO.eprint outcome.errors
  return outcome.exitCode.toUInt32
