import ChangeImpact.Disk.Basic

/-!
# Inventories

An inventory names files, one in each line: the time of the file's last change in seconds, a blank,
and the path of the file.
-/

namespace ChangeImpact

/-- The value of decimal digits; other characters count as zero. -/
private def digitsAsNumber (digits : List Char) : Nat :=
  digits.foldl (fun number digit => 10 * number + (digit.toNat - '0'.toNat)) 0

/-- A time in seconds, written with digits and perhaps a point.  What is left below a nanosecond is
dropped. -/
def Timestamp.ofText? (text : List Char) : Option Timestamp :=
  let (whole, rest) := text.span (· != '.')
  let fraction := ((rest.drop 1) ++ List.replicate 9 '0').take 9
  if whole.isEmpty || !(whole ++ fraction).all Char.isDigit then none
  else some ⟨digitsAsNumber whole * Timestamp.perSecond + digitsAsNumber fraction⟩

/-- A file that an inventory names. -/
structure InventoryEntry where
  path : String
  changed : Timestamp
deriving DecidableEq, Repr, Inhabited

/-- Reads a line of an inventory. -/
def InventoryEntry.ofLine? (line : List Char) : Option InventoryEntry :=
  let (time, rest) := line.span (· != ' ')
  (Timestamp.ofText? time).map fun changed => ⟨String.ofList (rest.drop 1), changed⟩

/-- Reads an inventory.  Lines that are no entries are left out. -/
def readInventory (text : String) : List InventoryEntry :=
  (text.toList.splitOn '\n').filterMap InventoryEntry.ofLine?

/-- Puts a file with its time where a path leads to, and makes the directories on the way. -/
def Disk.stock (disk : Disk) (path : String) (bytes : List UInt8) (changed : Timestamp) : Disk :=
  let place := (Path.segments (Path.join disk.workingDirectory.toList path.toList)).map String.ofList
  { disk with tree := disk.tree.plant place (.file bytes changed) }

/-- Makes a directory where a path leads to, and all that are missing above it. -/
def Disk.stockDirectory (disk : Disk) (path : String) : Disk :=
  let place := (Path.segments (Path.join disk.workingDirectory.toList path.toList)).map String.ofList
  if disk.tree.hasDirectory place then disk
  else { disk with tree := disk.tree.plant place .empty }

end ChangeImpact
