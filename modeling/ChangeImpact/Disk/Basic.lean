import ChangeImpact.Disk.Tree
import ChangeImpact.Path.Tidy
import ChangeImpact.Text.Quoted

/-!
# Disks

A disk is a file tree with a working directory, from which relative paths start, and a clock.  Every
file that is written takes the time of the clock, and the clock goes on.

A path leads to a place in the tree by its segments, one after another.  Every directory that it
passes must be there, so `a/../b` leads nowhere if there is no directory `a`.  As the tree has no
symbolic links, `..` always leads to the directory that was passed before.
-/

namespace ChangeImpact

/-- A file tree with a working directory and a clock. -/
structure Disk where
  tree : FileTree := .empty
  workingDirectory : String := "/"
  clock : Timestamp := .ofWholeSeconds 2000000000
deriving Inhabited

/-- Why a disk refuses an operation. -/
inductive DiskCause where
  | missing | alreadyThere | notDirectory | isDirectory
deriving DecidableEq, Repr

/-- The number of a cause. -/
def DiskCause.number : DiskCause → Nat
  | missing => 2
  | alreadyThere => 17
  | notDirectory => 20
  | isDirectory => 21

/-- How a cause is called. -/
def DiskCause.message : DiskCause → String
  | missing => "No such file or directory"
  | alreadyThere => "File exists"
  | notDirectory => "Not a directory"
  | isDirectory => "Is a directory"

/-- What is wrong with an operation on a disk. -/
inductive DiskFault where
  /-- The disk refuses it for the given path. -/
  | refused (cause : DiskCause) (path : String)
  /-- A path holds a null character, which no disk takes. -/
  | nullCharacter
deriving DecidableEq, Repr

/-- How a fault is reported. -/
def DiskFault.message : DiskFault → String
  | refused cause path => s!"[Errno {cause.number}] {cause.message}: " ++ Text.quoted path
  | nullCharacter => Path.nullCharacterMessage

/-- An operation that changes a disk.  A failed operation keeps the changes made before it failed. -/
abbrev DiskStep (α : Type) := EStateM DiskFault Disk α

namespace Disk

/-! ## Finding places -/

/-- The place where the segments of a path lead to, starting from a place; both are written from the
innermost name outwards. -/
def follow (tree : FileTree) (walked : List String) :
    List Path.Segment → Except DiskCause (List String)
  | [] => .ok walked
  | segment :: rest =>
    match tree.at? walked.reverse with
    | none => .error .missing
    | some (.file ..) => .error .notDirectory
    | some (.directory _) =>
      if segment = [] ∨ segment = Path.here then follow tree walked rest
      else if segment = Path.above then follow tree walked.tail rest
      else follow tree (String.ofList segment :: walked) rest

/-- The place where a path leads to, if all directories on the way are there. -/
def locate (disk : Disk) (path : String) : Except DiskFault (List String) :=
  let text := path.toList
  if text.contains '\x00' then .error .nullCharacter
  else if text.isEmpty then .error (.refused .missing path)
  else
    match follow disk.tree [] ((Path.join disk.workingDirectory.toList text).splitOn '/') with
    | .ok walked => .ok walked.reverse
    | .error cause => .error (.refused cause path)

/-- What is where a path leads to. -/
def find (disk : Disk) (path : String) : Except DiskFault FileTree := do
  match disk.tree.at? (← disk.locate path) with
  | some found => return found
  | none => throw (.refused .missing path)

/-- Whether something is where a path leads to. -/
def has (disk : Disk) (path : String) : Bool :=
  (disk.find path).toOption.isSome

/-- Whether a path leads to a directory. -/
def isDirectory (disk : Disk) (path : String) : Bool :=
  (disk.find path).toOption.any FileTree.isDirectory

/-! ## Reading -/

/-- The bytes of a file. -/
def bytes (disk : Disk) (path : String) : Except DiskFault (List UInt8) := do
  match ← disk.find path with
  | .file bytes _ => return bytes
  | .directory _ => throw (.refused .isDirectory path)

/-- When what is where a path leads to was last changed.  Directories change all the time. -/
def changed (disk : Disk) (path : String) : Except DiskFault Timestamp := do
  match ← disk.find path with
  | .file _ time => return time
  | .directory _ => return disk.clock

/-! ## Changing -/

/-- Puts a file at a place, with the time of the clock, and puts the clock forward. -/
def putFile (disk : Disk) (place : List String) (bytes : List UInt8) : Disk :=
  { disk with
    tree := disk.tree.plant place (.file bytes disk.clock)
    clock := ⟨disk.clock.nanoseconds + Timestamp.perSecond⟩ }

/-- Makes an empty directory. -/
def makeDirectory (path : String) : DiskStep Unit := do
  let disk ← get
  match disk.locate path with
  | .error fault => throw fault
  | .ok place =>
    if (disk.tree.at? place).isSome then throw (.refused .alreadyThere path)
    set { disk with tree := disk.tree.plant place .empty }

/-- Makes a directory, unless it is there. -/
def ensureDirectory (path : String) : DiskStep Unit := fun disk =>
  match makeDirectory path disk with
  | .ok _ disk => .ok () disk
  | .error (.refused cause _) disk =>
    if cause ≠ .missing ∧ disk.isDirectory path then .ok () disk
    else .error (.refused cause path) disk
  | .error fault disk => .error fault disk

/-- Makes the first of some directories, each of which is directly below the next.  Those above it are
made only if it is needed. -/
def ensureAll : List String → DiskStep Unit
  | [] => return ()
  | path :: above => fun disk =>
    match makeDirectory path disk, above with
    | .error (.refused .missing _) disk, _ :: _ => (do ensureAll above; ensureDirectory path) disk
    | _, _ => ensureDirectory path disk

/-- Makes a directory and all that are missing above it. -/
def makeDirectories (path : String) : DiskStep Unit :=
  ensureAll ((Path.ancestry path.toList).map String.ofList)

/-- Removes a file. -/
def removeFile (path : String) : DiskStep Unit := do
  let disk ← get
  match disk.locate path with
  | .error fault => throw fault
  | .ok place =>
    match disk.tree.at? place with
    | none => throw (.refused .missing path)
    | some (.directory _) => throw (.refused .isDirectory path)
    | some (.file ..) => set { disk with tree := disk.tree.uproot place }

end Disk
end ChangeImpact
