import ChangeImpact.Disk.Basic
import ChangeImpact.Text.Utf8

/-!
# Atomic writes

A file is written next to the place where it belongs, under a temporary name, and then takes that
place in a single step.  Whoever looks at the place finds the old file or the new one and never a part
of it.

The write is a list of steps.  In the place of any of them, or after the last one, an incident may happen:
the disk reports an error, the writer fails in another way, or it stops altogether.  A writer that has not
stopped takes the temporary file away then, and in the place of that an incident may happen once more.
`WriteRun` holds every state of the disk on the way, so that statements can be made about all of them.
-/

namespace ChangeImpact

/-- A step of an atomic write. -/
inductive WriteStep where
  | createTemporary
  | append (piece : List UInt8)
  | synchronize
  | replaceTarget
deriving DecidableEq, Repr

/-- What may happen in the place of a step. -/
inductive Incident where
  /-- The disk reports an error. -/
  | refusal (cause : DiskCause)
  /-- The writer fails for another reason. -/
  | failure
  /-- The writer stops and does nothing any more. -/
  | halt
deriving DecidableEq, Repr

/-- How an atomic write ended. -/
inductive WriteEnd where
  | completed
  | refused (cause : DiskCause)
  | failed
  | halted
deriving DecidableEq, Repr, Inhabited

/-- The states of the disk after each step that was done, the last state, and how the write ended. -/
structure WriteRun where
  passed : List Disk
  last : Disk
  ending : WriteEnd
deriving Inhabited

/-- What is written, and the places of the file and of the temporary one. -/
structure AtomicWrite where
  path : String
  target : List String
  temporary : List String
  pieces : List (List UInt8)
deriving Inhabited

namespace AtomicWrite

/-- The steps of a write. -/
def steps (write : AtomicWrite) : List WriteStep :=
  .createTemporary :: write.pieces.map .append ++ [.synchronize, .replaceTarget]

/-- A step on a disk.  The place of a path with a null character cannot be taken. -/
def perform (write : AtomicWrite) (disk : Disk) : WriteStep → Except Incident Disk
  | .createTemporary =>
    if disk.tree.hasDirectory write.temporary.dropLast then .ok (disk.putFile write.temporary [])
    else .error (.refusal .missing)
  | .append piece =>
    match disk.tree.at? write.temporary with
    | some (.file bytes _) => .ok (disk.putFile write.temporary (bytes ++ piece))
    | _ => .error (.refusal .missing)
  | .synchronize => .ok disk
  | .replaceTarget =>
    match disk.tree.at? write.temporary with
    | none => .error (.refusal .missing)
    | some file =>
      if write.path.toList.contains '\x00' then .error .failure
      else if disk.tree.hasDirectory write.target then .error (.refusal .isDirectory)
      else .ok { disk with
        tree := (disk.tree.uproot write.temporary).plant write.target file }

/-- Ends a write that has not come through: the temporary file is taken away, if it is there.  `cleaning` is
what happens in the place of that; a disk that refuses it changes nothing about the ending. -/
def cleanUp (write : AtomicWrite) (cleaning : Option Incident) (disk : Disk) (ending : WriteEnd) :
    WriteRun :=
  if (disk.tree.at? write.temporary).isSome then
    match cleaning with
    | none => ⟨[], { disk with tree := disk.tree.uproot write.temporary }, ending⟩
    | some (.refusal _) => ⟨[], disk, ending⟩
    | some .failure => ⟨[], disk, .failed⟩
    | some .halt => ⟨[], disk, .halted⟩
  else ⟨[], disk, ending⟩

/-- Ends a write with an incident. -/
def stop (write : AtomicWrite) (cleaning : Option Incident) (disk : Disk) : Incident → WriteRun
  | .refusal cause => write.cleanUp cleaning disk (.refused cause)
  | .failure => write.cleanUp cleaning disk .failed
  | .halt => ⟨[], disk, .halted⟩

/-- Does steps until the first one that fails.  `incident` tells what happens in the place of each of
them, and after the last one. -/
def runSteps (write : AtomicWrite) (cleaning : Option Incident) :
    (incident : Nat → Option Incident) → List WriteStep → Disk → WriteRun
  | incident, [], disk =>
    match incident 0 with
    | some happened => write.stop cleaning disk happened
    | none => ⟨[], disk, .completed⟩
  | incident, step :: rest, disk =>
    match incident 0, write.perform disk step with
    | some happened, _ => write.stop cleaning disk happened
    | none, .error happened => write.stop cleaning disk happened
    | none, .ok next =>
      let run := write.runSteps cleaning (fun n => incident (n + 1)) rest next
      { run with passed := next :: run.passed }

/-- An atomic write, with the incidents on the way and when cleaning up. -/
def run (write : AtomicWrite) (disk : Disk) (incident : Nat → Option Incident := fun _ => none)
    (cleaning : Option Incident := none) : WriteRun :=
  write.runSteps cleaning incident write.steps disk

end AtomicWrite

/-! ## Writing to a path -/

namespace Disk

/-- The name of the temporary file with a number. -/
def temporaryName (number : Nat) : String := s!"tmp{number}.tmp"

/-- A name for a temporary file that is none of some names. -/
def freshName (taken : List String) : String :=
  let isFree (number : Nat) := !taken.contains (temporaryName number)
  temporaryName (((List.range taken.length).find? isFree).getD taken.length)

/-- The atomic write of bytes to a path, in the directory where the path leads to.  The temporary file has a
name that the directory does not hold, and not the name of the file that is written. -/
def atomicWrite (disk : Disk) (path : String) (pieces : List (List UInt8)) :
    Except DiskFault AtomicWrite := do
  let directory ← disk.locate (String.ofList (Path.parent path.toList))
  let target := (disk.locate path).toOption.getD directory
  let held := ((disk.tree.at? directory).map FileTree.entries).getD []
  let taken := held.map (·.1) ++ target.getLast?.toList
  return { path, target, temporary := directory ++ [freshName taken], pieces }

/-- Writes a text to a path.  The directory is made if it is missing; a fault there is not caught.
The answer tells whether the disk let the text be written. -/
def write (path : String) (text : List Char) : DiskStep Bool := do
  let path := String.ofList (Path.tidy path.toList)
  makeDirectories (String.ofList (Path.parent path.toList))
  let disk ← get
  match disk.atomicWrite path [Text.Utf8.encode text] with
  | .error fault => throw fault
  | .ok plan =>
    let run := plan.run disk
    set run.last
    match run.ending with
    | .completed => return true
    | .failed => throw .nullCharacter
    | .refused _ | .halted => return false

end Disk
end ChangeImpact
