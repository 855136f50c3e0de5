import ChangeImpact.Disk.AtomicWrite

/-!
# Writes on a disk that refuses calls

A disk that is full or can only be read refuses a call whatever its tree says.  `DiskConduct` tells which calls of a
writer a disk refuses, and `DiskConduct.write` is the write on such a disk.  It makes its calls in the order of
`Disk.write` and does about an error what that does, so the two agree on a disk that refuses nothing.

A write asks no more of an error than whether something is missing or, when it looks for a directory, whether what is
there is no directory.  So the causes that a disk has of its own stand for all others.
-/

namespace ChangeImpact

/-- A call of a writer. -/
inductive DiskCall where
  /-- To make a directory: at first, or again after the directories above it have been made. -/
  | makeDirectory (path : String) (again : Bool)
  /-- To look whether there is a directory. -/
  | lookAt (path : String)
  /-- To do a step of an atomic write. -/
  | step (number : Nat)
  /-- To take the temporary file away. -/
  | removeTemporary
deriving DecidableEq, Repr

/-- How a disk meets a writer: the calls that it refuses, and the pieces in which it takes the bytes. -/
structure DiskConduct where
  refusal? : DiskCall → Option DiskCause
  pieces : List UInt8 → List (List UInt8)
  flatten_pieces : ∀ bytes, (pieces bytes).flatten = bytes

namespace DiskConduct

/-- Nothing is refused, and all bytes are taken at once. -/
def willing : DiskConduct where
  refusal? _ := none
  pieces bytes := [bytes]
  flatten_pieces _ := List.flatten_singleton

variable (conduct : DiskConduct)

/-- Makes an empty directory.  A path with a null character does not come to the disk. -/
def makeDirectory (path : String) (again : Bool) : DiskStep Unit :=
  match conduct.refusal? (.makeDirectory path again) with
  | some cause => throw (if path.toList.contains '\x00' then .nullCharacter else .refused cause path)
  | none => Disk.makeDirectory path

/-- Looks whether there is a directory.  There is none where something is missing on the way, or no directory. -/
def lookAt (path : String) : DiskStep Bool := fun disk =>
  match conduct.refusal? (.lookAt path) with
  | none => .ok (disk.isDirectory path) disk
  | some .missing | some .notDirectory => .ok false disk
  | some cause => .error (.refused cause path) disk

/-- Goes on if there is a directory; otherwise the error stays that has been reported. -/
def excuse (cause : DiskCause) (path : String) : DiskStep Unit := do
  if ← conduct.lookAt path then return () else throw (.refused cause path)

/-- Makes a directory, unless it is there. -/
def ensureDirectory (path : String) (again : Bool) : DiskStep Unit := fun disk =>
  match conduct.makeDirectory path again disk with
  | .error (.refused cause _) disk =>
    if cause = .missing then .error (.refused cause path) disk else conduct.excuse cause path disk
  | outcome => outcome

/-- Makes the first of some directories, each of which is directly below the next. -/
def ensureAll : List String → DiskStep Unit
  | [] => return ()
  | [path] => conduct.ensureDirectory path false
  | path :: next :: above => fun disk =>
    match conduct.makeDirectory path false disk with
    | .error (.refused .missing _) disk =>
      (do ensureAll (next :: above); conduct.ensureDirectory path true) disk
    | _ => conduct.ensureDirectory path false disk

/-- Makes a directory and all that are missing above it. -/
def makeDirectories (path : String) : DiskStep Unit :=
  conduct.ensureAll ((Path.ancestry path.toList).map String.ofList)

/-- How many steps of an atomic write come to the disk; a path with a null character does not. -/
def stepCalls (path : String) (pieces : List (List UInt8)) : Nat :=
  pieces.length + if path.toList.contains '\x00' then 2 else 3

/-- An atomic write, some steps of which are refused. -/
def run (plan : AtomicWrite) (disk : Disk) : WriteRun :=
  let incident (number : Nat) : Option Incident :=
    if number < stepCalls plan.path plan.pieces then (conduct.refusal? (.step number)).map .refusal else none
  plan.run disk incident ((conduct.refusal? .removeTemporary).map .refusal)

/-- Writes a text to a path; tells whether the disk let it be written. -/
def write (path : String) (text : List Char) : DiskStep Bool := do
  let path := String.ofList (Path.tidy path.toList)
  conduct.makeDirectories (String.ofList (Path.parent path.toList))
  let disk ← get
  match disk.atomicWrite path (conduct.pieces (Text.Utf8.encode text)) with
  | .error fault => throw fault
  | .ok plan =>
    let run := conduct.run plan disk
    set run.last
    match run.ending with
    | .completed => return true
    | .failed => throw .nullCharacter
    | .refused _ | .halted => return false

end DiskConduct
end ChangeImpact
