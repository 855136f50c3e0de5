import ChangeImpact.Disk.Basic
import ChangeImpact.Path.Tidy
import ChangeImpact.Table
import ChangeImpact.Text.Lines
import ChangeImpact.Text.Utf8

/-!
# Reading files

A reader gives the text of a file and, where it is known, the time of the file's last change.  A pool
of workers reads many files at once.  In which order the workers finish is not known, so a pool has a
schedule that tells it; the results are kept by path and do not depend on it.
-/

namespace ChangeImpact

/-- Why a file could not be read. -/
inductive ReadFault where
  | disk (fault : DiskFault)
  | encoding (fault : Text.Utf8.Fault)
  /-- The source that should give the text has failed. -/
  | source (message : String)
deriving DecidableEq, Repr

/-- How a fault is reported. -/
def ReadFault.message : ReadFault → String
  | disk fault => fault.message
  | encoding fault => fault.message
  | source message => message

/-- What came of reading a file. -/
structure FileRead where
  content : Except ReadFault String
  changed : Option Timestamp := none

instance : Inhabited FileRead := ⟨{ content := .ok "" }⟩

/-- A way of reading files.  Looking for the time of a change fails only if the path cannot be that of
any file; a file that is not there has no such time. -/
structure Reader where
  read : String → FileRead
  changed : String → Except DiskFault (Option Timestamp) := fun _ => .ok none

instance : Inhabited Reader := ⟨{ read := fun _ => default }⟩

namespace Reader

/-- A reader that gives texts kept by path. -/
def ofTable (contents : Table String) : Reader where
  read path :=
    { content := match contents.get? path with
        | some content => .ok content
        | none => .error (.source (Text.quoted path)) }

/-- A reader that gives the same text for every path. -/
def ofText (content : String) : Reader where
  read _ := { content := .ok content }

/-- The path at which a file of a project stands on a disk. -/
def fullPath (directory path : String) : String :=
  String.ofList (Path.tidyJoin directory.toList path.toList)

/-- The text of a file on a disk, with a line feed for every line end. -/
def diskText (disk : Disk) (path : String) : Except ReadFault (List Char) :=
  match disk.bytes path with
  | .error fault => .error (.disk fault)
  | .ok bytes =>
    match Text.Utf8.decode bytes with
    | .error fault => .error (.encoding fault)
    | .ok text => .ok (Text.unifyLines text)

/-- A reader of the files below a directory of a disk. -/
def ofDisk (disk : Disk) (directory : String) : Reader where
  read path :=
    let full := fullPath directory path
    match diskText disk full with
    | .error fault => { content := .error fault }
    | .ok text => { content := .ok (String.ofList text), changed := (disk.changed full).toOption }
  changed path :=
    match disk.changed (fullPath directory path) with
    | .ok time => .ok (some time)
    | .error (.refused ..) => .ok none
    | .error .nullCharacter => .error .nullCharacter

end Reader

/-! ## Pools -/

/-- The order in which the reads of a pool are finished. -/
structure Schedule where
  order : List String → List String
  complete : ∀ paths, (order paths).Perm paths

/-- Every read is finished before the next one begins. -/
def Schedule.oneByOne : Schedule where
  order paths := paths
  complete _ := .refl _

instance : Inhabited Schedule := ⟨.oneByOne⟩

/-- Workers that read files.  Where their number is not given, or is zero, there are as many as the
machine has processors. -/
structure ReaderPool where
  workers : Option Int := none
  schedule : Schedule := .oneByOne
deriving Inhabited

/-- Why a pool does not read. -/
inductive PoolFault where
  | noWorkers
deriving DecidableEq, Repr

/-- How a fault of a pool is reported. -/
def PoolFault.message : PoolFault → String
  | noWorkers => "max_workers must be greater than 0"

/-- Whether a pool has a worker. -/
def ReaderPool.hasWorkers (pool : ReaderPool) : Bool :=
  pool.workers.all (0 ≤ ·)

/-- Reads files.  Without files there is no need for workers. -/
def ReaderPool.readAll (pool : ReaderPool) (reader : Reader) (paths : List String) :
    Except PoolFault (Table FileRead) :=
  if paths.isEmpty then .ok ∅
  else if !pool.hasWorkers then .error .noWorkers
  else .ok (.ofList ((pool.schedule.order paths).map fun path => (path, reader.read path)))

end ChangeImpact
