import ChangeImpact.Change
import ChangeImpact.Path.Key
import ChangeImpact.Table

/-!
# Changes in a repository

A repository tells in layers what has changed: the commits since a base, what is staged, what is not
staged, and the files that it does not track.  Its paths start from the work tree; those that lie in
the project are turned into keys, the others are left out.  When layers name the same file the last
of them counts.

The directories of the project and of the work tree are taken to be spelled without symbolic links
(`Path.realPath`).

* `Repository.changes` gives one change for each file, sorted by path.
-/

namespace ChangeImpact

/-- An entry of a difference between two states of the work tree. -/
structure DiffEntry where
  /-- The letter that tells what kind of change it is. -/
  letter : Option String
  oldPath : Option String
  newPath : Option String
deriving DecidableEq, Repr, Inhabited

/-- What a repository tells.  Each layer may fail with a message. -/
structure Repository where
  /-- The directory that paths start from; the project's directory if none is given. -/
  workTree : Option String := none
  /-- The changes since the last state shared with the base; none if no state is shared. -/
  committed : Except String (Option (List DiffEntry)) := .ok none
  staged : Except String (List DiffEntry) := .ok []
  unstaged : Except String (List DiffEntry) := .ok []
  untracked : Except String (List String) := .ok []
deriving Inhabited

/-- Why changes could not be detected. -/
inductive DetectionFault where
  | noRepository (root : String)
  | failed (base message : String)
  /-- An entry does not name the path that its letter asks for. -/
  | missingPath
  /-- The path of the project holds a null character. -/
  | nullCharacter
deriving DecidableEq, Repr

/-- How a fault is reported; nothing is said about an entry without a path. -/
def DetectionFault.message? : DetectionFault → Option String
  | noRepository root => some ("Not a git repository: " ++ root)
  | failed base message => some s!"Failed to detect changes against {base}: {message}"
  | missingPath => none
  | nullCharacter => some Path.nullCharacterMessage

namespace DiffEntry

/-- What the letter of an entry says; an unknown letter stands for a modification. -/
def operation (entry : DiffEntry) : Operation :=
  match entry.letter with
  | some "A" | some "C" => .added
  | some "D" => .deleted
  | some "R" => .renamed
  | _ => .modified

/-- The path that an entry is about: the old one of a deleted file, the new one of a renamed file, and
otherwise the new one if it is given and the old one if not. -/
def path? (entry : DiffEntry) : Option String :=
  match entry.operation with
  | .deleted => entry.oldPath
  | .renamed => entry.newPath
  | _ => (entry.newPath.filter fun path => !path.isEmpty).or entry.oldPath

/-- The change that an entry describes, with paths as the repository gives them. -/
def change? (entry : DiffEntry) : Option Change :=
  entry.path?.map fun path =>
    { path
      operation := entry.operation
      oldPath := if entry.operation = .renamed then entry.oldPath else none }

end DiffEntry

/-- The place of a path, as an absolute path without `.` and `..` segments that starts with one
slash.  It is found from the text of the path alone: symbolic links on the way, which would lead
elsewhere, are left out. -/
def Path.realPath (workingDirectory path : String) : Option String :=
  if path.toList.contains '\x00' then none
  else
    let full := absolute workingDirectory.toList path.toList
    some (String.ofList ('/' :: full.dropWhile (· == '/')))

namespace Repository

/-- Changes by their paths. -/
abbrev ChangeTable := Table Change

/-- The key of a path in the work tree, if the path lies in the project and is not the project's
directory itself. -/
def projectPath? (workTree : String) (root : Root) (path : String) : Option String :=
  let key := Path.keyChars (some root) (Path.join workTree.toList path.toList)
  if key.isEmpty || (Path.above ++ ['/']).isPrefixOf key || Path.isAbsolute key then none
  else some (String.ofList key)

/-- Records a change, if it is one in the project. -/
def record (workTree : String) (root : Root) (changes : ChangeTable) (change : Change) :
    ChangeTable :=
  match projectPath? workTree root change.path with
  | none => changes
  | some path =>
    changes.insert path
      { path
        operation := change.operation
        oldPath := change.formerPath?.bind (projectPath? workTree root) }

/-- Records the entries of a layer. -/
def recordAll (workTree : Option String) (root : Root) (base : String) (entries : List DiffEntry)
    (changes : ChangeTable) : Except DetectionFault ChangeTable :=
  entries.foldlM (fun changes entry =>
    match workTree, entry.change? with
    | none, _ => .error (.failed base Path.nullCharacterMessage)
    | _, none => .error .missingPath
    | some workTree, some change => .ok (record workTree root changes change)) changes

/-- A layer, or the failure to get it. -/
def layer {α : Type} (base : String) (entries : Except String α) : Except DetectionFault α :=
  entries.mapError (.failed base)

/-- The entries for files that are not tracked. -/
def untrackedEntries (paths : List String) : List DiffEntry :=
  paths.map fun path => ⟨some "A", some path, some path⟩

/-- The changes that a repository tells of, one for each path. -/
def changeTable (repository : Repository) (root : Root) (base : String) (withWorkTree : Bool) :
    Except DetectionFault ChangeTable := do
  let workTree := Path.realPath root.workingDirectory (repository.workTree.getD root.directory)
  let record := recordAll workTree root base
  let committed ← layer base repository.committed
  let changes ← record (committed.getD []) ∅
  if !withWorkTree then return changes
  let changes ← record (← layer base repository.staged) changes
  let changes ← record (← layer base repository.unstaged) changes
  record (untrackedEntries (← layer base repository.untracked)) changes

/-- The changes in the project at a root, sorted by path. -/
def changes (repository : Option Repository) (root : Root) (base : String := "main")
    (withWorkTree : Bool := true) : Except DetectionFault (List Change) := do
  match Path.realPath root.workingDirectory root.directory, repository with
  | none, _ => throw .nullCharacter
  | some directory, none => throw (.noRepository directory)
  | some directory, some repository =>
    let table ← repository.changeTable { root with directory } base withWorkTree
    return table.sortedEntries.map (·.2)

end Repository
end ChangeImpact
