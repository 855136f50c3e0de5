/-!
# Changes

A change tells what happened to a file.  A renamed file has its old path beside the new one.
-/

namespace ChangeImpact

/-- What happened to a file. -/
inductive Operation where
  | added | modified | deleted | renamed
deriving DecidableEq, Repr, Inhabited

namespace Operation

/-- All operations. -/
def all : List Operation := [added, modified, deleted, renamed]

/-- The name of an operation. -/
def name : Operation → String
  | added => "added"
  | modified => "modified"
  | deleted => "deleted"
  | renamed => "renamed"

/-- The operation with a given name. -/
def ofName? (name : String) : Option Operation :=
  all.find? fun operation => operation.name == name

end Operation

/-- A path, and what happened to the file there. -/
structure Change where
  path : String
  operation : Operation := .modified
  oldPath : Option String := none
deriving DecidableEq, Repr, Inhabited

/-- The old path of a change, unless it is missing or empty. -/
def Change.formerPath? (change : Change) : Option String :=
  change.oldPath.filter fun path => !path.isEmpty

end ChangeImpact
