import ChangeImpact.Path.Basic
import ChangeImpact.Text.Blank

/-!
# Path keys

Files are known by their path from the project root, with slashes and without `.` segments.  `key`
brings any spelling of a path into that form.  The root itself has the empty key.
-/

namespace ChangeImpact

/-- Where paths are relative to: the project root as it was given, and the working directory that a
relative root starts from. -/
structure Root where
  directory : String
  workingDirectory : String := "/"
deriving DecidableEq, Repr, Inhabited

namespace Path

/-- An absolute, collapsed spelling of a path that may start from the working directory. -/
def absolute (workingDirectory path : List Char) : List Char :=
  collapse (if isAbsolute path then path else join workingDirectory path)

/-- The absolute path of a root, without a slash at its end. -/
def rootText (root : Root) : List Char :=
  dropTrailingSlashes
    (withSlashes (absolute root.workingDirectory.toList root.directory.toList))

/-- The path collapsed, with nothing left for `.` itself. -/
def collapseKey (path : List Char) : List Char :=
  if collapse path = here then [] else collapse path

/-- The key of an absolute path below `root`; outside of it the path keeps its absolute form. -/
def keyBelow (root path : List Char) : List Char :=
  let full := collapse path
  if full = root then []
  else if (root ++ ['/']).isPrefixOf full then collapseKey (full.drop (root.length + 1))
  else collapseKey path

/-- The key of a path: blanks around it are dropped, backslashes become slashes, an absolute path
below the root becomes relative to it, and the result is collapsed. -/
def keyChars (root : Option Root) (path : List Char) : List Char :=
  let text := withSlashes (Text.strip path)
  if text.isEmpty then []
  else
    match root with
    | some root => if isAbsolute text then keyBelow (rootText root) text else collapseKey text
    | none => collapseKey text

/-- `keyChars` on strings. -/
def key (root : Option Root) (path : String) : String :=
  String.ofList (keyChars root path.toList)

end Path
end ChangeImpact
