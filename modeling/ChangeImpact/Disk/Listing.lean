import ChangeImpact.Disk.Basic
import ChangeImpact.Path.Key
import ChangeImpact.Text.Lowercase

/-!
# Listing the files of a project

The files of a project are those below its directory, except for those in directories that hold
packages, builds and the like.  They are listed by their keys, in order.

* `FileTree.places` walks a tree and gives the place of every file.
-/

namespace ChangeImpact

/-- The names of directories that are never entered. -/
def skippedDirectories : List String :=
  [".git", "__pycache__", "node_modules", "venv", ".venv", "dist", "build", ".next", "coverage"]

namespace FileTree

mutual

/-- The places of the files of a tree.  Directories with one of the skipped names are not entered. -/
def places (skipped : List String) : FileTree → List (List String)
  | file .. => []
  | directory entries => entryPlaces skipped entries

/-- The places of the files of some entries. -/
def entryPlaces (skipped : List String) : List (String × FileTree) → List (List String)
  | [] => []
  | (name, file ..) :: rest => [name] :: entryPlaces skipped rest
  | (name, directory entries) :: rest =>
    (if skipped.contains name then [] else (places skipped (directory entries)).map (name :: ·)) ++
      entryPlaces skipped rest

end

end FileTree

/-- The key of a file with a given place below the project's directory. -/
def placeKey (place : List String) : String :=
  Path.key none ("/".intercalate place)

/-- Whether a file's extension is among some extensions, in whatever case they are written.  If none
are given every file will do. -/
def hasExtension (extensions : List String) (name : String) : Bool :=
  extensions.isEmpty ||
    (extensions.map Text.lowerString).contains
      (Text.lowerString (String.ofList (Path.extension name.toList)))

namespace Disk

/-- The keys of the files with some extensions below a directory. -/
def listing (disk : Disk) (directory : String) (extensions : List String := []) :
    Except DiskFault (List String) :=
  match disk.find (String.ofList (Path.tidy directory.toList)) with
  | .error .nullCharacter => .error .nullCharacter
  | .error (.refused ..) => .ok []
  | .ok tree =>
    let wanted := (tree.places skippedDirectories).filter fun place => hasExtension extensions (place.getLast?.getD "")
    .ok ((wanted.map placeKey).mergeSort (· ≤ ·))

end Disk
end ChangeImpact
