import ChangeImpact.Path.Key
import Std.Data.TreeSet

/-!
# Resolving module names

A module is named by a path relative to the importing file, by a path from the project root, or by an
alias that stands for a directory.  It is resolved to the first file that fits among the files of the
project: the path as it is, the path with one of the extensions, or an index file in the directory of
that name.

* `directories` holds every directory above a known file; the climb towards the root stops at the
  first directory that is there already, because then all above it are there as well.
-/

namespace ChangeImpact

/-- The directory part of a path. -/
def Path.directoryOf (path : String) : String :=
  String.ofList (Path.directory path.toList)

theorem Path.directoryOf_shorter_or_eq (path : String) :
    (Path.directoryOf path).length < path.length ∨ Path.directoryOf path = path := by
  have hle := Path.length_directory_le path.toList
  rcases Nat.lt_or_ge (Path.directory path.toList).length path.toList.length with h | h
  · refine .inl ?_
    rw [← String.length_toList, ← String.length_toList, Path.directoryOf, String.toList_ofList]
    exact h
  · refine .inr ?_
    rw [Path.directoryOf, Path.eq_of_length_directory (Nat.le_antisymm hle h),
      String.ofList_toList]

/-- Specifier starts and the directories that they stand for. -/
abbrev Aliases := List (String × String)

/-- The known files of a project and the rules by which module names lead to them. -/
structure Resolver where
  known : Std.TreeSet String
  extensions : List String
  /-- Longer aliases first. -/
  aliases : Aliases
  directories : Std.TreeSet String

namespace Resolver

/-- The extensions that are tried where none are given. -/
def defaultExtensions : List String := [".ts", ".tsx", ".js", ".jsx", ".json"]

/-- Why a module name could not be resolved: the alias that made it a name of the project is not part
of what is left of it. -/
inductive Fault where
  | lostAlias
deriving DecidableEq, Repr

/-- A fault has no text. -/
def Fault.message : Fault → String
  | lostAlias => ""

/-! ## Preparing -/

/-- Adds a directory and those above it, up to the first that is there already. -/
def climb (seen : Std.TreeSet String) (directory : String) : Std.TreeSet String :=
  if directory = "" ∨ directory ∈ seen then seen
  else climb (seen.insert directory) (Path.directoryOf directory)
termination_by (directory.length, if directory ∈ seen then 0 else 1)
decreasing_by
  rename_i h
  rcases Path.directoryOf_shorter_or_eq directory with hlt | heq
  · exact Prod.Lex.left _ _ hlt
  · have hnot : directory ∉ seen := fun hmem => h (.inr hmem)
    rw [heq, if_pos (by simp), if_neg hnot]
    exact Prod.Lex.right _ (by decide)

/-- Aliases with longer starts first; those of one length keep their order. -/
def longestFirst (aliases : Aliases) : Aliases :=
  aliases.mergeSort fun first second => second.1.length ≤ first.1.length

/-- A resolver for the files of a project. -/
def ofFiles (files : List String) (extensions : List String := defaultExtensions)
    (aliases : Aliases := []) : Resolver where
  known := Std.TreeSet.ofList files
  extensions := extensions
  aliases := longestFirst aliases
  directories := files.foldl (fun seen file => climb seen (Path.directoryOf file)) ∅

/-! ## What a module name means -/

/-- The first alias that a module name starts with, and the rest of the name. -/
def aliasOf? (resolver : Resolver) (specifier : List Char) : Option (String × List Char) :=
  (resolver.aliases.find? fun entry => entry.1.toList.isPrefixOf specifier).map fun entry =>
    (entry.2, specifier.drop entry.1.length)

/-- A name that starts neither like a path nor with an alias is that of a package outside. -/
def isExternal (resolver : Resolver) (specifier : String) : Bool :=
  match specifier.toList with
  | '.' :: _ | '/' :: _ => false
  | text => (resolver.aliasOf? text).isNone

/-- A module name without the query and the fragment that a bundler takes after it. -/
def withoutQuery (specifier : List Char) : List Char :=
  specifier.takeWhile fun c => c != '?' && c != '#'

/-- The path that a module name means, before it is looked for. -/
def joined (resolver : Resolver) (specifier : List Char) (importer : String) :
    Except Fault (List Char) :=
  match specifier with
  | '.' :: _ =>
    .ok (Path.join (Path.directory (Path.keyChars none importer.toList)) specifier)
  | '/' :: _ => .ok (specifier.dropWhile (· == '/'))
  | _ =>
    match resolver.aliasOf? specifier with
    | some (target, rest) => .ok (Path.join target.toList rest)
    | none => .error .lostAlias

/-- Whether a key leads out of the project. -/
def leadsOut (key : List Char) : Bool :=
  key == Path.above || (Path.above ++ ['/']).isPrefixOf key

/-- The key that the candidates for a module name are made from.  There is none for a name that is
empty, external, or leads out of the project. -/
def base? (resolver : Resolver) (specifier importer : String) :
    Except Fault (Option (List Char)) :=
  if specifier.isEmpty || resolver.isExternal specifier then .ok none
  else do
    let path ← resolver.joined (withoutQuery specifier.toList) importer
    let key := Path.keyChars none path
    return if leadsOut key then none else some key

/-- The files that a key may mean, the preferred ones first. -/
def candidates (resolver : Resolver) (base : List Char) : List String :=
  let named :=
    if base.isEmpty then []
    else String.ofList base :: resolver.extensions.map fun extension =>
      String.ofList (base ++ extension.toList)
  let indexed :=
    if base.isEmpty || resolver.directories.contains (String.ofList base) then
      resolver.extensions.map fun extension =>
        String.ofList (Path.join base ("index" ++ extension).toList)
    else []
  named ++ indexed

/-- The file of the project that a module name means in a file. -/
def resolve (resolver : Resolver) (specifier importer : String) :
    Except Fault (Option String) := do
  match ← resolver.base? specifier importer with
  | none => return none
  | some base => return (resolver.candidates base).find? resolver.known.contains

end Resolver
end ChangeImpact
