/-!
# Paths

A path is a text whose segments are separated by slashes.  This file holds the operations that only
look at the text: joining, the directory and the file name, the extension, and collapsing `.` and
`..` segments.  They work on lists of characters; the versions on strings stand at the end.

* `directory` never makes a path longer, and a path that it leaves at its length is left unchanged
  (`eq_of_length_directory`), so going from a path to its directory again and again comes to rest.
-/

namespace ChangeImpact.Path

/-- One part of a path between two slashes. -/
abbrev Segment := List Char

/-- The segment that stands for the directory itself. -/
def here : Segment := ['.']

/-- The segment that stands for the directory above. -/
def above : Segment := ['.', '.']

/-- How a path with a null character, which cannot be that of any file, is reported. -/
def nullCharacterMessage : String := "embedded null byte"

/-- A path is absolute when it starts with a slash. -/
def isAbsolute (path : List Char) : Bool :=
  path.head? == some '/'

/-- Every backslash turned into a slash. -/
def withSlashes (path : List Char) : List Char :=
  path.map fun c => if c = '\\' then '/' else c

/-- The path without the slashes at its end. -/
def dropTrailingSlashes (path : List Char) : List Char :=
  (path.reverse.dropWhile (· == '/')).reverse

/-- `inner` as seen from `outer`.  An absolute `inner` stands for itself. -/
def join (outer inner : List Char) : List Char :=
  if isAbsolute inner then inner
  else if outer.isEmpty || outer.getLast? == some '/' then outer ++ inner
  else outer ++ '/' :: inner

/-! ## Directory, file name and extension -/

/-- Everything up to the last slash, that slash included. -/
def upToLastSlash (path : List Char) : List Char :=
  (path.reverse.dropWhile (· != '/')).reverse

/-- The directory that holds a file.  Slashes at its end are dropped unless there is nothing else. -/
def directory (path : List Char) : List Char :=
  let head := upToLastSlash path
  if head.all (· == '/') then head else dropTrailingSlashes head

/-- The text after the last slash. -/
def fileName (path : List Char) : List Char :=
  (path.reverse.takeWhile (· != '/')).reverse

/-- A path cut before the last dot of its file name.  Dots that lead the file name are no such dot,
so `.env` has no extension. -/
def splitExtension (path : List Char) : List Char × List Char :=
  let name := fileName path
  let dots := name.takeWhile (· == '.')
  let body := name.dropWhile (· == '.')
  if body.contains '.' then
    let extension := (body.reverse.takeWhile (· != '.')).reverse
    let stem := body.take (body.length - extension.length - 1)
    (path.take (path.length - name.length) ++ dots ++ stem, '.' :: extension)
  else (path, [])

/-- The extension with its dot, or nothing. -/
def extension (path : List Char) : List Char :=
  (splitExtension path).2

/-! ## Collapsing a path -/

/-- How many slashes a collapsed path keeps at its start: two stay two, three or more become one. -/
def rootSlashes : List Char → Nat
  | '/' :: '/' :: '/' :: _ => 1
  | '/' :: '/' :: _ => 2
  | '/' :: _ => 1
  | _ => 0

/-- Enters the next segment from the segments walked so far, the last one first.  At the top of an
absolute path there is nothing above. -/
def enter (absolute : Bool) (walked : List Segment) (segment : Segment) : List Segment :=
  if segment = [] ∨ segment = here then walked
  else if segment = above then
    match walked with
    | [] => if absolute then [] else [above]
    | last :: rest => if last = above then above :: walked else rest
  else segment :: walked

/-- The segments of a path after all `.` and all `..` that can be resolved are gone. -/
def segments (path : List Char) : List Segment :=
  ((path.splitOn '/').foldl (enter (isAbsolute path)) []).reverse

/-- The path with empty segments, `.` segments and resolvable `..` segments removed; `.` if nothing
is left. -/
def collapse (path : List Char) : List Char :=
  let text := List.replicate (rootSlashes path) '/' ++ ['/'].intercalate (segments path)
  if text.isEmpty then here else text

/-! ## A directory is never longer than its path -/

theorem upToLastSlash_isPrefix (path : List Char) : upToLastSlash path <+: path := by
  have h := List.dropWhile_suffix (l := path.reverse) (· != '/')
  simpa [upToLastSlash] using List.reverse_prefix.mpr h

theorem dropTrailingSlashes_isPrefix (path : List Char) : dropTrailingSlashes path <+: path := by
  have h := List.dropWhile_suffix (l := path.reverse) (· == '/')
  simpa [dropTrailingSlashes] using List.reverse_prefix.mpr h

theorem directory_isPrefix (path : List Char) : directory path <+: path := by
  unfold directory
  simp only
  split
  · exact upToLastSlash_isPrefix path
  · exact (dropTrailingSlashes_isPrefix _).trans (upToLastSlash_isPrefix path)

theorem length_directory_le (path : List Char) : (directory path).length ≤ path.length :=
  (directory_isPrefix path).length_le

theorem eq_of_length_directory {path : List Char}
    (h : (directory path).length = path.length) : directory path = path :=
  (directory_isPrefix path).eq_of_length h

end ChangeImpact.Path
