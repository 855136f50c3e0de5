import ChangeImpact.Path.Basic

/-!
# Tidy paths

A tidy path has no empty and no `.` segments.  Unlike a collapsed path it keeps its `..` segments, so
it leads to the same place also where the directories before them do not exist.
-/

namespace ChangeImpact.Path

/-- The segments of a path that lead somewhere. -/
def tidySegments (path : List Char) : List Segment :=
  (path.splitOn '/').filter fun segment => segment ≠ [] ∧ segment ≠ here

/-- The path of some segments below as many slashes as another path has at its start. -/
def spell (path : List Char) (segments : List Segment) : List Char :=
  let text := List.replicate (rootSlashes path) '/' ++ ['/'].intercalate segments
  if text.isEmpty then here else text

/-- The path without empty and `.` segments; `.` if nothing is left. -/
def tidy (path : List Char) : List Char :=
  spell path (tidySegments path)

/-- The tidy path of `inner` as seen from `outer`. -/
def tidyJoin (outer inner : List Char) : List Char :=
  tidy (join outer inner)

/-- A tidy path and all that is above it, the nearest first. -/
def ancestry (path : List Char) : List (List Char) :=
  let segments := tidySegments path
  ((List.range (segments.length + 1)).map fun n => spell path (segments.take n)).reverse

/-- What is directly above a path; the path itself where there is nothing above it. -/
def parent (path : List Char) : List Char :=
  spell path (tidySegments path).dropLast

end ChangeImpact.Path
