import ChangeImpact.Number.Timestamp

/-!
# File trees

A directory holds files and directories under names.  A place in a tree is the list of names that
leads there from the top.  Symbolic links are left out: a name stands for what it holds, and for nothing
at another place.

* `at?_plant` says what is found at a place where something has been put.
-/

namespace ChangeImpact

/-- A file with its bytes and the time of its last change, or a directory with what it holds. -/
inductive FileTree where
  | file (bytes : List UInt8) (changed : Timestamp)
  | directory (entries : List (String × FileTree))
deriving Inhabited

namespace FileTree

/-- A directory that holds nothing. -/
def empty : FileTree := directory []

/-- Whether this is a directory. -/
def isDirectory : FileTree → Bool
  | directory _ => true
  | file .. => false

/-- What a directory holds; a file holds nothing. -/
def entries : FileTree → List (String × FileTree)
  | directory entries => entries
  | file .. => []

/-- What is at a place. -/
def at? : List String → FileTree → Option FileTree
  | [], tree => some tree
  | name :: names, tree => (tree.entries.lookup name).bind (at? names)

/-- Whether there is a directory at a place. -/
def hasDirectory (tree : FileTree) (place : List String) : Bool :=
  (tree.at? place).any isDirectory

/-- Puts something under a name among entries; what was there under this name before is gone. -/
def putEntry (name : String) (held : FileTree) :
    List (String × FileTree) → List (String × FileTree)
  | [] => [(name, held)]
  | (other, kept) :: rest =>
    if other = name then (name, held) :: rest else (other, kept) :: putEntry name held rest

/-- Puts something at a place.  Directories on the way that are missing are made. -/
def plant : List String → (tree held : FileTree) → FileTree
  | [], _, held => held
  | name :: names, tree, held =>
    directory (putEntry name (plant names ((tree.entries.lookup name).getD empty) held) tree.entries)

/-- Takes away what is at a place. -/
def uproot : List String → FileTree → FileTree
  | [], tree => tree
  | [name], tree => directory (tree.entries.filter fun entry => entry.1 != name)
  | name :: names, tree =>
    match tree.entries.lookup name with
    | none => tree
    | some held => directory (putEntry name (uproot names held) tree.entries)

/-! ## Looking after a change -/

theorem lookup_putEntry (name other : String) (held : FileTree)
    (entries : List (String × FileTree)) :
    (putEntry name held entries).lookup other =
      if other = name then some held else entries.lookup other := by
  induction entries with
  | nil =>
    rw [putEntry, List.lookup_cons]
    by_cases h : other = name
    · simp [h]
    · simp [beq_false_of_ne h, h]
  | cons entry rest ih =>
    obtain ⟨first, kept⟩ := entry
    unfold putEntry
    split
    · rename_i hfirst
      subst hfirst
      rw [List.lookup_cons, List.lookup_cons]
      by_cases h : other = first
      · simp [h]
      · simp [beq_false_of_ne h, h]
    · rename_i hfirst
      rw [List.lookup_cons, List.lookup_cons, ih]
      by_cases h : other = first
      · simp [h, hfirst]
      · simp [beq_false_of_ne h]

/-- What has been put at a place is found there. -/
theorem at?_plant (place : List String) (tree held : FileTree) :
    (tree.plant place held).at? place = some held := by
  induction place generalizing tree with
  | nil => rfl
  | cons name names ih => simp [plant, at?, entries, lookup_putEntry, ih]

end FileTree
end ChangeImpact
