import ChangeImpact.Disk.Tree
import Mathlib.Logic.Function.Basic

/-!
# What is seen of a changed tree

Of a file tree one can see at which places there are directories, and at which there are files and with which
bytes (`sight?`).  A path is followed through directories, and a file is read where it leads to, so nothing
else has to be known of a tree that is changed.

Putting a file or an empty directory into a directory, where there is no directory, changes what is seen at this
place only (`sight?_plant`), and taking away what has been put under a free name undoes it (`uproot_plant`).
-/

namespace ChangeImpact.FileTree

variable {tree held : FileTree} {place other : List String} {name : String} {bytes : List UInt8}
  {changed : Timestamp}

/-! ## Looking one name deep -/

@[simp] theorem at?_nil (tree : FileTree) : tree.at? [] = some tree := rfl

theorem at?_cons (tree : FileTree) (name : String) (names : List String) :
    tree.at? (name :: names) = (tree.entries.lookup name).bind (at? names) := rfl

/-- What is at a place is found below the directory that holds it. -/
theorem at?_append (tree : FileTree) (place other : List String) :
    tree.at? (place ++ other) = (tree.at? place).bind (at? other) := by
  induction place generalizing tree with
  | nil => rfl
  | cons name names ih =>
      rw [List.cons_append, at?_cons, at?_cons]
      cases tree.entries.lookup name with
      | none => rfl
      | some held => exact ih held

/-! ## What is seen -/

/-- What is seen of a tree at its top: that it is a directory, or a file with its bytes. -/
inductive Sight where
  | directory
  | file (bytes : List UInt8)
deriving DecidableEq

/-- What is seen of a tree. -/
def sight : FileTree → Sight
  | directory _ => .directory
  | file bytes _ => .file bytes

/-- What is seen at a place in a tree. -/
def sight? (tree : FileTree) (place : List String) : Option Sight :=
  (tree.at? place).map sight

theorem sight?_nil (tree : FileTree) : tree.sight? [] = some tree.sight := rfl

theorem sight?_cons (tree : FileTree) (name : String) (names : List String) :
    tree.sight? (name :: names) = (tree.entries.lookup name).bind (sight? · names) := by
  rw [sight?, at?_cons]
  cases tree.entries.lookup name with
  | none => rfl
  | some held => rfl

theorem sight?_eq_none : tree.sight? place = none ↔ tree.at? place = none :=
  Option.map_eq_none_iff

theorem sight?_eq_directory : tree.sight? place = some .directory ↔ tree.hasDirectory place = true := by
  rw [sight?, hasDirectory]
  cases tree.at? place with
  | none => simp
  | some found =>
      cases found with
      | file bytes changed => simp [sight, isDirectory]
      | directory entries => simp [sight, isDirectory]

theorem hasDirectory_iff : tree.hasDirectory place = true ↔ ∃ entries, tree.at? place = some (directory entries) := by
  rw [hasDirectory]
  cases tree.at? place with
  | none => simp
  | some found =>
      cases found with
      | file bytes time => simp [isDirectory]
      | directory entries => simp [isDirectory]

/-- Something is seen in directories only. -/
theorem sight?_dropLast (h : tree.sight? (place ++ [name]) ≠ none) : tree.sight? place = some .directory := by
  rw [Ne, sight?_eq_none, at?_append] at h
  rw [sight?]
  cases hfound : tree.at? place with
  | none => simp [hfound] at h
  | some found =>
      cases found with
      | file bytes changed => simp [hfound, at?, entries] at h
      | directory entries => rfl

/-! ## Putting a file somewhere -/

theorem sight?_directory_cons (entries : List (String × FileTree)) (name : String) (names : List String) :
    (directory entries).sight? (name :: names) = (entries.lookup name).bind (sight? · names) :=
  sight?_cons _ _ _

theorem exists_eq_directory (h : tree.sight? place = some .directory) : ∃ entries, tree = directory entries := by
  cases tree with
  | directory entries => exact ⟨entries, rfl⟩
  | file bytes changed =>
      cases place with
      | nil => cases h
      | cons name names => cases h

/-- Entries that differ at a place below one name differ at this place altogether. -/
theorem sight?_eq_update {entries others : List (String × FileTree)} {names : List String} {seen : Option Sight}
    (hothers : ∀ next, next ≠ name → others.lookup next = entries.lookup next)
    (hname : ∀ below, (others.lookup name).bind (sight? · below) =
      if below = names then seen else (entries.lookup name).bind (sight? · below)) :
    (directory others).sight? = Function.update (directory entries).sight? (name :: names) seen := by
  funext place
  cases place with
  | nil => rfl
  | cons next below =>
      rw [sight?_directory_cons, Function.update_apply, sight?_directory_cons]
      by_cases hnext : next = name
      · subst hnext
        rw [hname below]
        simp only [List.cons.injEq, true_and]
      · rw [hothers next hnext, if_neg (by simp [hnext])]

/-- A file, or a directory that holds nothing. -/
def Bare (tree : FileTree) : Prop := tree.entries = []

theorem Bare.sight?_cons (hbare : held.Bare) (names : List String) : held.sight? (name :: names) = none := by
  rw [FileTree.sight?_cons, show held.entries = [] from hbare]
  rfl

/-- Something that holds nothing is put into a directory, where there is no directory. -/
theorem sight?_plant (hbare : held.Bare) (habove : tree.sight? place.dropLast = some .directory)
    (hplace : tree.sight? place ≠ some .directory) :
    (tree.plant place held).sight? = Function.update tree.sight? place (some held.sight) := by
  induction place generalizing tree with
  | nil => exact absurd habove hplace
  | cons name names ih =>
      obtain ⟨entries, rfl⟩ := exists_eq_directory habove
      rw [plant]
      refine sight?_eq_update (fun next hnext => by rw [lookup_putEntry, if_neg hnext]; rfl) fun below => ?_
      rw [lookup_putEntry, if_pos rfl, Option.bind_some, FileTree.entries]
      rw [sight?_directory_cons] at hplace
      cases names with
      | nil =>
          cases below with
          | nil => rfl
          | cons second rest =>
              -- nothing is seen below what is put there, nor below what was there, since that was no directory
              rw [if_neg (List.cons_ne_nil _ _), plant, hbare.sight?_cons]
              cases hheld : entries.lookup name with
              | none => rfl
              | some old =>
                  cases old with
                  | file bytes time => rfl
                  | directory olds => simp [hheld, sight?_nil, sight] at hplace
      | cons second rest =>
          rw [List.dropLast_cons_cons, sight?_directory_cons, Option.bind_eq_some_iff] at habove
          obtain ⟨old, hold, habove⟩ := habove
          rw [hold, Option.bind_some] at hplace ⊢
          rw [Option.getD_some, ih habove hplace, Function.update_apply]

/-! ## Putting something somewhere again, and taking it away -/

theorem putEntry_putEntry (name : String) (first second : FileTree) (entries : List (String × FileTree)) :
    putEntry name second (putEntry name first entries) = putEntry name second entries := by
  induction entries with
  | nil => simp [putEntry]
  | cons entry rest ih =>
      by_cases heq : entry.1 = name
      · simp [putEntry, heq]
      · simp [putEntry, heq, ih]

theorem putEntry_lookup {entries : List (String × FileTree)} (h : entries.lookup name = some held) :
    putEntry name held entries = entries := by
  induction entries with
  | nil => cases h
  | cons entry rest ih =>
      obtain ⟨first, kept⟩ := entry
      rw [List.lookup_cons] at h
      by_cases heq : first = name
      · subst heq
        rw [beq_self_eq_true] at h
        cases h
        simp [putEntry]
      · rw [beq_false_of_ne (Ne.symm heq)] at h
        simp [putEntry, heq, ih h]

/-- What is put at a place takes the place of what has been put there before. -/
theorem plant_plant (tree : FileTree) (place : List String) (first second : FileTree) :
    (tree.plant place first).plant place second = tree.plant place second := by
  induction place generalizing tree with
  | nil => rfl
  | cons name names ih =>
      rw [plant, plant, FileTree.entries, lookup_putEntry, if_pos rfl, Option.getD_some, ih, putEntry_putEntry, plant]

/-- A name that is not in the directory at a place. -/
def Free (tree : FileTree) (place : List String) (name : String) : Prop :=
  name ∉ (((tree.at? place).map FileTree.entries).getD []).map (·.1)

theorem sight?_of_free (h : tree.Free place name) : tree.sight? (place ++ [name]) = none := by
  rw [sight?_eq_none, at?_append]
  cases hfound : tree.at? place with
  | none => rfl
  | some found =>
      rw [Free, hfound, Option.map_some, Option.getD_some] at h
      have hlookup : found.entries.lookup name = none := by
        rw [List.lookup_eq_none_iff]
        intro entry hentry
        have hne : name ≠ entry.1 := fun heq => h (heq ▸ List.mem_map_of_mem hentry)
        simpa using hne
      rw [Option.bind_some, at?_cons, hlookup]
      rfl

theorem filter_putEntry {entries : List (String × FileTree)} (h : name ∉ entries.map (·.1)) (held : FileTree) :
    (putEntry name held entries).filter (fun entry => entry.1 != name) = entries := by
  induction entries with
  | nil => simp [putEntry]
  | cons entry rest ih =>
      rw [List.map_cons, List.mem_cons, not_or] at h
      have hentry : entry.1 ≠ name := Ne.symm h.1
      simp [putEntry, hentry, ih h.2]

/-- What has been put under a free name can be taken away again, and nothing else has changed. -/
theorem uproot_plant (hdirectory : tree.hasDirectory place = true) (hfree : tree.Free place name) (held : FileTree) :
    (tree.plant (place ++ [name]) held).uproot (place ++ [name]) = tree := by
  obtain ⟨entries, rfl⟩ := exists_eq_directory (sight?_eq_directory.mpr hdirectory)
  induction place generalizing entries with
  | nil =>
      have hname : name ∉ entries.map (·.1) := hfree
      rw [List.nil_append, plant, uproot, plant, FileTree.entries, FileTree.entries, filter_putEntry hname]
  | cons first rest ih =>
      cases hsub : entries.lookup first with
      | none => simp [hasDirectory, at?_cons, FileTree.entries, hsub] at hdirectory
      | some sub =>
          have hat : (directory entries).at? (first :: rest) = sub.at? rest := by
            rw [at?_cons, FileTree.entries, hsub, Option.bind_some]
          rw [hasDirectory, hat] at hdirectory
          rw [Free, hat] at hfree
          -- the entry below is restored by induction, and putting back what was found changes nothing
          obtain ⟨below, rfl⟩ := exists_eq_directory (sight?_eq_directory.mpr hdirectory)
          rw [List.cons_append, plant, uproot, FileTree.entries, FileTree.entries, lookup_putEntry, if_pos rfl, hsub,
            Option.getD_some]
          · show directory (putEntry first (uproot (rest ++ [name]) _) _) = _
            rw [ih below hdirectory hfree, putEntry_putEntry, putEntry_lookup hsub]
          · exact List.append_ne_nil_of_right_ne_nil _ (List.cons_ne_nil name [])

end ChangeImpact.FileTree
