/-!
# Sets of paths

A set of paths is its sorted list without repetitions, so two sets with the same members are equal
and listing a set needs no further sorting.  The paths are texts unless something else is said; anything
that is linearly ordered will do.

* `PathSet.mem_insert`, `mem_erase`, `mem_filter` and `mem_union` say what each operation does to the
  members.
-/

namespace ChangeImpact

/-- A set of paths. -/
structure PathSet (κ : Type := String) [LT κ] where
  /-- The members in increasing order. -/
  toList : List κ
  sorted : toList.Pairwise (· < ·) := by simp
deriving DecidableEq

namespace PathSet

variable {κ : Type} [LT κ]

instance : Membership κ (PathSet κ) := ⟨fun set path => path ∈ set.toList⟩

instance [DecidableEq κ] (path : κ) (set : PathSet κ) : Decidable (path ∈ set) :=
  inferInstanceAs (Decidable (path ∈ set.toList))

theorem mem_def {path : κ} {set : PathSet κ} : path ∈ set ↔ path ∈ set.toList := Iff.rfl

/-- The set without members. -/
def empty : PathSet κ := { toList := [] }

instance : EmptyCollection (PathSet κ) := ⟨empty⟩

instance : Inhabited (PathSet κ) := ⟨empty⟩

@[simp] theorem not_mem_empty {path : κ} : path ∉ (∅ : PathSet κ) :=
  List.not_mem_nil

/-- Whether a set has no members. -/
def isEmpty (set : PathSet κ) : Bool := set.toList.isEmpty

/-- The number of members. -/
def size (set : PathSet κ) : Nat := set.toList.length

/-- Whether a path is a member. -/
def contains [DecidableEq κ] (set : PathSet κ) (path : κ) : Bool := decide (path ∈ set)

/-! ## Taking members away -/

/-- The members with a property. -/
def filter (set : PathSet κ) (keep : κ → Bool) : PathSet κ :=
  ⟨set.toList.filter keep, set.sorted.filter keep⟩

@[simp] theorem mem_filter {set : PathSet κ} {keep : κ → Bool} {path : κ} :
    path ∈ set.filter keep ↔ path ∈ set ∧ keep path = true :=
  List.mem_filter

variable [DecidableEq κ]

/-- The set without a path. -/
def erase (set : PathSet κ) (path : κ) : PathSet κ :=
  set.filter fun member => member != path

@[simp] theorem mem_erase {set : PathSet κ} {path other : κ} :
    other ∈ set.erase path ↔ other ∈ set ∧ other ≠ path := by
  simp [erase]

/-- The members of the first set that are not in the second. -/
def diff (first second : PathSet κ) : PathSet κ :=
  first.filter fun member => !second.contains member

instance : SDiff (PathSet κ) := ⟨diff⟩

@[simp] theorem mem_sdiff {first second : PathSet κ} {path : κ} :
    path ∈ first \ second ↔ path ∈ first ∧ path ∉ second := by
  show path ∈ first.filter _ ↔ _
  simp [contains]

/-! ## Adding a member -/

variable [DecidableLT κ]

/-- Puts a path into a sorted list, unless it is there. -/
def insertSorted (path : κ) : List κ → List κ
  | [] => [path]
  | first :: rest =>
    if path < first then path :: first :: rest
    else if path = first then first :: rest
    else first :: insertSorted path rest

theorem mem_insertSorted {path other : κ} {paths : List κ} :
    other ∈ insertSorted path paths ↔ other = path ∨ other ∈ paths := by
  induction paths with
  | nil => simp [insertSorted]
  | cons first rest ih =>
    unfold insertSorted
    split
    · simp
    · split
      · rename_i heq
        subst heq
        simp
      · simp only [List.mem_cons, ih]
        constructor
        · rintro (h | h | h) <;> simp [h]
        · rintro (h | h | h) <;> simp [h]

variable [LE κ] [Std.IsLinearOrder κ] [Std.LawfulOrderLT κ]

theorem insertSorted_sorted {path : κ} {paths : List κ}
    (h : paths.Pairwise (· < ·)) : (insertSorted path paths).Pairwise (· < ·) := by
  induction paths with
  | nil => simp [insertSorted]
  | cons first rest ih =>
    unfold insertSorted
    have hrest := List.pairwise_cons.mp h
    split
    · rename_i hlt
      refine List.pairwise_cons.mpr ⟨?_, h⟩
      intro other hother
      rcases List.mem_cons.mp hother with rfl | hother
      · exact hlt
      · exact Std.lt_trans hlt (hrest.1 other hother)
    · split
      · exact h
      · rename_i hnlt hne
        refine List.pairwise_cons.mpr ⟨?_, ih hrest.2⟩
        intro other hother
        rcases mem_insertSorted.mp hother with rfl | hother
        · rcases Decidable.em (first < other) with hlt | hnot
          · exact hlt
          · exact absurd (Std.le_antisymm (Std.not_lt.mp hnot) (Std.not_lt.mp hnlt)) hne
        · exact hrest.1 other hother

/-- The set with one more member. -/
def insert (set : PathSet κ) (path : κ) : PathSet κ :=
  ⟨insertSorted path set.toList, insertSorted_sorted set.sorted⟩

@[simp] theorem mem_insert {set : PathSet κ} {path other : κ} :
    other ∈ set.insert path ↔ other = path ∨ other ∈ set :=
  mem_insertSorted

/-- The set of the paths in a list. -/
def ofList (paths : List κ) : PathSet κ :=
  paths.foldl insert ∅

private theorem mem_foldl_insert {paths : List κ} {set : PathSet κ} {path : κ} :
    path ∈ paths.foldl insert set ↔ path ∈ paths ∨ path ∈ set := by
  induction paths generalizing set with
  | nil => simp
  | cons first rest ih =>
    simp only [List.foldl_cons, ih, mem_insert, List.mem_cons]
    constructor
    · rintro (h | h | h) <;> simp [h]
    · rintro ((h | h) | h) <;> simp [h]

@[simp] theorem mem_ofList {paths : List κ} {path : κ} :
    path ∈ ofList paths ↔ path ∈ paths := by
  simp [ofList, mem_foldl_insert]

/-! ## Several sets -/

/-- The members of either set. -/
def union (first second : PathSet κ) : PathSet κ :=
  second.toList.foldl insert first

instance : Union (PathSet κ) := ⟨union⟩

@[simp] theorem mem_union {first second : PathSet κ} {path : κ} :
    path ∈ first ∪ second ↔ path ∈ first ∨ path ∈ second := by
  show path ∈ second.toList.foldl insert first ↔ _
  rw [mem_foldl_insert, or_comm]
  rfl

/-- The members of a set of sets. -/
def unionOf (sets : List (PathSet κ)) : PathSet κ :=
  sets.foldl union ∅

/-- The sizes of several sets, added up. -/
def totalSize : List (PathSet κ) → Nat
  | [] => 0
  | set :: sets => set.size + totalSize sets

end PathSet
end ChangeImpact
