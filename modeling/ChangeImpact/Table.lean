/-!
# Tables

A table assigns values to keys and remembers in which order the keys first came.  Giving a new value
to a key that is there leaves the key in its place.  The keys are texts unless something else is said.

* `Table.get?_insert` and `Table.get?_erase` say what a look-up finds after a change.
-/

namespace ChangeImpact

/-- Values by their keys, in the order in which the keys came. -/
structure Table (ν : Type) (κ : Type := String) where
  entries : List (κ × ν)
  distinct : (entries.map (·.1)).Nodup := by simp

namespace Table

variable {ν κ : Type}

/-- The table without entries. -/
def empty : Table ν κ := { entries := [] }

instance : EmptyCollection (Table ν κ) := ⟨empty⟩

instance : Inhabited (Table ν κ) := ⟨empty⟩

/-- The keys in the order in which they came. -/
def keys (table : Table ν κ) : List κ := table.entries.map (·.1)

/-- The values in the order of their keys. -/
def values (table : Table ν κ) : List ν := table.entries.map (·.2)

/-- The number of entries. -/
def size (table : Table ν κ) : Nat := table.entries.length

instance : Membership κ (Table ν κ) := ⟨fun table key => key ∈ table.keys⟩

/-- Changes every value. -/
def map {μ : Type} (table : Table ν κ) (change : κ → ν → μ) : Table μ κ where
  entries := table.entries.map fun entry => (entry.1, change entry.1 entry.2)
  distinct := by
    have h := table.distinct
    simpa [Function.comp_def] using h

variable [DecidableEq κ]

/-- The value of a key. -/
def get? (table : Table ν κ) (key : κ) : Option ν :=
  table.entries.lookup key

/-- Whether there is a value for a key. -/
def contains (table : Table ν κ) (key : κ) : Bool :=
  table.entries.any fun entry => entry.1 == key

theorem contains_iff {table : Table ν κ} {key : κ} :
    table.contains key = true ↔ key ∈ table := by
  show _ ↔ key ∈ table.entries.map (·.1)
  simp [contains]

instance (key : κ) (table : Table ν κ) : Decidable (key ∈ table) :=
  decidable_of_iff _ contains_iff

/-- Changes the value of a key, if it has one. -/
def modify (table : Table ν κ) (key : κ) (change : ν → ν) : Table ν κ :=
  table.map fun other value => if other = key then change value else value

/-- The table without a key. -/
def erase (table : Table ν κ) (key : κ) : Table ν κ where
  entries := table.entries.filter fun entry => entry.1 != key
  distinct := by
    have h := table.distinct
    exact h.sublist ((List.filter_sublist).map _)

/-- The table with a value for a key: a key that is there keeps its place. -/
def insert (table : Table ν κ) (key : κ) (value : ν) : Table ν κ :=
  if h : key ∈ table then table.modify key fun _ => value
  else
    { entries := table.entries ++ [(key, value)]
      distinct := by
        have hdistinct := table.distinct
        have hnot : key ∉ table.entries.map (·.1) := h
        rw [List.map_append, List.nodup_append]
        refine ⟨hdistinct, by simp, ?_⟩
        intro first hfirst second hsecond
        simp only [List.map_cons, List.map_nil, List.mem_singleton] at hsecond
        subst hsecond
        exact fun heq => hnot (heq ▸ hfirst) }

/-- The entries by increasing key. -/
def sortedEntries [LE κ] [DecidableLE κ] (table : Table ν κ) : List (κ × ν) :=
  table.entries.mergeSort fun first second => first.1 ≤ second.1

/-- The table of a list of entries: a later entry replaces the value of an earlier one. -/
def ofList (entries : List (κ × ν)) : Table ν κ :=
  entries.foldl (fun table entry => table.insert entry.1 entry.2) ∅

/-! ## Looking up after a change -/

private theorem lookup_map_value {μ : Type} (change : κ → ν → μ) (key : κ)
    (entries : List (κ × ν)) :
    (entries.map fun entry => (entry.1, change entry.1 entry.2)).lookup key =
      (entries.lookup key).map (change key) := by
  induction entries with
  | nil => rfl
  | cons entry rest ih =>
    rw [List.map_cons, List.lookup_cons, List.lookup_cons, ih]
    by_cases h : key = entry.1
    · simp [h]
    · simp [beq_false_of_ne h]

private theorem lookup_filter_ne (key other : κ) (entries : List (κ × ν)) :
    (entries.filter fun entry => entry.1 != key).lookup other =
      if other = key then none else entries.lookup other := by
  induction entries with
  | nil => simp
  | cons entry rest ih =>
    by_cases hkey : entry.1 = key
    · rw [List.filter_cons_of_neg (by simp [hkey]), ih]
      split
      · rfl
      · rename_i hne
        rw [List.lookup_cons, beq_false_of_ne (fun h => hne (h.trans hkey))]
    · rw [List.filter_cons_of_pos (by simpa using hkey), List.lookup_cons, List.lookup_cons, ih]
      by_cases hother : other = entry.1
      · have : other ≠ key := fun h => hkey (hother.symm.trans h)
        simp [hother, hkey]
      · simp [beq_false_of_ne hother]

private theorem lookup_append_single (key other : κ) (value : ν)
    (entries : List (κ × ν)) :
    (entries ++ [(key, value)]).lookup other =
      match entries.lookup other with
      | some found => some found
      | none => if other = key then some value else none := by
  induction entries with
  | nil =>
    rw [List.nil_append, List.lookup_cons]
    by_cases h : other = key
    · simp [h]
    · simp [beq_false_of_ne h, h]
  | cons entry rest ih =>
    rw [List.cons_append, List.lookup_cons, List.lookup_cons, ih]
    by_cases h : other = entry.1
    · simp [h]
    · simp [beq_false_of_ne h]

@[simp] theorem get?_empty (key : κ) : (∅ : Table ν κ).get? key = none := rfl

@[simp] theorem get?_map {μ : Type} (table : Table ν κ) (change : κ → ν → μ) (key : κ) :
    (table.map change).get? key = (table.get? key).map (change key) :=
  lookup_map_value change key table.entries

theorem get?_modify (table : Table ν κ) (key other : κ) (change : ν → ν) :
    (table.modify key change).get? other =
      if other = key then (table.get? other).map change else table.get? other := by
  rw [modify, get?_map]
  split
  · rfl
  · simp

theorem get?_erase (table : Table ν κ) (key other : κ) :
    (table.erase key).get? other = if other = key then none else table.get? other :=
  lookup_filter_ne key other table.entries

theorem get?_eq_none_iff {table : Table ν κ} {key : κ} :
    table.get? key = none ↔ key ∉ table := by
  show table.entries.lookup key = none ↔ key ∉ table.entries.map (·.1)
  induction table.entries with
  | nil => simp
  | cons entry rest ih =>
    rw [List.lookup_cons]
    by_cases h : key = entry.1
    · simp [h]
    · simpa [beq_false_of_ne h, h] using ih

theorem get?_insert (table : Table ν κ) (key other : κ) (value : ν) :
    (table.insert key value).get? other = if other = key then some value else table.get? other := by
  unfold insert
  split
  · rename_i hmem
    rw [get?_modify]
    split
    · rename_i heq
      subst heq
      cases hfound : table.get? other with
      | none => exact absurd hmem (get?_eq_none_iff.mp hfound)
      | some found => rfl
    · rfl
  · rename_i hnot
    have hnone : table.get? key = none := get?_eq_none_iff.mpr hnot
    show (table.entries ++ [(key, value)]).lookup other = _
    rw [lookup_append_single]
    split
    · rename_i found hfound
      split
      · rename_i heq
        subst heq
        have : table.entries.lookup other = none := hnone
        rw [this] at hfound
        contradiction
      · exact hfound.symm
    · rename_i hmissing
      split
      · rfl
      · exact hmissing.symm

end Table
end ChangeImpact
