import ChangeImpact.Table
import Mathlib.Data.List.Basic
import Mathlib.Data.List.Induction

/-!
# Keys and look-ups of tables

A table is read in three ways: by its keys, by looking a key up, and by its list of entries.  This file
says that the three agree, and what a table that is made of a list of entries holds: under every key
the value that comes last.  The keys in their order and the look-ups together make up a table
(`Table.ext`).
-/

namespace ChangeImpact.Table

variable {ν : Type}

/-! ## Keys against look-ups -/

theorem mem_iff_exists {table : Table ν} {key : String} :
    key ∈ table ↔ ∃ value, table.get? key = some value := by
  rw [← Option.ne_none_iff_exists', Ne, get?_eq_none_iff, Decidable.not_not]

theorem isSome_get?_iff {table : Table ν} {key : String} : (table.get? key).isSome = true ↔ key ∈ table := by
  rw [mem_iff_exists, Option.isSome_iff_exists]

theorem mem_of_get? {table : Table ν} {key : String} {value : ν}
    (h : table.get? key = some value) : key ∈ table :=
  mem_iff_exists.mpr ⟨value, h⟩

theorem mem_keys {table : Table ν} {key : String} : key ∈ table.keys ↔ key ∈ table := Iff.rfl

theorem nodup_keys (table : Table ν) : table.keys.Nodup := table.distinct

/-- Two tables with the same look-ups have the same keys. -/
theorem mem_congr {μ : Type} {first : Table ν} {second : Table μ} {key : String}
    (h : (first.get? key).isSome = (second.get? key).isSome) : key ∈ first ↔ key ∈ second := by
  rw [← isSome_get?_iff, ← isSome_get?_iff, h]

@[simp] theorem not_mem_empty {key : String} : key ∉ (∅ : Table ν) :=
  get?_eq_none_iff.mp (get?_empty key)

@[simp] theorem mem_insert {table : Table ν} {key other : String} {value : ν} :
    other ∈ table.insert key value ↔ other = key ∨ other ∈ table := by
  rw [mem_iff_exists, mem_iff_exists, get?_insert]
  by_cases h : other = key
  · simp [h]
  · simp [h]

@[simp] theorem mem_erase {table : Table ν} {key other : String} :
    other ∈ table.erase key ↔ other ≠ key ∧ other ∈ table := by
  rw [mem_iff_exists, mem_iff_exists, get?_erase]
  by_cases h : other = key
  · simp [h]
  · simp [h]

@[simp] theorem mem_modify {table : Table ν} {key other : String} {change : ν → ν} :
    other ∈ table.modify key change ↔ other ∈ table := by
  refine mem_congr ?_
  rw [get?_modify]
  split
  · simp
  · rfl

/-! ## Entries against look-ups -/

/-- What is looked up in a list of entries is in the list. -/
private theorem mem_of_lookup {entries : List (String × ν)} {key : String} {value : ν}
    (h : entries.lookup key = some value) : (key, value) ∈ entries := by
  obtain ⟨before, after, rfl, -⟩ := List.lookup_eq_some_iff.mp h
  simp

/-- In a list of entries with distinct keys every entry is found under its key. -/
theorem lookup_eq_some_iff_of_nodup {entries : List (String × ν)}
    (h : (entries.map (·.1)).Nodup) {key : String} {value : ν} :
    entries.lookup key = some value ↔ (key, value) ∈ entries := by
  refine ⟨mem_of_lookup, fun hmem => ?_⟩
  obtain ⟨before, after, rfl⟩ := List.append_of_mem hmem
  refine List.lookup_eq_some_iff.mpr ⟨before, after, rfl, fun entry hentry => ?_⟩
  rw [List.map_append, List.nodup_append] at h
  have hne := h.2.2 entry.1 (List.mem_map.mpr ⟨entry, hentry, rfl⟩) key (by simp)
  simpa using fun heq : key = entry.1 => hne heq.symm

theorem mem_entries_iff {table : Table ν} {key : String} {value : ν} :
    (key, value) ∈ table.entries ↔ table.get? key = some value :=
  (lookup_eq_some_iff_of_nodup table.distinct).symm

/-- The entries are determined by the keys and the look-ups. -/
theorem entries_eq_filterMap (table : Table ν) :
    table.entries = table.keys.filterMap fun key => (table.get? key).map fun value => (key, value) := by
  rw [keys, List.filterMap_map]
  refine List.filterMap_some.symm.trans (List.filterMap_congr fun entry hentry => ?_)
  rw [Function.comp_apply, mem_entries_iff.mp hentry]
  rfl

/-- Tables with the same keys in the same order and the same look-ups are equal. -/
theorem ext {first second : Table ν} (hkeys : first.keys = second.keys)
    (hvalues : ∀ key, first.get? key = second.get? key) : first = second := by
  have hentries : first.entries = second.entries := by
    rw [entries_eq_filterMap, entries_eq_filterMap, hkeys]
    simp only [hvalues]
  cases first
  cases second
  cases hentries
  rfl

@[simp] theorem keys_map {μ : Type} (table : Table ν) (change : String → ν → μ) :
    (table.map change).keys = table.keys :=
  List.map_map ..

@[simp] theorem keys_modify (table : Table ν) (key : String) (change : ν → ν) :
    (table.modify key change).keys = table.keys :=
  table.keys_map _

/-- A key that is there keeps its place, and a new one comes last. -/
theorem keys_insert (table : Table ν) (key : String) (value : ν) :
    (table.insert key value).keys = if key ∈ table then table.keys else table.keys ++ [key] := by
  unfold insert
  split
  · exact table.keys_modify key _
  · exact List.map_append

/-- A change that keeps the value of a key keeps the table. -/
theorem modify_eq_self {table : Table ν} {key : String} {change : ν → ν}
    (h : ∀ value, table.get? key = some value → change value = value) :
    table.modify key change = table := by
  refine ext (table.keys_modify key change) fun other => ?_
  rw [get?_modify]
  split
  · rename_i heq
    subst heq
    cases hvalue : table.get? other with
    | none => rfl
    | some value => exact congrArg some (h value hvalue)
  · rfl

@[simp] theorem mem_map {μ : Type} {table : Table ν} {change : String → ν → μ} {key : String} :
    key ∈ table.map change ↔ key ∈ table := by
  rw [← mem_keys, keys_map, mem_keys]

/-! ## Some of the keys -/

/-- The entries whose keys are kept. -/
def restrict (table : Table ν) (keep : String → Bool) : Table ν where
  entries := table.entries.filter fun entry => keep entry.1
  distinct := table.distinct.sublist (List.filter_sublist.map _)

theorem erase_eq_restrict (table : Table ν) (key : String) : table.erase key = table.restrict (· != key) := rfl

theorem keys_restrict (table : Table ν) (keep : String → Bool) :
    (table.restrict keep).keys = table.keys.filter keep := by
  rw [keys, keys, List.filter_map]
  rfl

theorem keys_erase (table : Table ν) (key : String) : (table.erase key).keys = table.keys.filter (· != key) := by
  rw [erase_eq_restrict, keys_restrict]

theorem get?_restrict (table : Table ν) (keep : String → Bool) (key : String) :
    (table.restrict keep).get? key = if keep key then table.get? key else none := by
  refine Option.ext fun value => ?_
  rw [← mem_entries_iff, restrict, List.mem_filter, mem_entries_iff]
  by_cases hkeep : keep key = true
  · simp [hkeep]
  · simp [hkeep]

@[simp] theorem mem_restrict {table : Table ν} {keep : String → Bool} {key : String} :
    key ∈ table.restrict keep ↔ key ∈ table ∧ keep key = true := by
  rw [← mem_keys, keys_restrict, List.mem_filter, mem_keys]

theorem restrict_restrict (table : Table ν) (keep other : String → Bool) :
    (table.restrict keep).restrict other = table.restrict fun key => keep key && other key := by
  refine ext ?_ fun key => ?_
  · rw [keys_restrict, keys_restrict, keys_restrict, List.filter_filter]
    simp only [Bool.and_comm]
  · rw [get?_restrict, get?_restrict, get?_restrict]
    cases keep key <;> cases other key <;> rfl

theorem mem_sortedEntries {table : Table ν} {entry : String × ν} :
    entry ∈ table.sortedEntries ↔ entry ∈ table.entries :=
  (List.mergeSort_perm table.entries _).mem_iff

theorem nodup_sortedEntries (table : Table ν) : (table.sortedEntries.map (·.1)).Nodup :=
  ((List.mergeSort_perm table.entries _).map _).nodup_iff.mpr table.distinct

/-- Sorting the entries does not change what is looked up. -/
theorem lookup_sortedEntries (table : Table ν) (key : String) :
    table.sortedEntries.lookup key = table.get? key := by
  refine Option.ext fun value => ?_
  rw [lookup_eq_some_iff_of_nodup table.nodup_sortedEntries, mem_sortedEntries, mem_entries_iff]

theorem pairwise_le_sortedEntries (table : Table ν) :
    table.sortedEntries.Pairwise fun first second => first.1 ≤ second.1 := by
  have hsorted : table.sortedEntries.Pairwise fun first second => decide (first.1 ≤ second.1) = true := by
    refine List.pairwise_mergeSort (fun first second third hfirst hsecond => ?_) (fun first second => ?_) _
    · rw [decide_eq_true_iff] at *
      exact String.le_trans hfirst hsecond
    · rw [Bool.or_eq_true, decide_eq_true_iff, decide_eq_true_iff]
      exact String.le_total first.1 second.1
  exact hsorted.imp decide_eq_true_iff.mp

theorem pairwise_lt_sortedEntries (table : Table ν) :
    table.sortedEntries.Pairwise fun first second => first.1 < second.1 :=
  (table.pairwise_le_sortedEntries.and (List.pairwise_map.mp table.nodup_sortedEntries)).imp
    fun ⟨hle, hne⟩ => Std.lt_of_le_of_ne hle hne

theorem length_keys (table : Table ν) : table.keys.length = table.size :=
  List.length_map ..

/-! ## Tables of a list of entries -/

/-- A later entry for a key hides the earlier ones. -/
private theorem get?_foldl_insert (entries : List (String × ν)) (table : Table ν) (key : String) :
    (entries.foldl (fun table entry => table.insert entry.1 entry.2) table).get? key =
      (entries.reverse.lookup key).or (table.get? key) := by
  induction entries generalizing table with
  | nil => rfl
  | cons entry rest ih =>
      rw [List.foldl_cons, ih, get?_insert, List.reverse_cons, List.lookup_append,
        Option.or_assoc, List.lookup_cons]
      by_cases h : key = entry.1
      · simp [h]
      · simp [h, beq_false_of_ne h]

theorem get?_ofList (entries : List (String × ν)) (key : String) :
    (ofList entries).get? key = entries.reverse.lookup key := by
  rw [ofList, get?_foldl_insert, get?_empty, Option.or_none]

theorem mem_ofList {entries : List (String × ν)} {key : String} :
    key ∈ ofList entries ↔ key ∈ entries.map (·.1) := by
  rw [← isSome_get?_iff, get?_ofList, List.lookup_isSome_iff, List.mem_map]
  constructor
  · rintro ⟨entry, hentry, hkey⟩
    exact ⟨entry, List.mem_reverse.mp hentry, (beq_iff_eq.mp hkey).symm⟩
  · rintro ⟨entry, hentry, rfl⟩
    exact ⟨entry, List.mem_reverse.mpr hentry, beq_self_eq_true _⟩

theorem mem_of_get?_ofList {entries : List (String × ν)} {key : String} {value : ν}
    (h : (ofList entries).get? key = some value) : (key, value) ∈ entries := by
  rw [get?_ofList] at h
  exact List.mem_reverse.mp (mem_of_lookup h)

/-- The last entry for a key counts. -/
theorem get?_ofList_eq_some_iff {entries : List (String × ν)} {key : String} {value : ν} :
    (ofList entries).get? key = some value ↔
      ∃ earlier later, entries = earlier ++ (key, value) :: later ∧ key ∉ later.map (·.1) := by
  rw [get?_ofList, List.lookup_eq_some_iff]
  have hlater : ∀ later : List (String × ν), key ∉ later.map (·.1) ↔ ∀ entry ∈ later, (key != entry.1) = true := by
    intro later
    simp only [List.mem_map, not_exists, not_and, bne_iff_ne]
    exact forall₂_congr fun entry _ => ne_comm
  constructor
  · rintro ⟨later, earlier, hentries, hnot⟩
    refine ⟨earlier.reverse, later.reverse, ?_, ?_⟩
    · rw [← List.reverse_reverse entries, hentries]
      simp
    · rw [List.map_reverse, List.mem_reverse, hlater]
      exact hnot
  · rintro ⟨earlier, later, rfl, hnot⟩
    refine ⟨later.reverse, earlier.reverse, by simp, ?_⟩
    rw [hlater] at hnot
    exact fun entry hentry => hnot entry (List.mem_reverse.mp hentry)

theorem ofList_append (entries : List (String × ν)) (key : String) (value : ν) :
    ofList (entries ++ [(key, value)]) = (ofList entries).insert key value := by
  rw [ofList, List.foldl_append]
  rfl

/-- Every key stands where it came first. -/
theorem keys_ofList (entries : List (String × ν)) : (ofList entries).keys = (entries.map (·.1)).eraseDups := by
  induction entries using List.reverseRecOn with
  | nil => rfl
  | append_singleton entries entry ih =>
      rw [ofList_append, keys_insert, ih, List.map_append, List.eraseDups_append]
      split
      · rename_i hold
        simp [List.removeAll, mem_ofList.mp hold]
      · rename_i hnew
        rw [mem_ofList] at hnew
        simp [List.removeAll, hnew, List.eraseDups_cons]

theorem get?_ofList_append (entries : List (String × ν)) (key : String) (value : ν)
    (other : String) : (ofList (entries ++ [(key, value)])).get? other =
      if other = key then some value else (ofList entries).get? other := by
  rw [ofList_append, get?_insert]

/-- Leaving out the entries for a key takes the key out of the table. -/
theorem get?_ofList_filter (entries : List (String × ν)) (key other : String) :
    (ofList (entries.filter fun entry => entry.1 != key)).get? other =
      if other = key then none else (ofList entries).get? other := by
  induction entries using List.reverseRecOn with
  | nil => simp [ofList]
  | append_singleton entries entry ih =>
      rw [List.filter_append, get?_ofList_append]
      by_cases hkey : entry.1 = key
      · rw [List.filter_cons_of_neg (by simp [hkey]), List.filter_nil, List.append_nil, ih, hkey]
        by_cases hother : other = key
        · simp [hother]
        · simp [hother]
      · rw [List.filter_cons_of_pos (by simp [hkey]), List.filter_nil, get?_ofList_append, ih]
        by_cases hother : other = entry.1
        · simp [hother, hkey]
        · simp [hother]

/-- A table of values that belong to their keys does not depend on the order of the entries. -/
theorem get?_ofList_map (keys : List String) (value : String → ν) (key : String) :
    (ofList (keys.map fun key => (key, value key))).get? key =
      if key ∈ keys then some (value key) else none := by
  split
  · rename_i hmem
    have hkey : key ∈ ofList (keys.map fun key => (key, value key)) := by
      rw [mem_ofList, List.map_map]
      exact List.mem_map.mpr ⟨key, hmem, rfl⟩
    obtain ⟨found, hfound⟩ := mem_iff_exists.mp hkey
    have hentry := mem_of_lookup (get?_ofList _ key ▸ hfound)
    obtain ⟨other, -, heq⟩ := List.mem_map.mp (List.mem_reverse.mp hentry)
    obtain ⟨rfl, rfl⟩ := Prod.mk.inj heq
    exact hfound
  · rename_i hnot
    rw [get?_eq_none_iff, mem_ofList, List.map_map]
    rintro hmem
    obtain ⟨other, hother, heq⟩ := List.mem_map.mp hmem
    exact hnot (heq ▸ hother)

/-- The entries of a table make up a table with the same look-ups. -/
theorem get?_ofList_entries (table : Table ν) (key : String) :
    (ofList table.entries).get? key = table.get? key := by
  have hnodup : (table.entries.reverse.map (·.1)).Nodup := by
    rw [List.map_reverse, List.Nodup, List.pairwise_reverse]
    exact table.distinct.imp fun hne => hne.symm
  refine Option.ext fun value => ?_
  rw [get?_ofList, lookup_eq_some_iff_of_nodup hnodup, List.mem_reverse]
  exact mem_entries_iff

end ChangeImpact.Table
