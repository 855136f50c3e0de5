import ChangeImpact.PathSet
import Mathlib.Data.List.Perm.Basic

/-!
# Members of sets of paths

A set of paths is determined by its members (`PathSet.ext`).  The sizes of sets are only needed to
bound searches, so it is enough to know how a size is bounded and what it loses when members go.
-/

namespace ChangeImpact

/-! ## Sorted lists of paths -/

theorem pairwise_mergeSort_le (paths : List String) :
    (paths.mergeSort (· ≤ ·)).Pairwise fun first second => decide (first ≤ second) = true := by
  refine List.pairwise_mergeSort (fun first second third hfirst hsecond => ?_) (fun first second => ?_) paths
  · rw [decide_eq_true_iff] at *
    exact String.le_trans hfirst hsecond
  · rw [Bool.or_eq_true, decide_eq_true_iff, decide_eq_true_iff]
    exact String.le_total first second

/-- Lists with the same members, each as often, are the same when they are sorted. -/
theorem mergeSort_eq_of_perm {first second : List String} (h : first.Perm second) :
    first.mergeSort (· ≤ ·) = second.mergeSort (· ≤ ·) := by
  refine (((List.mergeSort_perm first _).trans h).trans (List.mergeSort_perm second _).symm).eq_of_pairwise
    (fun _ _ _ _ hle hge => ?_) (pairwise_mergeSort_le first) (pairwise_mergeSort_le second)
  rw [decide_eq_true_iff] at hle hge
  exact String.le_antisymm hle hge

namespace PathSet

theorem nodup_toList (set : PathSet) : set.toList.Nodup :=
  set.sorted.imp fun hlt => String.ne_of_lt hlt

/-- Sets with the same members are equal. -/
theorem ext {first second : PathSet} (h : ∀ path, path ∈ first ↔ path ∈ second) :
    first = second := by
  have hperm : first.toList.Perm second.toList :=
    (List.perm_ext_iff_of_nodup first.nodup_toList second.nodup_toList).mpr h
  have hlists : first.toList = second.toList :=
    hperm.eq_of_pairwise (fun _ _ _ _ hlt hgt => absurd hgt (String.lt_asymm hlt))
      first.sorted second.sorted
  cases first
  cases second
  cases hlists
  rfl

@[simp] theorem contains_eq_true {set : PathSet} {path : String} :
    set.contains path = true ↔ path ∈ set :=
  decide_eq_true_iff

@[simp] theorem mem_toList {set : PathSet} {path : String} : path ∈ set.toList ↔ path ∈ set :=
  Iff.rfl

theorem isEmpty_eq_false_iff {set : PathSet} : set.isEmpty = false ↔ ∃ path, path ∈ set := by
  rw [isEmpty, List.isEmpty_eq_false_iff_exists_mem]
  rfl

theorem filter_filter (set : PathSet) (keep other : String → Bool) :
    (set.filter keep).filter other = set.filter fun path => keep path && other path :=
  ext fun path => by rw [mem_filter, mem_filter, mem_filter, Bool.and_eq_true, and_assoc]

private theorem mem_foldl_union {sets : List PathSet} {start : PathSet} {path : String} :
    path ∈ sets.foldl union start ↔ path ∈ start ∨ ∃ set ∈ sets, path ∈ set := by
  induction sets generalizing start with
  | nil => simp
  | cons first rest ih =>
      have hunion : path ∈ start.union first ↔ path ∈ start ∨ path ∈ first := mem_union
      rw [List.foldl_cons, ih, hunion, or_assoc]
      simp

@[simp] theorem mem_unionOf {sets : List PathSet} {path : String} :
    path ∈ unionOf sets ↔ ∃ set ∈ sets, path ∈ set := by
  rw [unionOf, mem_foldl_union]
  simp

/-! ## Sizes -/

/-- A set is no larger than a list that holds its members. -/
theorem size_le_length {set : PathSet} {paths : List String} (h : ∀ path ∈ set, path ∈ paths) :
    set.size ≤ paths.length :=
  (List.subperm_of_subset set.nodup_toList h).length_le

/-- A list without repetitions makes a set of its own length. -/
theorem size_ofList {paths : List String} (h : paths.Nodup) : (ofList paths).size = paths.length :=
  ((List.perm_ext_iff_of_nodup (nodup_toList _) h).mpr fun _ => mem_ofList).length_eq

theorem length_flatMap_toList (sets : List PathSet) :
    (sets.flatMap toList).length = totalSize sets := by
  induction sets with
  | nil => rfl
  | cons set sets ih => rw [List.flatMap_cons, List.length_append, ih, totalSize, size]

theorem totalSize_append (first second : List PathSet) :
    totalSize (first ++ second) = totalSize first + totalSize second := by
  rw [← length_flatMap_toList, List.flatMap_append, List.length_append, length_flatMap_toList,
    length_flatMap_toList]

/-- A union has no more members than its sets have together. -/
theorem size_unionOf_le (sets : List PathSet) : (unionOf sets).size ≤ totalSize sets := by
  rw [← length_flatMap_toList]
  refine size_le_length fun path hpath => ?_
  obtain ⟨set, hset, hmem⟩ := mem_unionOf.mp hpath
  exact List.mem_flatMap.mpr ⟨set, hset, hmem⟩

/-- What a set loses when members are taken away. -/
theorem size_sdiff_add_size {set part : PathSet} (h : ∀ path ∈ part, path ∈ set) :
    (set \ part).size + part.size = set.size := by
  have hsplit : set.toList.Perm ((set \ part).toList ++ part.toList) := by
    refine (List.perm_ext_iff_of_nodup set.nodup_toList ?_).mpr fun path => ?_
    · refine List.nodup_append.mpr ⟨nodup_toList _, nodup_toList _, ?_⟩
      rintro path hleft other hright rfl
      exact (mem_sdiff.mp hleft).2 hright
    · rw [List.mem_append, mem_toList, mem_toList, mem_toList, mem_sdiff]
      by_cases hpart : path ∈ part
      · simp [hpart, h path hpart]
      · simp [hpart]
  simpa [size] using hsplit.length_eq.symm

end PathSet
end ChangeImpact
