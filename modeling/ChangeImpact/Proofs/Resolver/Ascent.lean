import ChangeImpact.Proofs.Resolver.Directories
import ChangeImpact.Proofs.Rounds
import Mathlib.Tactic.Tauto

/-!
# The search for directories, round by round

The directories of a resolver are found by two loops: the outer one takes the known files one after another, and
the inner one climbs from the directory of a file towards the root.  A climb is over when nothing is left of the
path, or at a directory that has been found before.

* Going up does not always come to nothing: `/` and `//` are their own directories (`directoryOf_eq_self_iff`).  A
  climb that comes to such a place adds it and meets it again in the next round, so it ends because of what it
  has found (`climb_of_slashes`).  Every round of a climb but its last adds a directory, and so the number of rounds
  is known (`endsAfter_directories`).
* A climb that stops early misses nothing, because what has been found is closed under going up whenever a
  climb begins (`mem_directories`).
-/

namespace ChangeImpact.Resolver

/-! ## Where going up comes to rest -/

theorem directoryOf_eq_self_iff {path : String} : Path.directoryOf path = path ↔ ∀ c ∈ path.toList, c = '/' := by
  rw [← Path.directory_eq_self_iff, Path.directoryOf, ← String.toList_inj, String.toList_ofList]

/-- A climb that comes to rest at slashes adds them, unless they are there, and goes no further. -/
theorem climb_of_slashes {seen : Std.TreeSet String} {directory : String} (hsome : directory ≠ "")
    (hslashes : ∀ c ∈ directory.toList, c = '/') (hnew : directory ∉ seen) :
    climb seen directory = seen.insert directory := by
  have hrest : Path.directoryOf directory = directory := directoryOf_eq_self_iff.mpr hslashes
  rw [climb, if_neg (not_or.mpr ⟨hsome, hnew⟩), hrest, climb, if_pos (.inr Std.TreeSet.mem_insert_self)]

/-! ## Rounds -/

/-- Where the search for directories stands: it takes one file after another and climbs from each of them. -/
structure Ascent where
  /-- The files that have not been taken yet. -/
  files : List String
  /-- Where the climb from the last file stands, unless it has stopped. -/
  position : Option String
  /-- The directories found so far. -/
  seen : Std.TreeSet String

namespace Ascent

/-- Nothing has been taken yet. -/
def start (files : List String) : Ascent := ⟨files, none, ∅⟩

/-- The next round: a climb that goes on adds the directory where it stands and goes to the one above, and after
a climb has stopped the next file is taken. -/
def next? (state : Ascent) : Option Ascent :=
  match state.position, state.files with
  | some directory, files =>
    if directory = "" ∨ directory ∈ state.seen then some ⟨files, none, state.seen⟩
    else some ⟨files, some (Path.directoryOf directory), state.seen.insert directory⟩
  | none, file :: files => some ⟨files, some (Path.directoryOf file), state.seen⟩
  | none, [] => none

/-- A climb stops.  Every round but the last one adds a directory. -/
theorem exists_rounds_climb (files : List String) (seen : Std.TreeSet String) (directory : String) :
    ∃ count, Rounds next? count ⟨files, some directory, seen⟩ ⟨files, none, climb seen directory⟩ ∧
      count + seen.size = (climb seen directory).size + 1 := by
  fun_induction climb seen directory with
  | case1 seen directory hstop =>
      have hround : next? ⟨files, some directory, seen⟩ = some ⟨files, none, seen⟩ := if_pos hstop
      exact ⟨1, .single hround, Nat.add_comm ..⟩
  | case2 seen directory hgo ih =>
      obtain ⟨count, hrounds, hcount⟩ := ih
      have hround : next? ⟨files, some directory, seen⟩ =
          some ⟨files, some (Path.directoryOf directory), seen.insert directory⟩ := if_neg hgo
      have hsize : (seen.insert directory).size = seen.size + 1 := by
        rw [Std.TreeSet.size_insert, if_neg]
        exact fun hseen => hgo (.inr (Std.TreeSet.mem_iff_contains.mpr hseen))
      exact ⟨count + 1, .more hround hrounds, by omega⟩

/-- The search ends.  Two rounds for every file take it and stop the climb from it. -/
theorem exists_rounds_files (files : List String) (seen : Std.TreeSet String) :
    let found := files.foldl (fun seen file => climb seen (Path.directoryOf file)) seen
    ∃ count, Rounds next? count ⟨files, none, seen⟩ ⟨[], none, found⟩ ∧
      count + seen.size = 2 * files.length + found.size := by
  induction files generalizing seen with
  | nil => exact ⟨0, .none _, by simp⟩
  | cons file files ih =>
      obtain ⟨climbed, hclimb, hclimbed⟩ := exists_rounds_climb files seen (Path.directoryOf file)
      obtain ⟨count, hrest, hcount⟩ := ih (climb seen (Path.directoryOf file))
      have htaken : next? ⟨file :: files, none, seen⟩ = some ⟨files, some (Path.directoryOf file), seen⟩ := rfl
      refine ⟨climbed + count + 1, .more htaken (hclimb.trans hrest), ?_⟩
      rw [List.foldl_cons, List.length_cons]
      omega

end Ascent

/-- The search ends with the directories of the resolver, after two rounds for every file and one for every
directory. -/
theorem endsAfter_directories (files extensions : List String) (aliases : Aliases) :
    let found := (ofFiles files extensions aliases).directories
    EndsAfter Ascent.next? (2 * files.length + found.size) (.start files) ⟨[], none, found⟩ := by
  obtain ⟨count, hrounds, hcount⟩ := Ascent.exists_rounds_files files ∅
  rw [Std.TreeSet.size_emptyc, Nat.add_zero] at hcount
  exact ⟨hcount ▸ hrounds, rfl⟩

/-- Whatever the known files are, and in whatever order they are taken, the search for their directories comes to
an end.  It has then found the texts, and only those, that one reaches from a known file by going up at least once
and that are not empty; so the order makes no difference, and neither does stopping each climb at the first
directory that is there. -/
theorem search_finds_directories {files order : List String} (h : ∀ file, file ∈ order ↔ file ∈ files)
    (extensions : List String) (aliases : Aliases) :
    ∃ found : Std.TreeSet String,
      EndsAfter Ascent.next? (2 * order.length + found.size) (.start order) ⟨[], none, found⟩ ∧
      (∀ directory, directory ∈ found ↔
        directory ≠ "" ∧ ∃ file ∈ files, ∃ n, Path.directoryOf^[n + 1] file = directory) ∧
      ∀ directory, directory ∈ (ofFiles files extensions aliases).directories ↔ directory ∈ found := by
  have hfound : ∀ directory, directory ∈ (ofFiles order extensions aliases).directories ↔
      directory ≠ "" ∧ ∃ file ∈ files, ∃ n, Path.directoryOf^[n + 1] file = directory := by
    intro directory
    simp only [mem_directories, h]
  exact ⟨_, endsAfter_directories order extensions aliases, hfound, fun directory =>
    mem_directories.trans (hfound directory).symm⟩

/-- Climbs from absolute files end at a slash or at two, which are their own directories, and repeated slashes are
passed in one round. -/
theorem search_finds_directories_of_absolute_files :
    (∀ file, file ∈ ["//x", "/", "p//q/c.ts", "/a/b.ts", "//x"] ↔
      file ∈ ["/a/b.ts", "//x", "p//q/c.ts", "/"]) ∧
    ∃ found : Std.TreeSet String,
      EndsAfter Ascent.next? (2 * 5 + found.size) (.start ["//x", "/", "p//q/c.ts", "/a/b.ts", "//x"])
        ⟨[], none, found⟩ ∧
      (∀ directory ∈ ["/", "//", "/a", "p", "p//q"], directory ∈ found) ∧ "" ∉ found := by
  have horder : ∀ file, file ∈ ["//x", "/", "p//q/c.ts", "/a/b.ts", "//x"] ↔
      file ∈ ["/a/b.ts", "//x", "p//q/c.ts", "/"] := by
    intro file
    simp only [List.mem_cons, List.not_mem_nil, or_false]
    tauto
  obtain ⟨found, hends, hfound, -⟩ := search_finds_directories horder defaultExtensions []
  refine ⟨horder, found, hends, ?_, fun hempty => ((hfound "").mp hempty).1 rfl⟩
  simp only [List.forall_mem_cons, hfound]
  refine ⟨?_, ?_, ?_, ?_, ?_, List.forall_mem_nil _⟩
  · exact ⟨by decide, "/", by decide, 0, by decide⟩
  · exact ⟨by decide, "//x", by decide, 0, by decide⟩
  · exact ⟨by decide, "/a/b.ts", by decide, 0, by decide⟩
  · exact ⟨by decide, "p//q/c.ts", by decide, 1, by decide⟩
  · exact ⟨by decide, "p//q/c.ts", by decide, 0, by decide⟩

end ChangeImpact.Resolver
