import ChangeImpact.Proofs.Repository

/-!
# What is detected is told by the last entries

A detection reads the entries of all layers one after the other, and each of them replaces what has been recorded
under the path to which its own is translated.  So the paths that are detected are those to which some entry is
translated, and what is said about each of them is what the last such entry says (`changes_from_last_entries`).  Which
entries those are is not known from the paths that the repository gives: different ones may be translated to the same
path, and others to none.
-/

namespace ChangeImpact

open ChangeImpact.Path

namespace Repository

variable {workTree base path key : String} {root : Root} {entries : List DiffEntry}
  {entry : DiffEntry} {repository : Repository} {change : Change}

/-! ## Translated paths -/

/-- A path of the work tree has a key that leads into the project. -/
structure Translates (workTree : String) (root : Root) (path key : String) : Prop where
  eq_key : Path.key (some root) (String.ofList (join workTree.toList path.toList)) = key
  named : key ≠ ""
  relative : isAbsolute key.toList = false
  inside : ¬ ['.', '.', '/'] <+: key.toList

theorem projectPath?_eq_some_iff_translates :
    projectPath? workTree root path = some key ↔ Translates workTree root path key := by
  have hkey : Path.key (some root) (String.ofList (join workTree.toList path.toList)) =
      String.ofList (keyChars (some root) (join workTree.toList path.toList)) := by
    rw [Path.key, String.toList_ofList]
  rw [projectPath?]
  generalize keyChars (some root) (join workTree.toList path.toList) = found at hkey
  constructor
  · intro h
    split at h
    · cases h
    · rename_i hkept
      simp only [Bool.or_eq_true, not_or, List.isEmpty_iff, List.isPrefixOf_iff_prefix, Bool.not_eq_true] at hkept
      obtain ⟨⟨hsome, hinside⟩, hrelative⟩ := hkept
      cases h
      rw [← String.toList_ofList (l := found)] at hsome hinside hrelative
      exact ⟨hkey, mt String.toList_eq_nil_iff.mpr hsome, hrelative, hinside⟩
  · rintro ⟨heq, hnamed, hrelative, hinside⟩
    obtain rfl : String.ofList found = key := hkey.symm.trans heq
    rw [Ne, ← String.toList_eq_nil_iff] at hnamed
    rw [String.toList_ofList] at hnamed hrelative hinside
    simp [hnamed, hrelative, show ¬ above ++ ['/'] <+: found from hinside]

/-- An entry is about a path of the project: its own path is translated to it. -/
def Concerns (workTree : String) (root : Root) (key : String) (entry : DiffEntry) : Prop :=
  ∃ path, entry.path? = some path ∧ Translates workTree root path key

theorem exists_recorded?_iff :
    (∃ change, recorded? workTree root entry = some (key, change)) ↔ Concerns workTree root key entry := by
  constructor
  · rintro ⟨change, hrecorded⟩
    obtain ⟨found, hfound, hkey, -⟩ := recorded?_eq_some_iff.mp hrecorded
    obtain ⟨path, hpath, rfl⟩ := Option.map_eq_some_iff.mp hfound
    exact ⟨path, hpath, projectPath?_eq_some_iff_translates.mp hkey⟩
  · rintro ⟨path, hpath, htranslates⟩
    exact ⟨_, recorded?_eq_some_iff.mpr
      ⟨_, change?_of_path? hpath, projectPath?_eq_some_iff_translates.mpr htranslates, rfl⟩⟩

/-! ## The entries that count -/

/-- The entries that count: those of all layers, or without the work tree only those of the commits. -/
def Counts (repository : Repository) : Bool → List DiffEntry → Prop
  | true, entries => repository.Tells entries
  | false, entries => ∃ committed, repository.committed = .ok committed ∧ entries = committed.getD []

theorem Counts.changeTable_eq {withWorkTree : Bool} (hcounts : repository.Counts withWorkTree entries)
    (root : Root) (base : String) : repository.changeTable root base withWorkTree =
      recordAll (realPath root.workingDirectory (repository.workTree.getD root.directory)) root base entries ∅ := by
  cases withWorkTree with
  | true => exact Tells.changeTable_eq hcounts root base
  | false =>
      obtain ⟨committed, hcommitted, rfl⟩ := hcounts
      rw [changeTable, hcommitted]
      exact bind_pure (recordAll (realPath root.workingDirectory (repository.workTree.getD root.directory)) root base
        (committed.getD []) ∅)

theorem recordAll_eq_error (hmissing : ∃ entry ∈ entries, entry.path? = none) (table : ChangeTable) :
    recordAll (some workTree) root base entries table = .error .missingPath := by
  induction entries generalizing table with
  | nil =>
      obtain ⟨entry, hentry, -⟩ := hmissing
      cases hentry
  | cons entry rest ih =>
      cases hpath : entry.path? with
      | none =>
          have hchange : entry.change? = none := by rw [DiffEntry.change?, hpath, Option.map_none]
          simp only [recordAll, List.foldlM_cons, hchange]
          rfl
      | some path =>
          rw [recordAll_cons (change?_of_path? hpath)]
          refine ih ?_ _
          obtain ⟨other, hother, hnone⟩ := hmissing
          rcases List.mem_cons.mp hother with rfl | hother
          · rw [hpath] at hnone
            cases hnone
          · exact ⟨other, hother, hnone⟩

/-! ## What is detected -/

/-- The changes that a list of entries tells of: one for each path, in order, with what the last entry about the path
says. -/
structure Detected (workTree : String) (root : Root) (entries : List DiffEntry) (result : List Change) : Prop where
  sorted : result.Pairwise fun first second => first.path < second.path
  paths : ∀ key, (∃ change ∈ result, change.path = key) ↔ ∃ entry ∈ entries, Concerns workTree root key entry
  last : ∀ change ∈ result, ∃ earlier entry later, entries = earlier ++ entry :: later ∧
    Concerns workTree root change.path entry ∧ (∀ other ∈ later, ¬ Concerns workTree root change.path other) ∧
    change.operation = entry.operation ∧
    ∀ former, change.oldPath = some former ↔ entry.operation = .renamed ∧
      ∃ old, entry.oldPath = some old ∧ old ≠ "" ∧ Translates workTree root old former

theorem formerPath?_eq_some_iff {old : String} {found : Change} :
    found.formerPath? = some old ↔ found.oldPath = some old ∧ old ≠ "" := by
  rw [Change.formerPath?, Option.filter_eq_some_iff]
  simp

/-- The former path of a renamed file is kept if it is translated as well. -/
theorem oldPath_eq_some_iff {former : String} {found : Change} (hfound : entry.change? = some found) :
    found.formerPath?.bind (projectPath? workTree root) = some former ↔ entry.operation = .renamed ∧
      ∃ old, entry.oldPath = some old ∧ old ≠ "" ∧ Translates workTree root old former := by
  obtain ⟨path, -, rfl⟩ := Option.map_eq_some_iff.mp hfound
  simp only [Option.bind_eq_some_iff, formerPath?_eq_some_iff, projectPath?_eq_some_iff_translates]
  split
  · rename_i hrenamed
    simp only [hrenamed, true_and, and_assoc]
  · rename_i hother
    simp [hother]

/-- What is recorded under a path is from the last entry about it. -/
theorem exists_last_of_get? (h : (Table.ofList (entries.filterMap (recorded? workTree root))).get? key = some change) :
    ∃ earlier entry later, entries = earlier ++ entry :: later ∧
      recorded? workTree root entry = some (key, change) ∧ ∀ other ∈ later, ¬ Concerns workTree root key other := by
  obtain ⟨first, second, hentries, hnot⟩ := Table.get?_ofList_eq_some_iff.mp h
  obtain ⟨earlier, rest, rfl, -, hrest⟩ := List.filterMap_eq_append_iff.mp hentries
  obtain ⟨idle, entry, later, rfl, -, hentry, rfl⟩ := List.filterMap_eq_cons_iff.mp hrest
  refine ⟨earlier ++ idle, entry, later, (List.append_assoc ..).symm, hentry, fun other hother hconcerns => ?_⟩
  obtain ⟨found, hfound⟩ := exists_recorded?_iff.mpr hconcerns
  exact hnot (List.mem_map.mpr ⟨_, List.mem_filterMap.mpr ⟨other, hother, hfound⟩, rfl⟩)

/-- What a list of entries records is what it tells of. -/
theorem detected_recorded (workTree : String) (root : Root) (entries : List DiffEntry) :
    Detected workTree root entries
      ((Table.ofList (entries.filterMap (recorded? workTree root))).sortedEntries.map (·.2)) := by
  refine ⟨?_, fun key => ⟨?_, ?_⟩, ?_⟩
  · rw [List.pairwise_map]
    refine (Table.pairwise_lt_sortedEntries _).imp_of_mem ?_
    intro first second hfirst hsecond hlt
    rw [Table.mem_sortedEntries, Table.mem_entries_iff] at hfirst hsecond
    rwa [path_of_get? hfirst, path_of_get? hsecond]
  · rintro ⟨change, hchange, rfl⟩
    obtain ⟨key, hkey⟩ := mem_changes_iff.mp hchange
    obtain ⟨earlier, entry, later, rfl, hrecorded, -⟩ := exists_last_of_get? hkey
    rw [path_of_get? hkey]
    exact ⟨entry, by simp, exists_recorded?_iff.mp ⟨change, hrecorded⟩⟩
  · rintro ⟨entry, hentry, path, hpath, htranslates⟩
    exact exists_change_of_path? hentry hpath (projectPath?_eq_some_iff_translates.mpr htranslates)
  · intro change hchange
    obtain ⟨key, hkey⟩ := mem_changes_iff.mp hchange
    obtain ⟨earlier, entry, later, hentries, hrecorded, hlater⟩ := exists_last_of_get? hkey
    obtain ⟨found, hfound, -, rfl⟩ := recorded?_eq_some_iff.mp hrecorded
    refine ⟨earlier, entry, later, hentries, exists_recorded?_iff.mp ⟨_, hrecorded⟩, hlater, ?_, fun former =>
      oldPath_eq_some_iff hfound⟩
    obtain ⟨path, -, rfl⟩ := Option.map_eq_some_iff.mp hfound
    rfl

/-- If the layers that count are given, and every entry in them has the path that its letter asks for, what is
detected is what the last entries about the paths of the project say.  An entry without its path lets the detection
fail. -/
theorem changes_from_last_entries (repository : Repository) (root : Root) (base : String) (withWorkTree : Bool)
    (entries : List DiffEntry) (directory workTree : String) (hcounts : repository.Counts withWorkTree entries)
    (hdirectory : realPath root.workingDirectory root.directory = some directory)
    (hworkTree : realPath root.workingDirectory (repository.workTree.getD directory) = some workTree) :
    ((∀ entry ∈ entries, entry.path? ≠ none) → ∃ result,
      changes (some repository) root base withWorkTree = .ok result ∧
        Detected workTree { root with directory } entries result) ∧
    ((∃ entry ∈ entries, entry.path? = none) →
      changes (some repository) root base withWorkTree = .error .missingPath) := by
  rw [changes_eq hdirectory, hcounts.changeTable_eq, hworkTree]
  constructor
  · intro hpaths
    rw [recordAll_eq_ok hpaths]
    exact ⟨_, rfl, detected_recorded workTree { root with directory } entries⟩
  · intro hmissing
    rw [recordAll_eq_error hmissing]
    rfl

/-- The project is a directory of the work tree.  A file is renamed there by a commit, and its deletion is staged; of
two files that are not tracked one lies in the project.  An entry for a deleted file without an old path makes the
detection fail. -/
theorem changes_from_last_entries_of_subdirectory :
    let renamed : DiffEntry := ⟨some "R", some "lib/a.ts", some "lib/b.ts"⟩
    let deleted : DiffEntry := ⟨some "D", some "lib/b.ts", none⟩
    let nameless : DiffEntry := ⟨some "D", none, some "lib/b.ts"⟩
    let repository : Repository :=
      { workTree := some "/w", committed := .ok (some [renamed]), staged := .ok [deleted]
        untracked := .ok ["c.ts", "lib/x/../d.ts"] }
    (∃ result, changes (some repository) ⟨"/w/lib", "/"⟩ "main" false = .ok result ∧
      Detected "/w" ⟨"/w/lib", "/"⟩ [renamed] result) ∧
    (∃ result, changes (some repository) ⟨"/w/lib", "/"⟩ = .ok result ∧
      Detected "/w" ⟨"/w/lib", "/"⟩ ([renamed, deleted] ++ untrackedEntries ["c.ts", "lib/x/../d.ts"]) result) ∧
    changes (some { repository with unstaged := .ok [nameless] }) ⟨"/w/lib", "/"⟩ = .error .missingPath := by
  intro renamed deleted nameless repository
  have hdirectory : realPath "/" "/w/lib" = some "/w/lib" := by decide +kernel
  have hworkTree : realPath "/" "/w" = some "/w" := by decide +kernel
  refine ⟨?_, ?_, ?_⟩
  · exact (changes_from_last_entries repository ⟨"/w/lib", "/"⟩ "main" false [renamed] "/w/lib" "/w"
      ⟨_, rfl, rfl⟩ hdirectory hworkTree).1 (by decide)
  · exact (changes_from_last_entries repository ⟨"/w/lib", "/"⟩ "main" true _ "/w/lib" "/w"
      ⟨_, _, _, _, rfl, rfl, rfl, rfl, rfl⟩ hdirectory hworkTree).1 (by decide)
  · exact (changes_from_last_entries { repository with unstaged := .ok [nameless] } ⟨"/w/lib", "/"⟩ "main" true _
      "/w/lib" "/w" ⟨_, _, _, _, rfl, rfl, rfl, rfl, rfl⟩ hdirectory hworkTree).2 (by decide)

end Repository
end ChangeImpact
