import ChangeImpact.Proofs.Collections.Table
import ChangeImpact.Proofs.Path.Keys
import ChangeImpact.Repository

/-!
# Which paths a detection finds

The layers of a repository are one list of entries, in which the later ones count more.  What is detected
is the table of what the entries record (`changes_eq_ok`), so every path that an entry is about is
found if it lies below the project's directory.  The old path of a renamed file is only kept beside the new
one, and goes when a later entry is about the new path (`detection_finds_paths`).

Whether a path lies below the project's directory is said without the translation that decides it in a
detection (`Inside`); the two agree (`projectPath?_eq_some_iff`).
-/

namespace ChangeImpact

open ChangeImpact.Path

namespace Repository

variable {workTree base path key : String} {root : Root} {entries : List DiffEntry}
  {entry : DiffEntry} {repository : Repository}

/-! ## Paths below the project's directory -/

/-- The place of a path of the work tree, spelled with slashes and collapsed. -/
def place (workTree path : String) : List Char :=
  collapse (withSlashes (Text.strip (join workTree.toList path.toList)))

/-- A path of the work tree lies strictly below the project's directory, and this is how it goes on from
there. -/
structure Inside (workTree : String) (root : Root) (path key : String) : Prop where
  named : key ≠ ""
  relative : isAbsolute key.toList = false
  below : place workTree path = rootText root ++ '/' :: key.toList

theorem isAbsolute_spelled (hworkTree : isAbsolute workTree.toList = true) (path : String) :
    isAbsolute (withSlashes (Text.strip (join workTree.toList path.toList))) = true := by
  obtain ⟨rest, hrest⟩ := isAbsolute_iff.mp (isAbsolute_join hworkTree)
  obtain ⟨others, hothers⟩ := Text.strip_cons (show Text.isBlank '/' = false by decide) rest
  rw [hrest, hothers]
  rfl

/-- The paths of the work tree that are translated are those below the project's directory. -/
theorem projectPath?_eq_some_iff (hworkTree : isAbsolute workTree.toList = true) :
    projectPath? workTree root path = some key ↔ Inside workTree root path key := by
  have habsolute := isAbsolute_spelled hworkTree path
  have hkeyChars : keyChars (some root) (join workTree.toList path.toList) =
      keyBelow (rootText root) (withSlashes (Text.strip (join workTree.toList path.toList))) :=
    keyChars_eq_keyBelow habsolute
  rw [projectPath?, hkeyChars]
  constructor
  · intro htranslated
    split at htranslated
    · cases htranslated
    · rename_i hkept
      simp only [Bool.or_eq_true, not_or, Bool.not_eq_true, List.isEmpty_eq_false_iff] at hkept
      obtain ⟨⟨hsome, -⟩, hrelative⟩ := hkept
      obtain rfl := Option.some.inj htranslated
      refine ⟨?_, ?_, ?_⟩
      · rw [Ne, ← String.toList_inj, String.toList_ofList]
        exact hsome
      · rw [String.toList_ofList]
        exact hrelative
      · rw [String.toList_ofList]
        exact (keyBelow_eq_iff habsolute hsome hrelative).mp rfl
  · intro hinside
    have hsome : key.toList ≠ [] := by
      rw [Ne, String.toList_eq_nil_iff]
      exact hinside.named
    have hkey := (keyBelow_eq_iff habsolute hsome hinside.relative).mpr hinside.below
    have hplain := plain_of_below habsolute hinside.below hsome hinside.relative
    simp [hkey, hinside.named, not_isPrefixOf_above hplain, hinside.relative]

/-! ## What the entries record -/

/-- What an entry records and under which path, if that lies in the project. -/
def recorded? (workTree : String) (root : Root) (entry : DiffEntry) : Option (String × Change) :=
  entry.change?.bind fun change =>
    (projectPath? workTree root change.path).map fun key =>
      (key, ⟨key, change.operation, change.formerPath?.bind (projectPath? workTree root)⟩)

theorem change?_of_path? (hpath : entry.path? = some path) :
    entry.change? = some
      ⟨path, entry.operation, if entry.operation = .renamed then entry.oldPath else none⟩ := by
  rw [DiffEntry.change?, hpath]
  rfl

theorem record_eq {change : Change} (hchange : entry.change? = some change) (table : ChangeTable) :
    record workTree root table change =
      (recorded? workTree root entry).toList.foldl
        (fun table found => table.insert found.1 found.2) table := by
  unfold record recorded?
  rw [hchange, Option.bind_some]
  cases projectPath? workTree root change.path with
  | none => rfl
  | some key => rfl

theorem recordAll_cons {change : Change} {rest : List DiffEntry} (hchange : entry.change? = some change)
    (table : ChangeTable) : recordAll (some workTree) root base (entry :: rest) table =
      recordAll (some workTree) root base rest (record workTree root table change) := by
  simp only [recordAll, List.foldlM_cons, hchange]
  rfl

/-- Where every entry has its path, all of them are recorded. -/
theorem recordAll_eq_ok (hpaths : ∀ entry ∈ entries, entry.path? ≠ none) (table : ChangeTable) :
    recordAll (some workTree) root base entries table =
      .ok ((entries.filterMap (recorded? workTree root)).foldl
        (fun table found => table.insert found.1 found.2) table) := by
  induction entries generalizing table with
  | nil => rfl
  | cons entry rest ih =>
      have hrest : ∀ other ∈ rest, other.path? ≠ none :=
        fun other hother => hpaths other (List.mem_cons_of_mem _ hother)
      obtain ⟨path, hpath⟩ := Option.ne_none_iff_exists'.mp (hpaths entry List.mem_cons_self)
      have hchange := change?_of_path? hpath
      rw [recordAll_cons hchange, ih hrest, record_eq hchange, ← List.foldl_append, List.filterMap_cons]
      cases recorded? workTree root entry with
      | none => rfl
      | some found => rfl

theorem recordAll_append {place : Option String} (first second : List DiffEntry) (table : ChangeTable) :
    recordAll place root base (first ++ second) table =
      recordAll place root base first table >>= recordAll place root base second :=
  List.foldlM_append

/-- A repository gives all its layers, and these are the entries in them, later layers last. -/
def Tells (repository : Repository) (entries : List DiffEntry) : Prop :=
  ∃ committed staged unstaged untracked,
    repository.committed = .ok committed ∧ repository.staged = .ok staged ∧
    repository.unstaged = .ok unstaged ∧ repository.untracked = .ok untracked ∧
    entries = committed.getD [] ++ staged ++ unstaged ++ untrackedEntries untracked

/-- All layers are recorded one after the other. -/
theorem Tells.changeTable_eq (htells : repository.Tells entries) (root : Root) (base : String) :
    repository.changeTable root base true =
      recordAll (realPath root.workingDirectory (repository.workTree.getD root.directory)) root base entries ∅ := by
  obtain ⟨committed, staged, unstaged, untracked, hcommitted, hstaged, hunstaged, huntracked, hentries⟩ :=
    htells
  rw [hentries, recordAll_append, recordAll_append, recordAll_append, changeTable,
    hcommitted, hstaged, hunstaged, huntracked]
  simp only [bind_assoc]
  rfl

/-! ## What is detected -/

theorem isAbsolute_of_realPath {workingDirectory directory place : String}
    (h : realPath workingDirectory directory = some place) : isAbsolute place.toList = true := by
  unfold realPath at h
  split at h
  · cases h
  · cases h
    rw [String.toList_ofList]
    rfl

theorem recorded?_eq_some_iff {found : Change} : recorded? workTree root entry = some (key, found) ↔
    ∃ change, entry.change? = some change ∧ projectPath? workTree root change.path = some key ∧
      found = ⟨key, change.operation, change.formerPath?.bind (projectPath? workTree root)⟩ := by
  rw [recorded?, Option.bind_eq_some_iff]
  refine exists_congr fun change => and_congr_right fun _ => ?_
  rw [Option.map_eq_some_iff]
  constructor
  · rintro ⟨other, hother, heq⟩
    obtain ⟨rfl, rfl⟩ := Prod.mk.inj heq
    exact ⟨hother, rfl⟩
  · rintro ⟨hkey, rfl⟩
    exact ⟨key, hkey, rfl⟩

/-- The changes that are detected are the values of the table. -/
theorem mem_changes_iff {table : ChangeTable} {change : Change} :
    change ∈ table.sortedEntries.map (·.2) ↔ ∃ key, table.get? key = some change := by
  rw [List.mem_map]
  constructor
  · rintro ⟨⟨key, change⟩, hentry, rfl⟩
    exact ⟨key, Table.mem_entries_iff.mp (Table.mem_sortedEntries.mp hentry)⟩
  · rintro ⟨key, hkey⟩
    exact ⟨(key, change), Table.mem_sortedEntries.mpr (Table.mem_entries_iff.mpr hkey), rfl⟩

/-- Every change is recorded under its own path. -/
theorem path_of_get? {change : Change}
    (h : (Table.ofList (entries.filterMap (recorded? workTree root))).get? key = some change) :
    change.path = key := by
  obtain ⟨entry, -, hentry⟩ := List.mem_filterMap.mp (Table.mem_of_get?_ofList h)
  obtain ⟨_, _, _, rfl⟩ := recorded?_eq_some_iff.mp hentry
  rfl

/-- The path that an entry is about is found. -/
theorem exists_change_of_path? (hentry : entry ∈ entries) (hpath : entry.path? = some path)
    (hkey : projectPath? workTree root path = some key) :
    ∃ found ∈ (Table.ofList (entries.filterMap (recorded? workTree root))).sortedEntries.map (·.2),
      found.path = key := by
  have hrecorded := recorded?_eq_some_iff.mpr ⟨_, change?_of_path? hpath, hkey, rfl⟩
  have hmem : key ∈ Table.ofList (entries.filterMap (recorded? workTree root)) := by
    rw [Table.mem_ofList]
    exact List.mem_map.mpr ⟨_, List.mem_filterMap.mpr ⟨entry, hentry, hrecorded⟩, rfl⟩
  obtain ⟨found, hfound⟩ := Table.mem_iff_exists.mp hmem
  exact ⟨found, mem_changes_iff.mpr ⟨key, hfound⟩, path_of_get? hfound⟩

/-- What an entry records is found as it is if no later entry records anything under the same path. -/
theorem mem_changes_of_last {earlier later : List DiffEntry} {change : Change}
    (hrecorded : recorded? workTree root entry = some (key, change))
    (hlater : ∀ other ∈ later, ∀ found, recorded? workTree root other ≠ some (key, found)) :
    change ∈ (Table.ofList ((earlier ++ entry :: later).filterMap
      (recorded? workTree root))).sortedEntries.map (·.2) := by
  refine mem_changes_iff.mpr ⟨key, ?_⟩
  rw [List.filterMap_append, List.filterMap_cons_some hrecorded]
  refine Table.get?_ofList_eq_some_iff.mpr ⟨_, _, rfl, fun hmem => ?_⟩
  obtain ⟨found, hfound, rfl⟩ := List.mem_map.mp hmem
  obtain ⟨other, hother, hrecords⟩ := List.mem_filterMap.mp hfound
  exact hlater other hother found.2 hrecords

/-- The old path of a renamed file is kept beside the new one. -/
theorem exists_change_of_renamed {earlier later : List DiffEntry} {old new former : String}
    (hrenamed : entry.operation = .renamed) (hnew : entry.newPath = some new)
    (hold : entry.oldPath = some old) (hsome : old ≠ "")
    (hkey : projectPath? workTree root new = some key)
    (hformer : projectPath? workTree root old = some former)
    (hlater : ∀ other ∈ later, ∀ path, other.path? = some path →
      projectPath? workTree root path ≠ some key) :
    ∃ change ∈ (Table.ofList ((earlier ++ entry :: later).filterMap
      (recorded? workTree root))).sortedEntries.map (·.2), change.path = key ∧ change.oldPath = some former := by
  have hpath : entry.path? = some new := by
    rw [DiffEntry.path?, hrenamed]
    exact hnew
  have hchange : entry.change? = some ⟨new, .renamed, some old⟩ := by
    rw [change?_of_path? hpath, hrenamed, if_pos rfl, hold]
  have hkept : (Change.mk new .renamed (some old)).formerPath? = some old := by
    rw [Change.formerPath?, Option.filter_some, if_pos]
    simpa using hsome
  have hrecorded : recorded? workTree root entry = some (key, ⟨key, .renamed, some former⟩) :=
    recorded?_eq_some_iff.mpr ⟨_, hchange, hkey, by rw [hkept, Option.bind_some, hformer]⟩
  refine ⟨_, mem_changes_of_last hrecorded ?_, rfl, rfl⟩
  intro other hother found hfound
  obtain ⟨change, hchange, hfound, -⟩ := recorded?_eq_some_iff.mp hfound
  rw [DiffEntry.change?, Option.map_eq_some_iff] at hchange
  obtain ⟨path, hpath, rfl⟩ := hchange
  exact hlater other hother path hpath hfound

/-- A detection resolves the project's directory, and sorts what it has recorded. -/
theorem changes_eq {directory : String} (hdirectory : realPath root.workingDirectory root.directory = some directory)
    (withWorkTree : Bool) : changes (some repository) root base withWorkTree =
      (repository.changeTable { root with directory } base withWorkTree).map (·.sortedEntries.map (·.2)) := by
  unfold changes
  rw [hdirectory]
  cases hresult : repository.changeTable { root with directory } base withWorkTree with
  | error fault =>
      simp only [hresult]
      rfl
  | ok table =>
      simp only [hresult]
      rfl

theorem changes_eq_ok {directory : String} (htells : repository.Tells entries)
    (hdirectory : realPath root.workingDirectory root.directory = some directory)
    (hworkTree : realPath root.workingDirectory (repository.workTree.getD directory) = some workTree)
    (hpaths : ∀ entry ∈ entries, entry.path? ≠ none) :
    changes (some repository) root base true =
      .ok ((Table.ofList (entries.filterMap
        (recorded? workTree { root with directory }))).sortedEntries.map (·.2)) := by
  rw [changes_eq hdirectory, htells.changeTable_eq, hworkTree, recordAll_eq_ok hpaths]
  rfl

/-- If a repository gives all its layers, and every entry has the path that its letter asks for, changes
are detected.

* Every path that an entry is about is found, if it lies below the project's directory.
* The old path of a renamed file is found beside the new one, if both lie there and no later entry is
  about the new path. -/
theorem detection_finds_paths (repository : Repository) (root : Root) (base : String)
    (entries : List DiffEntry) (directory workTree : String) (htells : repository.Tells entries)
    (hdirectory : realPath root.workingDirectory root.directory = some directory)
    (hworkTree : realPath root.workingDirectory (repository.workTree.getD directory) = some workTree)
    (hpaths : ∀ entry ∈ entries, entry.path? ≠ none) :
    ∃ result, changes (some repository) root base true = .ok result ∧
      (∀ entry ∈ entries, ∀ path key, entry.path? = some path →
        Inside workTree { root with directory } path key → ∃ change ∈ result, change.path = key) ∧
      ∀ earlier entry later, entries = earlier ++ entry :: later →
        ∀ old former new key, entry.operation = .renamed →
          entry.oldPath = some old → old ≠ "" → Inside workTree { root with directory } old former →
          entry.newPath = some new → Inside workTree { root with directory } new key →
          (∀ other ∈ later, ∀ path, other.path? = some path →
            ¬ Inside workTree { root with directory } path key) →
          ∃ change ∈ result, change.path = key ∧ change.oldPath = some former := by
  have htranslated : ∀ path key, projectPath? workTree { root with directory } path = some key ↔
      Inside workTree { root with directory } path key :=
    fun path key => projectPath?_eq_some_iff (isAbsolute_of_realPath hworkTree)
  refine ⟨_, changes_eq_ok htells hdirectory hworkTree hpaths, ?_, ?_⟩
  · intro entry hentry path key hpath hinside
    exact exists_change_of_path? hentry hpath ((htranslated path key).mpr hinside)
  · intro earlier entry later hsplit old former new key hrenamed hold hsome hformer hnew hkey hlater
    rw [hsplit]
    apply exists_change_of_renamed hrenamed hnew hold hsome
    · exact (htranslated new key).mpr hkey
    · exact (htranslated old former).mpr hformer
    · intro other hother path hpath htranslate
      exact hlater other hother path hpath ((htranslated path key).mp htranslate)

/-- The project is a directory of the work tree.  A file in it is renamed by a commit, and another one is
deleted there afterwards. -/
theorem detection_finds_paths_of_renamed_and_deleted :
    let repository : Repository :=
      { workTree := some "/w"
        committed := .ok (some [⟨some "R", some "lib/a.ts", some "lib/b.ts"⟩])
        unstaged := .ok [⟨some "D", some "lib/c.ts", none⟩] }
    ∃ result, changes (some repository) ⟨"/w/lib", "/"⟩ = .ok result ∧
      (∃ change ∈ result, change.path = "b.ts" ∧ change.oldPath = some "a.ts") ∧
      ∃ change ∈ result, change.path = "c.ts" := by
  intro repository
  let renamed : DiffEntry := ⟨some "R", some "lib/a.ts", some "lib/b.ts"⟩
  let deleted : DiffEntry := ⟨some "D", some "lib/c.ts", none⟩
  obtain ⟨result, hresult, hfound, hrenamed⟩ := detection_finds_paths repository ⟨"/w/lib", "/"⟩ "main"
    [renamed, deleted] "/w/lib" "/w" ⟨_, _, _, _, rfl, rfl, rfl, rfl, rfl⟩ (by decide +kernel)
    (by decide +kernel) (by decide)
  have ha : Inside "/w" ⟨"/w/lib", "/"⟩ "lib/a.ts" "a.ts" := ⟨by decide, by decide, by decide +kernel⟩
  have hb : Inside "/w" ⟨"/w/lib", "/"⟩ "lib/b.ts" "b.ts" := ⟨by decide, by decide, by decide +kernel⟩
  have hc : Inside "/w" ⟨"/w/lib", "/"⟩ "lib/c.ts" "c.ts" := ⟨by decide, by decide, by decide +kernel⟩
  refine ⟨result, hresult, ?_, hfound deleted (by decide) _ _ rfl hc⟩
  refine hrenamed [] renamed [deleted] rfl _ _ _ _ rfl rfl (by decide) ha rfl hb ?_
  intro other hother path hpath hinside
  rw [List.mem_singleton.mp hother] at hpath
  cases hpath
  exact absurd hinside.below (by decide +kernel)

/-- A renamed file is changed afterwards.  There is one entry for its new path, and nothing is left of the
old one. -/
theorem detection_loses_former_path :
    let repository : Repository :=
      { committed := .ok (some [⟨some "R", some "a.ts", some "b.ts"⟩])
        unstaged := .ok [⟨some "M", some "b.ts", some "b.ts"⟩] }
    Inside "/w" ⟨"/w", "/"⟩ "a.ts" "a.ts" ∧
      ∃ result, changes (some repository) ⟨"/w", "/"⟩ = .ok result ∧
        ∀ change ∈ result, change.path ≠ "a.ts" ∧ change.oldPath ≠ some "a.ts" := by
  intro repository
  have hplace : realPath "/" "/w" = some "/w" := by decide +kernel
  have hresult : changes (some repository) ⟨"/w", "/"⟩ "main" true = .ok _ :=
    changes_eq_ok ⟨_, _, _, _, rfl, rfl, rfl, rfl, rfl⟩ hplace hplace (by decide)
  refine ⟨⟨by decide, by decide, by decide +kernel⟩, _, hresult, ?_⟩
  decide +kernel

end Repository
end ChangeImpact
