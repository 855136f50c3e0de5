import ChangeImpact.Impact
import ChangeImpact.Proofs.Collections.PathSet
import ChangeImpact.Proofs.Collections.Table

/-!
# The search along reverse edges

The search takes files from a queue, each at most once, for as long as it has fuel.  It does not run out:
every file that is put into the queue is taken out of what has not been visited yet, so the length of the
queue and the number of files that may still be visited bound the rounds that are left
(`explore_closed`), and `searchBound` is no smaller than that.

What an analysis has found in the end is closed (`reached_closed`): whatever imports an affected file is
affected.
-/

namespace ChangeImpact.Analyzer

variable {next : String → PathSet} {fuel : Nat} {queue : List String}
  {visited found known : PathSet} {path other : String}

theorem explore_mono (h : path ∈ found) : path ∈ explore next fuel queue visited found := by
  induction fuel generalizing queue visited found with
  | zero => exact h
  | succ fuel ih =>
      cases queue with
      | nil => exact h
      | cons current queue => exact ih (PathSet.mem_union.mpr (.inl h))

/-- What holds of the queue, and of whatever comes next to a file of which it holds, holds of all that the
search finds. -/
theorem explore_induction {holds : String → Prop}
    (hnext : ∀ current, holds current → ∀ path ∈ next current, holds path)
    (hqueue : ∀ path ∈ queue, holds path) (hfound : ∀ path ∈ found, holds path)
    (hpath : path ∈ explore next fuel queue visited found) : holds path := by
  induction fuel generalizing queue visited found with
  | zero => exact hfound path hpath
  | succ fuel ih =>
      cases queue with
      | nil => exact hfound path hpath
      | cons current queue =>
          have hfresh : ∀ path ∈ next current \ visited, holds path := fun path hmem =>
            hnext current (hqueue current (.head _)) path (PathSet.mem_sdiff.mp hmem).1
          refine ih (fun path hmem => ?_) (fun path hmem => ?_) hpath
          · exact (List.mem_append.mp hmem).elim (fun h => hqueue path (.tail _ h)) (hfresh path)
          · exact (PathSet.mem_union.mp hmem).elim (hfound path) (hfresh path)

/-- The files that may still be visited become fewer by those that are put into the queue. -/
theorem size_unvisited (hknown : ∀ path ∈ next other, path ∈ known) :
    (known \ (visited ∪ next other \ visited)).size + (next other \ visited).size =
      (known \ visited).size := by
  have hsplit : known \ (visited ∪ next other \ visited) =
      (known \ visited) \ (next other \ visited) := by
    refine PathSet.ext fun path => ?_
    simp only [PathSet.mem_sdiff, PathSet.mem_union, not_or]
    exact and_assoc.symm
  rw [hsplit]
  refine PathSet.size_sdiff_add_size fun path hpath => ?_
  obtain ⟨hnext, hnot⟩ := PathSet.mem_sdiff.mp hpath
  exact PathSet.mem_sdiff.mpr ⟨hknown path hnext, hnot⟩

/-- A round takes one file from the queue, and what it puts into the queue is visited for good.  So the
bound on the rounds that are left goes down. -/
theorem length_add_size_le_of_round {current : String} (hknown : ∀ path ∈ next current, path ∈ known)
    (hfuel : (current :: queue).length + (known \ visited).size ≤ fuel + 1) :
    (queue ++ (next current \ visited).toList).length +
      (known \ (visited ∪ next current \ visited)).size ≤ fuel := by
  have hsize : (known \ (visited ∪ next current \ visited)).size + (next current \ visited).size =
      (known \ visited).size := size_unvisited hknown
  have hlength : (next current \ visited).toList.length = (next current \ visited).size := rfl
  rw [List.length_append]
  rw [List.length_cons] at hfuel
  omega

/-- A file that is still to be taken from the queue: it is in it, or the search will put it there. -/
def Waiting (next : String → PathSet) (fuel : Nat) (queue : List String) (visited found : PathSet)
    (path : String) : Prop :=
  path ∈ queue ∨ path ∈ explore next fuel queue visited found ∧ path ∉ visited

/-- In a round in which another file is taken from the queue a file goes on waiting. -/
theorem Waiting.round {current : String} (h : Waiting next (fuel + 1) (current :: queue) visited found path)
    (hne : path ≠ current) : Waiting next fuel (queue ++ (next current \ visited).toList)
      (visited ∪ next current \ visited) (found ∪ next current \ visited) path := by
  rcases h with hqueue | ⟨hfound, hnot⟩
  · exact .inl (List.mem_append_left _ ((List.mem_cons.mp hqueue).resolve_left hne))
  · by_cases hfresh : path ∈ next current \ visited
    · exact .inl (List.mem_append_right _ hfresh)
    · exact .inr ⟨hfound, fun hmem => (PathSet.mem_union.mp hmem).elim hnot hfresh⟩

/-- With enough fuel all files are visited that come next to a file of the queue, or to one that the
search has found. -/
theorem explore_closed (hknown : ∀ current, ∀ path ∈ next current, path ∈ known)
    (hfound : ∀ path ∈ found, path ∈ visited)
    (hfuel : queue.length + (known \ visited).size ≤ fuel)
    (hpath : Waiting next fuel queue visited found path) (hnext : other ∈ next path) :
    other ∈ visited ∨ other ∈ explore next fuel queue visited found := by
  induction fuel generalizing queue visited found with
  | zero =>
      rcases hpath with hpath | ⟨hpath, hnot⟩
      · have hpos := List.length_pos_of_mem hpath
        omega
      · exact absurd (hfound path hpath) hnot
  | succ fuel ih =>
      cases queue with
      | nil =>
          rcases hpath with hpath | ⟨hpath, hnot⟩
          · cases hpath
          · exact absurd (hfound path hpath) hnot
      | cons current queue =>
          let fresh := next current \ visited
          have hroom : (queue ++ fresh.toList).length + (known \ (visited ∪ fresh)).size ≤ fuel :=
            length_add_size_le_of_round (hknown current) hfuel
          have hvisited : ∀ path ∈ found ∪ fresh, path ∈ visited ∪ fresh := fun path hpath =>
            PathSet.mem_union.mpr ((PathSet.mem_union.mp hpath).imp_left (hfound path))
          have hfresh : ∀ path ∈ fresh,
              path ∈ explore next fuel (queue ++ fresh.toList) (visited ∪ fresh) (found ∪ fresh) :=
            fun path hpath => explore_mono (PathSet.mem_union.mpr (.inr hpath))
          show other ∈ visited ∨
            other ∈ explore next fuel (queue ++ fresh.toList) (visited ∪ fresh) (found ∪ fresh)
          -- either the file is the one that is taken from the queue now, or a later round takes it
          by_cases hcurrent : path = current
          · by_cases hmem : other ∈ visited
            · exact .inl hmem
            · exact .inr (hfresh other (PathSet.mem_sdiff.mpr ⟨hcurrent ▸ hnext, hmem⟩))
          · rcases ih hvisited hroom (hpath.round hcurrent) with hmem | hmem
            · exact (PathSet.mem_union.mp hmem).imp_right (hfresh other)
            · exact .inr hmem

/-! ## The bound -/

/-- All files that import a file, in the graph or in the one before. -/
def allImporters (g : Graph) (before : Option Graph) : List PathSet :=
  g.reverseEdges.values ++ (before.map fun before => before.reverseEdges.values).getD []

theorem mem_values_of_get? {ν : Type} {table : Table ν} {key : String} {value : ν}
    (h : table.get? key = some value) : value ∈ table.values :=
  List.mem_map.mpr ⟨(key, value), Table.mem_entries_iff.mpr h, rfl⟩

variable {g : Graph} {before : Option Graph}

theorem mem_allImporters_of_importersOf (h : other ∈ importersOf g before path) :
    other ∈ PathSet.unionOf (allImporters g before) := by
  rw [PathSet.mem_unionOf]
  unfold importersOf at h
  split at h
  · rename_i importers hrow
    exact ⟨importers, List.mem_append_left _ (mem_values_of_get? hrow), h⟩
  · split at h
    · rename_i before
      cases hrow : before.reverseEdges.get? path with
      | none => simp [Graph.importers, hrow] at h
      | some importers =>
          rw [Graph.importers, hrow] at h
          exact ⟨importers, List.mem_append_right _ (mem_values_of_get? hrow), h⟩
    · exact absurd h PathSet.not_mem_empty

theorem searchBound_eq (start : PathSet) : searchBound g before start =
    start.size + PathSet.totalSize (allImporters g before) := by
  unfold searchBound allImporters
  cases before with
  | none => simp
  | some before => simp [PathSet.totalSize_append, Nat.add_assoc]

/-- The bound of the search is large enough. -/
theorem length_add_size_le_searchBound (start visited : PathSet) :
    start.toList.length + (PathSet.unionOf (allImporters g before) \ visited).size ≤
      searchBound g before start := by
  have hsub : (PathSet.unionOf (allImporters g before) \ visited).size ≤
      (PathSet.unionOf (allImporters g before)).size :=
    PathSet.size_le_length fun path hpath => (PathSet.mem_sdiff.mp hpath).1
  have htotal := PathSet.size_unionOf_le (allImporters g before)
  rw [searchBound_eq]
  show start.size + _ ≤ _
  omega

/-! ## What an analysis finds -/

variable {analyzer : Analyzer} {changes : List Change}

/-- The files that an analysis finds: changed, vanished, and directly or transitively affected ones. -/
def reached (analyzer : Analyzer) (g : Graph) (changes : List Change) (before : Option Graph) :
    PathSet :=
  let impact := analyzer.analyze g changes before
  (impact.changed ∪ analyzer.vanishedPaths g before changes) ∪ impact.direct ∪ impact.transitive

/-- Whatever imports a file that an analysis has found is found as well. -/
theorem reached_closed (hpath : path ∈ analyzer.reached g changes before)
    (hother : other ∈ importersOf g before path) :
    other ∈ analyzer.reached g changes before := by
  let seeds := analyzer.changedPaths changes ∪ analyzer.vanishedPaths g before changes
  let next := importersOf g before
  let direct := PathSet.unionOf (seeds.toList.map next) \ seeds
  let transitive := explore next (searchBound g before direct) direct.toList (seeds ∪ direct) ∅
  have hreached : ∀ path, path ∈ analyzer.reached g changes before ↔
      path ∈ seeds ∨ path ∈ direct ∨ path ∈ transitive := fun path => by
    rw [← or_assoc, ← PathSet.mem_union, ← PathSet.mem_union]
    rfl
  have hclosed : path ∈ direct.toList ∨ path ∈ transitive ∧ path ∉ seeds ∪ direct →
      other ∈ seeds ∪ direct ∨ other ∈ transitive := fun h =>
    explore_closed (fun _ _ => mem_allImporters_of_importersOf)
      (fun _ hmem => absurd hmem PathSet.not_mem_empty)
      (length_add_size_le_searchBound direct (seeds ∪ direct)) h hother
  have hseeds : path ∈ seeds → other ∈ seeds ∪ direct := fun hseed => by
    rw [PathSet.mem_union, PathSet.mem_sdiff]
    by_cases hmem : other ∈ seeds
    · exact .inl hmem
    · refine .inr ⟨PathSet.mem_unionOf.mpr ⟨next path, ?_, hother⟩, hmem⟩
      exact List.mem_map.mpr ⟨path, hseed, rfl⟩
  -- an importer of a seed is found directly, that of any other file by the search
  rw [hreached, ← or_assoc, ← PathSet.mem_union]
  rcases (hreached path).mp hpath with hseed | hdirect | htransitive
  · exact .inl (hseeds hseed)
  · exact hclosed (.inl hdirect)
  · by_cases hmem : path ∈ seeds ∪ direct
    · rcases PathSet.mem_union.mp hmem with hseed | hdirect
      · exact .inl (hseeds hseed)
      · exact hclosed (.inl hdirect)
    · exact hclosed (.inr ⟨htransitive, hmem⟩)

/-- What holds of the changed and the vanished files, and of all importers of a file of which it holds,
holds of all files that an analysis finds. -/
theorem reached_induction {holds : String → Prop}
    (hseeds : ∀ path ∈ analyzer.changedPaths changes ∪ analyzer.vanishedPaths g before changes,
      holds path)
    (hnext : ∀ path, holds path → ∀ other ∈ importersOf g before path, holds other)
    (hpath : path ∈ analyzer.reached g changes before) : holds path := by
  let seeds := analyzer.changedPaths changes ∪ analyzer.vanishedPaths g before changes
  let next := importersOf g before
  let direct := PathSet.unionOf (seeds.toList.map next) \ seeds
  have hdirect : ∀ path ∈ direct, holds path := by
    intro path hmem
    obtain ⟨importers, himporters, hmem⟩ := PathSet.mem_unionOf.mp (PathSet.mem_sdiff.mp hmem).1
    obtain ⟨seed, hseed, rfl⟩ := List.mem_map.mp himporters
    exact hnext seed (hseeds seed hseed) path hmem
  rcases PathSet.mem_union.mp hpath with hpath | htransitive
  · exact (PathSet.mem_union.mp hpath).elim (hseeds path) (hdirect path)
  · exact explore_induction hnext hdirect (fun _ hmem => absurd hmem PathSet.not_mem_empty) htransitive

theorem mem_reached_of_changed {change : Change} (hchange : change ∈ changes)
    (hkey : Path.key analyzer.root change.path = path) (hpath : path ≠ "") :
    path ∈ analyzer.reached g changes before := by
  have hchanged : path ∈ analyzer.changedPaths changes := by
    refine PathSet.mem_ofList.mpr (List.mem_filter.mpr ⟨?_, ?_⟩)
    · exact List.mem_map.mpr ⟨change, hchange, hkey⟩
    · rwa [Bool.not_eq_true', ← Bool.not_eq_true, String.isEmpty_iff]
  exact PathSet.mem_union.mpr (.inl (PathSet.mem_union.mpr (.inl (PathSet.mem_union.mpr
    (.inl hchanged)))))

/-- A test of the graph that an analysis has found is selected. -/
theorem mem_tests_of_reached (hreached : path ∈ analyzer.reached g changes before)
    (htest : g.kindOf? path = some .test) : path ∈ (analyzer.analyze g changes before).tests := by
  have hpresent : path ∉ analyzer.vanishedPaths g before changes := by
    intro hvanished
    have hnode : g.hasNode path = true := by
      rw [Graph.kindOf?] at htest
      obtain ⟨node, hnode, -⟩ := Option.map_eq_some_iff.mp htest
      exact Table.contains_iff.mpr (Table.mem_of_get? hnode)
    cases before with
    | none => exact PathSet.not_mem_empty hvanished
    | some before => simp [vanishedPaths, hnode] at hvanished
  refine PathSet.mem_union.mpr (.inl (PathSet.mem_filter.mpr ⟨?_, ?_⟩))
  · exact PathSet.mem_sdiff.mpr ⟨hreached, hpresent⟩
  · rw [kindOf, htest]
    rfl

/-- If no source has changed, a selected test has been found. -/
theorem reached_of_mem_tests (hpath : path ∈ (analyzer.analyze g changes before).tests)
    (hsources : ∀ source ∈ analyzer.changedPaths changes, kindOf g source ≠ .source) :
    path ∈ analyzer.reached g changes before := by
  rcases PathSet.mem_union.mp hpath with hfound | hcompanion
  · exact (PathSet.mem_sdiff.mp (PathSet.mem_filter.mp hfound).1).1
  · obtain ⟨tests, htests, -⟩ := PathSet.mem_unionOf.mp hcompanion
    obtain ⟨source, hsource, rfl⟩ := List.mem_map.mp htests
    obtain ⟨hchanged, hkind⟩ := PathSet.mem_filter.mp hsource
    exact absurd (beq_iff_eq.mp hkind) (hsources source hchanged)

/-- Changes of files that nobody imports, none of them a source, select no other tests. -/
theorem mem_seeds_of_mem_tests (hpath : path ∈ (analyzer.analyze g changes before).tests)
    (hsources : ∀ source ∈ analyzer.changedPaths changes, kindOf g source ≠ .source)
    (hnobody : ∀ seed ∈ analyzer.changedPaths changes ∪ analyzer.vanishedPaths g before changes,
      ∀ other, other ∉ importersOf g before seed) :
    path ∈ analyzer.changedPaths changes ∪ analyzer.vanishedPaths g before changes :=
  reached_induction (fun _ hseed => hseed)
    (fun seed hseed other hother => absurd hother (hnobody seed hseed other))
    (reached_of_mem_tests hpath hsources)

end ChangeImpact.Analyzer
