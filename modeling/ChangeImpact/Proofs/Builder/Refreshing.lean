import ChangeImpact.Proofs.Builder.Building

/-!
# Refreshing

A refresh first selects what has to be scanned (`select`), from the files that are wanted and their
times alone, and then makes the passes over it.  Selecting restricts the record to the wanted files; the
scans that it keeps are those whose time is the one that the file has now.  It fails where a file that
has a node will not tell its time.

* `ends_refresh_of_recorded` says what the record is afterwards, which files are linked, and why a refresh
  fails; `ends_refresh` is the case in which all files were resolved before.
* `refresh_congr` says that nothing else is read than the files that are selected.
-/

namespace ChangeImpact.Builder

variable {builder : Builder} {record : Record} {g : Graph} {path : String} {paths : List String}
  {wanted : PathSet} {times : String → Except DiskFault (Option Timestamp)}

/-! ## Selecting -/

/-- Adds and drops nodes until the wanted files have them, and tells whether any have come or gone,
and which files have to be scanned. -/
def select (wanted : PathSet) (times : String → Except DiskFault (Option Timestamp)) :
    BuildStep (Bool × List String) := do
  let removed := ((← get).nodes.keys.mergeSort (· ≤ ·)).filter (!wanted.contains ·)
  removed.forM fun path => do
    let _ ← dropNode path
  let added ← wanted.toList.filterM ensureNode
  let stale ← wanted.toList.filterM fun path => do
    if added.contains path then return true
    let node ← demandNode path
    return isStale node.lastModified (← demand .disk (times path))
  return (!removed.isEmpty || !added.isEmpty, stale)

theorem refresh_eq (files : FileSet) : builder.refresh files =
    select (builder.keysOf files) (builder.readerFor files).changed >>= fun chosen =>
      builder.passes builder.pool (builder.readerFor files) chosen.1 chosen.2 := by
  unfold refresh select passes
  simp only [bind_assoc, pure_bind]

namespace Record

/-- The record of the wanted files; those that are not known become known. -/
def restrict (record : Record) (wanted : PathSet) : Record := fun path =>
  if path ∈ wanted then some ((record path).getD { path }) else none

/-- Whether a file has to be scanned, by its last scan and the time it has now. -/
def outdated (record : Record) (times : String → Except DiskFault (Option Timestamp))
    (path : String) : Bool :=
  match record path, times path with
  | some scan, .ok time => isStale (timeJson scan.changed) time
  | _, _ => true

/-- The record of the wanted files, with the scans that are out of date made anew. -/
def refreshed (record : Record) (wanted : PathSet)
    (times : String → Except DiskFault (Option Timestamp)) (found : String → Scan) : Record :=
  fun path =>
    if path ∈ wanted then if record.outdated times path then some (found path) else record path
    else none

end Record

theorem ends_dropNodes (hg : Recorded record g) (paths : List String) :
    Ends (paths.forM fun path => do let _ ← dropNode path) g
      (fun _ after => Recorded (fun path => if path ∈ paths then none else record path) after ∧
        (paths = [] → after = g))
      (fun _ _ => False) := by
  refine .forM_done (fun done state =>
    Recorded (fun path => if path ∈ done then none else record path) state ∧
      (done = [] → state = g)) ?_ ⟨by simpa using hg, fun _ => rfl⟩
  rintro done path rest state - ⟨hrecorded, -⟩
  refine (hrecorded.ends_dropNode path).bind ?_
  rintro dropped after ⟨-, hdropped, -⟩
  refine .pure ⟨?_, by simp⟩
  have hrecord : Record.drop (fun path => if path ∈ done then none else record path) path =
      fun other => if other ∈ done ++ [path] then none else record other := by
    funext other
    rw [Record.drop, Function.update_apply]
    by_cases heq : other = path
    · simp [heq]
    · simp [heq]
  rwa [← hrecord]

theorem ends_ensureNodes (hg : Recorded record g) (hnodup : paths.Nodup) :
    Ends (paths.filterM ensureNode) g
      (fun added after => added = paths.filter (fun path => (record path).isNone) ∧
        Recorded (fun path => if path ∈ paths then some ((record path).getD { path })
          else record path) after ∧
        (added = [] → after = g))
      (fun _ _ => False) := by
  refine .filterM (fun done added state =>
    added = done.filter (fun path => (record path).isNone) ∧
      Recorded (fun path => if path ∈ done then some ((record path).getD { path })
        else record path) state ∧
      (added = [] → state = g)) ?_ ⟨rfl, by simpa using hg, fun _ => rfl⟩
  rintro done path rest kept state hpaths ⟨hkept, hrecorded, hsame⟩
  have hnot : path ∉ done := fun hmem =>
    List.disjoint_of_nodup_append (hpaths ▸ hnodup) hmem (List.mem_cons_self ..)
  refine (hrecorded.ends_ensureNode path).imp ?_
  rintro added after ⟨hadded, hensured, hleft⟩
  rw [if_neg hnot] at hadded
  have hrecord : Record.add (fun path => if path ∈ done then some ((record path).getD { path })
      else record path) path = fun other =>
        if other ∈ done ++ [path] then some ((record other).getD { path := other })
        else record other := by
    funext other
    rw [Record.add, Function.update_apply]
    by_cases heq : other = path
    · simp [heq, hnot]
    · simp [heq]
  refine ⟨?_, hrecord ▸ hensured, fun hnone => ?_⟩
  · rw [List.filter_append, hkept, hadded]
    cases hrec : record path with
    | none => simp [hrec]
    | some scan => simp [hrec]
  · cases added with
    | true => simp at hnone
    | false => rw [hleft rfl, hsame (by simpa using hnone)]

/-- Why the times of files cannot be compared: a file that has a node will not tell its time. -/
def TimeFault (record : Record) (paths : List String)
    (times : String → Except DiskFault (Option Timestamp)) (fault : BuildError) : Prop :=
  ∃ path ∈ paths, (∃ scan, record path = some scan) ∧
    ∃ cause, times path = .error cause ∧ fault = .disk cause

/-- Comparing times finds the files that are out of date; the ones that have just been added are among
them and are not asked for their time. -/
theorem ends_compareTimes {added : List String}
    (hadded : ∀ path ∈ paths, path ∈ added ↔ record path = none)
    (hnodes : ∀ path ∈ paths, ∀ scan, record path = some scan →
      g.nodes.get? path = some (nodeOf path scan)) :
    Ends (paths.filterM fun path => do
        if added.contains path then return true
        let node ← demandNode path
        return isStale node.lastModified (← demand .disk (times path))) g
      (fun stale after => stale = paths.filter (record.outdated times) ∧ after = g ∧
        ∀ fault, ¬ TimeFault record paths times fault)
      (fun fault _ => TimeFault record paths times fault) := by
  -- in the end every file that has a scan has told its time
  refine (Ends.filterM_read (record.outdated times)
    (fun path => ∀ scan, record path = some scan → ∃ time, times path = .ok time) ?_).imp ?_
  · intro path hpath
    cases hrecord : record path with
    | none =>
        have hcontains : added.contains path = true :=
          List.contains_iff_mem.mpr ((hadded path hpath).mpr hrecord)
        simp only [hcontains, if_true]
        refine .pure ⟨?_, rfl, nofun⟩
        simp [Record.outdated, hrecord]
    | some scan =>
        have hcontains : added.contains path = false := by
          rw [← Bool.not_eq_true, List.contains_iff_mem, hadded path hpath, hrecord]
          exact nofun
        have hdemanded : Ends (demandNode path) g
            (fun node after => node = nodeOf path scan ∧ after = g)
            (fun fault _ => TimeFault record paths times fault) := by
          refine .of_eq_ok ?_ ⟨rfl, rfl⟩
          show EStateM.run (demandNode path) g = _
          simp [demandNode, hnodes path hpath scan hrecord]
        simp only [hcontains, Bool.false_eq_true, if_false]
        refine hdemanded.bind ?_
        rintro node after ⟨rfl, rfl⟩
        cases htime : times path with
        | error cause =>
            exact .of_eq_error rfl ⟨path, hpath, ⟨scan, hrecord⟩, cause, htime, rfl⟩
        | ok time =>
            refine .of_eq_ok rfl ⟨?_, rfl, fun _ _ => ⟨time, rfl⟩⟩
            simp [Record.outdated, hrecord, htime, nodeOf]
  · rintro stale after ⟨hstale, rfl, htimes⟩
    refine ⟨hstale, rfl, ?_⟩
    rintro fault ⟨path, hpath, ⟨scan, hscan⟩, cause, hcause, -⟩
    obtain ⟨time, htime⟩ := htimes path hpath scan hscan
    rw [htime] at hcause
    cases hcause

/-- Dropping the files that are not wanted and then adding those that are missing restricts the record: what has been
dropped is not added again. -/
theorem Recorded.dropped_added_eq (hg : Recorded record g) {removed : List String}
    (hremoved : ∀ path, path ∈ removed ↔ path ∈ g.nodes ∧ path ∉ wanted) :
    (fun path => if path ∈ wanted.toList then
      some ((if path ∈ removed then none else record path).getD { path })
      else if path ∈ removed then none else record path) = record.restrict wanted := by
  funext path
  by_cases hpath : path ∈ wanted.toList
  · rw [if_pos hpath, if_neg fun hmem => ((hremoved path).mp hmem).2 hpath]
    exact (if_pos hpath).symm
  · rw [if_neg hpath]
    refine Eq.trans ?_ (if_neg hpath).symm
    split
    · rfl
    · rename_i hnot
      rw [← hg.not_mem_nodes]
      exact fun hmem => hnot ((hremoved path).mpr ⟨hmem, hpath⟩)

theorem mem_unwanted : path ∈ (g.nodes.keys.mergeSort (· ≤ ·)).filter (!wanted.contains ·) ↔
    path ∈ g.nodes ∧ path ∉ wanted := by
  have hkeys : path ∈ g.nodes.keys.mergeSort (· ≤ ·) ↔ path ∈ g.nodes :=
    (List.mergeSort_perm _ _).mem_iff
  rw [List.mem_filter, hkeys, Bool.not_eq_true', ← Bool.not_eq_true, PathSet.contains_eq_true]

/-- Where the wanted files are those that have nodes, none is removed and none is added. -/
theorem Recorded.none_come_or_gone (hg : Recorded record g) {removed added : List String}
    (hremoved : ∀ path ∈ removed, path ∈ g.nodes ∧ path ∉ wanted)
    (hadded : ∀ path ∈ added, path ∈ wanted ∧ record path = none)
    (hsame : ∀ path, path ∈ wanted ↔ path ∈ g.nodes) : removed = [] ∧ added = [] := by
  constructor
  · refine List.eq_nil_iff_forall_not_mem.mpr fun path hpath => ?_
    obtain ⟨hnode, hnot⟩ := hremoved path hpath
    exact hnot ((hsame path).mpr hnode)
  · refine List.eq_nil_iff_forall_not_mem.mpr fun path hpath => ?_
    obtain ⟨hwanted, hrecord⟩ := hadded path hpath
    exact hg.not_mem_nodes.mpr hrecord ((hsame path).mp hwanted)

/-- Selecting restricts the record to the wanted files.  It tells that files have come or gone exactly if
the wanted files are not those that had nodes. -/
theorem ends_select (hg : Recorded record g) (wanted : PathSet)
    (times : String → Except DiskFault (Option Timestamp)) :
    Ends (select wanted times) g
      (fun chosen after => chosen.2 = wanted.toList.filter (record.outdated times) ∧
        Recorded (record.restrict wanted) after ∧ (chosen.1 = false → after = g) ∧
        ((∀ path, path ∈ wanted ↔ path ∈ g.nodes) → chosen.1 = false) ∧
        ∀ fault, ¬ TimeFault record wanted.toList times fault)
      (fun fault _ => TimeFault record wanted.toList times fault) := by
  let removed := (g.nodes.keys.mergeSort (· ≤ ·)).filter (!wanted.contains ·)
  have hremoved : ∀ path, path ∈ removed ↔ path ∈ g.nodes ∧ path ∉ wanted := fun _ => mem_unwanted
  refine .get_bind ?_
  refine (ends_dropNodes hg removed).total.bind ?_
  rintro _ dropped ⟨hdropped, hdroppedSame⟩
  refine (ends_ensureNodes hdropped wanted.nodup_toList).total.bind ?_
  rintro added ensured ⟨hadded, hensured, hensuredSame⟩
  rw [hg.dropped_added_eq hremoved] at hensured
  have hnew : ∀ path ∈ wanted.toList, path ∈ added ↔ record path = none := by
    intro path hpath
    have hkept : path ∉ removed := fun hmem => ((hremoved path).mp hmem).2 hpath
    rw [hadded, List.mem_filter, if_neg hkept, Option.isNone_iff_eq_none]
    exact and_iff_right hpath
  have hnodes : ∀ path ∈ wanted.toList, ∀ scan, record path = some scan →
      ensured.nodes.get? path = some (nodeOf path scan) := by
    intro path hpath scan hscan
    have hrecord : record.restrict wanted path = some scan := by
      refine (if_pos hpath).trans ?_
      rw [hscan]
      rfl
    rw [hensured.nodes, hrecord]
    rfl
  refine (ends_compareTimes hnew hnodes).bind ?_
  rintro stale after ⟨hstale, rfl, htimes⟩
  refine .pure ⟨hstale, hensured, fun hneither => ?_, fun hsame => ?_, htimes⟩
  · rw [Bool.or_eq_false_iff, Bool.not_eq_false', Bool.not_eq_false', List.isEmpty_iff,
      List.isEmpty_iff] at hneither
    rw [hensuredSame hneither.2, hdroppedSame hneither.1]
  · have hwanted : ∀ path ∈ added, path ∈ wanted ∧ record path = none := by
      intro path hpath
      have hlisted : path ∈ wanted.toList := (List.mem_filter.mp (hadded ▸ hpath)).1
      exact ⟨hlisted, (hnew path hlisted).mp hpath⟩
    obtain ⟨hnoneRemoved, hnoneAdded⟩ :=
      hg.none_come_or_gone (fun path => (hremoved path).mp) hwanted hsame
    show (!removed.isEmpty || !added.isEmpty) = false
    rw [hnoneRemoved, hnoneAdded]
    rfl

/-! ## What a refresh does -/

theorem mem_filter_outdated : path ∈ wanted.toList.filter (record.outdated times) ↔
    path ∈ wanted ∧ record.outdated times path = true :=
  List.mem_filter

/-- Scanning what is out of date among the wanted files refreshes the record. -/
theorem Record.scan_restrict (found : String → Scan) : (record.restrict wanted).scan
    (wanted.toList.filter (record.outdated times)) found = record.refreshed wanted times found := by
  funext path
  simp only [Record.scan, Record.refreshed, Record.restrict, mem_filter_outdated]
  by_cases hpath : path ∈ wanted
  · cases houtdated : record.outdated times path with
    | true => simp [hpath]
    | false =>
        cases hscan : record path with
        | none => simp [Record.outdated, hscan] at houtdated
        | some scan => simp [hpath]
  · simp [hpath]

/-- Where the wanted files are those that have nodes the record is that of the wanted files. -/
theorem Recorded.restrict_eq (hg : Recorded record g) (hsame : ∀ path, path ∈ wanted ↔ path ∈ g.nodes) :
    record.restrict wanted = record := by
  funext path
  rw [Record.restrict]
  split
  · rename_i hpath
    obtain ⟨scan, hscan⟩ := hg.mem_nodes.mp ((hsame path).mp hpath)
    rw [hscan, Option.getD_some]
  · rename_i hpath
    exact (hg.not_mem_nodes.mp fun hnode => hpath ((hsame path).mpr hnode)).symm

/-- A refresh leaves the refreshed record, whether or not the graph was resolved before.  If files have come
or gone the graph is resolved, otherwise the files that are out of date are. -/
theorem ends_refresh_of_recorded (hg : Recorded record g) (files : FileSet) :
    Ends (builder.refresh files) g
      (fun _ after => Recorded
        (record.refreshed (builder.keysOf files) (builder.readerFor files).changed
          (builder.scanOf (builder.readerFor files))) after ∧
        ((∃ path, ¬ (path ∈ builder.keysOf files ↔ path ∈ g.nodes)) → Resolved builder after) ∧
        ((∀ path, path ∈ builder.keysOf files ↔ path ∈ g.nodes) →
          RowsLinked builder g ((builder.keysOf files).toList.filter
            (record.outdated (builder.readerFor files).changed)) after) ∧
        (∀ fault, ¬ TimeFault record (builder.keysOf files).toList
          (builder.readerFor files).changed fault) ∧
        ∀ fault, ¬ Obstacle builder.pool (builder.readerFor files)
          ((builder.keysOf files).toList.filter
            (record.outdated (builder.readerFor files).changed)) fault)
      (fun fault _ =>
        TimeFault record (builder.keysOf files).toList (builder.readerFor files).changed fault ∨
        Obstacle builder.pool (builder.readerFor files) ((builder.keysOf files).toList.filter
          (record.outdated (builder.readerFor files).changed)) fault ∨
        ∃ halted, Recorded (record.refreshed (builder.keysOf files) (builder.readerFor files).changed
          (builder.scanOf (builder.readerFor files))) halted ∧
          Unanswered builder halted (fun path => (∃ other, ¬ (other ∈ builder.keysOf files ↔ other ∈ g.nodes)) ∨
            path ∈ (builder.keysOf files).toList.filter
              (record.outdated (builder.readerFor files).changed)) fault) := by
  rw [refresh_eq]
  generalize builder.readerFor files = reader
  generalize builder.keysOf files = wanted
  refine ((ends_select hg wanted reader.changed).mono (fun _ _ hgood => hgood)
    fun _ _ hbad => .inl hbad).bind ?_
  rintro ⟨all, stale⟩ selected ⟨rfl, hrecorded, hkept, hsame, htimes⟩
  have hwanted : ∀ path, path ∈ selected.nodes ↔ path ∈ wanted := by
    intro path
    rw [hrecorded.mem_nodes, Record.restrict, ← Option.isSome_iff_exists, Option.isSome_ite]
  have hknown : ∀ path ∈ wanted.toList.filter (record.outdated reader.changed),
      path ∈ selected.nodes := fun path hpath =>
    (hwanted path).mpr (mem_filter_outdated.mp hpath).1
  rw [← Record.scan_restrict]
  refine (ends_passes_of_recorded builder builder.pool reader all hrecorded
    (wanted.nodup_toList.filter _)).mono ?_ ?_
  · rintro _ after ⟨hscanned, -, hobstacle, hall, hsome⟩
    refine ⟨hscanned, ?_, fun hfiles => ?_, htimes, hobstacle⟩
    · rintro ⟨path, hpath⟩
      cases all with
      | true => exact hall rfl
      | false =>
          rw [← hkept rfl, hwanted] at hpath
          exact absurd Iff.rfl hpath
    · have hall' := hsame hfiles
      rw [← hkept hall']
      exact hsome hall'
  · rintro fault halted (hblocked | ⟨hscanned, hlost⟩)
    · exact .inr (.inl (hblocked.2.obstacle hknown))
    · refine .inr (.inr ⟨halted, hscanned, hlost.mono fun path hpath => hpath.imp_left fun hall => ?_⟩)
      exact not_forall.mp fun hfiles => Bool.false_ne_true ((hsame hfiles).symm.trans hall)

/-- A refresh of a resolved graph resolves it again and leaves the refreshed record.  It fails where a kept
file will not tell its time, at an obstacle to scanning the files that are out of date, or at a name without
an answer. -/
theorem ends_refresh (hg : Recorded record g) (hresolved : Resolved builder g) (files : FileSet) :
    Ends (builder.refresh files) g
      (fun _ after => Recorded
        (record.refreshed (builder.keysOf files) (builder.readerFor files).changed
          (builder.scanOf (builder.readerFor files))) after ∧ Resolved builder after ∧
        (∀ fault, ¬ TimeFault record (builder.keysOf files).toList
          (builder.readerFor files).changed fault) ∧
        ∀ fault, ¬ Obstacle builder.pool (builder.readerFor files)
          ((builder.keysOf files).toList.filter
            (record.outdated (builder.readerFor files).changed)) fault)
      (fun fault _ =>
        TimeFault record (builder.keysOf files).toList (builder.readerFor files).changed fault ∨
        Obstacle builder.pool (builder.readerFor files) ((builder.keysOf files).toList.filter
          (record.outdated (builder.readerFor files).changed)) fault ∨
        LosesAlias builder fault) := by
  refine (ends_refresh_of_recorded hg files).mono ?_ ?_
  · rintro _ after ⟨hrecorded, hchanged, hsame, htimes, hobstacle⟩
    refine ⟨hrecorded, fun path => ?_, htimes, hobstacle⟩
    by_cases hfiles : ∀ path, path ∈ builder.keysOf files ↔ path ∈ g.nodes
    · obtain ⟨hscanned, htargets, hunresolved⟩ := hsame hfiles
      by_cases hpath : path ∈ (builder.keysOf files).toList.filter
          (record.outdated (builder.readerFor files).changed)
      · exact hscanned path hpath
      · rw [← Record.scan_restrict, hg.restrict_eq hfiles] at hrecorded
        have hknown : ∀ path ∈ (builder.keysOf files).toList.filter
            (record.outdated (builder.readerFor files).changed), path ∈ g.nodes := fun path hpath =>
          (hfiles path).mp (mem_filter_outdated.mp hpath).1
        exact (hresolved path).of_not_scanned hg hrecorded hknown hpath (htargets path hpath)
          (hunresolved path hpath)
    · exact hchanged (not_forall.mp hfiles) path
  · exact fun _ _ hbad => hbad.imp_right fun hrest =>
      hrest.imp_right fun ⟨_, _, hlost⟩ => hlost.losesAlias

/-! ## What a refresh reads -/

section Congr

variable {first second : Reader} {pool : ReaderPool}

theorem readAll_congr (hread : ∀ path ∈ paths, first.read path = second.read path) :
    pool.readAll first paths = pool.readAll second paths := by
  have hreads : (pool.schedule.order paths).map (fun path => (path, first.read path)) =
      (pool.schedule.order paths).map fun path => (path, second.read path) :=
    List.map_congr_left fun path hpath => by
      rw [hread path ((pool.schedule.complete paths).mem_iff.mp hpath)]
  rw [ReaderPool.readAll, ReaderPool.readAll, hreads]

theorem mapM_congr {α β : Type} {m : Type → Type} [Monad m] [LawfulMonad m] {f g : α → m β} {items : List α}
    (h : ∀ item ∈ items, f item = g item) : items.mapM f = items.mapM g := by
  induction items with
  | nil => rfl
  | cons item rest ih =>
      rw [List.mapM_cons, List.mapM_cons, h item List.mem_cons_self,
        ih fun other hother => h other (List.mem_cons_of_mem _ hother)]

/-- A scan depends on the reader at the scanned files alone. -/
theorem scanAll_congr (hread : ∀ path ∈ paths, first.read path = second.read path)
    (htimes : ∀ path ∈ paths, first.changed path = second.changed path) :
    builder.scanAll pool first paths = builder.scanAll pool second paths := by
  unfold scanAll
  refine bind_congr fun nodes => ?_
  have hreads : pool.readAll first
      (((paths.zip nodes).filter fun entry => entry.2.kind != .asset).map (·.1)) =
      pool.readAll second
        (((paths.zip nodes).filter fun entry => entry.2.kind != .asset).map (·.1)) := by
    refine readAll_congr fun path hpath => ?_
    obtain ⟨⟨found, node⟩, hentry, rfl⟩ := List.mem_map.mp hpath
    exact hread found (List.of_mem_zip (List.mem_filter.mp hentry).1).1
  simp only [hreads]
  refine bind_congr fun reads => mapM_congr fun path hpath => ?_
  rw [htimes path hpath]

/-- So does a graph that is built on the reader at its files. -/
theorem build_congr
    (hagree : ∀ path ∈ builder.keysOf (.paths paths),
      first.read path = second.read path ∧ first.changed path = second.changed path) :
    (builder.withReader first).build (.paths paths) = (builder.withReader second).build (.paths paths) := by
  have hsteps : ∀ reader, (builder.withReader reader).buildSteps (.paths paths) =
      (builder.keysOf (.paths paths)).toList.forM
          (fun path => perform (Graph.addNode path (FileKind.ofPath path))) >>= fun _ =>
        builder.passes builder.pool reader true (builder.keysOf (.paths paths)).toList := by
    intro reader
    rw [← passes_withReader builder reader, ← keysOf_withReader builder reader]
    rfl
  have hscan : builder.scanAll builder.pool first (builder.keysOf (.paths paths)).toList =
      builder.scanAll builder.pool second (builder.keysOf (.paths paths)).toList :=
    scanAll_congr (fun path hpath => (hagree path (PathSet.mem_toList.mp hpath)).1)
      fun path hpath => (hagree path (PathSet.mem_toList.mp hpath)).2
  rw [build, build, hsteps, hsteps, passes, passes, hscan]

end Congr

/-- A refresh does not depend on what the reader gives for files that are not out of date. -/
theorem refresh_congr (hg : Recorded record g) {first second : Reader} {paths : List String}
    (htimes : first.changed = second.changed)
    (hread : ∀ path ∈ builder.keysOf (.paths paths), record.outdated second.changed path = true →
      first.read path = second.read path) :
    (builder.withReader first).refresh (.paths paths) g =
      (builder.withReader second).refresh (.paths paths) g := by
  have hselect := ends_select hg (builder.keysOf (.paths paths)) second.changed
  simp only [refresh_eq, keysOf_withReader, readerFor_withReader, passes_withReader, htimes]
  show EStateM.bind _ _ g = EStateM.bind _ _ g
  unfold EStateM.bind
  cases hchosen : select (builder.keysOf (.paths paths)) second.changed g with
  | error fault after => rfl
  | ok chosen after =>
      have hstale := (hselect.of_ok hchosen).1
      have hscan : builder.scanAll builder.pool first chosen.2 =
          builder.scanAll builder.pool second chosen.2 := by
        refine scanAll_congr (fun path hpath => ?_) fun path _ => congrFun htimes path
        rw [hstale] at hpath
        obtain ⟨hwanted, houtdated⟩ := mem_filter_outdated.mp hpath
        exact hread path hwanted houtdated
      show builder.passes builder.pool first chosen.1 chosen.2 after =
        builder.passes builder.pool second chosen.1 chosen.2 after
      rw [passes, passes, hscan]

end ChangeImpact.Builder
