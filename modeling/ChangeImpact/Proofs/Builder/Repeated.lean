import ChangeImpact.Proofs.Builder.Storing

/-!
# Refreshing once more

A graph that has been brought up to date (`Updated`) is stored and refreshed once more, and the files are as they
were.  The files that are scanned then have been scanned before, at the same time, and still do not carry the
time that they have now.  So they could not be read, or they are assets, and in either case they name nothing.
Such files have no edges, before and after, and no name in them can be without an answer.  So the second refresh
comes through, with the nodes and the edges that there were (`Updated.exists_repeated`).

It is another matter with what has been said about the files, since that is not stored.  A second refresh says
what it finds by itself.  These are the files that cannot be read, in the order in which they were reported the
first time.
-/

namespace ChangeImpact.Builder

open Diagnostic (said)

variable {builder : Builder} {pool : ReaderPool} {reader second : Reader} {record : Record}
  {g after stored : Graph} {wanted : PathSet} {stale : String → Bool} {files : FileSet} {path : String}
  {paths : List String}

/-! ## What scanning has said -/

theorem Record.Silent.restrict (h : record.Silent) (wanted : PathSet) : (record.restrict wanted).Silent := by
  intro path scan hscan
  rw [Record.restrict] at hscan
  split at hscan
  · cases hrecord : record path with
    | none =>
        rw [hrecord] at hscan
        cases hscan
        rfl
    | some known =>
        rw [hrecord] at hscan
        cases hscan
        exact h path known hrecord
  · cases hscan

theorem Recorded.scanning_eq_nil (hg : Recorded record g) (hsilent : record.Silent) :
    Diagnostic.scanning g.diagnostics = [] := by
  refine Diagnostic.scanning_eq_nil_of_said fun path => ?_
  rw [hg.problems]
  cases hrecord : record path with
  | none => rfl
  | some scan => rw [Option.bind_some, hsilent path scan hrecord]; rfl

/-- What the passes say about scans stands in the order of the scans. -/
theorem ends_passes_scanning (builder : Builder) (pool : ReaderPool) (reader : Reader) (all : Bool)
    (hg : Recorded record g) (hsilent : Diagnostic.scanning g.diagnostics = []) (paths : List String) :
    Ends (builder.passes pool reader all paths) g
      (fun _ after => Diagnostic.scanning after.diagnostics =
        paths.flatMap fun path => (builder.scanOf reader path).problem.toList)
      (fun _ _ => True) := by
  refine ((ends_scanAll builder pool reader hg.kinded paths).mono (fun _ _ hgood => hgood)
    fun _ _ _ => trivial).bind ?_
  rintro scans scanned ⟨rfl, rfl, hpaths, -⟩
  refine .modified_bind ?_
  have hbalanced := balanced_applyScans hg.balanced (paths.map (builder.scanOf reader))
  refine ((ends_relink builder hbalanced all fun path hpath => mem_nodes_applyScans.mpr (hpaths path hpath)).mono
    (fun _ _ hgood => hgood.1) fun _ _ _ => trivial).bind ?_
  intro _ linked hrelinked
  exact ends_check hrelinked.balanced
    (hrelinked.scanning.trans (scanning_applyScans builder reader hsilent paths))

theorem scanning_of_build (hbuild : builder.build files = .ok g) :
    Diagnostic.scanning g.diagnostics = (builder.keysOf files).toList.flatMap fun path =>
      (builder.scanOf (builder.readerFor files) path).problem.toList := by
  have hadded : Ends _ ∅ _ fun _ _ => False :=
    ends_addNodes (fun g => (∃ record, Recorded record g) ∧ Diagnostic.scanning g.diagnostics = [])
      ⟨⟨_, recorded_empty⟩, rfl⟩
      (by
        rintro g path ⟨⟨record, hg⟩, hsilent⟩ hpath
        exact ⟨⟨_, hg.withNode (hg.not_mem_nodes.mp hpath)⟩, hsilent⟩)
      (builder.keysOf files).nodup_toList
  have hsteps : Ends (builder.buildSteps files) ∅ (fun _ after => Diagnostic.scanning after.diagnostics =
      (builder.keysOf files).toList.flatMap fun path =>
        (builder.scanOf (builder.readerFor files) path).problem.toList) fun _ _ => True := by
    refine hadded.total.bind ?_
    rintro _ added ⟨⟨⟨record, hrecorded⟩, hsilent⟩, -⟩
    exact ends_passes_scanning builder builder.pool (builder.readerFor files) true hrecorded hsilent _
  unfold build at hbuild
  cases hbuilt : builder.buildSteps files ∅ with
  | ok _ built =>
      rw [hbuilt] at hbuild
      cases hbuild
      exact hsteps.of_ok hbuilt
  | error fault halted =>
      rw [hbuilt] at hbuild
      cases hbuild

theorem ends_refresh_scanning (hg : Recorded record g) (hsilent : record.Silent) (files : FileSet) :
    Ends (builder.refresh files) g
      (fun _ after => Diagnostic.scanning after.diagnostics =
        ((builder.keysOf files).toList.filter
          (record.outdated (builder.readerFor files).changed)).flatMap fun path =>
            (builder.scanOf (builder.readerFor files) path).problem.toList)
      (fun _ _ => True) := by
  rw [refresh_eq]
  refine ((ends_select hg (builder.keysOf files) (builder.readerFor files).changed).mono
    (fun _ _ hgood => hgood) fun _ _ _ => trivial).bind ?_
  rintro ⟨all, chosen⟩ selected ⟨rfl, hrecorded, -⟩
  have hnothing := hrecorded.scanning_eq_nil (hsilent.restrict (builder.keysOf files))
  exact ends_passes_scanning builder builder.pool (builder.readerFor files) all hrecorded hnothing _

/-! ## Graphs that are up to date -/

/-- A graph has just been brought up to date with the wanted files.  The stale ones have been scanned and linked,
and all that are out of date by now were among them. -/
structure Updated (builder : Builder) (reader : Reader) (wanted : PathSet) (stale : String → Bool)
    (record : Record) (g : Graph) : Prop where
  recorded : Recorded record g
  mem_nodes : ∀ path, path ∈ g.nodes ↔ path ∈ wanted
  scanned : ∀ path ∈ wanted, stale path = true → record path = some (builder.scanOf reader path)
  outdated : ∀ path ∈ wanted, record.outdated reader.changed path = true → stale path = true
  linked : ∀ path ∈ wanted, stale path = true → LinkedAt builder g path
  unhindered : ∀ fault, ¬ Obstacle builder.pool reader (wanted.toList.filter stale) fault
  told : Diagnostic.scanning g.diagnostics = (wanted.toList.filter stale).flatMap fun path =>
    (builder.scanOf reader path).problem.toList

theorem updated_of_build (hbuild : builder.build files = .ok g) :
    Updated builder (builder.readerFor files) (builder.keysOf files) (fun _ => true)
      (builder.recordOf files) g := by
  obtain ⟨hrecorded, hresolved, hunhindered⟩ := resolved_of_build hbuild
  have hall : (builder.keysOf files).toList.filter (fun _ => true) = (builder.keysOf files).toList :=
    List.filter_eq_self.mpr fun _ _ => rfl
  refine ⟨hrecorded, fun path => mem_nodes_of_build hbuild, ?_, fun _ _ _ => rfl, ?_, ?_, ?_⟩
  · intro path hpath _
    exact if_pos (PathSet.mem_toList.mpr hpath)
  · exact fun path _ _ => (hresolved path).toLinkedAt
  · rwa [hall]
  · rw [hall]
    exact scanning_of_build hbuild

section Refreshed

variable {times : String → Except DiskFault (Option Timestamp)} {found : String → Scan}

/-- A refreshed record is one of the wanted files. -/
theorem Record.exists_refreshed_iff :
    (∃ scan, record.refreshed wanted times found path = some scan) ↔ path ∈ wanted := by
  rw [Record.refreshed]
  split
  · rename_i hpath
    refine iff_of_true ?_ hpath
    split
    · exact ⟨_, rfl⟩
    · rename_i hkept
      cases hrecord : record path with
      | none =>
          rw [Record.outdated, hrecord] at hkept
          exact absurd rfl hkept
      | some scan => exact ⟨scan, rfl⟩
  · rename_i hpath
    refine iff_of_false ?_ hpath
    rintro ⟨scan, hscan⟩
    cases hscan

/-- A scan that has been kept is as little out of date as before. -/
theorem Record.outdated_of_refreshed (hpath : path ∈ wanted)
    (h : (record.refreshed wanted times found).outdated times path = true) : record.outdated times path = true := by
  by_contra hkept
  have hscan : record.refreshed wanted times found path = record path := by
    rw [Record.refreshed, if_pos hpath, if_neg hkept]
  rw [Record.outdated, hscan] at h
  exact hkept h

end Refreshed

theorem updated_of_refresh (hg : Recorded record g) (hsilent : record.Silent)
    (hrefresh : builder.refresh files g = .ok () after) :
    Updated builder (builder.readerFor files) (builder.keysOf files)
      (record.outdated (builder.readerFor files).changed)
      (record.refreshed (builder.keysOf files) (builder.readerFor files).changed
        (builder.scanOf (builder.readerFor files))) after := by
  have hends : Ends (builder.refresh files) g _ _ := ends_refresh_of_recorded hg files
  obtain ⟨hrecorded, hchanged, hsame, -, hunhindered⟩ := hends.of_ok hrefresh
  have htold : Ends (builder.refresh files) g _ _ := ends_refresh_scanning hg hsilent files
  refine ⟨hrecorded, fun path => hrecorded.mem_nodes.trans Record.exists_refreshed_iff, ?_,
    fun path hpath => Record.outdated_of_refreshed hpath, ?_, hunhindered, htold.of_ok hrefresh⟩
  · intro path hpath hstale
    rw [Record.refreshed, if_pos hpath, if_pos hstale]
  · intro path hpath hstale
    by_cases hfiles : ∀ path, path ∈ builder.keysOf files ↔ path ∈ g.nodes
    · exact ((hsame hfiles).resolved path (mem_filter_outdated.mpr ⟨hpath, hstale⟩)).toLinkedAt
    · exact (hchanged (not_forall.mp hfiles) path).toLinkedAt

namespace Updated

/-- Whether a graph is up to date depends on the reader at the wanted files alone. -/
theorem withReader (h : Updated builder reader wanted stale record g)
    (hagree : ∀ path ∈ wanted, second.read path = reader.read path ∧ second.changed path = reader.changed path) :
    Updated (builder.withReader second) second wanted stale record g := by
  have hscan : ∀ path ∈ wanted,
      (builder.withReader second).scanOf second path = builder.scanOf reader path := by
    intro path hpath
    rw [scanOf_withReader]
    exact scanOf_congr (hagree path hpath).1 (hagree path hpath).2
  refine ⟨h.recorded, h.mem_nodes, ?_, ?_, ?_, ?_, ?_⟩
  · intro path hpath hstale
    rw [hscan path hpath, h.scanned path hpath hstale]
  · intro path hpath houtdated
    rw [Record.outdated, (hagree path hpath).2] at houtdated
    exact h.outdated path hpath houtdated
  · intro path hpath hstale
    exact (h.linked path hpath hstale).congr (linksIn_withReader builder second g path) rfl rfl
  · rintro fault (⟨hpath, hkind, hpool⟩ | ⟨hpath, hkind, hfault⟩)
    · exact h.unhindered _ (.noWorkers hpath hkind hpool)
    · rw [(hagree _ (PathSet.mem_toList.mp (List.mem_of_mem_filter hpath))).2] at hfault
      exact h.unhindered _ (.noTime hpath hkind hfault)
  · rw [h.told]
    refine List.flatMap_congr fun path hpath => ?_
    rw [hscan path (PathSet.mem_toList.mp (List.mem_of_mem_filter hpath))]

end Updated

/-! ## Files that stay out of date -/

/-- Of what a scan says a read error is all that the next scan of the same file will say, and where it has said
anything else the file is not scanned again. -/
theorem readErrors_of_scan {time : Option Timestamp} (htimely : reader.Timely)
    (htime : reader.changed path = .ok time) :
    (builder.scanOf reader path).problem.toList.filter (·.kind == .readError) =
      if isStale (timeJson (builder.scanOf reader path).changed) time then
        (builder.scanOf reader path).problem.toList
      else [] := by
  by_cases hkind : FileKind.ofPath path = .asset
  · rw [scanOf, if_pos hkind]
    exact (ite_self []).symm
  rw [scanOf, if_neg hkind]
  cases hcontent : (reader.read path).content with
  | error fault =>
      -- a file that cannot be read has told no time with its text, so its scan is out of date at any time
      have hread := htimely path
      rw [hcontent] at hread
      have hnone : (reader.read path).changed = none := hread
      have hscan : builder.scanRead path (reader.read path) =
          { path, changed := none, problem := some ⟨path, .readError, fault.message, none⟩ } := by
        rw [scanRead, hcontent, hnone]
      rw [hscan]
      rfl
  | ok content =>
      rw [isStale_scanRead htimely htime hcontent]
      refine List.filter_eq_nil_iff.mpr fun d hd => ?_
      rw [beq_iff_eq]
      exact kind_ne_readError_of_scanRead hcontent d (Option.mem_toList.mp hd)

theorem filter_flatMap_filter {α β : Type} {items : List α} {first again : α → Bool} {tell : α → List β}
    {keep : β → Bool}
    (h : ∀ item ∈ items, (if first item then (tell item).filter keep else []) =
      if again item then tell item else []) :
    ((items.filter first).flatMap tell).filter keep = (items.filter again).flatMap tell := by
  induction items with
  | nil => rfl
  | cons item rest ih =>
      have hitem := h item List.mem_cons_self
      have hrest := ih fun other hother => h other (List.mem_cons_of_mem _ hother)
      rw [List.filter_cons, List.filter_cons]
      split at hitem
      · rename_i hfirst
        rw [if_pos hfirst, List.flatMap_cons, List.filter_append, hrest, hitem]
        split
        · rw [List.flatMap_cons]
        · rw [List.nil_append]
      · rename_i hfirst
        rw [if_neg hfirst, hrest]
        split at hitem
        · rename_i hagain
          rw [if_pos hagain, List.flatMap_cons, ← hitem, List.nil_append]
        · rename_i hagain
          rw [if_neg hagain]

namespace Updated

variable (h : Updated builder reader wanted stale record g) (htimely : reader.Timely)
  (htold : ∀ path ∈ wanted, ∀ cause, reader.changed path ≠ .error cause)

include h htimely htold

/-- A scan that is out of date as soon as it has been made could not be read, so the file names nothing. -/
theorem namesIn_eq_nil (hpath : path ∈ wanted) (houtdated : record.outdated reader.changed path = true) :
    namesIn g path = [] := by
  have hscan := h.scanned path hpath (h.outdated path hpath houtdated)
  rw [Record.outdated, hscan] at houtdated
  rw [h.recorded.namesIn_eq, hscan]
  cases htime : reader.changed path with
  | error cause => exact absurd htime (htold path hpath cause)
  | ok time =>
      rw [htime] at houtdated
      exact specifiers_eq_nil_of_isStale htimely htime houtdated

theorem linksIn_eq_empty (hnodes : ∀ path, after.nodes.get? path = g.nodes.get? path)
    (hpath : path ∈ wanted.toList.filter (record.outdated reader.changed)) : builder.linksIn after path = {} := by
  obtain ⟨hmem, houtdated⟩ := mem_filter_outdated.mp hpath
  rw [linksIn_eq_of_nodes hnodes, linksIn, h.namesIn_eq_nil htimely htold hmem houtdated, links]

/-- Among what has been said, the read errors are what scanning the files that are still out of date says. -/
theorem readErrors_eq : g.diagnostics.filter (·.kind == .readError) =
    (wanted.toList.filter (record.outdated reader.changed)).flatMap fun path =>
      (builder.scanOf reader path).problem.toList := by
  rw [← Diagnostic.filter_readError_scanning, h.told]
  refine filter_flatMap_filter fun path hpath => ?_
  rw [PathSet.mem_toList] at hpath
  cases hstale : stale path with
  | false =>
      have hcurrent : record.outdated reader.changed path ≠ true := fun houtdated => by
        rw [h.outdated path hpath houtdated] at hstale
        cases hstale
      rw [if_neg hcurrent, if_neg Bool.false_ne_true]
  | true =>
      cases htime : reader.changed path with
      | error cause => exact absurd htime (htold path hpath cause)
      | ok time =>
          rw [if_pos rfl, readErrors_of_scan htimely htime, Record.outdated, h.scanned path hpath hstale, htime]

end Updated

/-! ## The second refresh -/

/-- A graph is refreshed once more: it has the same nodes and edges, and all that is said are the read errors. -/
structure Repeated (g again : Graph) : Prop where
  balanced : again.Balanced
  nodes : ∀ path, again.nodes.get? path = g.nodes.get? path
  targets : ∀ path, again.targets path = g.targets path
  diagnostics : again.diagnostics = g.diagnostics.filter (·.kind == .readError)

namespace Updated

variable (h : Updated builder reader wanted stale record g) (hstored : Graph.Stored g stored)

include h in
/-- What is scanned again has the scan that it had. -/
theorem nodes_of_refreshed (hafter : Recorded
    (record.silenced.refreshed wanted reader.changed (builder.scanOf reader)) after) (path : String) :
    after.nodes.get? path = g.nodes.get? path := by
  rw [hafter.nodes, h.recorded.nodes, Record.refreshed, Record.outdated_silenced]
  split
  · rename_i hpath
    split
    · rename_i houtdated
      rw [h.scanned path hpath (h.outdated path hpath houtdated)]
    · rw [Record.silenced, Option.map_map]
      rfl
  · rename_i hpath
    rw [h.recorded.not_mem_nodes.mp fun hnode => hpath ((h.mem_nodes path).mp hnode)]

include h hstored

theorem mem_wanted_iff (path : String) : path ∈ wanted ↔ path ∈ stored.nodes :=
  (h.mem_nodes path).symm.trans hstored.mem_nodes.symm

variable (hreader : builder.readerFor files = reader) (hwanted : builder.keysOf files = wanted)
  (htimely : reader.Timely) (htold : ∀ path ∈ wanted, ∀ cause, reader.changed path ≠ .error cause)

include hreader hwanted htimely htold

/-- The second refresh meets nothing that the first one has not met. -/
theorem ends_refresh_stored : Ends (builder.refresh files) stored
    (fun _ again => (∀ path, again.nodes.get? path = g.nodes.get? path) ∧ again.Balanced ∧
      RowsLinked builder stored (wanted.toList.filter (record.outdated reader.changed)) again)
    (fun _ _ => False) := by
  have hends : Ends (builder.refresh files) stored _ _ :=
    ends_refresh_of_recorded (h.recorded.of_stored hstored) files
  rw [hreader, hwanted, Record.outdated_silenced] at hends
  refine hends.mono ?_ ?_
  · rintro _ again ⟨hagain, -, hsame, -⟩
    exact ⟨h.nodes_of_refreshed hagain, hagain.balanced, hsame (h.mem_wanted_iff hstored)⟩
  · rintro fault _ (⟨path, hpath, -, cause, hcause, -⟩ | hobstacle | ⟨halted, hhalted, -, path, hlinked, hfault⟩)
    · exact htold path (PathSet.mem_toList.mp hpath) cause hcause
    · refine h.unhindered fault (hobstacle.mono fun path hpath => ?_)
      obtain ⟨hmem, houtdated⟩ := mem_filter_outdated.mp hpath
      exact List.mem_filter.mpr ⟨PathSet.mem_toList.mpr hmem, h.outdated path hmem houtdated⟩
    · rcases hlinked with ⟨other, hother⟩ | hpath
      · exact hother (h.mem_wanted_iff hstored other)
      · rw [h.linksIn_eq_empty htimely htold (h.nodes_of_refreshed hhalted) hpath] at hfault
        exact hfault rfl

theorem exists_repeated : ∃ again, builder.refresh files stored = .ok () again ∧ Repeated g again := by
  have hsaid : Ends (builder.refresh files) stored _ _ :=
    ends_refresh_scanning (h.recorded.of_stored hstored) record.silent_silenced files
  rw [hreader, hwanted, Record.outdated_silenced] at hsaid
  obtain ⟨_, again, hrefresh, hnodes, hbalanced, hlinked, htargets, hunresolved⟩ :=
    (h.ends_refresh_stored hstored hreader hwanted htimely htold).succeeds fun _ _ hbad => hbad
  have hnothing : ∀ path ∈ wanted.toList.filter (record.outdated reader.changed),
      builder.linksIn again path = {} := fun path hpath =>
    h.linksIn_eq_empty htimely htold hnodes hpath
  refine ⟨again, hrefresh, hbalanced, hnodes, fun path => ?_, ?_⟩
  · by_cases hpath : path ∈ wanted.toList.filter (record.outdated reader.changed)
    · -- without names there are no edges, before and after
      obtain ⟨hmem, houtdated⟩ := mem_filter_outdated.mp hpath
      have hbefore := h.linked path hmem (h.outdated path hmem houtdated)
      refine PathSet.ext fun target => ?_
      rw [(hlinked path hpath).mem_targets, hbefore.mem_targets, hnothing path hpath,
        h.linksIn_eq_empty htimely htold (fun _ => rfl) hpath]
    · rw [htargets path hpath, hstored.targets]
  · have hquiet : ∀ path, said true path again.diagnostics = [] := by
      intro path
      by_cases hpath : path ∈ wanted.toList.filter (record.outdated reader.changed)
      · rw [(hlinked path hpath).unresolved, hnothing path hpath]
      · rw [hunresolved path hpath, hstored.diagnostics]
        rfl
    rw [← Diagnostic.scanning_eq_self_of_said hquiet, hsaid.of_ok hrefresh, h.readErrors_eq htimely htold]

end Updated

end ChangeImpact.Builder
