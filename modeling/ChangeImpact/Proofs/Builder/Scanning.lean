import ChangeImpact.Builder
import ChangeImpact.Proofs.Graph.Operations
import ChangeImpact.Proofs.Graph.Diagnostics

/-!
# Scanning

A scan of files has one outcome for every file, which depends on the reader at that file alone
(`scanOf`).  A scan of many files fails if it is `Blocked`: at the first file that has no node, or else
at an `Obstacle`, if there is a script but no worker, or if the reader will not tell the time of an
asset.  It never touches the graph; `applyScans` does, and replaces the scanned nodes and what scanning
and linking have said about them.
-/

namespace ChangeImpact.Builder

open Diagnostic (said)

variable {builder : Builder} {pool : ReaderPool} {reader : Reader} {g : Graph} {path : String}
  {paths : List String}

/-! ## The scan of one file -/

/-- What scanning a file finds, if nothing is in the way. -/
def scanOf (builder : Builder) (reader : Reader) (path : String) : Scan :=
  if FileKind.ofPath path = .asset then { path, changed := (reader.changed path).toOption.join }
  else builder.scanRead path (reader.read path)

theorem scanOf_congr {other : Reader} (hread : reader.read path = other.read path)
    (hchanged : reader.changed path = other.changed path) :
    builder.scanOf reader path = builder.scanOf other path := by
  rw [scanOf, scanOf, hread, hchanged]

theorem scanRead_path (read : FileRead) : (builder.scanRead path read).path = path := by
  unfold scanRead
  split
  · rfl
  · rfl

@[simp] theorem scanOf_path : (builder.scanOf reader path).path = path := by
  unfold scanOf
  split
  · rfl
  · exact scanRead_path _

/-- The problem of a scan is about the scanned file and has nothing to do with linking. -/
def Scan.Proper (scan : Scan) : Prop :=
  ∀ d ∈ scan.problem, d.path = scan.path ∧ d.isLinking = false

theorem scanRead_proper (read : FileRead) : (builder.scanRead path read).Proper := by
  intro d hd
  rw [scanRead_path]
  unfold scanRead at hd
  split at hd
  · cases hd
    exact ⟨rfl, rfl⟩
  · dsimp only at hd
    split at hd
    · cases hd
      exact ⟨rfl, rfl⟩
    · split at hd
      · cases hd
      · cases hd
        exact ⟨rfl, rfl⟩
    · cases hd

/-- Of a text that has been read a scan does not say that it could not be read. -/
theorem kind_ne_readError_of_scanRead {read : FileRead} {content : String} (h : read.content = .ok content) :
    ∀ d ∈ (builder.scanRead path read).problem, d.kind ≠ .readError := by
  intro d hd
  unfold scanRead at hd
  rw [h] at hd
  dsimp only at hd
  split at hd
  · cases hd
    exact DiagnosticKind.noConfusion
  · split at hd
    · cases hd
    · cases hd
      exact DiagnosticKind.noConfusion
  · cases hd

theorem scanOf_proper : (builder.scanOf reader path).Proper := by
  unfold scanOf
  split
  · exact fun _ hd => nomatch hd
  · exact scanRead_proper _

/-! ## Scanning many files -/

/-- Why a scan of files fails. -/
inductive Obstacle (pool : ReaderPool) (reader : Reader) (paths : List String) :
    BuildError → Prop where
  | noWorkers {path : String} (hpath : path ∈ paths) (hkind : FileKind.ofPath path ≠ .asset)
      (hpool : pool.hasWorkers = false) : Obstacle pool reader paths (.pool .noWorkers)
  | noTime {path : String} {fault : DiskFault} (hpath : path ∈ paths)
      (hkind : FileKind.ofPath path = .asset) (hfault : reader.changed path = .error fault) :
      Obstacle pool reader paths (.disk fault)

theorem Obstacle.mono {fault : BuildError} {others : List String}
    (h : Obstacle pool reader paths fault) (hsub : ∀ path ∈ paths, path ∈ others) :
    Obstacle pool reader others fault := by
  cases h with
  | noWorkers hpath hkind hpool => exact .noWorkers (hsub _ hpath) hkind hpool
  | noTime hpath hkind hfault => exact .noTime (hsub _ hpath) hkind hfault

/-- The first of some files that has no node is asked for its node. -/
def FirstMissing (g : Graph) (paths : List String) (fault : BuildError) : Prop :=
  ∃ done path rest, paths = done ++ path :: rest ∧ (∀ other ∈ done, other ∈ g.nodes) ∧
    path ∉ g.nodes ∧ fault = .graph (.missingEntry path)

/-- A scan of files fails at one that has no node, or else at an obstacle. -/
def Blocked (g : Graph) (pool : ReaderPool) (reader : Reader) (paths : List String)
    (fault : BuildError) : Prop :=
  FirstMissing g paths fault ∨
    (∀ path ∈ paths, path ∈ g.nodes) ∧ Obstacle pool reader paths fault

theorem FirstMissing.not_known {fault : BuildError} (h : FirstMissing g paths fault) :
    ¬ ∀ path ∈ paths, path ∈ g.nodes := by
  obtain ⟨done, path, rest, rfl, -, hpath, -⟩ := h
  exact fun hknown => hpath (hknown path (by simp))

/-- Where all files have nodes only an obstacle blocks a scan. -/
theorem Blocked.obstacle {fault : BuildError} (h : Blocked g pool reader paths fault)
    (hknown : ∀ path ∈ paths, path ∈ g.nodes) : Obstacle pool reader paths fault :=
  h.elim (fun hmissing => absurd hknown hmissing.not_known) And.right

/-- Every node has the kind that its path shows. -/
def Kinded (g : Graph) : Prop :=
  ∀ path node, g.nodes.get? path = some node → node.kind = FileKind.ofPath path

theorem ends_demand {ε α : Type} (wrap : ε → BuildError) (result : Except ε α) (g : Graph) :
    Ends (demand wrap result) g
      (fun value after => result = .ok value ∧ after = g)
      (fun fault after => after = g ∧ ∃ cause, result = .error cause ∧ fault = wrap cause) := by
  cases result with
  | ok value => exact .of_eq_ok rfl ⟨rfl, rfl⟩
  | error cause => exact .of_eq_error rfl ⟨rfl, cause, rfl, rfl⟩

theorem ends_demandNode (g : Graph) (path : String) :
    Ends (demandNode path) g
      (fun node after => g.nodes.get? path = some node ∧ after = g)
      (fun fault after => after = g ∧ path ∉ g.nodes ∧ fault = .graph (.missingEntry path)) := by
  cases hnode : g.nodes.get? path with
  | none =>
      refine .of_eq_error ?_ ⟨rfl, Table.get?_eq_none_iff.mp hnode, rfl⟩
      show EStateM.run (demandNode path) g = _
      simp only [demandNode, EStateM.run_bind, EStateM.run_get, hnode]
      rfl
  | some node =>
      refine .of_eq_ok ?_ ⟨rfl, rfl⟩
      show EStateM.run (demandNode path) g = _
      simp [demandNode, hnode]

/-- The first pass of a scan looks up the nodes of all files. -/
theorem ends_demandNodes (g : Graph) (paths : List String) :
    Ends (paths.mapM demandNode) g
      (fun nodes after => nodes = paths.map (fun path => (g.nodes.get? path).getD default) ∧
        after = g ∧ ∀ path ∈ paths, path ∈ g.nodes)
      (fun fault after => after = g ∧ FirstMissing g paths fault) := by
  refine .mapM_read _ (· ∈ g.nodes) fun done path rest hpaths hdone => ?_
  refine (ends_demandNode g path).mono ?_ ?_
  · rintro node after ⟨hnode, rfl⟩
    exact ⟨by rw [hnode, Option.getD_some], rfl, Table.mem_of_get? hnode⟩
  · rintro fault after ⟨rfl, hpath, rfl⟩
    exact ⟨rfl, done, path, rest, hpaths, hdone, hpath, rfl⟩

/-- The files that are read are those that are no assets. -/
theorem map_filter_zip_nodes (hkind : Kinded g) (h : ∀ path ∈ paths, path ∈ g.nodes) :
    ((paths.zip (paths.map fun path => (g.nodes.get? path).getD default)).filter
      fun entry => entry.2.kind != .asset).map (·.1) =
      paths.filter fun path => FileKind.ofPath path != .asset := by
  induction paths with
  | nil => rfl
  | cons path rest ih =>
      obtain ⟨node, hnode⟩ := Table.mem_iff_exists.mp (h path (List.mem_cons_self ..))
      have hrest := ih fun other hother => h other (List.mem_cons_of_mem _ hother)
      rw [List.map_cons, List.zip_cons_cons, List.filter_cons, List.filter_cons, hnode,
        Option.getD_some, hkind path node hnode]
      split
      · rw [List.map_cons, hrest]
      · exact hrest

/-- What the workers have read does not depend on their schedule. -/
theorem get?_of_readAll {reads : Table FileRead} (h : pool.readAll reader paths = .ok reads) :
    reads.get? path = if path ∈ paths then some (reader.read path) else none := by
  unfold ReaderPool.readAll at h
  split at h
  · rename_i hempty
    cases h
    rw [List.isEmpty_iff.mp hempty]
    rfl
  · split at h
    · cases h
    · cases h
      rw [Table.get?_ofList_map]
      simp only [(pool.schedule.complete paths).mem_iff]

theorem of_readAll_error {fault : PoolFault} (h : pool.readAll reader paths = .error fault) :
    fault = .noWorkers ∧ pool.hasWorkers = false ∧ ∃ path, path ∈ paths := by
  unfold ReaderPool.readAll at h
  split at h
  · cases h
  · rename_i hempty
    split at h
    · rename_i hworkers
      cases h
      refine ⟨rfl, by simpa using hworkers, ?_⟩
      exact List.exists_mem_of_ne_nil paths (by simpa using hempty)
    · cases h

theorem of_readAll_ok {reads : Table FileRead} (h : pool.readAll reader paths = .ok reads)
    (hpath : path ∈ paths) : pool.hasWorkers = true := by
  unfold ReaderPool.readAll at h
  split at h
  · rename_i hempty
    rw [List.isEmpty_iff.mp hempty] at hpath
    cases hpath
  · split at h
    · cases h
    · rename_i hworkers
      simpa using hworkers

/-- The last pass of a scan: files that have not been read are assets, of which only the time is
asked. -/
private theorem ends_collect {reads : Table FileRead}
    (hreads : ∀ path ∈ paths, reads.get? path =
      if FileKind.ofPath path = .asset then none else some (reader.read path))
    (hworkers : ∀ path ∈ paths, FileKind.ofPath path ≠ .asset → pool.hasWorkers = true) :
    Ends (paths.mapM fun path => do
        match reads.get? path with
        | some read => return builder.scanRead path read
        | none => return { path, changed := ← demand .disk (reader.changed path) }) g
      (fun scans after => scans = paths.map (builder.scanOf reader) ∧ after = g ∧
        ∀ fault, ¬ Obstacle pool reader paths fault)
      (fun fault after => after = g ∧ Obstacle pool reader paths fault) := by
  -- in the end each asset has told its time
  refine (Ends.mapM_read (builder.scanOf reader)
    (fun path => FileKind.ofPath path = .asset → ∃ time, reader.changed path = .ok time) ?_).imp ?_
  · rintro done path rest hpaths -
    have hpath : path ∈ paths := by simp [hpaths]
    rw [hreads path hpath]
    by_cases hasset : FileKind.ofPath path = .asset
    · rw [if_pos hasset]
      cases hchanged : reader.changed path with
      | error fault =>
          exact .of_eq_error rfl ⟨rfl, .noTime hpath hasset hchanged⟩
      | ok time =>
          refine .of_eq_ok rfl ⟨?_, rfl, fun _ => ⟨time, rfl⟩⟩
          simp [scanOf, hasset, hchanged, Except.toOption]
    · rw [if_neg hasset]
      refine .of_eq_ok rfl ⟨?_, rfl, fun hkind => absurd hkind hasset⟩
      simp [scanOf, hasset]
  · rintro scans state ⟨rfl, rfl, htimes⟩
    refine ⟨rfl, rfl, fun fault hobstacle => ?_⟩
    cases hobstacle with
    | noWorkers hpath hkind hpool =>
        rw [hworkers _ hpath hkind] at hpool
        cases hpool
    | noTime hpath hkind hfault =>
        obtain ⟨time, htime⟩ := htimes _ hpath hkind
        rw [htime] at hfault
        cases hfault

/-- A scan gives the scans of all files, or it is blocked; it only succeeds if all files have nodes and
there is no obstacle. -/
theorem ends_scanAll (builder : Builder) (pool : ReaderPool) (reader : Reader) (hkind : Kinded g)
    (paths : List String) :
    Ends (builder.scanAll pool reader paths) g
      (fun scans after => scans = paths.map (builder.scanOf reader) ∧ after = g ∧
        (∀ path ∈ paths, path ∈ g.nodes) ∧ ∀ fault, ¬ Obstacle pool reader paths fault)
      (fun fault after => after = g ∧ Blocked g pool reader paths fault) := by
  let scripts := paths.filter fun path => FileKind.ofPath path != .asset
  have hscripts : ∀ path, path ∈ scripts ↔ path ∈ paths ∧ FileKind.ofPath path ≠ .asset :=
    fun path => by simp [scripts]
  refine ((ends_demandNodes g paths).mono (fun _ _ hgood => hgood)
    fun _ _ hbad => ⟨hbad.1, .inl hbad.2⟩).bind ?_
  rintro nodes after ⟨rfl, rfl, hknown⟩
  rw [map_filter_zip_nodes hkind hknown]
  show Ends (demand .pool (pool.readAll reader scripts) >>= _) after _ _
  cases hreads : pool.readAll reader scripts with
  | error fault =>
      obtain ⟨rfl, hpool, path, hpath⟩ := of_readAll_error hreads
      obtain ⟨hpath, hasset⟩ := (hscripts path).mp hpath
      exact .of_eq_error rfl ⟨rfl, .inr ⟨hknown, .noWorkers hpath hasset hpool⟩⟩
  | ok reads =>
      have hread : ∀ path ∈ paths, reads.get? path =
          if FileKind.ofPath path = .asset then none else some (reader.read path) :=
        fun path hpath => by
          rw [get?_of_readAll hreads]
          simp [hscripts, hpath]
      have hworkers : ∀ path ∈ paths, FileKind.ofPath path ≠ .asset → pool.hasWorkers = true :=
        fun path hpath hasset => of_readAll_ok hreads ((hscripts path).mpr ⟨hpath, hasset⟩)
      exact (ends_collect hread hworkers).mono
        (fun _ _ hgood => ⟨hgood.1, hgood.2.1, hknown, hgood.2.2⟩)
        fun _ _ hbad => ⟨hbad.1, .inr ⟨hknown, hbad.2⟩⟩

/-- Whatever the kinds of the nodes, a scan leaves the graph alone and finds no violation in it. -/
theorem ends_scanAll_unchanged (builder : Builder) (pool : ReaderPool) (reader : Reader) (g : Graph)
    (paths : List String) :
    Ends (builder.scanAll pool reader paths) g
      (fun _ after => after = g ∧ ∀ path ∈ paths, path ∈ g.nodes)
      (fun fault after => after = g ∧ ∀ cause, fault ≠ .graph (.violation cause)) := by
  refine ((ends_demandNodes g paths).mono (fun _ _ hgood => hgood) ?_).bind ?_
  · rintro fault after ⟨rfl, done, path, rest, -, -, -, rfl⟩
    exact ⟨rfl, nofun⟩
  rintro nodes after ⟨-, rfl, hknown⟩
  refine ((ends_demand .pool _ after).mono (fun _ _ hgood => hgood.2) ?_).bind ?_
  · rintro fault state ⟨rfl, cause, -, rfl⟩
    exact ⟨rfl, nofun⟩
  rintro reads state rfl
  refine (Ends.mapM (fun _ _ last => last = state) ?_ rfl).imp fun _ _ hlast => ⟨hlast, hknown⟩
  rintro done path rest scans last - rfl
  cases reads.get? path with
  | some read => exact .pure rfl
  | none =>
      refine ((ends_demand .disk _ last).mono (fun _ _ hgood => hgood.2) ?_).bind
        fun _ _ htime => .pure htime
      rintro fault state ⟨rfl, cause, -, rfl⟩
      exact ⟨rfl, nofun⟩

/-! ## Writing scans into the graph -/

/-- What the node of a scanned file is afterwards. -/
def withScan (scan : Scan) (node : FileNode) : FileNode :=
  { node with specifiers := scan.specifiers, lastModified := timeJson scan.changed }

theorem applyScan_eq (scan : Scan) : applyScan g scan =
    { Graph.modifyNode scan.path (withScan scan) g with
      diagnostics := g.diagnostics ++ scan.problem.toList } := rfl

theorem balanced_applyScan (h : g.Balanced) (scan : Scan) : (applyScan g scan).Balanced :=
  have hmodified : (Graph.modifyNode scan.path (withScan scan) g).Balanced :=
    h.modifyNode (fun _ => rfl) fun _ => ⟨rfl, rfl⟩
  { hmodified with }

end ChangeImpact.Builder
