import ChangeImpact.Proofs.Builder.Refreshing
import ChangeImpact.Proofs.Reader

/-!
# Reusing a graph under other rules

A graph that was built by one builder may be refreshed by another one, with other aliases or other extensions
to try.  If the files are as they were when the graph was built (`Current`), then the refresh comes through
wherever the other builder can build, and the nodes are those that it would build.  The edges are another
matter.  Where files have come or gone all of them are found anew.  Otherwise nothing is linked but files that
could not be read, which have no names, and so the graph comes out with the edges that it came with
(`ends_refresh_of_current`): what its names lead to by the rules of the builder that linked it.
-/

namespace ChangeImpact.Builder

variable {builder other : Builder} {reader : Reader} {g rebuilt : Graph} {path : String} {files : FileSet}

/-- The nodes of a graph are what a scan of their files gives. -/
def Current (builder : Builder) (reader : Reader) (g : Graph) : Prop :=
  ∀ path ∈ g.nodes, g.nodes.get? path = some (nodeOf path (builder.scanOf reader path))

/-- The edges of a graph are what the names in its files lead to. -/
def Followed (builder : Builder) (g : Graph) : Prop :=
  ∀ path target, target ∈ g.targets path ↔ target ∈ (builder.linksIn g path).targets

/-- Builders that find names alike have the same scans. -/
theorem scanOf_of_extractor (hextractor : builder.extractor = other.extractor) (path : String) :
    builder.scanOf reader path = other.scanOf reader path := by
  rw [scanOf, scanOf, scanRead, scanRead, hextractor]

theorem Linked.followed (h : Linked builder g) : Followed builder g := fun path =>
  (h path).mem_targets

/-- Graphs with the same nodes have the same links. -/
theorem linksIn_eq_of_nodes {h : Graph} (hnodes : ∀ path, g.nodes.get? path = h.nodes.get? path)
    (path : String) : builder.linksIn g path = builder.linksIn h path := by
  refine linksIn_congr (fun path => Table.mem_congr ?_) ?_
  · rw [hnodes]
  · rw [namesIn, namesIn, hnodes]

theorem Current.namesIn_eq (h : Current builder reader g) (hpath : path ∈ g.nodes) :
    namesIn g path = (builder.scanOf reader path).specifiers := by
  rw [namesIn, h path hpath, Option.map_some, Option.getD_some, nodeOf]

theorem Current.of_nodes {h : Graph} (hg : Current builder reader g)
    (hnodes : ∀ path, h.nodes.get? path = g.nodes.get? path) : Current builder reader h := by
  intro path hpath
  rw [hnodes]
  refine hg path ?_
  rwa [Table.mem_iff_exists, ← hnodes, ← Table.mem_iff_exists]

theorem Current.of_extractor (hg : Current builder reader g)
    (hextractor : other.extractor = builder.extractor) : Current other reader g := by
  intro path hpath
  rw [hg path hpath, scanOf_of_extractor hextractor]

theorem Followed.of_nodes {h : Graph} (hg : Followed builder g)
    (hnodes : ∀ path, h.nodes.get? path = g.nodes.get? path)
    (htargets : ∀ path, h.targets path = g.targets path) : Followed builder h := fun path target => by
  rw [htargets, hg, linksIn_eq_of_nodes hnodes]

/-- Current graphs of the same files have the same nodes. -/
theorem Current.nodes_eq {h : Graph} (hg : Current builder reader g) (hh : Current builder reader h)
    (hfiles : ∀ path, path ∈ g.nodes ↔ path ∈ h.nodes) (path : String) :
    g.nodes.get? path = h.nodes.get? path := by
  by_cases hpath : path ∈ g.nodes
  · rw [hg path hpath, hh path ((hfiles path).mp hpath)]
  · have hother : path ∉ h.nodes := fun hmem => hpath ((hfiles path).mpr hmem)
    rw [Table.get?_eq_none_iff.mpr hpath, Table.get?_eq_none_iff.mpr hother]

/-! ## Graphs that were built -/

theorem mem_nodes_of_build (hbuild : builder.build files = .ok g) :
    path ∈ g.nodes ↔ path ∈ builder.keysOf files := by
  rw [(resolved_of_build hbuild).1.mem_nodes, recordOf, Record.scan]
  simp only [PathSet.mem_toList]
  by_cases hpath : path ∈ builder.keysOf files
  · simp only [hpath, if_true, Option.some.injEq, exists_eq']
  · simp only [hpath, if_false, reduceCtorEq, exists_false]

theorem current_of_build (hbuild : builder.build files = .ok g) :
    Current builder (builder.readerFor files) g := by
  intro path hpath
  have hkey := PathSet.mem_toList.mpr ((mem_nodes_of_build hbuild).mp hpath)
  rw [(resolved_of_build hbuild).1.nodes, recordOf, Record.scan, if_pos hkey, Option.map_some]

theorem followed_of_build (hbuild : builder.build files = .ok g) : Followed builder g :=
  (resolved_of_build hbuild).2.1.linked.followed

/-! ## Graphs without what scanning has said -/

/-- A scan of which nothing is said. -/
def silent (scan : Scan) : Scan := { scan with problem := none }

theorem silent_changed (scan : Scan) : (silent scan).changed = scan.changed := rfl

theorem nodeOf_silent (path : String) (scan : Scan) : nodeOf path (silent scan) = nodeOf path scan := rfl

/-- The record of a current graph of which nothing is said. -/
def currentRecord (builder : Builder) (reader : Reader) (g : Graph) : Record := fun path =>
  if path ∈ g.nodes then some (silent (builder.scanOf reader path)) else none

theorem Current.recorded (h : Current builder reader g) (hg : g.Balanced) (hsilent : g.diagnostics = []) :
    Recorded (builder.currentRecord reader g) g where
  balanced := hg
  nodes path := by
    rw [currentRecord]
    split
    · rename_i hpath
      rw [h path hpath, Option.map_some, nodeOf_silent]
    · rename_i hpath
      exact Table.get?_eq_none_iff.mpr hpath
  problems path := by
    rw [hsilent, currentRecord]
    split
    · rfl
    · rfl

/-! ## Files that are out of date -/

/-- A file that still has the time of its scan is not stale. -/
theorem isStale_timeJson_self (time : Timestamp) : isStale (timeJson (some time)) (some time) = false := by
  rw [isStale, same_timeJson_self (some time)]
  · rfl
  · intro hnull
    cases hnull
  · exact Option.some_ne_none time

/-- A scan that is made now of a file that can be read has its time. -/
theorem isStale_scanRead {time : Option Timestamp} {content : String} (htimely : reader.Timely)
    (htime : reader.changed path = .ok time) (hcontent : (reader.read path).content = .ok content) :
    isStale (timeJson (builder.scanRead path (reader.read path)).changed) time = false := by
  have hread := htimely path
  rw [hcontent] at hread
  obtain ⟨now, hnow, hchanged⟩ := hread
  obtain rfl : some now = time := Except.ok.inj (hchanged.symm.trans htime)
  have hcurrent : (builder.scanRead path (reader.read path)).changed = some now := by
    unfold scanRead
    rw [hcontent]
    exact hnow
  rw [hcurrent, isStale_timeJson_self]

/-- If the time of a scan that is made now is not the time of the file, then nothing could be read. -/
theorem specifiers_eq_nil_of_isStale {time : Option Timestamp} (htimely : reader.Timely)
    (htime : reader.changed path = .ok time)
    (hstale : isStale (timeJson (builder.scanOf reader path).changed) time = true) :
    (builder.scanOf reader path).specifiers = [] := by
  by_cases hkind : FileKind.ofPath path = .asset
  · rw [scanOf, if_pos hkind]
  rw [scanOf, if_neg hkind] at hstale ⊢
  cases hcontent : (reader.read path).content with
  | error fault =>
      unfold scanRead
      rw [hcontent]
  | ok content =>
      rw [isStale_scanRead htimely htime hcontent] at hstale
      cases hstale

theorem specifiers_eq_nil_of_outdated (htimely : reader.Timely) (hpath : path ∈ g.nodes)
    (houtdated : (builder.currentRecord reader g).outdated reader.changed path = true)
    (htold : ∀ cause, reader.changed path ≠ .error cause) :
    (builder.scanOf reader path).specifiers = [] := by
  rw [Record.outdated, currentRecord, if_pos hpath] at houtdated
  cases htime : reader.changed path with
  | error cause => exact absurd htime (htold cause)
  | ok time =>
      rw [htime] at houtdated
      have hstale : isStale (timeJson (silent (builder.scanOf reader path)).changed) time = true := houtdated
      rw [silent_changed] at hstale
      exact specifiers_eq_nil_of_isStale htimely htime hstale

/-- Files without names have no edges, by whatever rules. -/
theorem Followed.targets_eq_empty (h : Followed builder g) (hnames : namesIn g path = []) :
    g.targets path = ∅ := by
  refine PathSet.ext fun target => ?_
  rw [h, linksIn, hnames]
  exact iff_of_false List.not_mem_nil PathSet.not_mem_empty

/-! ## Refreshing -/

/-- What a refresh makes of a current graph. -/
structure Reused (builder : Builder) (reader : Reader) (wanted : PathSet) (g after : Graph) : Prop where
  balanced : after.Balanced
  mem_nodes : ∀ path, path ∈ after.nodes ↔ path ∈ wanted
  current : Current builder reader after
  followed : (∃ path, ¬ (path ∈ wanted ↔ path ∈ g.nodes)) → Followed builder after
  kept : (∀ path, path ∈ wanted ↔ path ∈ g.nodes) → ∀ path, after.targets path = g.targets path

theorem Reused.followed_of_same {wanted : PathSet} {after : Graph}
    (h : Reused builder reader wanted g after) (hcurrent : Current builder reader g)
    (hfollowed : Followed other g) (hfiles : ∀ path, path ∈ wanted ↔ path ∈ g.nodes) : Followed other after :=
  hfollowed.of_nodes (h.current.nodes_eq hcurrent fun path => (h.mem_nodes path).trans (hfiles path))
    (h.kept hfiles)

/-- Whether or not a file is scanned anew, its node is what a scan gives. -/
theorem current_of_refreshed {wanted : PathSet} {after : Graph}
    (h : Recorded ((builder.currentRecord reader g).refreshed wanted reader.changed
      (builder.scanOf reader)) after) :
    (∀ path, path ∈ after.nodes ↔ path ∈ wanted) ∧ Current builder reader after := by
  have hnodes : ∀ path, after.nodes.get? path =
      if path ∈ wanted then some (nodeOf path (builder.scanOf reader path)) else none := by
    intro path
    rw [h.nodes, Record.refreshed]
    split
    · split
      · rfl
      · rename_i hkept
        by_cases hpath : path ∈ g.nodes
        · rw [currentRecord, if_pos hpath, Option.map_some, nodeOf_silent]
        · rw [Record.outdated, currentRecord, if_neg hpath] at hkept
          exact absurd rfl hkept
    · rfl
  have hmem : ∀ path, path ∈ after.nodes ↔ path ∈ wanted := by
    intro path
    rw [← Table.isSome_get?_iff, hnodes, Option.isSome_ite]
  exact ⟨hmem, fun path hpath => by rw [hnodes, if_pos ((hmem path).mp hpath)]⟩

/-- A refresh scans nothing of a current graph but files that have come or cannot be read, and it links all
files or those. -/
theorem ends_refresh_of_current (hreader : builder.readerFor files = reader) (hg : g.Balanced)
    (hsilent : g.diagnostics = []) (hcurrent : Current builder reader g) (hfollowed : Followed other g)
    (htimely : reader.Timely) :
    Ends (builder.refresh files) g
      (fun _ after => Reused builder reader (builder.keysOf files) g after)
      (fun fault _ =>
        TimeFault (builder.currentRecord reader g) (builder.keysOf files).toList reader.changed fault ∨
        Obstacle builder.pool reader (builder.keysOf files).toList fault ∨
        ∃ halted, (∀ path, path ∈ halted.nodes ↔ path ∈ builder.keysOf files) ∧
          Current builder reader halted ∧ Unanswered builder halted (fun _ => True) fault) := by
  have hends : Ends (builder.refresh files) g _ _ :=
    ends_refresh_of_recorded (hcurrent.recorded hg hsilent) files
  rw [hreader] at hends
  refine hends.mono ?_ ?_
  · rintro _ after ⟨hrecorded, hchanged, hsame, htimes, -⟩
    obtain ⟨hmem, hafter⟩ := current_of_refreshed hrecorded
    refine ⟨hrecorded.balanced, hmem, hafter, fun hfiles => (hchanged hfiles).linked.followed, ?_⟩
    intro hfiles path
    obtain ⟨hlinked, htargets, -⟩ := hsame hfiles
    by_cases hpath : path ∈ (builder.keysOf files).toList.filter
        ((builder.currentRecord reader g).outdated reader.changed)
    · -- the file could not be read, so by neither of the rules it has edges
      obtain ⟨hwanted, houtdated⟩ := mem_filter_outdated.mp hpath
      have hnode : path ∈ g.nodes := (hfiles path).mp hwanted
      have hnames := specifiers_eq_nil_of_outdated htimely hnode houtdated fun cause hcause =>
        htimes _ ⟨path, PathSet.mem_toList.mpr hwanted, ⟨_, if_pos hnode⟩, cause, hcause, rfl⟩
      have hbefore : namesIn g path = [] := (hcurrent.namesIn_eq hnode).trans hnames
      have hnow : namesIn after path = [] :=
        (hafter.namesIn_eq ((hmem path).mpr hwanted)).trans hnames
      rw [hfollowed.targets_eq_empty hbefore]
      refine PathSet.ext fun target => ?_
      rw [(hlinked path hpath).mem_targets, linksIn, hnow]
      exact iff_of_false List.not_mem_nil PathSet.not_mem_empty
    · exact htargets path hpath
  · rintro fault _ (htime | hobstacle | ⟨halted, hhalted, hunanswered⟩)
    · exact .inl htime
    · exact .inr (.inl (hobstacle.mono fun path hpath => List.mem_of_mem_filter hpath))
    · obtain ⟨hmem, hcurrent⟩ := current_of_refreshed hhalted
      exact .inr (.inr ⟨halted, hmem, hcurrent, hunanswered.mono fun _ _ => trivial⟩)

/-- A current graph is refreshed wherever it could be built. -/
theorem exists_refresh_of_current (hreader : builder.readerFor files = reader) (hg : g.Balanced)
    (hsilent : g.diagnostics = []) (hcurrent : Current builder reader g) (hfollowed : Followed other g)
    (htimely : reader.Timely)
    (htold : ∀ path ∈ g.nodes, path ∈ rebuilt.nodes → ∃ time, reader.changed path = .ok time)
    (hbuild : builder.build files = .ok rebuilt) :
    ∃ after, builder.refresh files g = .ok () after ∧
      Reused builder reader (builder.keysOf files) g after := by
  obtain ⟨-, hresolved, hunhindered⟩ := resolved_of_build hbuild
  have hrebuilt := current_of_build hbuild
  rw [hreader] at hrebuilt hunhindered
  have hends := ends_refresh_of_current hreader hg hsilent hcurrent hfollowed htimely
  obtain ⟨_, after, hrefresh, hafter⟩ := hends.succeeds (by
    rintro fault _ (⟨path, hpath, ⟨scan, hscan⟩, cause, hcause, -⟩ | hobstacle |
      ⟨halted, hmem, hhalted, -, path, -, hfault⟩)
    · have hnode : path ∈ g.nodes := by
        rw [currentRecord] at hscan
        by_contra hnot
        rw [if_neg hnot] at hscan
        cases hscan
      obtain ⟨time, htime⟩ := htold path hnode ((mem_nodes_of_build hbuild).mpr (PathSet.mem_toList.mp hpath))
      rw [htime] at hcause
      cases hcause
    · exact hunhindered fault hobstacle
    · have hnodes := hhalted.nodes_eq hrebuilt fun path =>
        (hmem path).trans (mem_nodes_of_build hbuild).symm
      rw [linksIn_eq_of_nodes hnodes] at hfault
      exact hfault (hresolved path).answered)
  exact ⟨after, hrefresh, hafter⟩

end ChangeImpact.Builder
