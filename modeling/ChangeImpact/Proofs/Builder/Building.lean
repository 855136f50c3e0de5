import ChangeImpact.Proofs.Builder.Linking
import Mathlib.Data.List.Nodup

/-!
# Building and updating

Whatever a builder does to a graph it first adds and drops nodes and then makes the same passes over
some of the files: it scans them, links, and checks (`passes`).  The passes lead from a graph that shows
a record to one that shows the record in which the files are scanned, and resolve it (`Passed`).  They
fail only if the scan is blocked, or at a name without an answer (`Halted`).  So the effect of every
operation is a change of the record, and building is the case in which the record was empty.

A graph is settled with a record if it shows the record and is linked.  With plain aliases the settled
graphs are the resolved ones.
-/

namespace ChangeImpact.Builder

open Diagnostic (said)

variable {builder : Builder} {record other : Record} {g h : Graph} {path : String}
  {paths : List String} {pool : ReaderPool} {reader : Reader}

/-- A graph shows a record and is linked. -/
structure Settled (builder : Builder) (record : Record) (g : Graph) : Prop where
  recorded : Recorded record g
  linked : Linked builder g

theorem Settled.resolved (h : Settled builder record g) (hplain : builder.aliases.Plain) :
    Resolved builder g :=
  h.linked.resolved hplain

/-- Graphs that are settled with alike records are the same and have the same diagnostics. -/
theorem Settled.agree (hg : Settled builder record g) (hh : Settled builder other h)
    (halike : record.Alike other) : g.same h = true ∧ g.diagnostics.Perm h.diagnostics :=
  ⟨hg.recorded.same_eq_true hh.recorded halike hg.linked hh.linked,
    hg.recorded.diagnostics_perm hh.recorded halike hg.linked hh.linked⟩

/-! ## The passes over the files -/

/-- Scans files, links them or all, and checks the graph. -/
def passes (builder : Builder) (pool : ReaderPool) (reader : Reader) (all : Bool)
    (paths : List String) : BuildStep Unit := do
  let scans ← builder.scanAll pool reader paths
  modify (applyScans scans)
  builder.relink all paths
  check

/-- What the passes leave of a graph that shows a record, when they come through. -/
structure Passed (builder : Builder) (record : Record) (before : Graph) (pool : ReaderPool)
    (reader : Reader) (all : Bool) (paths : List String) (after : Graph) : Prop where
  recorded : Recorded (record.scan paths (builder.scanOf reader)) after
  known : ∀ path ∈ paths, path ∈ before.nodes
  unhindered : ∀ fault, ¬ Obstacle pool reader paths fault
  /-- All files are resolved, if all are linked or if those that are not scanned were resolved. -/
  resolved : (all = false → ∀ path, path ∉ paths → ResolvedAt builder before path) →
    Resolved builder after

/-- How the passes fail: before anything has been changed, or when all scans have been written. -/
def Halted (builder : Builder) (record : Record) (before : Graph) (pool : ReaderPool)
    (reader : Reader) (paths : List String) (fault : BuildError) (after : Graph) : Prop :=
  after = before ∧ Blocked before pool reader paths fault ∨
    Recorded (record.scan paths (builder.scanOf reader)) after ∧ LosesAlias builder fault

/-- A file that is not scanned stays resolved, if linking leaves it as it is. -/
theorem ResolvedAt.of_not_scanned {found : String → Scan} (hresolved : ResolvedAt builder g path)
    (hg : Recorded record g) (hh : Recorded (record.scan paths found) h)
    (hpaths : ∀ path ∈ paths, path ∈ g.nodes) (hpath : path ∉ paths)
    (htargets : h.targets path = g.targets path)
    (hsaid : said true path h.diagnostics = said true path g.diagnostics) :
    ResolvedAt builder h path := by
  have hkeys : ∀ other, other ∈ h.nodes ↔ other ∈ g.nodes := by
    intro other
    rw [hg.mem_nodes, hh.mem_nodes, Record.scan]
    split
    · rename_i hmem
      exact iff_of_true ⟨_, rfl⟩ (hg.mem_nodes.mp (hpaths other hmem))
    · exact Iff.rfl
  refine hresolved.congr (linksIn_congr hkeys ?_) htargets hsaid
  rw [hg.namesIn_eq, hh.namesIn_eq, Record.scan, if_neg hpath]

/-- What the passes do to a graph, whether or not it was resolved before: all files are resolved if all are
linked, and otherwise those that are scanned. -/
theorem ends_passes_of_recorded (builder : Builder) (pool : ReaderPool) (reader : Reader) (all : Bool)
    (hg : Recorded record g) (hnodup : paths.Nodup) :
    Ends (builder.passes pool reader all paths) g
      (fun _ after => Recorded (record.scan paths (builder.scanOf reader)) after ∧
        (∀ path ∈ paths, path ∈ g.nodes) ∧ (∀ fault, ¬ Obstacle pool reader paths fault) ∧
        (all = true → Resolved builder after) ∧ (all = false → RowsLinked builder g paths after))
      (fun fault after => after = g ∧ Blocked g pool reader paths fault ∨
        Recorded (record.scan paths (builder.scanOf reader)) after ∧
          Unanswered builder after (fun path => all = true ∨ path ∈ paths) fault) := by
  refine ((ends_scanAll builder pool reader hg.kinded paths).mono (fun _ _ hgood => hgood)
    fun _ _ hbad => .inl hbad).bind ?_
  rintro scans after ⟨rfl, rfl, hpaths, hobstacle⟩
  refine .modified_bind ?_
  have hscanned := hg.applyScans builder reader hnodup hpaths
  have hknown : ∀ path ∈ paths, path ∈ (applyScans (paths.map (builder.scanOf reader)) after).nodes :=
    fun path hpath => hscanned.mem_nodes.mpr ⟨_, if_pos hpath⟩
  refine ((ends_relink builder hscanned.balanced all hknown).mono (fun _ _ hgood => hgood)
    fun _ _ hbad => .inr ⟨hscanned.relinked hbad.1, hbad.2.of_nodes hbad.1.nodes.symm⟩).bind ?_
  rintro _ linked ⟨hrelinked, hall, hsome⟩
  refine ends_check hrelinked.balanced ⟨hscanned.relinked hrelinked, hpaths, hobstacle, hall, ?_⟩
  intro hscansOnly
  obtain ⟨hresolved, htargets, hunresolved⟩ := hsome hscansOnly
  refine ⟨hresolved, fun path hpath => ?_, fun path hpath => ?_⟩
  · rw [htargets path hpath, targets_applyScans]
  · rw [hunresolved path hpath, said_linking_applyScans, if_neg hpath]

theorem ends_passes (builder : Builder) (pool : ReaderPool) (reader : Reader) (all : Bool)
    (hg : Recorded record g) (hnodup : paths.Nodup) :
    Ends (builder.passes pool reader all paths) g
      (fun _ after => Passed builder record g pool reader all paths after)
      (fun fault after => Halted builder record g pool reader paths fault after) := by
  refine (ends_passes_of_recorded builder pool reader all hg hnodup).mono ?_ ?_
  · rintro _ after ⟨hrecorded, hpaths, hobstacle, hall, hsome⟩
    refine ⟨hrecorded, hpaths, hobstacle, fun hothers path => ?_⟩
    cases all with
    | true => exact hall rfl path
    | false =>
        obtain ⟨hresolved, htargets, hunresolved⟩ := hsome rfl
        by_cases hpath : path ∈ paths
        · exact hresolved path hpath
        · exact (hothers rfl path hpath).of_not_scanned hg hrecorded hpaths hpath
            (htargets path hpath) (hunresolved path hpath)
  · exact fun _ _ hbad => hbad.imp id fun hlost => ⟨hlost.1, hlost.2.losesAlias⟩

/-! ## Building -/

/-- The record of files: each of them is scanned with the reader for them. -/
def recordOf (builder : Builder) (files : FileSet) : Record :=
  Record.scan (fun _ => none) (builder.keysOf files).toList
    (builder.scanOf (builder.readerFor files))

/-- Adding the nodes of files one after another is never refused, and keeps what adding a single node
keeps. -/
theorem ends_addNodes (inv : Graph → Prop) (hempty : inv ∅)
    (hnode : ∀ g path, inv g → path ∉ g.nodes →
      inv (g.withNode path (FileKind.ofPath path) .null)) (hnodup : paths.Nodup) :
    Ends (paths.forM fun path => perform (Graph.addNode path (FileKind.ofPath path))) ∅
      (fun _ after => inv after ∧ ∀ path, path ∈ after.nodes ↔ path ∈ paths)
      (fun _ _ => False) := by
  apply Ends.forM_done fun done state => inv state ∧ ∀ path, path ∈ state.nodes ↔ path ∈ done
  · rintro done path rest state hpaths ⟨hstate, hdone⟩
    have hnot : path ∉ state.nodes := fun hmem =>
      List.disjoint_of_nodup_append (hpaths ▸ hnodup) ((hdone path).mp hmem) (List.mem_cons_self ..)
    refine .of_eq_ok (perform_eq_ok (Graph.addNode_of_not_mem hnot _ _))
      ⟨hnode state path hstate hnot, fun other => ?_⟩
    show other ∈ state.nodes.insert path _ ↔ _
    rw [Table.mem_insert, hdone, List.mem_append, List.mem_singleton, or_comm]
  · exact ⟨hempty, fun path => iff_of_false Table.not_mem_empty List.not_mem_nil⟩

/-- Building leads from the empty graph to a resolved one that shows the record of the files. -/
theorem ends_buildSteps (builder : Builder) (files : FileSet) :
    Ends (builder.buildSteps files) ∅
      (fun _ after => Recorded (builder.recordOf files) after ∧ Resolved builder after ∧
        ∀ fault, ¬ Obstacle builder.pool (builder.readerFor files) (builder.keysOf files).toList fault)
      (fun fault _ =>
        Obstacle builder.pool (builder.readerFor files) (builder.keysOf files).toList fault ∨
          LosesAlias builder fault) := by
  have hnodup := (builder.keysOf files).nodup_toList
  have hadded : Ends _ ∅ _ fun _ _ => False :=
    ends_addNodes (fun g => ∃ record, Recorded record g) ⟨_, recorded_empty⟩
      (by
        rintro g path ⟨record, hg⟩ hpath
        exact ⟨_, hg.withNode (hg.not_mem_nodes.mp hpath)⟩)
      hnodup
  refine hadded.total.bind ?_
  rintro _ after ⟨⟨record, hrecorded⟩, hpaths⟩
  have hrecord : record.scan (builder.keysOf files).toList
      (builder.scanOf (builder.readerFor files)) = builder.recordOf files := by
    funext path
    rw [recordOf, Record.scan, Record.scan]
    split
    · rfl
    · rename_i hnot
      rw [← hrecorded.not_mem_nodes, hpaths]
      exact hnot
  have hknown : ∀ path ∈ (builder.keysOf files).toList, path ∈ after.nodes := fun path hpath =>
    (hpaths path).mpr hpath
  rw [← hrecord]
  refine (ends_passes builder builder.pool (builder.readerFor files) true hrecorded hnodup).mono ?_ ?_
  · intro _ built hpassed
    exact ⟨hpassed.recorded, hpassed.resolved fun hall => Bool.noConfusion hall, hpassed.unhindered⟩
  · exact fun _ _ hhalted => hhalted.imp (fun hblocked => hblocked.2.obstacle hknown) And.right

/-- A graph that was built shows the record of its files and is resolved, and nothing was in the way. -/
theorem resolved_of_build {files : FileSet} (hbuild : builder.build files = .ok g) :
    Recorded (builder.recordOf files) g ∧ Resolved builder g ∧ ∀ fault,
      ¬ Obstacle builder.pool (builder.readerFor files) (builder.keysOf files).toList fault := by
  unfold build at hbuild
  cases hsteps : builder.buildSteps files ∅ with
  | ok _ after =>
      rw [hsteps] at hbuild
      cases hbuild
      exact (ends_buildSteps builder files).of_ok hsteps
  | error fault after =>
      rw [hsteps] at hbuild
      cases hbuild

theorem of_build {files : FileSet} (hbuild : builder.build files = .ok g) :
    Settled builder (builder.recordOf files) g ∧ ∀ fault,
      ¬ Obstacle builder.pool (builder.readerFor files) (builder.keysOf files).toList fault :=
  have ⟨hrecorded, hresolved, hobstacle⟩ := resolved_of_build hbuild
  ⟨⟨hrecorded, hresolved.linked⟩, hobstacle⟩

/-- Without an obstacle there is a graph of the files. -/
theorem exists_build (hplain : builder.aliases.Plain) {files : FileSet}
    (hobstacle : ∀ fault,
      ¬ Obstacle builder.pool (builder.readerFor files) (builder.keysOf files).toList fault) :
    ∃ g, builder.build files = .ok g := by
  obtain ⟨_, after, hsteps, -⟩ := (ends_buildSteps builder files).succeeds fun fault _ hbad =>
    hbad.elim (hobstacle fault) fun hlost => hlost.elim hplain
  refine ⟨after, ?_⟩
  rw [build, hsteps]

/-! ## Updating -/

/-- Adding the node of a file and scanning it anew puts the scan into the record. -/
theorem scan_add_singleton (found : String → Scan) :
    (record.add path).scan [path] found = Function.update record path (some (found path)) := by
  funext other
  rw [Record.scan, Record.add, Function.update_apply, Function.update_apply]
  simp only [List.mem_singleton]
  split
  · rename_i heq
    rw [heq]
  · rfl

/-- The workers for a file that is updated, with its text or without. -/
def updatePool (builder : Builder) : Option String → ReaderPool
  | none => builder.pool
  | some _ => { workers := some 1 }

/-- The reader for a file that is updated, with its text or without. -/
def updateReader (builder : Builder) : Option String → Reader
  | none => builder.reader
  | some content => .ofText content

/-- The record after a file has been updated.  With an empty path nothing is done. -/
def Record.update (builder : Builder) (record : Record) (path : String) (content : Option String) :
    Record :=
  if builder.key path = "" then record
  else Function.update record (builder.key path)
    (some (builder.scanOf (builder.updateReader content) (builder.key path)))

theorem updateFile_of_ne (content : Option String) (h : builder.key path ≠ "") :
    builder.updateFile path content = ensureNode (builder.key path) >>= fun added =>
      builder.passes (builder.updatePool content) (builder.updateReader content) added
        [builder.key path] := by
  have hnot : (builder.key path).isEmpty = false := by
    rwa [← Bool.not_eq_true, String.isEmpty_iff]
  unfold updateFile
  simp only [hnot]
  cases content with
  | none => rfl
  | some content => rfl

theorem updateFile_of_eq (content : Option String) (h : builder.key path = "") :
    builder.updateFile path content = pure () := by
  unfold updateFile
  rw [h]
  rfl

theorem ends_updateFile (hg : Recorded record g) (hresolved : Resolved builder g)
    (path : String) (content : Option String) :
    Ends (builder.updateFile path content) g
      (fun _ after => Recorded (record.update builder path content) after ∧ Resolved builder after)
      (fun fault _ =>
        Obstacle (builder.updatePool content) (builder.updateReader content) [builder.key path] fault ∨
          LosesAlias builder fault) := by
  unfold Record.update
  by_cases hempty : builder.key path = ""
  · rw [if_pos hempty, updateFile_of_eq content hempty]
    exact .pure ⟨hg, hresolved⟩
  rw [if_neg hempty, updateFile_of_ne content hempty, ← scan_add_singleton]
  generalize builder.key path = key
  refine (hg.ends_ensureNode key).total.bind ?_
  rintro added after ⟨-, hrecorded, hsame⟩
  have hknown : ∀ path ∈ [key], path ∈ after.nodes := fun path hpath =>
    hrecorded.mem_nodes.mpr (by simp [Record.add, List.mem_singleton.mp hpath])
  refine (ends_passes builder (builder.updatePool content) (builder.updateReader content) added
    hrecorded (List.nodup_singleton key)).mono ?_ ?_
  · exact fun _ _ hpassed => ⟨hpassed.recorded,
      hpassed.resolved fun hkept other _ => hsame hkept ▸ hresolved other⟩
  · exact fun _ _ hhalted => hhalted.imp (fun hblocked => hblocked.2.obstacle hknown) And.right

/-- A file that is given with its text is not read, so nothing is in the way. -/
theorem not_obstacle_of_text (builder : Builder) (content : String) (paths : List String)
    (fault : BuildError) :
    ¬ Obstacle (builder.updatePool (some content)) (builder.updateReader (some content)) paths
      fault := by
  rintro (⟨-, -, hpool⟩ | ⟨-, -, htime⟩)
  · cases hpool
  · cases htime

/-- Of a file without a node nothing is removed. -/
theorem ends_removeFile (hg : Recorded record g) (hresolved : Resolved builder g) (path : String) :
    Ends (builder.removeFile path) g
      (fun removed after => removed = (record (builder.key path)).isSome ∧
        Recorded (record.drop (builder.key path)) after ∧ Resolved builder after)
      (fun fault _ => LosesAlias builder fault) := by
  unfold removeFile
  refine (hg.ends_dropNode (builder.key path)).total.bind ?_
  rintro dropped after ⟨hdropped, hrecorded, hsame⟩
  rw [← hdropped]
  cases dropped with
  | false =>
      have hnone : record (builder.key path) = none := by simpa using hdropped.symm
      rw [hsame rfl, Record.drop_of_none hnone]
      exact .pure ⟨rfl, hg, hresolved⟩
  | true =>
      refine ((ends_linkAll builder hrecorded.balanced).mono (fun _ _ hgood => hgood)
        fun _ _ hbad => hbad.2.losesAlias).bind ?_
      rintro _ linked ⟨hrelinked, hlinked⟩
      have hchecked : Ends check linked (fun _ state => state = linked)
          (fun fault _ => LosesAlias builder fault) := ends_check hrelinked.balanced rfl
      exact hchecked.bind fun _ state hstate =>
        .pure (hstate ▸ ⟨rfl, hrecorded.relinked hrelinked, hlinked⟩)

/-! ## Another reader -/

/-- The builder with another reader. -/
def withReader (builder : Builder) (reader : Reader) : Builder :=
  { builder with reader := reader }

section WithReader

variable (builder : Builder) (reader : Reader)

@[simp] theorem readerFor_withReader (paths : List String) :
    (builder.withReader reader).readerFor (.paths paths) = reader := rfl

@[simp] theorem keysOf_withReader (files : FileSet) :
    (builder.withReader reader).keysOf files = builder.keysOf files := by
  simp only [keysOf, withReader]
  unfold key
  rfl

@[simp] theorem scanOf_withReader (other : Reader) :
    (builder.withReader reader).scanOf other = builder.scanOf other := by
  funext path
  simp only [scanOf, scanRead, withReader]

@[simp] theorem linksIn_withReader (g : Graph) (path : String) :
    (builder.withReader reader).linksIn g path = builder.linksIn g path := by
  simp only [linksIn, resolverFor, withReader]

@[simp] theorem passes_withReader (pool : ReaderPool) (other : Reader) (all : Bool)
    (paths : List String) :
    (builder.withReader reader).passes pool other all paths =
      builder.passes pool other all paths := by
  simp only [passes, scanAll, scanRead, relink, linkAll, linkSome, resolverFor, withReader]

theorem recordOf_withReader (paths : List String) :
    (builder.withReader reader).recordOf (.paths paths) =
      Record.scan (fun _ => none) (builder.keysOf (.paths paths)).toList
        (builder.scanOf reader) := by
  rw [recordOf, keysOf_withReader, readerFor_withReader, scanOf_withReader]

end WithReader

/-- Whether a graph is settled has nothing to do with the reader. -/
theorem settled_withReader : Settled (builder.withReader reader) record g ↔
    Settled builder record g := by
  have hlinks := linksIn_withReader builder reader g
  constructor
  · exact fun h => ⟨h.recorded, fun path => (h.linked path).congr (hlinks path).symm rfl rfl⟩
  · exact fun h => ⟨h.recorded, fun path => (h.linked path).congr (hlinks path) rfl rfl⟩

end ChangeImpact.Builder
