import ChangeImpact.Proofs.Builder.Reuse
import ChangeImpact.Proofs.GraphFile

/-!
# Storing what a builder has made

All times in a graph that a builder has made are times of files, and these are stored to the last digit
(`Json.restored_timeJson`).  So such a graph comes back from its document with the nodes that it had
(`Timed.nodes_stored`), and a refresh will find its files as little out of date as before.  What has been said
about the files is not stored, so the graph that comes back shows the same record with nothing said
(`Recorded.of_stored`).
-/

namespace ChangeImpact

/-! ## Times of files -/

namespace Json

theorem legible_timeJson (time : Option Timestamp) : Legible (Builder.timeJson time) := by
  cases time with
  | none => trivial
  | some time => exact ⟨_, read_print_float (Binary64.canonical_seconds time)⟩

/-- The time of a file is stored to the last digit. -/
theorem restored_timeJson (time : Option Timestamp) :
    restored (Builder.timeJson time) = Builder.timeJson time := by
  cases time with
  | none => rfl
  | some time =>
      show rereadNumber (.float time.seconds) = .float time.seconds
      rw [rereadNumber, read_print_float (Binary64.canonical_seconds time)]

end Json

namespace Builder

variable {builder : Builder} {reader : Reader} {record : Record} {g stored : Graph}

/-! ## Graphs with the times of files -/

/-- All times in a graph are times of files. -/
def Timed (g : Graph) : Prop :=
  ∀ path node, g.nodes.get? path = some node → ∃ time, node.lastModified = timeJson time

theorem Current.timed (hg : Current builder reader g) : Timed g := by
  intro path node hnode
  rw [hg path (Table.mem_of_get? hnode), Option.some.injEq] at hnode
  exact ⟨(builder.scanOf reader path).changed, by rw [← hnode, nodeOf]⟩

theorem Recorded.timed (hg : Recorded record g) : Timed g := by
  intro path node hnode
  rw [hg.nodes, Option.map_eq_some_iff] at hnode
  obtain ⟨scan, -, rfl⟩ := hnode
  exact ⟨_, rfl⟩

theorem Timed.legible (hg : Timed g) : Json.Legible g.toDocument := by
  refine Graph.legible_toDocument fun path node hnode => ?_
  obtain ⟨time, htime⟩ := hg path node hnode
  rw [htime]
  exact Json.legible_timeJson time

theorem Timed.restored_eq (hg : Timed g) {path : String} {node : FileNode}
    (hnode : g.nodes.get? path = some node) : node.restored = node := by
  obtain ⟨time, htime⟩ := hg path node hnode
  rw [FileNode.restored, htime, Json.restored_timeJson, ← htime]

/-- Nothing is lost of the nodes when such a graph is stored. -/
theorem Timed.nodes_stored (hg : Timed g) (hstored : Graph.Stored g stored) (path : String) :
    stored.nodes.get? path = g.nodes.get? path := by
  rw [hstored.nodes]
  cases hnode : g.nodes.get? path with
  | none => rfl
  | some node => rw [Option.map_some, hg.restored_eq hnode]

/-- What is loaded is what its nodes and rows are replayed to. -/
theorem Timed.loadGraph_of_saveGraph {path : String} {disk saved : Disk} (hg : Timed g) (hbalanced : g.Balanced)
    (hsaved : Disk.saveGraph path g disk = .ok true saved)
    (hreplay : Graph.replay g.nodes.sortedEntries g.storedRows ∅ = .ok () stored) :
    saved.loadGraph path = .ok (some stored) := by
  have hnodes : g.storedNodes = g.nodes.sortedEntries := by
    refine (List.map_congr_left fun entry hentry => ?_).trans (List.map_id _)
    rw [hg.restored_eq (Table.mem_entries_iff.mp (Table.mem_sortedEntries.mp hentry))]
    rfl
  rw [← hnodes] at hreplay
  exact Disk.loadGraph_of_saveGraph hg.legible hsaved (hbalanced.ofDocument_of_replay hreplay)

/-! ## Records of which nothing is said -/

/-- No scan of a record has anything to say. -/
def Record.Silent (record : Record) : Prop :=
  ∀ path scan, record path = some scan → scan.problem = none

/-- The same scans, of which nothing is said. -/
def Record.silenced (record : Record) : Record := fun path => (record path).map silent

theorem Record.silent_silenced (record : Record) : record.silenced.Silent := by
  intro path scan hscan
  obtain ⟨said, -, rfl⟩ := Option.map_eq_some_iff.mp hscan
  rfl

theorem Record.outdated_silenced (record : Record)
    (times : String → Except DiskFault (Option Timestamp)) :
    record.silenced.outdated times = record.outdated times := by
  funext path
  unfold Record.outdated Record.silenced
  cases record path with
  | none => rfl
  | some scan =>
      cases times path with
      | error cause => rfl
      | ok time => rfl

theorem Recorded.of_stored (hg : Recorded record g) (hstored : Graph.Stored g stored) :
    Recorded record.silenced stored where
  balanced := hstored.balanced
  nodes path := by
    rw [hg.timed.nodes_stored hstored, hg.nodes, Record.silenced, Option.map_map]
    rfl
  problems path := by
    rw [hstored.diagnostics, Record.silenced]
    cases record path with
    | none => rfl
    | some scan => rfl

end Builder
end ChangeImpact
