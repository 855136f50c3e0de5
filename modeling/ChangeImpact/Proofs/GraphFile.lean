import ChangeImpact.GraphFile
import ChangeImpact.Proofs.Disk.Writing
import ChangeImpact.Proofs.Graph.History
import ChangeImpact.Proofs.Graph.Stored
import ChangeImpact.Proofs.Json.Floats
import ChangeImpact.Proofs.Text.Lines
import ChangeImpact.Proofs.Text.Utf8

/-!
# Saving and loading

A graph that has been saved is loaded as the graph it was (`Disk.loadGraph_saveGraph`).  On the way it becomes
a document, a text and bytes, and each of these steps is undone by one of the reader.

* The bytes are found where the path leads to, once the write is completed, and are read as the text that was
  written.  The text keeps its lines whatever the paths and the names in the graph are, since everything but
  visible ASCII characters and line feeds is written as an escape.
* The text is read as the document, apart from its numbers.
* The document is read as the graph, apart from the times of its files, which are its only numbers besides
  the version.  So the one thing that is asked of a graph is that its times can be stored.  Binary numbers can
  (`Json.storable_float`).
-/

namespace ChangeImpact

/-! ## Times -/

namespace Json

/-- A time that survives being written and read: none at all, or a number, other than not-a-number, whose text
is read as the same number. -/
def Storable (time : Json) : Prop :=
  time = .null ∨ time.number?.isSome ∧ time ≠ .float .nan ∧
    ∃ again, read (print time) = .ok again ∧ again.same time = true

variable {time : Json} {x : Binary64}

theorem storable_int {n : Int} (hlength : (Nat.toDigits 10 n.natAbs).length ≤ longestInteger) :
    Storable (.int n) := by
  refine .inr ⟨rfl, Json.noConfusion, .int n, ?_, ?_⟩
  · rw [read, print, String.toList_ofList]
    exact readChars_integer hlength
  · simp [same, number?, sameNumber]

theorem read_print_float (hx : x.Canonical) : read (print (.float x)) = .ok (.float x) := by
  rw [read, print, String.toList_ofList]
  exact readChars_printFloat hx

theorem storable_float (hx : x.Canonical) (hnan : x ≠ .nan) : Storable (.float x) := by
  refine .inr ⟨rfl, fun heq => hnan (Json.float.inj heq), .float x, read_print_float hx, ?_⟩
  simp [same, number?, sameNumber, Binary64.same_self]

theorem Storable.legible (h : Storable time) : Legible time := by
  rcases h with rfl | ⟨hnumber, -, again, hread, -⟩
  · trivial
  · cases time with
    | null => trivial
    | bool value => trivial
    | int value => exact ⟨again, hread⟩
    | float value => exact ⟨again, hread⟩
    | string value => cases hnumber
    | halved value => cases hnumber
    | array items => cases hnumber
    | object fields => cases hnumber
    | halvedObject fields => cases hnumber

theorem Storable.same_restored (h : Storable time) : (restored time).same time = true := by
  rcases h with rfl | ⟨hnumber, -, again, hread, hsame⟩
  · rfl
  · cases time with
    | null => rfl
    | bool value => simp [restored, sorted, reread, same, number?, sameNumber]
    | int value => rwa [restored_int, rereadNumber, hread]
    | float value => rwa [restored_float, rereadNumber, hread]
    | string value => cases hnumber
    | halved value => cases hnumber
    | array items => cases hnumber
    | object fields => cases hnumber
    | halvedObject fields => cases hnumber

end Json

/-! ## Documents of graphs -/

namespace Graph

variable {g stored : Graph}

/-- The times of a graph's files can be stored. -/
def Storable (g : Graph) : Prop :=
  ∀ path node, g.nodes.get? path = some node → node.lastModified.Storable

theorem legible_jsonTexts (texts : List String) : Json.Legible (jsonTexts texts) := by
  rw [jsonTexts, Json.Legible, Json.legibleItems_iff]
  intro item hitem
  obtain ⟨text, -, rfl⟩ := List.mem_map.mp hitem
  trivial

theorem legible_nodeDocument (path : String) {node : FileNode} (h : node.lastModified.Legible) :
    Json.Legible (nodeDocument path node) := by
  have hdistinct : ["path", "type", "last_modified", "specifiers"].Nodup := by decide
  exact ⟨hdistinct, trivial, trivial, h, legible_jsonTexts node.specifiers, trivial⟩

theorem legible_edgesDocument (path : String) (row : PathSet) :
    Json.Legible (edgesDocument path row) := by
  have hdistinct : ["from", "to"].Nodup := by decide
  exact ⟨hdistinct, trivial, legible_jsonTexts row.toList, trivial⟩

theorem legible_toDocument
    (h : ∀ path node, g.nodes.get? path = some node → Json.Legible node.lastModified) :
    Json.Legible g.toDocument := by
  have hdistinct : ["version", "nodes", "edges"].Nodup := by decide
  refine ⟨hdistinct, ⟨_, read_documentVersion⟩, ?_, ?_, trivial⟩
  · rw [Json.Legible, Json.legibleItems_iff]
    intro item hitem
    obtain ⟨⟨path, node⟩, hentry, rfl⟩ := List.mem_map.mp hitem
    have hnode := Table.mem_entries_iff.mp (Table.mem_sortedEntries.mp hentry)
    exact legible_nodeDocument path (h path node hnode)
  · rw [Json.Legible, Json.legibleItems_iff]
    intro item hitem
    obtain ⟨⟨path, row⟩, -, rfl⟩ := List.mem_map.mp hitem
    exact legible_edgesDocument path row

theorem Storable.legible (h : g.Storable) : Json.Legible g.toDocument :=
  legible_toDocument fun path node hnode => (h path node hnode).legible

/-- What has been stored is the same graph if the times can be stored. -/
theorem Stored.same_eq_true (h : Stored g stored) (hg : g.Balanced) (htimes : g.Storable) :
    stored.same g = true := by
  refine h.balanced.same_eq_true hg (fun path => h.mem_nodes) (fun path first second hfirst hsecond => ?_)
    h.targets
  rw [h.nodes, hsecond, Option.map_some, Option.some.injEq] at hfirst
  subst hfirst
  exact ⟨rfl, (htimes path second hsecond).same_restored, rfl⟩

end Graph

/-! ## Files -/

namespace Disk

variable {disk after last : Disk} {path : String} {document : Json} {g : Graph}

/-- A document that has been written is read with its numbers as their texts have them. -/
theorem readDocument_of_writeDocument (hlegible : document.Legible)
    (h : writeDocument path document disk = .ok true after) :
    after.readDocument (String.ofList (Path.tidy path.toList)) = .ok (some (Json.restored document)) := by
  have hprinted : ∀ c ∈ (Json.printSorted document).toList, Json.Printed c := by
    intro c hc
    rw [Json.printSorted, Json.print, String.toList_ofList] at hc
    exact Json.printed_of_mem_printAt _ 0 hc
  have hreturn : '\r' ∉ (Json.printSorted document).toList := by
    intro hc
    have hnot : ¬ Json.Printed '\r' := by
      rintro (heq | ⟨hvisible, -⟩)
      · cases heq
      · simp at hvisible
    exact hnot (hprinted _ hc)
  have htext : Reader.diskText after (String.ofList (Path.tidy path.toList)) =
      .ok (Json.printSorted document).toList := by
    rw [Reader.diskText, bytes_of_write h]
    simp only [Text.Utf8.decode_encode, Text.unifyLines_eq_self hreturn]
  rw [readDocument, htext]
  simp only [Json.readChars_printSorted hlegible]

/-- A graph is loaded from its file alone. -/
theorem loadGraph_congr (h : after.bytes (String.ofList (Path.tidy path.toList)) =
    disk.bytes (String.ofList (Path.tidy path.toList))) : after.loadGraph path = disk.loadGraph path := by
  unfold loadGraph loadGraphBy readDocument Reader.diskText
  dsimp only
  rw [h]

/-- A graph that can be loaded has a file. -/
theorem exists_find_of_loadGraph (h : disk.loadGraph path = .ok (some g)) :
    ∃ found, disk.find (String.ofList (Path.tidy path.toList)) = .ok found := by
  unfold loadGraph loadGraphBy readDocument Reader.diskText Disk.bytes at h
  cases hfind : disk.find (String.ofList (Path.tidy path.toList)) with
  | ok found => exact ⟨found, rfl⟩
  | error fault =>
      cases fault with
      | nullCharacter => simp [hfind, bind, Except.bind] at h
      | refused cause place =>
          cases cause <;> simp [hfind, bind, Except.bind] at h

/-- A graph that has been saved is loaded as the graph that its document describes. -/
theorem loadGraph_of_saveGraph {stored : Graph} (hlegible : Json.Legible g.toDocument)
    (h : saveGraph path g disk = .ok true after)
    (hstored : Graph.ofDocument (Json.restored g.toDocument) = .ok stored) :
    after.loadGraph path = .ok (some stored) := by
  have hdocument := readDocument_of_writeDocument hlegible h
  generalize Json.restored g.toDocument = restored at hdocument hstored
  have hnull : restored ≠ .null := by
    rintro rfl
    cases hstored
  rw [Graph.ofDocument] at hstored
  unfold loadGraph loadGraphBy
  simp only [hdocument, hstored]

theorem exists_loadGraph_of_saveGraph (hg : g.Balanced) (hlegible : Json.Legible g.toDocument)
    (h : saveGraph path g disk = .ok true after) :
    ∃ stored, after.loadGraph path = .ok (some stored) ∧ Graph.Stored g stored := by
  obtain ⟨stored, hstored, hgood⟩ := hg.ofDocument_restored
  exact ⟨stored, loadGraph_of_saveGraph hlegible h hstored, hgood⟩

/-- Where one graph has been saved every other comes to an answer. -/
theorem exists_saveGraph {now : Disk} {answer : Bool} {held other : Graph}
    (hsaved : saveGraph path g disk = .ok true after) (h : saveGraph path held now = .ok answer last) :
    ∃ answer last, saveGraph path other now = .ok answer last := by
  unfold saveGraph writeDocument at hsaved h ⊢
  exact exists_write _ (not_mem_of_bytes (bytes_of_write hsaved)) h

theorem exists_saveGraph_of_loadGraph (h : disk.loadGraph path = .ok (some g)) (other : Graph) :
    ∃ answer last, saveGraph path other disk = .ok answer last := by
  obtain ⟨found, hfound⟩ := exists_find_of_loadGraph h
  unfold saveGraph writeDocument
  exact exists_write_of_find _ hfound

theorem workingDirectory_of_saveGraph {answer : Bool} (h : saveGraph path g disk = .ok answer after) :
    after.workingDirectory = disk.workingDirectory := by
  unfold saveGraph writeDocument at h
  exact ((keeps_write path _ fun _ _ place _ => Set.mem_univ place).of_ok h).workingDirectory

/-- A balanced graph whose times can be stored is read from the text of its document, and it is loaded from
every place where it has been saved. -/
theorem loadGraph_saveGraph (hg : g.Balanced) (htimes : g.Storable) :
    (∃ document again, Json.read (Json.printSorted g.toDocument) = .ok document ∧
      Graph.ofDocument document = .ok again ∧ again.Balanced ∧ again.same g = true) ∧
    ∀ path disk after, saveGraph path g disk = .ok true after →
      ∃ loaded, after.loadGraph path = .ok (some loaded) ∧ loaded.Balanced ∧ loaded.same g = true := by
  have hlegible := htimes.legible
  constructor
  · obtain ⟨stored, hstored, hgood⟩ := hg.ofDocument_restored
    have hread := Json.readChars_printSorted hlegible
    exact ⟨_, stored, hread, hstored, hgood.balanced, hgood.same_eq_true hg htimes⟩
  · intro path disk after hsave
    obtain ⟨stored, hload, hgood⟩ := exists_loadGraph_of_saveGraph hg hlegible hsave
    exact ⟨stored, hload, hgood.balanced, hgood.same_eq_true hg htimes⟩

/-- Two files with names that have to be escaped, one with a time that is no integer. -/
theorem loadGraph_saveGraph_of_escaped_names :
    ∃ g after loaded, "😀\x00.test.ts" ∈ g.targets "a\"b\\\n.ts" ∧
      saveGraph "cache/graph.json" g {} = .ok true after ∧
      after.loadGraph "cache/graph.json" = .ok (some loaded) ∧ loaded.same g = true := by
  let time : Json := .float (.ofDecimal false 170000000025 (-2))
  let first : FileNode := { path := "a\"b\\\n.ts", lastModified := .int 5, specifiers := ["./\x00😀", "\t'"] }
  let second : FileNode := { path := "😀\x00.test.ts", kind := .test, lastModified := time }
  let g : Graph := Graph.modifyNode first.path ({ · with specifiers := first.specifiers }) (Graph.history
    [.addNode first.path .source first.lastModified, .addNode second.path .test time,
      .addEdge first.path second.path])
  have hbalanced : g.Balanced :=
    (Graph.balanced_history _).modifyNode (fun _ => rfl) fun _ => ⟨rfl, rfl⟩
  have hnodes : g.nodes.entries = [(first.path, first), (second.path, second)] := by rfl
  have hint : Json.Storable (.int 5) := Json.storable_int (by decide)
  have hfloat : Json.Storable time :=
    Json.storable_float (Binary64.canonical_ofDecimal _ _ _) (by decide +kernel)
  have hstorable : g.Storable := by
    intro path node hnode
    have hentry := Table.mem_entries_iff.mpr hnode
    rw [hnodes] at hentry
    rcases List.mem_pair.mp hentry with heq | heq
    · cases heq
      exact hint
    · cases heq
      exact hfloat
  have hsaved : (match saveGraph "cache/graph.json" g {} with
      | .ok answer _ => answer
      | .error .. => false) = true := by decide +kernel
  cases hsave : saveGraph "cache/graph.json" g {} with
  | error fault after => simp [hsave] at hsaved
  | ok answer after =>
      have hanswer : answer = true := by simpa [hsave] using hsaved
      rw [hanswer] at hsave
      obtain ⟨loaded, hload, -, hsame⟩ := (loadGraph_saveGraph hbalanced hstorable).2 _ _ _ hsave
      refine ⟨g, after, loaded, ?_, hsave, hload, hsame⟩
      decide +kernel

end Disk
end ChangeImpact
