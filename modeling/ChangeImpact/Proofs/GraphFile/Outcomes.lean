import ChangeImpact.GraphFile
import ChangeImpact.Proofs.Graph.Readings
import ChangeImpact.Proofs.Graph.Translation
import ChangeImpact.Proofs.Json.Refusals
import ChangeImpact.Proofs.Text.Utf8

/-!
# What comes of loading a graph

Loading promises three outcomes (`Disk.LoadsAsPromised`): no graph where there is no file, a consistent graph,
or a fault of what is stored.  It keeps the promise for every file but three kinds of them
(`Disk.loadsAsPromised_iff`).

* The bytes are those of no text.  This is a fault of reading and not of what is stored.
* The text is the null value.  Then there is a file, and still no graph.
* An integer in the text has more digits than an integer may have.  This too is a fault of reading.

The paths and the names of modules in a file may be values of any kind, so the outcomes are those of the reading
that takes them all (`Graph.Reading.values`).  The program goes on with paths that are texts.  What it loads is the
same graph, and what it refuses is refused, unless there is something in the file that is foreign to texts
(`Disk.loadGraph_as_values`).
-/

namespace ChangeImpact

variable {disk : Disk} {path : String} {document : Json} {bytes : List UInt8} {text : List Char}

namespace Json

/-- Reading a text stops at an integer that is too long. -/
def Overlong (text : List Char) : Prop :=
  ∃ error, readChars text = .error error ∧ error.isNotation = false

theorem Overlong.exists_holdsLongInteger (h : Overlong text) : ∃ length, HoldsLongInteger text length := by
  obtain ⟨error, herror, hnotation⟩ := h
  cases hcause : error.cause with
  | longInteger length => exact ⟨length, holdsLongInteger_of_readChars herror hcause⟩
  | _ => simp [ReadError.isNotation, hcause] at hnotation

end Json

/-- A fault is one of what is stored, and not of reading it. -/
def GraphFileFault.IsOfContent {κ : Type} : GraphFileFault κ → Prop
  | .unreadable _ => False
  | .notJson .. => True
  | .document fault => ¬ fault.IsForeign

namespace Disk

/-- The path of the file that a graph is loaded from. -/
def graphFile (path : String) : String := String.ofList (Path.tidy path.toList)

/-- There is no file at a path. -/
def Lacks (disk : Disk) (path : String) : Prop :=
  ∃ place, disk.bytes path = .error (.refused .missing place)

/-- What loading a graph promises: no graph where there is no file and only there, a graph that is consistent,
or a fault of what is stored. -/
structure LoadsAsPromised (disk : Disk) (path : String) : Prop where
  none_iff : disk.loadGraphBy .values path = .ok none ↔ disk.Lacks (graphFile path)
  check : ∀ g, disk.loadGraphBy .values path = .ok (some g) → g.check = .ok ()
  isOfContent : ∀ fault, disk.loadGraphBy .values path = .error fault → fault.IsOfContent

/-! ## One outcome after another -/

theorem loadGraph_of_lacks (h : disk.Lacks (graphFile path)) : disk.loadGraphBy .values path = .ok none := by
  obtain ⟨place, hplace⟩ := h
  unfold loadGraphBy readDocument Reader.diskText
  rw [graphFile] at hplace
  simp only [hplace]

/-- Bytes that are those of no text. -/
theorem exists_loadGraph_of_no_text (hbytes : disk.bytes (graphFile path) = .ok bytes)
    (h : ∀ text, Text.Utf8.encode text ≠ bytes) :
    ∃ fault, disk.loadGraphBy .values path = .error (.unreadable (.file (.encoding fault))) := by
  cases hdecode : Text.Utf8.decode bytes with
  | ok text => exact absurd (Text.Utf8.decode_eq_ok_iff.mp hdecode) (h text)
  | error fault =>
      refine ⟨fault, ?_⟩
      unfold loadGraphBy readDocument Reader.diskText
      rw [graphFile] at hbytes
      simp only [hbytes, hdecode]

section Documents

variable {κ σ : Type} [LT κ] [DecidableEq κ] [DecidableLT κ] [LE κ] [Std.IsLinearOrder κ] [Std.LawfulOrderLT κ]
  [BEq κ] (reading : Graph.Reading κ σ)

/-- No document and the null value are loaded as no graph. -/
theorem loadGraphBy_of_none {stored : Option Json} (hread : disk.readDocument (graphFile path) = .ok stored)
    (h : stored = none ∨ stored = some .null) : disk.loadGraphBy reading path = .ok none := by
  unfold loadGraphBy
  rw [graphFile] at hread
  rcases h with rfl | rfl
  · simp only [hread]
  · simp only [hread]

section

variable (hread : disk.readDocument (graphFile path) = .ok (some document)) (hnull : document ≠ .null)

include hread hnull

/-- Any other document is loaded as the graph that it describes to the reading. -/
theorem loadGraphBy_of_graph {g : Graph κ σ} (hgraph : Graph.ofDocumentBy reading document = .ok g) :
    disk.loadGraphBy reading path = .ok (some g) := by
  unfold loadGraphBy
  rw [graphFile] at hread
  cases document with
  | null => exact absurd rfl hnull
  | _ => simp only [hread, hgraph]

theorem loadGraphBy_of_fault {fault : Graph.DocumentFault κ}
    (hgraph : Graph.ofDocumentBy reading document = .error fault) :
    disk.loadGraphBy reading path = .error (.document fault) := by
  unfold loadGraphBy
  rw [graphFile] at hread
  cases document with
  | null => exact absurd rfl hnull
  | _ => simp only [hread, hgraph]

end

/-- What cannot be read as a document is refused by every reading. -/
theorem exists_loadGraphBy_of_unread {fault : DocumentReadFault}
    (hread : disk.readDocument (graphFile path) = .error fault) :
    ∃ fault', disk.loadGraphBy reading path = .error fault' := by
  unfold loadGraphBy
  rw [graphFile] at hread
  simp only [hread]
  cases fault with
  | file fault => exact ⟨_, rfl⟩
  | json error =>
      dsimp only
      cases error.isNotation with
      | true => exact ⟨_, rfl⟩
      | false => exact ⟨_, rfl⟩

end Documents

section Texts

variable (hbytes : disk.bytes (graphFile path) = .ok (Text.Utf8.encode text))

include hbytes

theorem readDocument_of_text : disk.readDocument (graphFile path) =
    match Json.readChars (Text.unifyLines text) with
    | .ok document => .ok (some document)
    | .error error => .error (.json error) := by
  have htext : Reader.diskText disk (graphFile path) = .ok (Text.unifyLines text) := by
    simp only [Reader.diskText, hbytes, Text.Utf8.decode_encode]
  unfold readDocument
  cases hread : Json.readChars (Text.unifyLines text) with
  | ok document => simp only [htext, hread]
  | error error => simp only [htext, hread]

/-- The null value stands for no graph. -/
theorem loadGraph_of_spellsNull (h : Json.SpellsNull (Text.unifyLines text)) :
    disk.loadGraphBy .values path = .ok none := by
  have hread := readDocument_of_text hbytes
  rw [Json.readChars_eq_null_iff.mpr h] at hread
  exact loadGraphBy_of_none .values hread (.inr rfl)

theorem exists_loadGraph_of_overlong (h : Json.Overlong (Text.unifyLines text)) :
    ∃ error, disk.loadGraphBy .values path = .error (.unreadable (.json error)) := by
  obtain ⟨error, herror, hnotation⟩ := h
  have hread := readDocument_of_text hbytes
  rw [herror, graphFile] at hread
  refine ⟨error, ?_⟩
  unfold loadGraphBy
  simp only [hread, hnotation]
  rfl

/-- Every other text is loaded as a graph that has passed the check, or refused for what it says. -/
theorem exists_loadGraph_of_text (hnull : ¬ Json.SpellsNull (Text.unifyLines text))
    (hlong : ¬ Json.Overlong (Text.unifyLines text)) :
    (∃ g, disk.loadGraphBy .values path = .ok (some g) ∧ g.check = .ok ()) ∨
      ∃ fault, disk.loadGraphBy .values path = .error fault ∧ fault.IsOfContent := by
  have hread := readDocument_of_text hbytes
  rw [← Json.readChars_eq_null_iff] at hnull
  cases hchars : Json.readChars (Text.unifyLines text) with
  | error error =>
      have hnotation : error.isNotation = true := by
        by_contra hnot
        exact hlong ⟨error, hchars, Bool.not_eq_true _ ▸ hnot⟩
      rw [hchars, graphFile] at hread
      unfold loadGraphBy
      simp only [hread, hnotation]
      exact .inr ⟨_, rfl, trivial⟩
  | ok document =>
      rw [hchars] at hread hnull
      have hdocument : document ≠ .null := fun heq => hnull (heq ▸ rfl)
      cases hgraph : Graph.ofDocumentBy .values document with
      | ok g =>
          exact .inl ⟨g, loadGraphBy_of_graph .values hread hdocument hgraph, Graph.check_of_ofDocumentBy hgraph⟩
      | error fault =>
          exact .inr ⟨.document fault, loadGraphBy_of_fault .values hread hdocument hgraph,
            Graph.Reading.total_values.ofDocumentBy_not_foreign hgraph⟩

end Texts

/-! ## Texts and values -/

/-- A graph that is loaded as texts is the one that is loaded as values.  Where none is loaded as texts, none is
loaded as values, but for a document in which something is foreign to texts. -/
theorem loadGraph_as_values :
    (∀ found, disk.loadGraph path = .ok found →
      disk.loadGraphBy .values path = .ok (found.map Graph.textsAsValues.graph)) ∧
    ∀ fault, disk.loadGraph path = .error fault →
      (∃ cause, fault = .document cause ∧ cause.IsForeign) ∨
        ∃ fault', disk.loadGraphBy .values path = .error fault' := by
  cases hread : disk.readDocument (graphFile path) with
  | error fault =>
      obtain ⟨_, htexts⟩ := exists_loadGraphBy_of_unread .texts hread
      obtain ⟨fault', hvalues⟩ := exists_loadGraphBy_of_unread .values hread
      rw [loadGraph, htexts, hvalues]
      exact ⟨nofun, fun _ _ => .inr ⟨fault', rfl⟩⟩
  | ok stored =>
      by_cases hnone : stored = none ∨ stored = some .null
      · rw [loadGraph, loadGraphBy_of_none .texts hread hnone, loadGraphBy_of_none .values hread hnone]
        refine ⟨?_, nofun⟩
        rintro _ ⟨⟩
        rfl
      · rw [not_or, ← ne_eq, Option.ne_none_iff_exists'] at hnone
        obtain ⟨⟨document, rfl⟩, hnull⟩ := hnone
        have hdocument : document ≠ .null := fun heq => hnull (heq ▸ rfl)
        have hagree := Graph.ofDocumentBy_values document
        cases htexts : Graph.ofDocument document with
        | ok g =>
            obtain ⟨_, hvalues, rfl⟩ := hagree.of_ok htexts
            rw [loadGraph, loadGraphBy_of_graph .texts hread hdocument htexts,
              loadGraphBy_of_graph .values hread hdocument hvalues]
            refine ⟨?_, nofun⟩
            rintro _ ⟨⟩
            rfl
        | error fault =>
            rw [loadGraph, loadGraphBy_of_fault .texts hread hdocument htexts]
            refine ⟨nofun, ?_⟩
            rintro _ ⟨⟩
            refine (hagree.of_error htexts).imp (fun hforeign => ⟨fault, rfl, hforeign⟩) ?_
            rintro ⟨fault', hvalues⟩
            exact ⟨_, loadGraphBy_of_fault .values hread hdocument hvalues⟩

/-! ## The promise -/

/-- Loading keeps its promise, where the file can be read or is missing, unless the file is of one of three
kinds: its bytes are no text, it holds the null value, or it holds an integer that is too long.  In each of these
cases the outcome is known, and an integer that is too long stands in the text. -/
theorem loadsAsPromised_iff (hread : disk.Lacks (graphFile path) ∨ ∃ bytes, disk.bytes (graphFile path) = .ok bytes) :
    (disk.LoadsAsPromised path ↔ ∀ bytes, disk.bytes (graphFile path) = .ok bytes →
      ∃ text, Text.Utf8.encode text = bytes ∧ ¬ Json.SpellsNull (Text.unifyLines text) ∧
        ¬ Json.Overlong (Text.unifyLines text)) ∧
    ∀ bytes, disk.bytes (graphFile path) = .ok bytes →
      ((∀ text, Text.Utf8.encode text ≠ bytes) →
        ∃ fault, disk.loadGraphBy .values path = .error (.unreadable (.file (.encoding fault)))) ∧
      ∀ text, Text.Utf8.encode text = bytes →
        (Json.SpellsNull (Text.unifyLines text) → disk.loadGraphBy .values path = .ok none) ∧
        (Json.Overlong (Text.unifyLines text) →
          (∃ error, disk.loadGraphBy .values path = .error (.unreadable (.json error))) ∧
            ∃ length, Json.HoldsLongInteger (Text.unifyLines text) length) := by
  have hpresent : ∀ bytes, disk.bytes (graphFile path) = .ok bytes → ¬ disk.Lacks (graphFile path) := by
    rintro bytes hbytes ⟨place, hplace⟩
    rw [hbytes] at hplace
    cases hplace
  refine ⟨⟨fun h bytes hbytes => ?_, fun h => ?_⟩, fun bytes hbytes => ⟨exists_loadGraph_of_no_text hbytes, ?_⟩⟩
  · by_cases htext : ∃ text, Text.Utf8.encode text = bytes
    · obtain ⟨text, rfl⟩ := htext
      refine ⟨text, rfl, fun hnull => ?_, fun hlong => ?_⟩
      · exact hpresent _ hbytes (h.none_iff.mp (loadGraph_of_spellsNull hbytes hnull))
      · obtain ⟨error, herror⟩ := exists_loadGraph_of_overlong hbytes hlong
        exact h.isOfContent _ herror
    · rw [not_exists] at htext
      obtain ⟨fault, hfault⟩ := exists_loadGraph_of_no_text hbytes htext
      exact absurd (h.isOfContent _ hfault) not_false
  · rcases hread with hlacks | ⟨bytes, hbytes⟩
    · have hnone := loadGraph_of_lacks hlacks
      exact ⟨iff_of_true hnone hlacks, fun g hg => (by simp [hnone] at hg),
        fun fault hfault => (by simp [hnone] at hfault)⟩
    · obtain ⟨text, rfl, hnull, hlong⟩ := h bytes hbytes
      rcases exists_loadGraph_of_text hbytes hnull hlong with ⟨g, hg, hcheck⟩ | ⟨fault, hfault, hcontent⟩
      · refine ⟨iff_of_false (by simp [hg]) (hpresent _ hbytes), fun other hother => ?_, fun fault hfault => ?_⟩
        · rw [hg] at hother
          cases hother
          exact hcheck
        · rw [hg] at hfault
          cases hfault
      · refine ⟨iff_of_false (by simp [hfault]) (hpresent _ hbytes), fun g hg => ?_, fun other hother => ?_⟩
        · rw [hfault] at hg
          cases hg
        · rw [hfault] at hother
          cases hother
          exact hcontent
  · rintro text rfl
    exact ⟨loadGraph_of_spellsNull hbytes,
      fun hlong => ⟨exists_loadGraph_of_overlong hbytes hlong, hlong.exists_holdsLongInteger⟩⟩

/-- An array is no graph, and this is told; the null value is taken for a missing file. -/
theorem loadsAsPromised_iff_of_two_files : ∃ array null : Disk,
    array.bytes (graphFile "g.json") = .ok (Text.Utf8.encode "[]".toList) ∧
    null.bytes (graphFile "g.json") = .ok (Text.Utf8.encode "null".toList) ∧
    array.LoadsAsPromised "g.json" ∧ ¬ null.LoadsAsPromised "g.json" := by
  let holding (text : String) : Disk :=
    { tree := .directory [("g.json", .file (Text.Utf8.encode text.toList) (.ofWholeSeconds 0))] }
  have harray : (holding "[]").bytes (graphFile "g.json") = .ok (Text.Utf8.encode "[]".toList) := by
    decide +kernel
  have hnull : (holding "null").bytes (graphFile "g.json") = .ok (Text.Utf8.encode "null".toList) := by
    decide +kernel
  refine ⟨_, _, harray, hnull, (loadsAsPromised_iff (.inr ⟨_, harray⟩)).1.mpr ?_, fun h => ?_⟩
  · intro bytes hbytes
    obtain rfl := Except.ok.inj (harray.symm.trans hbytes)
    have hread : Json.readChars (Text.unifyLines "[]".toList) = .ok (.array []) := rfl
    refine ⟨_, rfl, ?_, ?_⟩
    · rw [← Json.readChars_eq_null_iff, hread]
      exact nofun
    · rintro ⟨error, herror, -⟩
      rw [hread] at herror
      cases herror
  · obtain ⟨text, htext, hnot, -⟩ := (loadsAsPromised_iff (.inr ⟨_, hnull⟩)).1.mp h _ hnull
    have hdecode := Text.Utf8.decode_eq_ok_iff.mpr htext
    obtain rfl := Except.ok.inj ((Text.Utf8.decode_encode _).symm.trans hdecode)
    exact hnot ⟨[], [], by simp, by simp, rfl⟩

/-- A file that holds the null value is there, and no graph is loaded.  A file that holds a single byte which
starts no character is a fault of reading. -/
theorem loadGraph_breaks_promise :
    (∃ disk : Disk, disk.bytes (graphFile "g.json") = .ok (Text.Utf8.encode "null\n".toList) ∧
      disk.loadGraphBy .values "g.json" = .ok none ∧ ¬ disk.LoadsAsPromised "g.json") ∧
    ∃ disk : Disk, disk.bytes (graphFile "g.json") = .ok [0xff] ∧ ¬ disk.LoadsAsPromised "g.json" := by
  let holding (bytes : List UInt8) : Disk :=
    { tree := .directory [("g.json", .file bytes (.ofWholeSeconds 0))] }
  constructor
  · have hbytes : (holding (Text.Utf8.encode "null\n".toList)).bytes (graphFile "g.json") =
        .ok (Text.Utf8.encode "null\n".toList) := by decide +kernel
    have hnone := loadGraph_of_spellsNull hbytes ⟨[], ['\n'], by simp, by simp [Json.isGap], rfl⟩
    refine ⟨_, hbytes, hnone, fun h => ?_⟩
    obtain ⟨place, hplace⟩ := h.none_iff.mp hnone
    rw [hbytes] at hplace
    cases hplace
  · have hbytes : (holding [0xff]).bytes (graphFile "g.json") = .ok [0xff] := by decide +kernel
    obtain ⟨fault, hfault⟩ := exists_loadGraph_of_no_text hbytes fun text htext => by
      have hdecode := Text.Utf8.decode_eq_ok_iff.mpr htext
      rw [Text.Utf8.decode, Text.Utf8.decodeFrom] at hdecode
      cases hdecode
    exact ⟨_, hbytes, fun h => h.isOfContent _ hfault⟩

end Disk
end ChangeImpact
