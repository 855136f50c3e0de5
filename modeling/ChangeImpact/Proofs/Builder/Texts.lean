import ChangeImpact.Proofs.Builder.Building
import ChangeImpact.Proofs.Reader

/-!
# Graphs of texts

When files are given with their texts, the record of the graph is a function of the texts by key
(`textRecord`), and the time of a file is never known.  Writing and deleting single files changes the
texts in the same way as the record, so a graph that is kept up to date by any sequence of edits agrees
with one that is built of the texts that the edits leave (`edits_agree_with_build`).

Texts are compared by key.  A mapping may spell a path in several ways, and a key need not be its own
key when it is given as a path again; hence the mapping that is built in the end is any whose texts by
key are the right ones.
-/

namespace ChangeImpact.Builder

variable {builder : Builder} {g : Graph} {path : String} {contents : List (String × String)}

/-- The texts of files by key.  What has no key is not a file. -/
def texts (builder : Builder) (contents : List (String × String)) : Table String :=
  (builder.keyedContents contents).erase ""

/-- The record of files with the given texts. -/
def textRecord (builder : Builder) (texts : Table String) : Record := fun path =>
  (texts.get? path).map fun content => builder.scanOf (.ofText content) path

theorem mem_keysOf_contents : path ∈ builder.keysOf (.contents contents) ↔
    path ∈ builder.texts contents := by
  rw [texts, Table.mem_erase, keyedContents, Table.mem_ofList, keysOf, PathSet.mem_ofList,
    List.mem_filter, List.map_map, List.map_map, and_comm]
  refine and_congr_left fun _ => ?_
  rw [Bool.not_eq_true', ← Bool.not_eq_true, String.isEmpty_iff]

/-- A reader gives the texts that a table holds, and no times. -/
def Serves (reader : Reader) (texts : Table String) : Prop :=
  ∀ path content, texts.get? path = some content →
    reader.read path = { content := .ok content } ∧ reader.changed path = .ok none

theorem scanOf_of_serves {reader : Reader} {texts : Table String} (hserves : Serves reader texts)
    {content : String} (hcontent : texts.get? path = some content) :
    builder.scanOf reader path = builder.scanOf (.ofText content) path :=
  scanOf_congr (hserves path content hcontent).1 (hserves path content hcontent).2

theorem serves_readerFor (contents : List (String × String)) :
    Serves (builder.readerFor (.contents contents)) (builder.texts contents) := by
  intro path content hcontent
  rw [texts, Table.get?_erase] at hcontent
  split at hcontent
  · cases hcontent
  · exact ⟨Reader.read_ofTable hcontent, rfl⟩

/-- What is built of texts is settled with the record of the texts. -/
theorem recordOf_contents (contents : List (String × String)) :
    builder.recordOf (.contents contents) = builder.textRecord (builder.texts contents) := by
  funext path
  rw [recordOf, Record.scan, textRecord]
  split
  · rename_i hpath
    obtain ⟨content, hcontent⟩ := Table.mem_iff_exists.mp (mem_keysOf_contents.mp hpath)
    rw [hcontent, scanOf_of_serves (serves_readerFor contents) hcontent]
    rfl
  · rename_i hpath
    rw [Table.get?_eq_none_iff.mpr fun hmem => hpath (mem_keysOf_contents.mpr hmem)]
    rfl

/-- Building of texts needs nothing but a worker. -/
theorem exists_build_contents (hplain : builder.aliases.Plain)
    (hworkers : builder.pool.hasWorkers = true) (contents : List (String × String)) :
    ∃ g, builder.build (.contents contents) = .ok g := by
  refine exists_build hplain ?_
  rintro fault (⟨-, -, hpool⟩ | ⟨-, -, htime⟩)
  · rw [hworkers] at hpool
    cases hpool
  · cases htime

/-- Two mappings with the same texts by key have the same record. -/
theorem textRecord_congr {first second : Table String}
    (h : ∀ path, first.get? path = second.get? path) :
    builder.textRecord first = builder.textRecord second :=
  funext fun path => by rw [textRecord, textRecord, h]

/-! ## Edits -/

/-- A change of a single file. -/
inductive Edit where
  | write (path content : String)
  | delete (path : String)

/-- Takes an edit into a graph. -/
def edit (builder : Builder) : Edit → BuildStep Unit
  | .write path content => builder.updateFile path (some content)
  | .delete path => do
    let _ ← builder.removeFile path

/-- Takes an edit into a mapping.  A file that is written replaces all spellings of its path. -/
def editContents (builder : Builder) (contents : List (String × String)) :
    Edit → List (String × String)
  | .write path content =>
    (contents.filter fun entry => builder.key entry.1 != builder.key path) ++ [(path, content)]
  | .delete path => contents.filter fun entry => builder.key entry.1 != builder.key path

theorem get?_texts_filter (contents : List (String × String)) (key other : String) :
    (builder.texts (contents.filter fun entry => builder.key entry.1 != key)).get? other =
      if other = key then none else (builder.texts contents).get? other := by
  have hentries : (contents.filter fun entry => builder.key entry.1 != key).map
      (fun entry => (builder.key entry.1, entry.2)) =
      (contents.map fun entry => (builder.key entry.1, entry.2)).filter (·.1 != key) := by
    simp only [List.filter_map, Function.comp_def]
  rw [texts, texts, keyedContents, keyedContents, hentries, Table.get?_erase, Table.get?_erase,
    Table.get?_ofList_filter]
  split
  · split
    · rfl
    · rfl
  · rfl

theorem get?_texts_append (contents : List (String × String)) (path content other : String) :
    (builder.texts (contents ++ [(path, content)])).get? other =
      if other = builder.key path ∧ other ≠ "" then some content
      else (builder.texts contents).get? other := by
  rw [texts, texts, keyedContents, keyedContents, List.map_append, Table.get?_erase,
    Table.get?_erase]
  show (if other = "" then none else (Table.ofList (_ ++ [(builder.key path, content)])).get? other) = _
  rw [Table.get?_ofList_append]
  by_cases hempty : other = ""
  · simp [hempty]
  · simp [hempty]

/-- Writing a file puts its scan into the record. -/
theorem textRecord_write (contents : List (String × String)) (path content : String) :
    builder.textRecord (builder.texts (builder.editContents contents (.write path content))) =
      if builder.key path = "" then builder.textRecord (builder.texts contents)
      else Function.update (builder.textRecord (builder.texts contents)) (builder.key path)
        (some (builder.scanOf (.ofText content) (builder.key path))) := by
  funext other
  have hroot : (builder.texts contents).get? "" = none := by
    rw [texts, Table.get?_erase, if_pos rfl]
  rw [textRecord, editContents, get?_texts_append, get?_texts_filter]
  -- a path without a key is written nowhere
  by_cases hempty : builder.key path = ""
  · rw [if_pos hempty, hempty, if_neg fun h => h.2 h.1, textRecord]
    split
    · rename_i heq
      rw [heq, hroot]
    · rfl
  · rw [if_neg hempty, Function.update_apply]
    by_cases heq : other = builder.key path
    · rw [if_pos ⟨heq, heq ▸ hempty⟩, if_pos heq, heq]
      rfl
    · rw [if_neg fun h => heq h.1, if_neg heq, if_neg heq, textRecord]

/-- Deleting a file drops it from the record. -/
theorem textRecord_delete (contents : List (String × String)) (path : String) :
    builder.textRecord (builder.texts (builder.editContents contents (.delete path))) =
      (builder.textRecord (builder.texts contents)).drop (builder.key path) := by
  funext other
  rw [textRecord, editContents, get?_texts_filter, Record.drop, Function.update_apply]
  split
  · rfl
  · rfl

theorem ends_edit (hplain : builder.aliases.Plain)
    (hg : Settled builder (builder.textRecord (builder.texts contents)) g) (change : Edit) :
    Ends (builder.edit change) g
      (fun _ after => Settled builder
        (builder.textRecord (builder.texts (builder.editContents contents change))) after)
      (fun _ _ => False) := by
  have hresolved := hg.resolved hplain
  cases change with
  | write path content =>
      rw [textRecord_write, edit]
      refine (ends_updateFile hg.recorded hresolved path (some content)).mono ?_ ?_
      · exact fun _ _ hafter => ⟨hafter.1, hafter.2.linked⟩
      · exact fun fault _ hbad => hbad.elim (not_obstacle_of_text builder content _ fault)
          fun hlost => hlost.elim hplain
  | delete path =>
      rw [textRecord_delete, edit]
      refine ((ends_removeFile hg.recorded hresolved path).mono (fun _ _ hgood => hgood.2)
        fun _ _ hlost => hlost.elim hplain).bind ?_
      exact fun _ _ hafter => .pure ⟨hafter.1, hafter.2.linked⟩

/-- A run of edits settles the graph with the texts that the edits leave. -/
theorem ends_edits (hplain : builder.aliases.Plain)
    (hg : Settled builder (builder.textRecord (builder.texts contents)) g) (edits : List Edit) :
    Ends (edits.forM builder.edit) g
      (fun _ after => Settled builder
        (builder.textRecord (builder.texts (edits.foldl builder.editContents contents))) after)
      (fun _ _ => False) := by
  induction edits generalizing contents g with
  | nil => exact .pure hg
  | cons change rest ih => exact (ends_edit hplain hg change).bind fun _ _ hafter => ih hafter

/-- Whether a step on the graph of some texts leads to another graph than that of the final texts. -/
def differs (builder : Builder) (contents : List (String × String)) (step : BuildStep Unit)
    (final : List (String × String)) : Bool :=
  match builder.build (.contents contents) with
  | .error _ => false
  | .ok g =>
    match step g, builder.build (.contents final) with
    | .ok _ after, .ok h => !after.same h
    | _, _ => false

theorem exists_of_differs {step : BuildStep Unit} {final : List (String × String)}
    (hdiffers : builder.differs contents step final = true) :
    ∃ g after h, builder.build (.contents contents) = .ok g ∧ step g = .ok ⟨⟩ after ∧
      builder.build (.contents final) = .ok h ∧ after.same h = false := by
  unfold differs at hdiffers
  cases hg : builder.build (.contents contents) with
  | error fault => simp [hg] at hdiffers
  | ok g =>
      cases hafter : step g with
      | error fault after => simp [hg, hafter] at hdiffers
      | ok _ after =>
          cases hh : builder.build (.contents final) with
          | error fault => simp [hg, hafter, hh] at hdiffers
          | ok h =>
              rw [hg] at hdiffers
              simp only [hafter, hh, Bool.not_eq_true'] at hdiffers
              exact ⟨g, after, h, rfl, hafter, rfl, hdiffers⟩

/-- A graph that was built of texts and then kept up to date by edits agrees with every graph that is
built of the texts which the edits leave.  There is such a graph if there is a worker to read. -/
theorem edits_agree_with_build (hplain : builder.aliases.Plain)
    (hbuild : builder.build (.contents contents) = .ok g) (edits : List Edit) :
    ∃ after, edits.forM builder.edit g = .ok ⟨⟩ after ∧
      ∀ final, (∀ path, (builder.texts final).get? path =
          (builder.texts (edits.foldl builder.editContents contents)).get? path) →
        (builder.pool.hasWorkers = true → ∃ h, builder.build (.contents final) = .ok h) ∧
        ∀ h, builder.build (.contents final) = .ok h →
          after.same h = true ∧ after.diagnostics.Perm h.diagnostics := by
  have hstart := (of_build hbuild).1
  rw [recordOf_contents] at hstart
  obtain ⟨_, after, hsteps, hafter⟩ := (ends_edits hplain hstart edits).succeeds fun _ _ h => h
  refine ⟨after, hsteps, fun final hfinal => ⟨fun hworkers => ?_, fun h hrebuild => ?_⟩⟩
  · exact exists_build_contents hplain hworkers final
  · have hscratch := (of_build hrebuild).1
    rw [recordOf_contents, textRecord_congr hfinal] at hscratch
    exact hafter.agree hscratch (.refl _)

/-- A file that names another one is built first, the other one is written and written again, and the
first is deleted. -/
theorem edits_agree_with_build_of_two_files :
    ∃ g after h, Builder.build { reader := .ofText "" } (.contents [("a.ts", "import './b'")]) = .ok g ∧
      [Edit.write "./b.ts" "", .write "b.ts" "import './a'", .delete "a.ts"].forM
        (Builder.edit { reader := .ofText "" }) g = .ok ⟨⟩ after ∧
      Builder.build { reader := .ofText "" } (.contents [("b.ts", "import './a'")]) = .ok h ∧
      after.same h = true ∧ after.diagnostics.Perm h.diagnostics := by
  let builder : Builder := { reader := .ofText "" }
  let edits := [Edit.write "./b.ts" "", .write "b.ts" "import './a'", .delete "a.ts"]
  have hplain : builder.aliases.Plain := nofun
  have hentries : (builder.texts [("b.ts", "import './a'")]).entries =
      (builder.texts (edits.foldl builder.editContents [("a.ts", "import './b'")])).entries := by
    decide +kernel
  have htexts : ∀ path, (builder.texts [("b.ts", "import './a'")]).get? path =
      (builder.texts (edits.foldl builder.editContents [("a.ts", "import './b'")])).get? path :=
    fun path => congrArg (List.lookup path) hentries
  obtain ⟨g, hg⟩ := exists_build_contents hplain rfl [("a.ts", "import './b'")]
  obtain ⟨after, hafter, hfinal⟩ := edits_agree_with_build hplain hg edits
  obtain ⟨hexists, hagree⟩ := hfinal [("b.ts", "import './a'")] htexts
  obtain ⟨h, hh⟩ := hexists rfl
  exact ⟨g, after, h, hg, hafter, hh, hagree h hh⟩

/-- Building of the texts by key is not the same: a key need not be its own key, and a builder without
workers, which reads nothing, still updates the files of which it is given the text. -/
theorem edits_disagree_with_build_by_key :
    (∃ g after h, Builder.build { reader := .ofText "" } (.contents []) = .ok g ∧
      [Edit.write "./ a.css" ""].forM (Builder.edit { reader := .ofText "" }) g = .ok ⟨⟩ after ∧
      Builder.build { reader := .ofText "" } (.contents [(" a.css", "")]) = .ok h ∧
      after.same h = false) ∧
    ∃ g after,
      Builder.build { reader := .ofText "", pool := { workers := some (-1) } } (.contents []) =
        .ok g ∧
      [Edit.write "a.ts" ""].forM
        (Builder.edit { reader := .ofText "", pool := { workers := some (-1) } }) g =
          .ok ⟨⟩ after ∧
      Builder.build { reader := .ofText "", pool := { workers := some (-1) } }
        (.contents [("a.ts", "")]) = .error (.pool .noWorkers) := by
  constructor
  · have hdiffers : Builder.differs { reader := .ofText "" } []
        ([Edit.write "./ a.css" ""].forM (Builder.edit { reader := .ofText "" }))
        [(" a.css", "")] = true := by decide +kernel
    exact exists_of_differs hdiffers
  · let idle : Builder := { reader := .ofText "", pool := { workers := some (-1) } }
    have hrefused : (match idle.build (.contents [("a.ts", "")]) with
        | .ok _ => none
        | .error fault => some fault) = some (.pool .noWorkers) := by decide +kernel
    have hplain : idle.aliases.Plain := nofun
    obtain ⟨g, hg⟩ : ∃ g, idle.build (.contents []) = .ok g := exists_build hplain nofun
    have hstart := (of_build hg).1
    rw [recordOf_contents] at hstart
    obtain ⟨_, after, hafter, -⟩ :=
      (ends_edits hplain hstart [Edit.write "a.ts" ""]).succeeds fun _ _ hbad => hbad
    refine ⟨g, after, hg, hafter, ?_⟩
    cases hh : idle.build (.contents [("a.ts", "")]) with
    | ok h => simp [hh] at hrefused
    | error fault =>
        rw [hh] at hrefused
        rw [Option.some.inj hrefused]

end ChangeImpact.Builder
