import ChangeImpact.Proofs.CommandLine.Loading
import ChangeImpact.Proofs.Disk.Refusals

/-!
# Graphs that cannot be saved

A run saves its graph as the last thing that it does, and returns the graph also if it could not be saved
(`refused_calls_reported`).  For this a failed write has to be answered and not to fail itself.  That is so for all
that a disk may refuse, from the temporary file to the last step, but not for the directories of the graph file: they
are made before anything is caught, so a file in the place of one of them ends the whole run
(`loadOrBuild_fails_below_file`).
-/

namespace ChangeImpact

/-- Saves a graph on a disk that may refuse to have it saved. -/
def DiskConduct.saveGraph (conduct : DiskConduct) (path : String) (g : Graph) : DiskStep Bool :=
  conduct.write path (Json.printSorted g.toDocument).toList

namespace CommandLine

variable {extractor : Script.Extractor} {settings : Settings} {rebuild : Bool} {kept : Option Graph}
  {conduct : DiskConduct} {disk after made : Disk} {g : Graph}

/-- The graph of the project, up to date, before it is saved. -/
def upToDate (extractor : Script.Extractor) (settings : Settings) (rebuild : Bool) (kept : Option Graph) :
    RunStep Graph := do
  let files ← demand .disk (projectFiles settings (← get))
  let kept ← if kept.isNone && !rebuild then keptGraph settings else pure kept
  demand .build (currentGraph extractor settings (← get) kept files)

/-- The graph of the project, up to date, on a disk that may refuse to have it saved. -/
def loadOrBuildOn (conduct : DiskConduct) (extractor : Script.Extractor) (settings : Settings) (rebuild : Bool)
    (kept : Option Graph) : RunStep Graph := do
  let g ← upToDate extractor settings rebuild kept
  let _ ← onDisk (conduct.saveGraph settings.graphPath g)
  return g

/-- On a disk that refuses nothing this is the graph of `loadOrBuild`. -/
theorem loadOrBuildOn_willing : loadOrBuildOn .willing extractor settings rebuild kept =
    loadOrBuild extractor settings rebuild kept := by
  have hsave : ∀ g, DiskConduct.willing.saveGraph settings.graphPath g = Disk.saveGraph settings.graphPath g :=
    fun g => DiskConduct.write_willing _ _
  unfold loadOrBuildOn loadOrBuild upToDate
  cases hfind : kept.isNone && !rebuild with
  | true => simp only [hsave, bind_assoc, if_true]
  | false => simp only [hsave, bind_assoc, Bool.false_eq_true, if_false]

/-- Nothing is changed before the graph is saved. -/
theorem eq_of_upToDate (h : upToDate extractor settings rebuild kept disk = .ok g after) : after = disk := by
  unfold upToDate at h
  cases hfind : kept.isNone && !rebuild with
  | true =>
      simp only [hfind, if_true, keptGraph, bind_assoc, bind_eq_ok_iff, get_eq_ok_iff, demand_eq_ok_iff] at h
      obtain ⟨_, _, ⟨rfl, rfl⟩, _, _, ⟨-, rfl⟩, _, _, ⟨rfl, rfl⟩, _, _, ⟨-, rfl⟩, _, _, ⟨rfl, rfl⟩, -, rfl⟩ := h
      rfl
  | false =>
      simp only [hfind, Bool.false_eq_true, if_false, pure_bind, bind_eq_ok_iff, get_eq_ok_iff, demand_eq_ok_iff] at h
      obtain ⟨_, _, ⟨rfl, rfl⟩, _, _, ⟨-, rfl⟩, _, _, ⟨rfl, rfl⟩, -, rfl⟩ := h
      rfl

variable (conduct) in
/-- Every answer to the saving is taken, but a fault there ends the run. -/
theorem loadOrBuildOn_of_upToDate (h : upToDate extractor settings rebuild kept disk = .ok g disk) :
    Ends (conduct.saveGraph settings.graphPath g) disk
      (fun _ after => loadOrBuildOn conduct extractor settings rebuild kept disk = .ok g after)
      fun fault after => loadOrBuildOn conduct extractor settings rebuild kept disk = .error (.disk fault) after := by
  unfold loadOrBuildOn
  rw [bind_of_eq_ok h]
  cases hsave : conduct.saveGraph settings.graphPath g disk with
  | ok answer after =>
      exact .of_eq_ok hsave (bind_of_eq_ok (onDisk_eq_ok_iff.mpr hsave))
  | error fault after =>
      refine .of_eq_error hsave ?_
      simp only [bind, EStateM.bind, onDisk, hsave]

/-- Whatever a disk refuses, a write fails exactly if the directories above its path cannot be made, or if the path
has a null character and nothing has been refused before.  Otherwise it answers whether the text has been written:
this is so if no step has been refused and a file can be put where the path leads to.  Until the target is replaced
all files stay as they are, so the path holds what it held if the answer is false.  Where there are the directories,
making them is no more than being told so.  A run that has its graph returns it, unless the directories of the graph
file cannot be made. -/
theorem refused_calls_reported (conduct : DiskConduct) (disk : Disk) (path : String) (text : List Char) :
    let tidied := String.ofList (Path.tidy path.toList)
    let above := String.ofList (Path.parent tidied.toList)
    let refused := conduct.RefusesStep tidied (conduct.pieces (Text.Utf8.encode text))
    Ends (conduct.makeDirectories above) disk
      (fun _ made => disk.SameFiles made ∧
        Ends (conduct.write path text) disk
          (fun answer after => (answer = true ↔ ¬ refused ∧ made.TakesFile tidied) ∧
            after.held? tidied = if answer then some (Text.Utf8.encode text) else made.held? tidied)
          fun fault after => fault = .nullCharacter ∧ ¬ refused ∧ '\x00' ∈ path.toList ∧
            after.held? tidied = made.held? tidied)
      (fun fault made => disk.SameFiles made ∧ conduct.write path text disk = .error fault made) ∧
    (disk.isDirectory above = true → conduct.refusal? (.makeDirectory above false) ≠ some .missing →
      conduct.refusal? (.lookAt above) = none → conduct.makeDirectories above disk = .ok () disk) ∧
    ∀ extractor settings rebuild kept g, settings.graphPath = path →
      upToDate extractor settings rebuild kept disk = .ok g disk →
      Ends (conduct.makeDirectories above) disk
        (fun _ _ => '\x00' ∉ path.toList →
          ∃ after, loadOrBuildOn conduct extractor settings rebuild kept disk = .ok g after)
        fun fault made => loadOrBuildOn conduct extractor settings rebuild kept disk = .error (.disk fault) made := by
  intro tidied above refused
  have hnull : '\x00' ∈ tidied.toList → '\x00' ∈ path.toList := by
    contrapose!
    intro hpath
    rw [String.toList_ofList]
    exact Path.not_mem_spell hpath fun _ hname => hname
  have htidy : String.ofList (Path.tidy above.toList) = above := by
    rw [String.toList_ofList, Path.tidy_parent]
  refine ⟨?_, fun hthere hmake hlook => ?_, ?_⟩
  · have hsame := DiskConduct.makeDirectories_parent conduct tidied disk
    cases hmade : conduct.makeDirectories above disk with
    | ok _ made =>
        refine .of_eq_ok hmade ⟨(hsame.of_ok hmade).1, ?_⟩
        refine (DiskConduct.write_ends text hmade).mono (fun _ _ h => h) ?_
        rintro fault after ⟨hfault, hquiet, hmem, hheld⟩
        exact ⟨hfault, hquiet, hnull hmem, hheld⟩
    | error fault made =>
        exact .of_eq_error hmade ⟨hsame.of_error hmade, DiskConduct.write_of_error hmade⟩
  · exact DiskConduct.makeDirectories_of_isDirectory (htidy.symm ▸ hmake) (htidy.symm ▸ hlook) hthere
  · rintro extractor settings rebuild kept g rfl hgraph
    have hrun := loadOrBuildOn_of_upToDate conduct hgraph
    cases hmade : conduct.makeDirectories above disk with
    | ok _ made =>
        refine .of_eq_ok hmade fun hpath => ?_
        obtain ⟨answer, after, hsaved, -⟩ := (DiskConduct.write_ends (Json.printSorted g.toDocument).toList
          hmade).succeeds fun fault after h => hpath (hnull h.2.2.1)
        exact ⟨after, hrun.of_ok hsaved⟩
    | error fault made => exact .of_eq_error hmade (hrun.of_error (DiskConduct.write_of_error hmade))

/-- Settings for a project at the top of a disk with its graph in the given file. -/
abbrev atTop (graphFile : String) : Settings := { projectRoot := "/", graphFile }

/-- Where such a graph can be made it is made on the disk as it is. -/
theorem exists_upToDate (h : Ends (upToDate extractor settings rebuild kept) disk (fun _ _ => True) fun _ _ => False) :
    ∃ g, upToDate extractor settings rebuild kept disk = .ok g disk := by
  obtain ⟨g, after, hgraph, -⟩ := h.succeeds fun _ _ => id
  obtain rfl := eq_of_upToDate hgraph
  exact ⟨g, hgraph⟩

/-- A disk that refuses to synchronize a file, and then to take it away, is answered with false.  The old file stays,
and the run that wanted to save its graph there returns it. -/
theorem refused_calls_reported_of_full_disk : ∃ (conduct : DiskConduct) (disk : Disk),
    (∃ after, conduct.write "/d/g" ['n'] disk = .ok false after ∧ after.held? "/d/g" = some [111]) ∧
      ∃ g after, loadOrBuildOn conduct {} (atTop "/d/g") true none disk = .ok g after := by
  let conduct : DiskConduct := { DiskConduct.willing with
    refusal? := fun call => if call = .step 2 ∨ call = .removeTemporary then some .notDirectory else none }
  let disk : Disk := { tree := .directory [("d", .directory [("g", .file [111] (.ofWholeSeconds 0))])] }
  obtain ⟨hwrite, hthere, hrun⟩ := refused_calls_reported conduct disk "/d/g" ['n']
  have hmade := hthere (by decide +kernel) (by decide +kernel) (by decide +kernel)
  obtain ⟨-, hends⟩ := hwrite.of_ok hmade
  have hrefused : conduct.RefusesStep "/d/g" (conduct.pieces (Text.Utf8.encode ['n'])) :=
    ⟨2, by decide +kernel, by decide +kernel⟩
  obtain ⟨answer, after, hanswer, hiff, hheld⟩ := hends.succeeds fun _ _ h => h.2.1 hrefused
  obtain rfl : answer = false := by
    rw [Bool.eq_false_iff]
    exact fun htrue => (hiff.mp htrue).1 hrefused
  have hold : disk.held? "/d/g" = some [111] := by decide +kernel
  obtain ⟨g, hgraph⟩ : ∃ g, upToDate {} (atTop "/d/g") true none disk = .ok g disk :=
    exists_upToDate (by decide +kernel)
  obtain ⟨last, hlast⟩ := (hrun {} (atTop "/d/g") true none g rfl hgraph).of_ok hmade (by decide)
  exact ⟨conduct, disk, ⟨after, hanswer, hheld.trans hold⟩, g, last, hlast⟩

/-- A file in the place of the directory for the graph file is not answered with false.  The write fails, and with it
the run, although it has made its graph. -/
theorem loadOrBuild_fails_below_file : ∃ (disk : Disk) (g : Graph),
    (∀ text, Disk.write "/d/g" text disk = .error (.refused .alreadyThere "/d") disk) ∧
      upToDate {} (atTop "/d/g") true none disk = .ok g disk ∧
      loadOrBuild {} (atTop "/d/g") true none disk = .error (.disk (.refused .alreadyThere "/d")) disk := by
  let disk : Disk := { tree := .directory [("d", .file [] (.ofWholeSeconds 0))] }
  have hmade : DiskConduct.willing.makeDirectories
      (String.ofList (Path.parent (String.ofList (Path.tidy "/d/g".toList)).toList)) disk =
      .error (.refused .alreadyThere "/d") disk := by
    rfl
  have hwrite : ∀ text, DiskConduct.willing.write "/d/g" text disk = .error (.refused .alreadyThere "/d") disk :=
    fun text => DiskConduct.write_of_error hmade
  obtain ⟨g, hgraph⟩ : ∃ g, upToDate {} (atTop "/d/g") true none disk = .ok g disk :=
    exists_upToDate (by decide +kernel)
  refine ⟨disk, g, fun text => DiskConduct.write_willing "/d/g" text ▸ hwrite text, hgraph, ?_⟩
  rw [← loadOrBuildOn_willing]
  exact (loadOrBuildOn_of_upToDate _ hgraph).of_error (hwrite _)

end CommandLine
end ChangeImpact
